import Designate.Proof.MdnsAxfr
import Designate.Proof.MdnsScope

/-!
# A query and a transfer

A recordset is shown in two ways: by the RRset a query for it is answered with, and by the rows
a transfer of its zone carries for it. Both leave the deleted records out. A recordset with no
time to live of its own has that of the zone in both; one of a time to live of 0 has its own in
a transfer, and that of the zone in a query.

A query shows all data in one RRset, a transfer an RRset for each. Where an RRset holds one rdata
only, a query shows the last datum; and of an SOA a transfer has the first. Which types those are
is the library's to say.
-/

namespace Designate

namespace Mdns

variable {dns : Dnspython} {opts : Options} {db : Db} {zone : Zone} {row : RecordSetRow}

/-- One resource record. -/
structure Rr where
  name : String
  type : RRType
  ttl : Nat
  data : String
  deriving DecidableEq, Repr

def RRset.rrs (rrset : RRset) : List Rr :=
  rrset.rdata.map fun data => ⟨rrset.name, rrset.type, rrset.ttl, data⟩

/-- The resource records of an answer. -/
def Response.rrs (response : Response) : List Rr :=
  response.answer.flatMap RRset.rrs

/-- The resource records that the rows of a transfer carry for a recordset. -/
def carried (dns : Dnspython) (zone : Zone) (row : RecordSetRow) (records : List AxfrRow) : List Rr :=
  (records.filter fun record => record.recordsetId == row.id).flatMap fun record =>
    match record.rrset dns zone with
    | .ok rrset => rrset.rrs
    | .error _ => []

/-- A query is answered with what a transfer carries, and neither has a deleted record. -/
def Agrees (dns : Dnspython) (opts : Options) (db : Db) (zone : Zone) (row : RecordSetRow)
    (records : List AxfrRow) (query : Request) : Prop :=
  ∃ response, handleRecordQuery dns opts db query = .ok response ∧ response.rcode = .NOERROR ∧
    (∀ rr, rr ∈ response.rrs ↔ rr ∈ carried dns zone row records) ∧
    ∀ rr, rr ∈ response.rrs ∨ rr ∈ carried dns zone row records →
      ∃ record ∈ recordsOf db row, record.action ≠ .DELETE ∧
        dns.fromText row.type record.data = some rr.data

/--
Of a type an RRset holds one rdata of, the live records are all the same; and the SOA is the one a
transfer begins with, of which a query shows no more than the first record.
-/
def ShownWhole (dns : Dnspython) (db : Db) (zone : Zone) (row : RecordSetRow) : Prop :=
  if row.type = .SOA then
    (∀ record ∈ liveRecords db zone (· == .SOA), row.id ≤ record.recordsetId) ∧
      ∀ first, (liveData db row).head? = some first → ∀ text, dns.Keeps .SOA (liveData db row) text →
        dns.fromText .SOA text = dns.fromText .SOA first
  else dns.isSingleton row.type = true → ∀ a ∈ liveData db row, ∀ b ∈ liveData db row,
    dns.fromText row.type a = dns.fromText row.type b

/-- The time to live is not 0, unless that of the zone is. -/
def TtlKept (zone : Zone) (row : RecordSetRow) : Prop :=
  row.ttl = some 0 → zone.ttl = 0

/-! ## What a query shows -/

theorem ttlOr_eq_getD {ttl : Option Nat} {default : Nat} :
    ttlOr ttl default = ttl.getD default ↔ (ttl = some 0 → default = 0) := by
  match ttl with
  | none => simp [ttlOr]
  | some 0 => simp [ttlOr]
  | some (n + 1) => simp [ttlOr]

/-- The rdata of some texts. -/
def rdataOf (dns : Dnspython) (type : RRType) (shown : String → Prop) (r : String) : Prop :=
  ∃ text, shown text ∧ dns.fromText type text = some r

/-- A query shows what an RRset of the live data has. -/
theorem mem_queried (hdns : dns.Documented)
    (hreads : ∀ data ∈ liveData db row, (dns.fromText row.type data).isSome = true)
    {rrset : Option RRset} (h : convertToRrset dns zone row (recordsOf db row) = .ok rrset) {rr : Rr} :
    rr ∈ (⟨.NOERROR, rrset.toList⟩ : Response).rrs ↔
      ∃ r, rdataOf dns row.type (dns.Keeps row.type (liveData db row)) r ∧
        rr = ⟨row.name, row.type, ttlOr row.ttl zone.ttl, r⟩ := by
  -- all data parse, so the RRset is what dnspython keeps of them
  obtain ⟨rdata, hrdata, hmem⟩ := hdns.keeps row.type (liveData db row) hreads
  change (if (liveData db row).isEmpty then .ok none
    else (fromTextList dns row.name (ttlOr row.ttl zone.ttl) row.type (liveData db row)).map some) =
      Except.ok rrset at h
  unfold Response.rrs
  cases hlive : liveData db row with
  | nil =>
    rw [hlive] at h
    obtain rfl := Except.ok.inj h
    refine iff_of_false List.not_mem_nil ?_
    rintro ⟨r, ⟨text, hkeeps, -⟩, -⟩
    unfold Dnspython.Keeps at hkeeps
    split at hkeeps
    · exact absurd hkeeps (by simp)
    · exact absurd hkeeps List.not_mem_nil
  | cons data more =>
    rw [hlive] at h hrdata hmem
    unfold fromTextList at h
    rw [hrdata] at h
    obtain rfl := Except.ok.inj h
    unfold rdataOf
    simp only [← hmem]
    simp [RRset.rrs, eq_comm]

/-! ## What a transfer carries -/

/-- The records of a transfer, for a recordset that is in it with these rows. -/
theorem mem_carried (hdns : dns.Documented) {records : List AxfrRow} {datas : List String}
    (hreads : ∀ data ∈ datas, (dns.fromText row.type data).isSome = true)
    (hrows : (records.filter fun record => record.recordsetId == row.id) =
      datas.map fun data => ⟨row.id, row.type, row.ttl, row.name, data⟩) {rr : Rr} :
    rr ∈ carried dns zone row records ↔
      ∃ r, rdataOf dns row.type (· ∈ datas) r ∧
        rr = ⟨row.name, row.type, row.ttl.getD zone.ttl, r⟩ := by
  unfold carried rdataOf
  rw [hrows, List.flatMap_map, List.mem_flatMap]
  -- each datum has an RRset of its own, of one rdata
  have hone : ∀ data ∈ datas, ∀ rr : Rr,
      rr ∈ (match (⟨row.id, row.type, row.ttl, row.name, data⟩ : AxfrRow).rrset dns zone with
        | .ok rrset => rrset.rrs
        | .error _ => []) ↔
      ∃ r, dns.fromText row.type data = some r ∧
        rr = ⟨row.name, row.type, row.ttl.getD zone.ttl, r⟩ := by
    intro data hdata rr
    obtain ⟨rrset, hrrset⟩ := exists_rrset hdns ⟨row.id, row.type, row.ttl, row.name, data⟩
      (hreads data hdata) zone
    obtain ⟨r, hr, hmem⟩ := hrrset.rdata
    have hmade := hrrset.made
    unfold AxfrRow.rrset fromTextList at hmade ⊢
    split at hmade
    · obtain rfl := Except.ok.inj hmade
      simp only [RRset.rrs, List.mem_map, hmem, hr, Option.some.injEq, exists_eq_left',
        eq_comm]
    · cases hmade
  constructor
  · rintro ⟨data, hdata, hrr⟩
    obtain ⟨r, hr, rfl⟩ := (hone data hdata rr).mp hrr
    exact ⟨r, ⟨data, hdata, hr⟩, rfl⟩
  · rintro ⟨r, ⟨data, hdata, hr⟩, hrr⟩
    exact ⟨data, hdata, (hone data hdata rr).mpr ⟨r, hr, hrr⟩⟩

/-- The rows of a recordset in the join are its live data, in order, if its type is asked for. -/
theorem joinedRecords_filter (hids : (db.recordsets.map RecordSetRow.id).Nodup)
    (hrow : row ∈ db.recordsets) (hzone : row.zoneId = zone.id) (typed : String → Bool) :
    ((joinedRecords db zone.id typed).filter fun record => record.recordsetId == row.id) =
      if typed row.type.text then
        (liveData db row).map fun data => ⟨row.id, row.type, row.ttl, row.name, data⟩
      else [] := by
  unfold joinedRecords liveData recordsOf
  induction db.records with
  | nil => simp
  | cons record records ih =>
    rw [List.flatMap_cons, List.filter_append, ih]
    -- a record of the recordset is joined with it alone, and left out if it is being deleted
    by_cases hid : record.recordsetId = row.id
    · rw [List.filter_cons_of_pos (by simpa using hid)]
      by_cases hlive : record.action ≠ .DELETE
      · rw [List.filter_cons_of_pos (by simpa using hlive)]
        by_cases htype : typed row.type.text = true
        · rw [joined_record hids hrow hid.symm hlive hzone htype]
          simp [htype]
        · have hnone : (db.recordsets.filter fun r => r.id == record.recordsetId &&
              record.action != .DELETE && r.zoneId == zone.id && typed r.type.text) = [] := by
            rw [List.filter_eq_nil_iff]
            intro r hr h
            simp only [Bool.and_eq_true, beq_iff_eq] at h
            obtain rfl := List.inj_on_of_nodup_map hids hr hrow (h.1.1.1.trans hid)
            exact htype h.2
          rw [hnone]
          simp [htype]
      · rw [List.filter_cons_of_neg (by simpa using hlive)]
        have hnone : (db.recordsets.filter fun r => r.id == record.recordsetId &&
            record.action != .DELETE && r.zoneId == zone.id && typed r.type.text) = [] := by
          rw [List.filter_eq_nil_iff]
          intro r _ h
          simp only [Bool.and_eq_true, bne_iff_ne] at h
          exact hlive h.1.1.2
        rw [hnone]
        simp
    · rw [List.filter_cons_of_neg (by simpa using hid)]
      -- a record of another recordset is joined with none that has this identifier
      have hnone : (((db.recordsets.filter fun r => r.id == record.recordsetId &&
          record.action != .DELETE && r.zoneId == zone.id && typed r.type.text).map fun r =>
            (⟨r.id, r.type, r.ttl, r.name, record.data⟩ : AxfrRow)).filter fun record =>
              record.recordsetId == row.id) = [] := by
        rw [List.filter_eq_nil_iff]
        intro axfr hmem h
        obtain ⟨r, hr, rfl⟩ := List.mem_map.mp hmem
        have hr := (List.mem_filter.mp hr).2
        simp only [Bool.and_eq_true, beq_iff_eq] at hr h
        exact hid (hr.1.1.1.symm.trans h)
      rw [hnone, List.nil_append]

/-- So they are in what a transfer reads. -/
theorem findRecordsetsAxfr_filter (hids : (db.recordsets.map RecordSetRow.id).Nodup)
    (hrow : row ∈ db.recordsets) (hzone : row.zoneId = zone.id) (typed : String → Bool) :
    ((findRecordsetsAxfr db zone.id typed).filter fun record => record.recordsetId == row.id) =
      if typed row.type.text then
        (liveData db row).map fun data => ⟨row.id, row.type, row.ttl, row.name, data⟩
      else [] := by
  unfold findRecordsetsAxfr
  rw [Table.filter_mergeSort_key]
  exact joinedRecords_filter hids hrow hzone typed

/-- A transfer is made of what the two look-ups give. -/
theorem axfrRecords_ok {records : List AxfrRow} (h : axfrRecords opts db zone = .ok records) :
    ∃ soa more, findRecordsetsAxfr db zone.id (· == "SOA") = soa :: more ∧
      records = soa :: findRecordsetsAxfr db zone.id (· != "SOA") ++ [soa] := by
  unfold axfrRecords at h
  rw [clause_soa, clause_not_soa] at h
  simp only [bind, Except.bind] at h
  cases hsoas : findRecordsetsAxfr db zone.id (· == "SOA") with
  | nil => simp [hsoas] at h
  | cons soa more =>
    simp only [hsoas, Except.ok.injEq] at h
    exact ⟨soa, more, rfl, h.symm⟩

/-- A row is under the recordset of the record it carries. -/
theorem carries_recordsetIds {records : List RecordRow} {rows : List AxfrRow}
    (h : List.Forall₂ (Carries db zone) records rows) :
    rows.map AxfrRow.recordsetId = records.map RecordRow.recordsetId := by
  induction h with
  | nil => rfl
  | cons hcarries _ ih =>
    obtain ⟨recordset, -, hid, -, rfl⟩ := hcarries
    rw [List.map_cons, List.map_cons, ih, hid]

/-- The SOA is first among those of the zone. -/
theorem soa_first (hids : (db.recordsets.map RecordSetRow.id).Nodup) {soa : AxfrRow}
    {more : List AxfrRow} (hsoas : findRecordsetsAxfr db zone.id (· == "SOA") = soa :: more) :
    (∃ record ∈ liveRecords db zone (· == .SOA), record.recordsetId = soa.recordsetId) ∧
      ∀ record ∈ liveRecords db zone (· == .SOA), soa.recordsetId ≤ record.recordsetId := by
  have hordered := findRecordsetsAxfr_ordered db zone.id (· == "SOA")
  obtain ⟨sources, hperm, hcarries⟩ := findRecordsetsAxfr_carries hids zone (· == "SOA")
    (· == .SOA) text_eq_soa
  rw [hsoas] at hordered hcarries
  have hsources := (hperm.map RecordRow.recordsetId).mem_iff (a := soa.recordsetId)
  rw [← carries_recordsetIds hcarries, List.mem_map, List.mem_map] at hsources
  refine ⟨hsources.mp ⟨soa, List.mem_cons_self, rfl⟩, ?_⟩
  intro record hmem
  have hrow : record.recordsetId ∈ (soa :: more).map AxfrRow.recordsetId := by
    rw [carries_recordsetIds hcarries]
    exact List.mem_map_of_mem (hperm.mem_iff.mpr hmem)
  obtain ⟨axfr, haxfr, hid⟩ := List.mem_map.mp hrow
  rw [← hid]
  obtain rfl | haxfr := List.mem_cons.mp haxfr
  · exact Nat.le_refl _
  · exact List.rel_of_pairwise_cons hordered haxfr

/-- A row at both ends of a list is in a part of it at both ends, or not at all. -/
theorem filter_ends (p : AxfrRow → Bool) (soa : AxfrRow) (others : List AxfrRow) :
    (soa :: others ++ [soa]).filter p =
      if p soa then soa :: others.filter p ++ [soa] else others.filter p := by
  by_cases h : p soa = true <;> simp [h]

/-- What a transfer has of a recordset of another type than the SOA: all its live data. -/
theorem mem_carried_other (hdns : dns.Documented)
    (hreads : ∀ data ∈ liveData db row, (dns.fromText row.type data).isSome = true)
    (hids : (db.recordsets.map RecordSetRow.id).Nodup)
    (hrow : row ∈ db.recordsets) (hzone : row.zoneId = zone.id) {records : List AxfrRow}
    (hrecords : axfrRecords opts db zone = .ok records) (htype : row.type ≠ .SOA) {rr : Rr} :
    rr ∈ carried dns zone row records ↔ ∃ r, rdataOf dns row.type (· ∈ liveData db row) r ∧
      rr = ⟨row.name, row.type, row.ttl.getD zone.ttl, r⟩ := by
  obtain ⟨soa, more, hsoas, rfl⟩ := axfrRecords_ok hrecords
  have hfilter := findRecordsetsAxfr_filter hids hrow hzone (· == "SOA")
  have hothers := findRecordsetsAxfr_filter hids hrow hzone (· != "SOA")
  rw [if_neg (by simpa [text_eq_soa] using htype), hsoas, List.filter_eq_nil_iff] at hfilter
  rw [if_pos (by simpa [bne, text_eq_soa] using htype)] at hothers
  -- the row at both ends is of another recordset
  have hsoa := hfilter soa List.mem_cons_self
  refine mem_carried hdns hreads ?_
  rw [filter_ends, if_neg hsoa, hothers]

/-- What it has of the SOA: its first datum, of the first recordset. -/
theorem mem_carried_soa (hdns : dns.Documented)
    (hreads : ∀ data ∈ liveData db row, (dns.fromText row.type data).isSome = true)
    (hids : (db.recordsets.map RecordSetRow.id).Nodup)
    (hrow : row ∈ db.recordsets) (hzone : row.zoneId = zone.id) {records : List AxfrRow}
    (hrecords : axfrRecords opts db zone = .ok records) (htype : row.type = .SOA) {rr : Rr} :
    rr ∈ carried dns zone row records ↔ ∃ r, rdataOf dns row.type (fun data =>
      (liveData db row).head? = some data ∧
        ∀ record ∈ liveRecords db zone (· == .SOA), row.id ≤ record.recordsetId) r ∧
      rr = ⟨row.name, row.type, row.ttl.getD zone.ttl, r⟩ := by
  obtain ⟨soa, more, hsoas, rfl⟩ := axfrRecords_ok hrecords
  have hfilter := findRecordsetsAxfr_filter hids hrow hzone (· == "SOA")
  have hothers := findRecordsetsAxfr_filter hids hrow hzone (· != "SOA")
  rw [if_pos (by simp [text_eq_soa, htype]), hsoas] at hfilter
  rw [if_neg (by simp [bne, text_eq_soa, htype])] at hothers
  obtain ⟨⟨source, hsource, hid⟩, hleast⟩ := soa_first hids hsoas
  by_cases hfirst : soa.recordsetId = row.id
  · rw [List.filter_cons_of_pos (by simpa using hfirst)] at hfilter
    obtain ⟨data, datas, hlive, hsoa, -⟩ := List.map_eq_cons_iff.mp hfilter.symm
    rw [hfirst] at hleast
    have hrows : ((soa :: findRecordsetsAxfr db zone.id (· != "SOA") ++ [soa]).filter
        fun record => record.recordsetId == row.id) =
        [data, data].map fun data => ⟨row.id, row.type, row.ttl, row.name, data⟩ := by
      rw [filter_ends, if_pos (by simpa using hfirst), hothers, ← hsoa]
      rfl
    have htwice : ∀ d ∈ [data, data], d = data := by simp
    have hread : ∀ d ∈ [data, data], (dns.fromText row.type d).isSome = true := by
      intro d hd
      rw [htwice d hd]
      exact hreads data (hlive ▸ List.mem_cons_self)
    rw [mem_carried hdns hread hrows, hlive]
    constructor
    · intro ⟨r, ⟨d, hd, hr⟩, hrr⟩
      obtain rfl := htwice d hd
      exact ⟨r, ⟨d, ⟨rfl, hleast⟩, hr⟩, hrr⟩
    · intro ⟨r, ⟨d, ⟨hd, _⟩, hr⟩, hrr⟩
      exact ⟨r, ⟨d, by simpa [eq_comm] using hd, hr⟩, hrr⟩
  · have hrows : ((soa :: findRecordsetsAxfr db zone.id (· != "SOA") ++ [soa]).filter
        fun record => record.recordsetId == row.id) =
        ([] : List String).map fun data => ⟨row.id, row.type, row.ttl, row.name, data⟩ := by
      rw [filter_ends, if_neg (by simpa using hfirst), hothers]
      rfl
    rw [mem_carried hdns (fun _ h => absurd h List.not_mem_nil) hrows]
    constructor
    · intro ⟨_, ⟨data, hmem, _⟩, _⟩
      exact absurd hmem List.not_mem_nil
    · intro ⟨_, ⟨data, ⟨hhead, hminimal⟩, _⟩, _⟩
      -- the recordset has a row among those of the SOA, which none is before
      obtain ⟨datas, hlive⟩ := List.head?_eq_some_iff.mp hhead
      have hmem : (⟨row.id, row.type, row.ttl, row.name, data⟩ : AxfrRow) ∈
          (soa :: more).filter fun record => record.recordsetId == row.id := by
        rw [hfilter, hlive]
        exact List.mem_cons_self
      have hle : soa.recordsetId ≤ row.id := by
        have hordered := findRecordsetsAxfr_ordered db zone.id (· == "SOA")
        rw [hsoas] at hordered
        obtain hsoa | hmore := List.mem_cons.mp (List.mem_filter.mp hmem).1
        · exact Nat.le_of_eq (congrArg AxfrRow.recordsetId hsoa).symm
        · exact List.rel_of_pairwise_cons hordered hmore
      have hge := hminimal source hsource
      omega

/-! ## When they agree -/

/-- Two sets of records of one name and type are the same as to time to live and data. -/
theorem same_records_iff {name : String} {type : RRType} {ttl ttl' : Nat}
    {A B : String → Prop} :
    (∀ rr : Rr, (∃ data, A data ∧ rr = ⟨name, type, ttl, data⟩) ↔
      ∃ data, B data ∧ rr = ⟨name, type, ttl', data⟩) ↔
      ((∀ data, ¬ A data) ∧ ∀ data, ¬ B data) ∨ (ttl = ttl' ∧ ∀ data, A data ↔ B data) := by
  constructor
  · intro h
    -- one record is enough to compare the times to live
    by_cases hA : ∃ data, A data
    · right
      obtain ⟨data, hdata⟩ := hA
      obtain ⟨data', -, heq⟩ := (h _).mp ⟨data, hdata, rfl⟩
      have httl : ttl = ttl' := congrArg Rr.ttl heq
      subst httl
      refine ⟨rfl, fun d => ?_⟩
      constructor
      · intro hd
        obtain ⟨d', hd', heq⟩ := (h _).mp ⟨d, hd, rfl⟩
        obtain rfl : d = d' := congrArg Rr.data heq
        exact hd'
      · intro hd
        obtain ⟨d', hd', heq⟩ := (h _).mpr ⟨d, hd, rfl⟩
        obtain rfl : d = d' := congrArg Rr.data heq
        exact hd'
    · left
      refine ⟨fun data hdata => hA ⟨data, hdata⟩, fun data hdata => ?_⟩
      obtain ⟨data', hdata', -⟩ := (h _).mpr ⟨data, hdata, rfl⟩
      exact hA ⟨data', hdata'⟩
  · intro h rr
    obtain ⟨hA, hB⟩ | ⟨rfl, hAB⟩ := h
    · simp [hA, hB]
    · simp [hAB]

/-- What is kept of the live data is live. -/
theorem mem_of_keeps {type : RRType} {texts : List String} {text : String}
    (h : dns.Keeps type texts text) : text ∈ texts := by
  unfold Dnspython.Keeps at h
  split at h
  · exact List.mem_of_getLast? h
  · exact h

theorem exists_keeps (dns : Dnspython) (type : RRType) {texts : List String} (hne : texts ≠ []) :
    ∃ text, dns.Keeps type texts text := by
  unfold Dnspython.Keeps
  split
  · exact ⟨_, List.getLast?_eq_some_getLast hne⟩
  · exact ⟨_, List.head_mem hne⟩

theorem mem_liveData {data : String} (h : data ∈ liveData db row) :
    ∃ record ∈ recordsOf db row, record.action ≠ .DELETE ∧ record.data = data := by
  obtain ⟨record, hmem, rfl⟩ := List.mem_map.mp h
  have hrecord := List.mem_filter.mp hmem
  exact ⟨record, hrecord.1, by simpa using hrecord.2, rfl⟩

/-- A live recordset shows something. -/
theorem shows_nothing_iff
    (hreads : ∀ data ∈ liveData db row, (dns.fromText row.type data).isSome = true) :
    (∀ r, ¬ rdataOf dns row.type (dns.Keeps row.type (liveData db row)) r) ↔
      liveData db row = [] := by
  constructor
  · intro h
    by_contra hne
    obtain ⟨text, hkeeps⟩ := exists_keeps dns row.type hne
    obtain ⟨r, hr⟩ := Option.isSome_iff_exists.mp (hreads text (mem_of_keeps hkeeps))
    exact h r ⟨text, hkeeps, hr⟩
  · rintro h r ⟨text, hkeeps, -⟩
    have hlive := mem_of_keeps hkeeps
    rw [h] at hlive
    exact absurd hlive List.not_mem_nil

/-- A zone that is found is live, and meets what the criterion says. -/
theorem findZone_mem {criterion : ZoneCriterion} (h : findZone opts db criterion = .ok zone) :
    zone ∈ db.zones ∧ zone.deleted = false ∧ criterion.id.all (zone.id == ·) = true ∧
      criterion.poolId.all (zone.poolId == ·) = true := by
  unfold findZone at h
  cases hnamed : criterion.named opts with
  | error e => simp [hnamed, bind, Except.bind] at h
  | ok named =>
    simp only [hnamed, bind, Except.bind, Table.one_eq_ok] at h
    have hmem : zone ∈ [zone] := List.mem_singleton.mpr rfl
    rw [← h, List.mem_filter] at hmem
    obtain ⟨hz, hp⟩ := hmem
    simp only [Bool.and_eq_true, Bool.not_eq_true'] at hp
    exact ⟨hz, hp.1.1.1, hp.1.2, hp.2⟩

/-- A zone that a request may transfer is a live one in its scope, and the request was let in. -/
theorem axfrZone_ok {request : Request} (h : axfrZone opts db request = .ok zone) :
    zone ∈ db.zones ∧ zone.deleted = false ∧ InScope opts request zone ∧
      (request.tsigkey = none → opts.queryEnforceTsig = false) := by
  unfold axfrZone zoneCriterionFromRequest at h
  unfold InScope
  -- without a key TSIG must not be enforced, and with one its scope says which zone
  cases htsig : request.tsigkey with
  | none =>
    rw [htsig] at h
    by_cases henforce : opts.queryEnforceTsig = true
    · simp [henforce, bind, Except.bind] at h
    · simp only [henforce, bind, Except.bind] at h
      obtain ⟨hz, hd, -, hpool⟩ := findZone_mem h
      exact ⟨hz, hd, by simpa using hpool, fun _ => by simpa using henforce⟩
  | some key =>
    rw [htsig] at h
    cases hscope : key.scope with
    | POOL =>
      simp only [hscope, bind, Except.bind] at h
      obtain ⟨hz, hd, -, hpool⟩ := findZone_mem h
      exact ⟨hz, hd, by simpa [hscope] using hpool, by simp⟩
    | ZONE =>
      simp only [hscope, bind, Except.bind] at h
      obtain ⟨hz, hd, hid, -⟩ := findZone_mem h
      exact ⟨hz, hd, by simpa [hscope] using hid, by simp⟩
    | other => simp [hscope, bind, Except.bind] at h

/-- A query and a transfer show the same rdata of an SOA exactly if it is shown whole. -/
theorem soa_rdata_iff
    (hreads : ∀ data ∈ liveData db row, (dns.fromText row.type data).isSome = true)
    (hsoa : row.type = .SOA) (hne : liveData db row ≠ []) :
    (∀ r, rdataOf dns row.type (dns.Keeps row.type (liveData db row)) r ↔
      rdataOf dns row.type (fun data => (liveData db row).head? = some data ∧
        ∀ record ∈ liveRecords db zone (· == .SOA), row.id ≤ record.recordsetId) r) ↔
      ShownWhole dns db zone row := by
  unfold ShownWhole
  rw [if_pos hsoa]
  rw [hsoa] at hreads ⊢
  have hhead := List.head?_eq_some_head hne
  -- dnspython keeps one text of an SOA, and the transfer shows the first
  obtain ⟨kept, hkept⟩ := exists_keeps dns .SOA hne
  obtain ⟨r, hr⟩ := Option.isSome_iff_exists.mp (hreads kept (mem_of_keeps hkept))
  constructor
  · intro h
    obtain ⟨-, ⟨-, hleast⟩, -⟩ := (h r).mp ⟨kept, hkept, hr⟩
    refine ⟨hleast, fun first hfirst text htext => ?_⟩
    obtain ⟨r', hr'⟩ := Option.isSome_iff_exists.mp (hreads text (mem_of_keeps htext))
    obtain ⟨first', ⟨hfirst', -⟩, hread⟩ := (h r').mp ⟨text, htext, hr'⟩
    obtain rfl := Option.some.inj (hfirst.symm.trans hfirst')
    rw [hr', hread]
  · rintro ⟨hleast, hsame⟩ r'
    constructor
    · rintro ⟨text, htext, hr'⟩
      exact ⟨_, ⟨hhead, hleast⟩, (hsame _ hhead text htext).symm.trans hr'⟩
    · rintro ⟨first, ⟨hfirst, -⟩, hr'⟩
      exact ⟨kept, hkept, (hsame first hfirst kept hkept).trans hr'⟩

/-- So they do of any other recordset. -/
theorem other_rdata_iff
    (hreads : ∀ data ∈ liveData db row, (dns.fromText row.type data).isSome = true)
    (hsoa : row.type ≠ .SOA) (hne : liveData db row ≠ []) :
    (∀ r, rdataOf dns row.type (dns.Keeps row.type (liveData db row)) r ↔
      rdataOf dns row.type (· ∈ liveData db row) r) ↔ ShownWhole dns db zone row := by
  unfold ShownWhole
  rw [if_neg hsoa]
  obtain ⟨kept, hkept⟩ := exists_keeps dns row.type hne
  constructor
  · intro h hsingleton
    -- the only one that is kept is what any of them is
    have hlast : ∀ a ∈ liveData db row, dns.fromText row.type a = dns.fromText row.type kept := by
      intro a ha
      obtain ⟨r, hr⟩ := Option.isSome_iff_exists.mp (hreads a ha)
      obtain ⟨text, htext, hread⟩ := (h r).mpr ⟨a, ha, hr⟩
      unfold Dnspython.Keeps at htext hkept
      rw [if_pos hsingleton] at htext hkept
      obtain rfl := Option.some.inj (hkept.symm.trans htext)
      rw [hr, hread]
    intro a ha b hb
    rw [hlast a ha, hlast b hb]
  · intro h r
    constructor
    · rintro ⟨text, htext, hr⟩
      exact ⟨text, mem_of_keeps htext, hr⟩
    · rintro ⟨text, htext, hr⟩
      by_cases hsingleton : dns.isSingleton row.type = true
      · exact ⟨kept, hkept, (h hsingleton kept (mem_of_keeps hkept) text htext).trans hr⟩
      · refine ⟨text, ?_, hr⟩
        unfold Dnspython.Keeps
        rwa [if_neg hsingleton]

/-- The records of a query and of a transfer are the same exactly for these recordsets. -/
theorem rrs_agree_iff (hdns : dns.Documented)
    (hreads : ∀ data ∈ liveData db row, (dns.fromText row.type data).isSome = true)
    (hids : (db.recordsets.map RecordSetRow.id).Nodup)
    (hrow : row ∈ db.recordsets) (hzone : row.zoneId = zone.id) {records : List AxfrRow}
    (hrecords : axfrRecords opts db zone = .ok records) :
    (∀ rr, (∃ r, rdataOf dns row.type (dns.Keeps row.type (liveData db row)) r ∧
        rr = ⟨row.name, row.type, ttlOr row.ttl zone.ttl, r⟩) ↔
      rr ∈ carried dns zone row records) ↔
      (liveData db row = [] ∨ TtlKept zone row ∧ ShownWhole dns db zone row) := by
  -- an SOA comes first and last in a transfer, so it is found in another way than the rest
  by_cases hsoa : row.type = .SOA
  · simp only [mem_carried_soa hdns hreads hids hrow hzone hrecords hsoa]
    rw [same_records_iff, shows_nothing_iff hreads, ttlOr_eq_getD]
    by_cases hlive : liveData db row = []
    · refine iff_of_true (.inl ⟨hlive, ?_⟩) (.inl hlive)
      rintro r ⟨data, ⟨hhead, -⟩, -⟩
      rw [hlive] at hhead
      exact absurd hhead (by simp)
    · rw [soa_rdata_iff hreads hsoa hlive]
      simp only [hlive, false_and, false_or]
      rfl
  · simp only [mem_carried_other hdns hreads hids hrow hzone hrecords hsoa]
    rw [same_records_iff, shows_nothing_iff hreads, ttlOr_eq_getD]
    by_cases hlive : liveData db row = []
    · refine iff_of_true (.inl ⟨hlive, ?_⟩) (.inl hlive)
      rintro r ⟨data, hdata, -⟩
      rw [hlive] at hdata
      exact absurd hdata List.not_mem_nil
    · rw [other_rdata_iff hreads hsoa hlive]
      simp only [hlive, false_and, false_or]
      rfl

/--
The query for a recordset of a zone that is transferred is answered, and with what the transfer
carries for it, exactly when the recordset has no live record, or has a time to live that is
not 0 (or the zone has 0 as well) and is shown whole.
-/
theorem query_agrees_iff (query axfr : Request) (hdns : dns.Documented)
    (hreads : ∀ data ∈ liveData db row, (dns.fromText row.type data).isSome = true)
    (hzones : (db.zones.map Zone.id).Nodup)
    (hids : (db.recordsets.map RecordSetRow.id).Nodup)
    (hname : query.name = row.name) (htype : query.type = row.type.text)
    (hkey : query.tsigkey = axfr.tsigkey) (haxfr : axfrZone opts db axfr = .ok zone)
    {records : List AxfrRow} (hrecords : axfrRecords opts db zone = .ok records)
    (hzone : row.zoneId = zone.id) (hfound : findRecordset opts db query.name query.type = .ok row) :
    Agrees dns opts db zone row records query ↔
      (liveData db row = [] ∨ TtlKept zone row ∧ ShownWhole dns db zone row) := by
  -- the query finds this recordset and no other, in the zone that is transferred
  have honly := (findRecordset_iff hzones hids).mp hfound
  obtain ⟨hz, hlive, hscope, hlet⟩ := axfrZone_ok haxfr
  unfold InScope at hscope
  rw [← hkey] at hscope hlet
  have hrow := honly.1.1
  obtain ⟨-, rrset, hrrset, hanswer⟩ := answeredFrom_of_only hdns hzones hids hreads
    ⟨hrow, hz, hlive, hzone, hname.symm, htype.symm, hscope⟩ honly hlet
  rw [← rrs_agree_iff hdns hreads hids hrow hzone hrecords]
  constructor
  · intro ⟨response, hresponse, _, hsame, _⟩ rr
    obtain rfl := Except.ok.inj (hanswer.symm.trans hresponse)
    rw [← hsame, mem_queried hdns hreads hrrset]
  · intro h
    refine ⟨_, hanswer, rfl, fun rr => ?_, fun rr hrr => ?_⟩
    · rw [← h, mem_queried hdns hreads hrrset]
    · -- what is shown by either is of a live record
      have hshown : ∃ r, rdataOf dns row.type (dns.Keeps row.type (liveData db row)) r ∧
          rr = ⟨row.name, row.type, ttlOr row.ttl zone.ttl, r⟩ := by
        rcases hrr with hrr | hrr
        · exact (mem_queried hdns hreads hrrset).mp hrr
        · exact (h rr).mpr hrr
      obtain ⟨r, ⟨text, hkeeps, hr⟩, rfl⟩ := hshown
      obtain ⟨record, hmem, haction, rfl⟩ := mem_liveData (mem_of_keeps hkeeps)
      exact ⟨record, hmem, haction, hr⟩

/-! ## A time to live of 0 -/

def addressQuery : Request :=
  { name := "www.example.com.", type := "A" }

theorem query_agrees_iff_www :
    Agrees sampleDns { defaultPoolId := 0 } (axfrDb none) Sample.zone (addressRow none)
        [soaAxfr, ⟨3, .A, none, "www.example.com.", "192.0.2.1"⟩, soaAxfr] addressQuery ↔
      (liveData (axfrDb none) (addressRow none) = [] ∨
        TtlKept Sample.zone (addressRow none) ∧
          ShownWhole sampleDns (axfrDb none) Sample.zone (addressRow none)) :=
  query_agrees_iff addressQuery axfrRequest sampleDns_documented (fun _ _ => rfl) (by decide)
    (by decide) rfl rfl rfl (by decide) (axfrDb_records none) rfl (by decide)

/-- A time to live of 0 is that of the zone in a query, and 0 in a transfer. -/
theorem zero_ttl_disagrees :
    axfrRecords { defaultPoolId := 0 } (axfrDb (some 0)) Sample.zone =
        .ok [soaAxfr, ⟨3, .A, some 0, "www.example.com.", "192.0.2.1"⟩, soaAxfr] ∧
      ¬ Agrees sampleDns { defaultPoolId := 0 } (axfrDb (some 0)) Sample.zone
        (addressRow (some 0))
        [soaAxfr, ⟨3, .A, some 0, "www.example.com.", "192.0.2.1"⟩, soaAxfr] addressQuery := by
  refine ⟨axfrDb_records (some 0), ?_⟩
  intro ⟨response, hresponse, _, hsame, _⟩
  have hanswer : handleRecordQuery sampleDns { defaultPoolId := 0 } (axfrDb (some 0)) addressQuery =
      .ok ⟨.NOERROR, [⟨"www.example.com.", .A, 3600, ["192.0.2.1"]⟩]⟩ := by decide
  obtain rfl := Except.ok.inj (hanswer.symm.trans hresponse)
  exact absurd ((hsame ⟨"www.example.com.", .A, 3600, "192.0.2.1"⟩).mp (by decide)) (by decide)

end Mdns

end Designate
