import Designate.Proof.MdnsScope
import Designate.Packing
import Designate.Sample

/-!
# The stream of a transfer

The loop of a transfer packs the rows in order. It goes on only past a row that was taken, and
a packet that takes no more is closed and a fresh one begun, so every row takes one turn or
two. What the packets carry is the SOA, the other live records of the zone in the order of the
storage, and the SOA again; only where a row is refused by a packet it would be the first of is
the transfer cut short, with an error in its place.
-/

namespace Designate

namespace Mdns

open Packing

variable {σ : Type} {dns : Dnspython} {opts : Options} {db : Db} {request : Request} {zone : Zone}

/-! ## The rows -/

/-- The live records of the zone's recordsets of these types. -/
def liveRecords (db : Db) (zone : Zone) (typed : RRType → Bool) : List RecordRow :=
  db.records.filter fun record => record.action != .DELETE && db.recordsets.any fun row =>
    row.id == record.recordsetId && row.zoneId == zone.id && typed row.type

/-- The row is of the record, and of its recordset in the zone. -/
def Carries (db : Db) (zone : Zone) (record : RecordRow) (row : AxfrRow) : Prop :=
  ∃ recordset ∈ db.recordsets, recordset.id = record.recordsetId ∧ recordset.zoneId = zone.id ∧
    row = ⟨recordset.id, recordset.type, recordset.ttl, recordset.name, record.data⟩

/--
An SOA, each other live record of the zone once, in the order of the storage, and the SOA again.
-/
structure WholeZone (db : Db) (zone : Zone) (soa : AxfrRow) (others : List AxfrRow) : Prop where
  soa_carries : ∃ record ∈ liveRecords db zone (· == .SOA), Carries db zone record soa
  others_carry : ∃ records, records.Perm (liveRecords db zone (· != .SOA)) ∧
    List.Forall₂ (Carries db zone) records others
  ordered : others.Pairwise fun a b => a.recordsetId ≤ b.recordsetId

/-- The RRset is the one of the row, and has the rdata of its datum. -/
structure AxfrRow.Shows (dns : Dnspython) (zone : Zone) (row : AxfrRow) (rrset : RRset) : Prop where
  made : row.rrset dns zone = .ok rrset
  rdata : ∃ r, dns.fromText row.type row.data = some r ∧ ∀ x, x ∈ rrset.rdata ↔ x = r

theorem text_eq_soa (type : RRType) : (type.text == "SOA") = (type == .SOA) := by
  cases type <;> rfl

theorem clause_soa (opts : Options) : clause opts "SOA" = .ok fun column => column == "SOA" :=
  rfl

theorem clause_not_soa (opts : Options) :
    clause opts "!SOA" = .ok fun column => column != "SOA" :=
  rfl

/-- The recordset a live record of the zone is joined with, if its type is one of these. -/
theorem joined_record (hids : (db.recordsets.map RecordSetRow.id).Nodup) {typed : String → Bool}
    {record : RecordRow} {row : RecordSetRow} (hrow : row ∈ db.recordsets)
    (hid : row.id = record.recordsetId) (haction : record.action ≠ .DELETE)
    (hzone : row.zoneId = zone.id) (htype : typed row.type.text = true) :
    (db.recordsets.filter fun row => row.id == record.recordsetId && record.action != .DELETE &&
      row.zoneId == zone.id && typed row.type.text) = [row] := by
  have hsplit : (db.recordsets.filter fun row => row.id == record.recordsetId &&
      record.action != .DELETE && row.zoneId == zone.id && typed row.type.text) =
      (db.recordsets.filter fun r => decide (r.id = row.id)).filter fun row =>
        record.action != .DELETE && row.zoneId == zone.id && typed row.type.text := by
    rw [List.filter_filter]
    refine List.filter_congr fun r _ => ?_
    rw [hid, ← beq_eq_decide]
    ac_rfl
  rw [hsplit, Table.filter_key hids hrow]
  simp [haction, hzone, htype]

/-- The join gives each live record of the zone once, under its recordset. -/
theorem joinedRecords_carries (hids : (db.recordsets.map RecordSetRow.id).Nodup)
    {typed : String → Bool} {types : RRType → Bool}
    (htyped : ∀ type, typed type.text = types type) :
    List.Forall₂ (Carries db zone) (liveRecords db zone types)
      (joinedRecords db zone.id typed) := by
  unfold liveRecords joinedRecords
  induction db.records with
  | nil => exact .nil
  | cons record records ih =>
    rw [List.flatMap_cons]
    -- a recordset has its identifier to itself, so the record joins with one row or none
    by_cases hrow : ∃ row ∈ db.recordsets, row.id = record.recordsetId ∧
        record.action ≠ .DELETE ∧ row.zoneId = zone.id ∧ types row.type = true
    · obtain ⟨row, hmem, hid, haction, hzone, htype⟩ := hrow
      rw [joined_record hids hmem hid haction hzone ((htyped row.type).trans htype),
        List.filter_cons_of_pos]
      · exact .cons ⟨row, hmem, hid, hzone, rfl⟩ ih
      · simp only [bne_iff_ne, ne_eq, Bool.and_eq_true, List.any_eq_true, beq_iff_eq]
        exact ⟨haction, row, hmem, ⟨hid, hzone⟩, htype⟩
    · have hnone : (db.recordsets.filter fun row => row.id == record.recordsetId &&
          record.action != .DELETE && row.zoneId == zone.id && typed row.type.text) = [] := by
        rw [List.filter_eq_nil_iff]
        intro row hmem h
        simp only [Bool.and_eq_true, beq_iff_eq, bne_iff_ne, htyped] at h
        exact hrow ⟨row, hmem, h.1.1.1, h.1.1.2, h.1.2, h.2⟩
      rw [hnone, List.filter_cons_of_neg]
      · exact ih
      · simp only [bne_iff_ne, ne_eq, Bool.and_eq_true, List.any_eq_true, beq_iff_eq]
        intro ⟨haction, row, hmem, ⟨hid, hzone⟩, htype⟩
        exact hrow ⟨row, hmem, hid, haction, hzone, htype⟩

/-- Sorted by their recordsets, the rows are of the same records. -/
theorem findRecordsetsAxfr_carries (hids : (db.recordsets.map RecordSetRow.id).Nodup)
    (zone : Zone) (typed : String → Bool) (types : RRType → Bool)
    (htyped : ∀ type, typed type.text = types type) :
    ∃ records, records.Perm (liveRecords db zone types) ∧
      List.Forall₂ (Carries db zone) records (findRecordsetsAxfr db zone.id typed) := by
  have hsort := List.mergeSort_perm (joinedRecords db zone.id typed)
    fun a b => decide (a.recordsetId ≤ b.recordsetId)
  obtain ⟨records, hcarries, hperm⟩ :=
    List.perm_comp_forall₂ hsort (joinedRecords_carries hids htyped).flip
  exact ⟨records, hperm, hcarries.flip⟩

theorem findRecordsetsAxfr_ordered (db : Db) (zoneId : Nat) (typed : String → Bool) :
    (findRecordsetsAxfr db zoneId typed).Pairwise fun a b => a.recordsetId ≤ b.recordsetId := by
  have hsorted : (findRecordsetsAxfr db zoneId typed).Pairwise fun a b =>
      decide (a.recordsetId ≤ b.recordsetId) = true := by
    refine List.pairwise_mergeSort ?_ ?_ _
    · intro a b c hab hbc
      simp only [decide_eq_true_eq] at *
      omega
    · intro a b
      simp only [Bool.or_eq_true, decide_eq_true_eq]
      omega
  exact hsorted.imp fun hab => by simpa using hab

variable (opts) in
/-- With an SOA, the rows of a transfer are those of the whole zone. -/
theorem axfrRecords_whole (hids : (db.recordsets.map RecordSetRow.id).Nodup)
    (hsoa : liveRecords db zone (· == .SOA) ≠ []) :
    ∃ soa others, axfrRecords opts db zone = .ok (soa :: others ++ [soa]) ∧
      WholeZone db zone soa others := by
  obtain ⟨soas, hperm, hcarries⟩ := findRecordsetsAxfr_carries hids zone (· == "SOA")
    (· == .SOA) text_eq_soa
  obtain ⟨others, hothers⟩ := findRecordsetsAxfr_carries hids zone (· != "SOA") (· != .SOA)
    fun type => congrArg not (text_eq_soa type)
  unfold axfrRecords
  rw [clause_soa, clause_not_soa]
  simp only [bind, Except.bind]
  cases hrows : findRecordsetsAxfr db zone.id (· == "SOA") with
  | nil =>
    rw [hrows] at hcarries
    cases hcarries
    exact absurd hperm.symm.eq_nil hsoa
  | cons soa more =>
    rw [hrows] at hcarries
    refine ⟨soa, _, rfl, ?_, ⟨others, hothers⟩, findRecordsetsAxfr_ordered _ _ _⟩
    cases hcarries with
    | cons hfirst _ => exact ⟨_, hperm.mem_iff.mp List.mem_cons_self, hfirst⟩

/-! ## Their RRsets -/

/-- A row whose datum the library can read has an RRset. -/
theorem exists_rrset (hdns : dns.Documented) (row : AxfrRow)
    (hread : (dns.fromText row.type row.data).isSome = true) (zone : Zone) :
    ∃ rrset, row.Shows dns zone rrset := by
  obtain ⟨rdata, hrdata, hmem⟩ := hdns.keeps row.type [row.data] (by simpa using hread)
  obtain ⟨r, hr⟩ := Option.isSome_iff_exists.mp hread
  have hone : ∀ text, dns.Keeps row.type [row.data] text ↔ text = row.data := by
    intro text
    unfold Dnspython.Keeps
    split
    · simp [eq_comm]
    · exact List.mem_singleton
  refine ⟨⟨row.name, row.type, row.ttl.getD zone.ttl, rdata⟩, ?_, r, hr, fun x => ?_⟩
  · unfold AxfrRow.rrset fromTextList
    rw [hrdata]
  · rw [hmem]
    simp only [hone, exists_eq_left, hr, Option.some.injEq, eq_comm]

theorem exists_rrsets (hdns : dns.Documented) (zone : Zone) {rows : List AxfrRow}
    (hread : ∀ row ∈ rows, (dns.fromText row.type row.data).isSome = true) :
    ∃ answers, List.Forall₂ (AxfrRow.Shows dns zone) rows answers := by
  induction rows with
  | nil => exact ⟨[], .nil⟩
  | cons row rows ih =>
    obtain ⟨rrset, hrrset⟩ := exists_rrset hdns row (hread row List.mem_cons_self) zone
    obtain ⟨answers, hanswers⟩ := ih fun row hrow => hread row (List.mem_cons_of_mem _ hrow)
    exact ⟨rrset :: answers, .cons hrrset hanswers⟩

theorem AxfrRow.Shows.ne_nil {row : AxfrRow} {rrset : RRset} (h : row.Shows dns zone rrset) :
    rrset.rdata ≠ [] := by
  obtain ⟨r, -, hmem⟩ := h.rdata
  exact List.ne_nil_of_mem ((hmem r).mpr rfl)

theorem exists_carried {records : List RecordRow} {rows : List AxfrRow}
    (h : List.Forall₂ (Carries db zone) records rows) {row : AxfrRow} (hrow : row ∈ rows) :
    ∃ record ∈ records, Carries db zone record row := by
  induction h with
  | nil => exact absurd hrow List.not_mem_nil
  | cons hcarries _ ih =>
    rcases List.mem_cons.mp hrow with rfl | hrow
    · exact ⟨_, List.mem_cons_self, hcarries⟩
    · obtain ⟨record, hmem, hcarries⟩ := ih hrow
      exact ⟨record, List.mem_cons_of_mem _ hmem, hcarries⟩

/-- What carries a live record is read if the record is. -/
theorem Carries.reads (hreads : dns.Reads db) {types : RRType → Bool} {record : RecordRow}
    {row : AxfrRow} (hlive : record ∈ liveRecords db zone types) (h : Carries db zone record row) :
    (dns.fromText row.type row.data).isSome = true := by
  obtain ⟨recordset, hrecordset, hid, -, rfl⟩ := h
  refine hreads recordset hrecordset record.data (List.mem_map_of_mem (List.mem_filter.mpr ?_))
  obtain ⟨hmem, haction⟩ := List.mem_filter.mp hlive
  rw [Bool.and_eq_true] at haction
  exact ⟨List.mem_filter.mpr ⟨hmem, by simp [hid]⟩, haction.1⟩

/-- The library reads the rows of a transfer. -/
theorem WholeZone.reads (hreads : dns.Reads db) {soa : AxfrRow} {others : List AxfrRow}
    (h : WholeZone db zone soa others) :
    ∀ row ∈ soa :: others ++ [soa], (dns.fromText row.type row.data).isSome = true := by
  obtain ⟨record, hlive, hcarries⟩ := h.soa_carries
  obtain ⟨records, hperm, hothers⟩ := h.others_carry
  have hsoa := hcarries.reads hreads hlive
  have hrest : ∀ row ∈ others, (dns.fromText row.type row.data).isSome = true := by
    intro row hrow
    obtain ⟨record, hmem, hcarries⟩ := exists_carried hothers hrow
    exact hcarries.reads hreads (hperm.mem_iff.mp hmem)
  intro row hrow
  rcases List.mem_append.mp hrow with hrow | hrow
  · rcases List.mem_cons.mp hrow with rfl | hrow
    · exact hsoa
    · exact hrest row hrow
  · rw [List.mem_singleton.mp hrow]
    exact hsoa

/-! ## The loop -/

variable {R : Renderer σ} {size : Int} {wire : σ} {records : List AxfrRow}
variable {s : Axfr σ} {p : Packed σ RRset}

/-- The renderer as a packer, from a message with the header and the question. -/
def packer (R : Renderer σ) (wire : σ) : Packer σ RRset :=
  ⟨wire, R.addRrset⟩

def packet (answers : List RRset) : Response :=
  ⟨.NOERROR, answers⟩

/-- The packets, and an error when something is left. -/
def stream (packed : Packed σ RRset × List RRset) : List Response :=
  packed.1.packets.map packet ++ if packed.2 = [] then [] else [⟨.SERVFAIL, []⟩]

/-- The variables of the loop are those of the packing. -/
structure Follows (s : Axfr σ) (p : Packed σ RRset) : Prop where
  yielded : s.yielded = p.closed.map packet
  renderer : s.renderer = if p.atHand = [] then none else some ⟨p.state, p.atHand⟩
  counted : ∀ rrset ∈ p.atHand, rrset.rdata ≠ []

/-- The renderer counts no answer exactly when there is none. -/
theorem count_eq_zero {answers : List RRset} (hcounted : ∀ rrset ∈ answers, rrset.rdata ≠ []) :
    (⟨wire, answers⟩ : Packet σ).count = 0 ↔ answers = [] := by
  unfold Packet.count
  constructor
  · intro h
    cases answers with
    | nil => rfl
    | cons rrset rest =>
      have hne := List.length_pos_iff.mpr (hcounted rrset List.mem_cons_self)
      simp only [List.map_cons, List.sum_cons] at h
      omega
  · intro h
    subst h
    rfl

/-- The message a row is added to. -/
theorem follows_renderer (hstart : R.start size request = some wire) (h : Follows s p)
    (hsound : (packer R wire).Sound p) :
    (s.renderer <|> (R.start size request).map fun wire => { wire := wire }) =
      some ⟨p.state, p.atHand⟩ := by
  rw [h.renderer, hstart]
  by_cases hhand : p.atHand = []
  · have hstate := hsound.filled
    rw [hhand] at hstate ⊢
    have hwire : wire = p.state := Option.some.inj hstate
    simp [hwire]
  · simp [hhand]

/-- A turn at a row that the message takes. -/
theorem axfrTurn_taken (hstart : R.start size request = some wire) (h : Follows s p)
    (hsound : (packer R wire).Sound p) {row : AxfrRow} (hrow : records[s.i]? = some row)
    {rrset : RRset} (hrrset : row.rrset dns zone = .ok rrset) {wire' : σ}
    (hadd : R.addRrset p.state rrset = some wire') :
    axfrTurn R dns size request zone records s =
      .ok (.inl ⟨s.i + 1, some ⟨wire', p.atHand ++ [rrset]⟩, s.yielded⟩) := by
  unfold axfrTurn
  rw [hrow]
  simp only [follows_renderer hstart h hsound, hrrset, hadd]

/-- A turn at a row that the message does not take. -/
theorem axfrTurn_tooBig (hstart : R.start size request = some wire) (h : Follows s p)
    (hsound : (packer R wire).Sound p) {row : AxfrRow} (hrow : records[s.i]? = some row)
    {rrset : RRset} (hrrset : row.rrset dns zone = .ok rrset)
    (hadd : R.addRrset p.state rrset = none) :
    axfrTurn R dns size request zone records s =
      if p.atHand = [] then .ok (.inr (s.yielded ++ [⟨.SERVFAIL, []⟩]))
      else .ok (.inl ⟨s.i, none, s.yielded ++ [packet p.atHand]⟩) := by
  unfold axfrTurn
  rw [hrow]
  simp only [follows_renderer hstart h hsound, hrrset, hadd, count_eq_zero h.counted]
  rfl

/--
The loop packs the rows it has not come to, and takes two turns for each at most: one that
closes the packet, and one that adds the row to a fresh one.
-/
theorem axfrLoop_pack (hstart : R.start size request = some wire) :
    ∀ (fuel : Nat) (rest : List AxfrRow) {answers : List RRset} {s : Axfr σ} {p : Packed σ RRset},
      List.Forall₂ (AxfrRow.Shows dns zone) rest answers → Follows s p → (packer R wire).Sound p →
      records.drop s.i = rest → 2 * rest.length + (if p.atHand = [] then 0 else 1) < fuel →
      axfrLoop R dns size request zone records fuel s =
        .ok (some (stream ((packer R wire).packFrom p answers)))
  | 0, _, _, _, _, _, _, _, _, hfuel => absurd hfuel (Nat.not_lt_zero _)
  | fuel + 1, _, _, s, p, .nil, h, _, hrest, _ => by
    have hdone : records[s.i]? = none := by
      rw [List.getElem?_eq_none_iff]
      exact List.drop_eq_nil_iff.mp hrest
    rw [axfrLoop, axfrTurn, hdone, h.renderer, h.yielded]
    by_cases hhand : p.atHand = []
    · simp [stream, Packer.packFrom, Packed.packets, hhand]
    · simp [stream, Packer.packFrom, Packed.packets, hhand, finalizePacket, packet]
  | fuel + 1, _, _, s, p, @List.Forall₂.cons _ _ _ row rrset rest answers hshows hshown, h, hsound,
      hrest, hfuel => by
    have hrow : records[s.i]? = some row := by
      rw [← List.head?_drop, hrest]
      rfl
    rw [axfrLoop]
    cases hadd : R.addRrset p.state rrset with
    | some wire' =>
      rw [axfrTurn_taken hstart h hsound hrow hshows.made hadd]
      have hnext : (packer R wire).next p rrset =
          some ⟨p.closed, p.atHand ++ [rrset], wire'⟩ := by
        simp [Packer.next, packer, hadd]
      rw [Packer.packFrom, hnext]
      refine axfrLoop_pack hstart fuel rest hshown ⟨h.yielded, by simp, ?_⟩
        (sound_next hsound hnext) ?_ ?_
      · intro rrset' hmem
        rw [List.mem_append, List.mem_singleton] at hmem
        rcases hmem with hmem | rfl
        · exact h.counted rrset' hmem
        · exact hshows.ne_nil
      · rw [← List.drop_drop, hrest]
        rfl
      · simp only [List.length_cons] at hfuel
        simp only [List.append_eq_nil_iff, List.cons_ne_nil, and_false, if_false]
        omega
    | none =>
      rw [axfrTurn_tooBig hstart h hsound hrow hshows.made hadd]
      by_cases hhand : p.atHand = []
      · -- a fresh message does not take it either
        have hstate := hsound.filled
        rw [hhand] at hstate
        have hwire : wire = p.state := Option.some.inj hstate
        simp [hhand, stream, Packer.packFrom, Packer.next, packer, hwire, hadd, Packed.packets,
          h.yielded]
      · have hclose := packFrom_close (P := packer R wire) hhand hadd answers
        have hstream : stream ((packer R wire).packFrom ((packer R wire).close p)
            (rrset :: answers)) = stream ((packer R wire).packFrom p (rrset :: answers)) := by
          unfold stream
          rw [(Prod.mk.inj hclose).1, (Prod.mk.inj hclose).2]
        rw [if_neg hhand, ← hstream]
        refine axfrLoop_pack hstart fuel (row :: rest) (.cons hshows hshown) ⟨?_, rfl, ?_⟩
          (sound_close hsound hhand) hrest ?_
        · simp [h.yielded, Packer.close]
        · intro rrset hmem
          exact absurd hmem List.not_mem_nil
        · rw [if_neg hhand] at hfuel
          simp only [Packer.close, if_true]
          omega

/-! ## The stream -/

/-- Every packet has answers, and together they are these. -/
def Complete (responses : List Response) (answers : List RRset) : Prop :=
  (∀ response ∈ responses, response.rcode = .NOERROR ∧ response.answer ≠ []) ∧
    responses.flatMap Response.answer = answers

/-- Packets that come to a prefix of these answers, and one error. -/
def Aborted (responses : List Response) (answers : List RRset) : Prop :=
  ∃ packets sent, Complete packets sent ∧ sent <+: answers ∧
    responses = packets ++ [⟨.SERVFAIL, []⟩]

/-- The packets are complete for what was taken. -/
theorem complete_packets (P : Packer σ RRset) (answers : List RRset) :
    Complete ((P.pack answers).1.packets.map packet) (P.pack answers).1.packets.flatten := by
  constructor
  · intro response hmem
    obtain ⟨sent, hsent, rfl⟩ := List.mem_map.mp hmem
    exact ⟨rfl, pack_packets_ne P answers sent hsent⟩
  · rw [List.flatMap_map]
    exact List.flatMap_id'

/-- A packing gives the whole stream, unless something is refused. -/
theorem stream_pack (P : Packer σ RRset) (answers : List RRset) :
    (Complete (stream (P.pack answers)) answers ∧ ¬ P.Refuses answers) ∨
      (Aborted (stream (P.pack answers)) answers ∧ P.Refuses answers) := by
  have hflatten := pack_flatten P answers
  have hcomplete := complete_packets P answers
  unfold stream
  by_cases hleft : (P.pack answers).2 = []
  · left
    rw [if_pos hleft, List.append_nil]
    rw [hleft, List.append_nil] at hflatten
    rw [hflatten] at hcomplete
    exact ⟨hcomplete, fun h => (pack_left_iff P answers).mpr h hleft⟩
  · right
    rw [if_neg hleft]
    exact ⟨⟨_, _, hcomplete, ⟨_, hflatten⟩, rfl⟩, (pack_left_iff P answers).mp hleft⟩

/-- A transfer yields what the packing of its rows comes to. -/
theorem handleAxfr_eq (hzone : axfrZone opts db request = .ok zone)
    (hrecords : axfrRecords opts db zone = .ok records)
    (hstart : R.start (messageSize opts request) request = some wire) {answers : List RRset}
    (hshown : List.Forall₂ (AxfrRow.Shows dns zone) records answers) {fuel : Nat}
    (hfuel : 2 * records.length < fuel) :
    handleAxfr R dns opts db request fuel =
      .ok (some (stream ((packer R wire).pack answers))) := by
  unfold handleAxfr
  simp only [hzone, hrecords, bind, Except.bind]
  exact axfrLoop_pack hstart fuel records hshown
    ⟨rfl, rfl, fun _ h => absurd h List.not_mem_nil⟩ (sound_empty _) rfl hfuel

/--
A transfer of a zone with an SOA comes to an end. It is the SOA, each other live record once and
the SOA again, in packets none of which is empty; or, exactly when a row is refused by the
packet it comes to and by an empty one, a prefix of that and one error. Where an empty packet
takes what another one takes, this is when some row does not fit an empty packet.
-/
theorem handleAxfr_stream (R : Renderer σ) (hdns : dns.Documented) (hreads : dns.Reads db)
    (hzone : axfrZone opts db request = .ok zone)
    (hids : (db.recordsets.map RecordSetRow.id).Nodup)
    (hsoa : liveRecords db zone (· == .SOA) ≠ [])
    (hstart : R.start (messageSize opts request) request = some wire) :
    ∃ soa others answers responses, WholeZone db zone soa others ∧
      List.Forall₂ (AxfrRow.Shows dns zone) (soa :: others ++ [soa]) answers ∧
      (∀ fuel, 2 * (others.length + 2) < fuel →
        handleAxfr R dns opts db request fuel = .ok (some responses)) ∧
      ((Complete responses answers ∧ ¬ (packer R wire).Refuses answers) ∨
        (Aborted responses answers ∧ (packer R wire).Refuses answers)) ∧
      ((packer R wire).FitsFresh →
        ((packer R wire).Refuses answers ↔
          ∃ rrset ∈ answers, R.addRrset wire rrset = none)) := by
  obtain ⟨soa, others, hrecords, hwhole⟩ := axfrRecords_whole opts hids hsoa
  obtain ⟨answers, hshown⟩ := exists_rrsets hdns zone (hwhole.reads hreads)
  refine ⟨soa, others, answers, _, hwhole, hshown, ?_, stream_pack (packer R wire) answers,
    fun hfits => refuses_iff_exists_mem hfits⟩
  intro fuel hfuel
  refine handleAxfr_eq hzone hrecords hstart hshown ?_
  simp only [List.length_append, List.length_cons, List.length_nil]
  omega

/-! ## Two renderers -/

def soaRow : RecordSetRow :=
  { Sample.wwwRow with id := 1, name := "example.com.", type := .SOA }

def addressRow (ttl : Option Nat) : RecordSetRow :=
  { Sample.wwwRow with ttl }

/-- The zone with its SOA and one address, which may be kept for so long. -/
def axfrDb (ttl : Option Nat) : Db :=
  { zones := [Sample.zone]
    recordsets := [soaRow, addressRow ttl]
    records := [Sample.record 5 1 "ns.example.net. admin.example.com. 1 3600 600 86400 3600",
      Sample.record 6 3 "192.0.2.1"] }

def axfrRequest : Request :=
  { name := "example.com.", type := "AXFR" }

/-- One row to a packet. -/
def singleRenderer : Renderer Nat where
  start := fun _ _ => some 0
  addRrset := fun taken _ => if taken = 0 then some 1 else none

/-- An address is taken only after something else. -/
def pickyRenderer : Renderer Nat where
  start := fun _ _ => some 0
  addRrset := fun taken rrset => if taken = 0 ∧ rrset.type = .A then none else some (taken + 1)

theorem handleAxfr_stream_single :
    ∃ soa others answers responses, WholeZone (axfrDb none) Sample.zone soa others ∧
      List.Forall₂ (AxfrRow.Shows sampleDns Sample.zone) (soa :: others ++ [soa]) answers ∧
      (∀ fuel, 2 * (others.length + 2) < fuel →
        handleAxfr singleRenderer sampleDns { defaultPoolId := 0 } (axfrDb none) axfrRequest fuel =
          .ok (some responses)) ∧
      ((Complete responses answers ∧ ¬ (packer singleRenderer 0).Refuses answers) ∨
        (Aborted responses answers ∧ (packer singleRenderer 0).Refuses answers)) ∧
      ((packer singleRenderer 0).FitsFresh →
        ((packer singleRenderer 0).Refuses answers ↔
          ∃ rrset ∈ answers, singleRenderer.addRrset 0 rrset = none)) :=
  handleAxfr_stream singleRenderer sampleDns_documented (sampleDns_reads _) (by decide) (by decide)
    (by decide) rfl

def soaAxfr : AxfrRow :=
  ⟨1, .SOA, some 300, "example.com.", "ns.example.net. admin.example.com. 1 3600 600 86400 3600"⟩

theorem axfrDb_records (ttl : Option Nat) :
    axfrRecords { defaultPoolId := 0 } (axfrDb ttl) Sample.zone =
      .ok [soaAxfr, ⟨3, .A, ttl, "www.example.com.", "192.0.2.1"⟩, soaAxfr] := by
  simp [axfrRecords, clause_soa, clause_not_soa, findRecordsetsAxfr, joinedRecords, axfrDb, soaAxfr,
    soaRow, addressRow, Sample.wwwRow, Sample.record, Sample.zone, RRType.text, bind, Except.bind]

/-- A row that does not fit an empty packet is sent all the same, in one that has the SOA. -/
theorem sent_though_unfit :
    ∃ soa www, handleAxfr pickyRenderer sampleDns { defaultPoolId := 0 } (axfrDb none) axfrRequest 7 =
        .ok (some [⟨.NOERROR, [soa, www, soa]⟩]) ∧
      pickyRenderer.addRrset 0 www = none := by
  have hzone : axfrZone { defaultPoolId := 0 } (axfrDb none) axfrRequest = .ok Sample.zone := by decide
  have hstart : pickyRenderer.start (messageSize { defaultPoolId := 0 } axfrRequest) axfrRequest =
      some 0 := rfl
  have hshown : List.Forall₂ (AxfrRow.Shows sampleDns Sample.zone)
      [soaAxfr, ⟨3, .A, none, "www.example.com.", "192.0.2.1"⟩, soaAxfr]
      [⟨"example.com.", .SOA, 300, [soaAxfr.data]⟩, ⟨"www.example.com.", .A, 3600, ["192.0.2.1"]⟩,
        ⟨"example.com.", .SOA, 300, [soaAxfr.data]⟩] := by
    refine .cons ⟨rfl, _, rfl, ?_⟩ (.cons ⟨rfl, _, rfl, ?_⟩ (.cons ⟨rfl, _, rfl, ?_⟩ .nil))
    all_goals exact fun x => List.mem_singleton
  exact ⟨_, _, handleAxfr_eq hzone (axfrDb_records none) hstart hshown (by decide), rfl⟩

end Mdns

end Designate
