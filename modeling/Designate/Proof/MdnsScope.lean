import Designate.Mdns.Handler
import Mathlib.Data.List.Dedup

/-!
# Answers by scope

What a requester should get depends on its scope only: where one live zone inside holds the
recordset asked for, that recordset, and never one of a zone outside. The recordset is looked
up without any scope, so another pool's recordset of the same name hides it, and a key of a
zone puts its own zone in the place of the one the recordset is in.
-/

namespace Designate

namespace Mdns

variable {dns : Dnspython} {opts : Options} {db : Db} {request : Request} {row : RecordSetRow}
  {zone : Zone}

/-- The zone is one the requester may see. -/
def InScope (opts : Options) (request : Request) (zone : Zone) : Prop :=
  match request.tsigkey with
  | none => zone.poolId = opts.defaultPoolId
  | some key =>
    match key.scope with
    | .POOL => zone.poolId = key.resourceId
    | .ZONE => zone.id = key.resourceId
    | .other _ => False

/-- A live zone inside the scope holds the recordset of the queried name and type. -/
structure Holds (opts : Options) (db : Db) (request : Request) (row : RecordSetRow)
    (zone : Zone) : Prop where
  row_mem : row ∈ db.recordsets
  zone_mem : zone ∈ db.zones
  live : zone.deleted = false
  zoneId : row.zoneId = zone.id
  name : row.name = request.name
  type : row.type.text = request.type
  scope : InScope opts request zone

/-- Exactly one live zone inside the scope holds a recordset of the queried name and type. -/
def OneHolder (opts : Options) (db : Db) (request : Request) (row : RecordSetRow)
    (zone : Zone) : Prop :=
  Holds opts db request row zone ∧ ∀ row' zone', Holds opts db request row' zone' → zone' = zone

/-- The query is answered with the records of this recordset. -/
def AnsweredFrom (dns : Dnspython) (opts : Options) (db : Db) (request : Request)
    (row : RecordSetRow) (zone : Zone) : Prop :=
  findRecordset opts db request.name request.type = .ok row ∧
    ∃ rrset, convertToRrset dns zone row (recordsOf db row) = .ok rrset ∧
      handleRecordQuery dns opts db request = .ok ⟨.NOERROR, rrset.toList⟩

/-- What the one zone inside the scope holds is what is answered. -/
def AnswersScope (dns : Dnspython) (opts : Options) (db : Db) (request : Request) : Prop :=
  ∀ row zone, OneHolder opts db request row zone → AnsweredFrom dns opts db request row zone

/-- What is answered is a recordset of a live zone inside the scope. -/
def StaysInScope (dns : Dnspython) (opts : Options) (db : Db) (request : Request) : Prop :=
  ∀ row response, findRecordset opts db request.name request.type = .ok row →
    handleRecordQuery dns opts db request = .ok response → response.rcode = .NOERROR →
    ∃ zone ∈ db.zones, zone.deleted = false ∧ zone.id = row.zoneId ∧ InScope opts request zone

/-- The criterion made of the queried name and type lets a recordset of a live zone through. -/
def Matches (opts : Options) (db : Db) (request : Request) (row : RecordSetRow) : Prop :=
  row ∈ db.recordsets ∧ (∃ zone ∈ db.zones, zone.deleted = false ∧ zone.id = row.zoneId) ∧
    ∃ named typed, nameClause opts request.name = .ok named ∧
      clause opts request.type = .ok typed ∧ named row.name = true ∧ typed row.type.text = true

/-- It lets no other recordset through, in whatever pool. -/
def Only (opts : Options) (db : Db) (request : Request) (row : RecordSetRow) : Prop :=
  Matches opts db request row ∧ ∀ other, Matches opts db request other → other = row

/--
What the one zone inside the scope holds is the only recordset that matches, and a request
without a key is let in.
-/
def NotHidden (opts : Options) (db : Db) (request : Request) : Prop :=
  ∀ row zone, OneHolder opts db request row zone →
    Only opts db request row ∧ (request.tsigkey = none → opts.queryEnforceTsig = false)

/-- With the key of a live zone, the only recordset that matches is in that zone. -/
def NotDiverted (opts : Options) (db : Db) (request : Request) : Prop :=
  ∀ key row, request.tsigkey = some key → key.scope = .ZONE → Only opts db request row →
    (∃ zone ∈ db.zones, zone.deleted = false ∧ zone.id = key.resourceId) →
    row.zoneId = key.resourceId

/-! ## What the library reads -/

/-- Of data that the library can read there is an RRset, unless there are none. -/
theorem convertToRrset_ok (hdns : dns.Documented)
    (hreads : ∀ data ∈ liveData db row, (dns.fromText row.type data).isSome = true) (zone : Zone) :
    ∃ rrset, convertToRrset dns zone row (recordsOf db row) = .ok rrset := by
  obtain ⟨rdata, hrdata, -⟩ := hdns.keeps row.type (liveData db row) hreads
  change ∃ rrset, (if (liveData db row).isEmpty then .ok none
    else (fromTextList dns row.name (ttlOr row.ttl zone.ttl) row.type (liveData db row)).map some) =
      Except.ok rrset
  split
  · exact ⟨none, rfl⟩
  · unfold fromTextList
    rw [hrdata]
    exact ⟨_, rfl⟩

/-! ## The two look-ups -/

/-- Joining a recordset with its live zones gives it once, if its zone is live. -/
theorem joinedRecordsets_eq (hzones : (db.zones.map Zone.id).Nodup) (named typed : String → Bool) :
    joinedRecordsets db named typed = db.recordsets.filter fun row =>
      db.zones.any (fun zone => zone.id == row.zoneId && !zone.deleted) && named row.name &&
        typed row.type.text := by
  unfold joinedRecordsets
  induction db.recordsets with
  | nil => rfl
  | cons row rows ih =>
    rw [List.flatMap_cons, ih]
    -- the key of a zone is unique, so at most one zone joins with the recordset
    by_cases hlive : ∃ zone ∈ db.zones, zone.deleted = false ∧ zone.id = row.zoneId
    · obtain ⟨zone, hz, hd, hid⟩ := hlive
      have hany : db.zones.any (fun zone => zone.id == row.zoneId && !zone.deleted) = true :=
        List.any_eq_true.mpr ⟨zone, hz, by simp [hid, hd]⟩
      have hfilter : (db.zones.filter fun zone => zone.id == row.zoneId && !zone.deleted &&
          named row.name && typed row.type.text) =
          if named row.name && typed row.type.text then [zone] else [] := by
        have hkey := Table.filter_key hzones hz
        have hsplit : (db.zones.filter fun zone => zone.id == row.zoneId && !zone.deleted &&
            named row.name && typed row.type.text) =
            (db.zones.filter fun z => decide (z.id = zone.id)).filter fun zone =>
              !zone.deleted && (named row.name && typed row.type.text) := by
          rw [List.filter_filter]
          refine List.filter_congr fun z _ => ?_
          rw [hid, ← beq_eq_decide]
          ac_rfl
        rw [hsplit, hkey]
        by_cases h : (named row.name && typed row.type.text) = true <;> simp [hd, h]
      rw [hfilter]
      by_cases h : (named row.name && typed row.type.text) = true
      · rw [if_pos h, List.filter_cons_of_pos (by simpa [hany] using h)]
        rfl
      · rw [if_neg h, List.filter_cons_of_neg (by simpa [hany] using h)]
        rfl
    · -- no live zone: the join drops the recordset
      have hany : db.zones.any (fun zone => zone.id == row.zoneId && !zone.deleted) = false := by
        rw [List.any_eq_false]
        intro zone hz h
        simp only [Bool.and_eq_true, beq_iff_eq, Bool.not_eq_true'] at h
        exact hlive ⟨zone, hz, h.2, h.1⟩
      have hfilter : (db.zones.filter fun zone => zone.id == row.zoneId && !zone.deleted &&
          named row.name && typed row.type.text) = [] := by
        rw [List.filter_eq_nil_iff]
        intro zone hz h
        simp only [Bool.and_eq_true, beq_iff_eq, Bool.not_eq_true'] at h
        exact hlive ⟨zone, hz, h.1.1.2, h.1.1.1⟩
      rw [hfilter, List.filter_cons_of_neg (by simp [hany])]
      rfl

/-- The look-up of the recordset gives one exactly when it is the only one that matches. -/
theorem findRecordset_iff (hzones : (db.zones.map Zone.id).Nodup)
    (hids : (db.recordsets.map RecordSetRow.id).Nodup) :
    findRecordset opts db request.name request.type = .ok row ↔ Only opts db request row := by
  unfold findRecordset
  -- a clause that cannot be built matches nothing, so neither side holds of it
  cases hname : nameClause opts request.name with
  | error e =>
    constructor
    · intro h
      exact absurd h (by simp [bind, Except.bind])
    · intro h
      obtain ⟨-, -, named, typed, hn, -⟩ := h.1
      exact absurd (hname.symm.trans hn) (by simp)
  | ok named =>
    cases htype : clause opts request.type with
    | error e =>
      constructor
      · intro h
        exact absurd h (by simp [bind, Except.bind])
      · intro h
        obtain ⟨-, -, named', typed, -, ht, -⟩ := h.1
        exact absurd (htype.symm.trans ht) (by simp)
    | ok typed =>
      -- with both clauses at hand, to match is what the join filters by
      have hmatches : ∀ other, Matches opts db request other ↔ other ∈ db.recordsets ∧
          (db.zones.any (fun zone => zone.id == other.zoneId && !zone.deleted) &&
            named other.name && typed other.type.text) = true := by
        intro other
        unfold Matches
        rw [hname, htype]
        simp [and_assoc, and_left_comm, and_comm]
      change Table.one (joinedRecordsets db named typed) _ = _ ↔ _
      rw [joinedRecordsets_eq hzones, Table.one_filter_iff (hids.of_map _)]
      unfold Only
      simp only [hmatches, and_imp, and_assoc]

/-- Looked up by its identifier, a live zone is found under the pool criterion. -/
theorem findZone_iff (hzones : (db.zones.map Zone.id).Nodup) {id : Nat} {poolId : Option Nat} :
    findZone opts db { id := some id, poolId := poolId } = .ok zone ↔
      zone ∈ db.zones ∧ zone.deleted = false ∧ zone.id = id ∧
        ∀ pool, poolId = some pool → zone.poolId = pool := by
  change Table.one (db.zones.filter _) _ = _ ↔ _
  rw [Table.one_filter_iff (hzones.of_map _)]
  constructor
  · intro h
    obtain ⟨hz, hp, -⟩ := h
    simp only [Bool.and_true, Bool.and_eq_true, Bool.not_eq_true', Option.all_some,
      beq_iff_eq] at hp
    refine ⟨hz, hp.1.1, hp.1.2, ?_⟩
    intro pool hpool
    subst hpool
    simpa using hp.2
  · intro h
    obtain ⟨hz, hd, hid, hpool⟩ := h
    refine ⟨hz, ?_, ?_⟩
    · cases poolId with
      | none => simp [hd, hid]
      | some pool => simp [hd, hid, hpool pool rfl]
    · intro other ho hp
      simp only [Bool.and_true, Bool.and_eq_true, Option.all_some, beq_iff_eq] at hp
      exact List.inj_on_of_nodup_map hzones ho hz (hp.1.2.trans hid.symm)

/-- The look-up of a zone raises nothing else but that there is none. -/
theorem findZone_error {id poolId : Option Nat} {e : Exc}
    (h : findZone opts db { id := id, poolId := poolId } = .error e) : e = .ZoneNotFound := by
  change Table.one (db.zones.filter _) _ = _ at h
  exact Table.one_eq_error h

/-! ## What is answered -/

/-- The identifier and the pool a query's zone is looked up with, when it is looked up at all. -/
def zoneKey (opts : Options) (request : Request) (row : RecordSetRow) :
    Option (Nat × Option Nat) :=
  match request.tsigkey with
  | none => if opts.queryEnforceTsig then none else some (row.zoneId, some opts.defaultPoolId)
  | some key =>
    match key.scope with
    | .POOL => some (row.zoneId, some key.resourceId)
    | .ZONE => some (key.resourceId, none)
    | .other _ => none

/-- The criterion a query's zone is looked up with, or what is raised instead. -/
theorem zoneCriterion_eq (opts : Options) (request : Request) (row : RecordSetRow) :
    (∃ id poolId, zoneKey opts request row = some (id, poolId) ∧
      zoneCriterionFromRequest opts request { id := some row.zoneId } =
        .ok { id := some id, poolId := poolId }) ∨
    (zoneKey opts request row = none ∧
      (zoneCriterionFromRequest opts request { id := some row.zoneId } = .error .Forbidden ∨
        zoneCriterionFromRequest opts request { id := some row.zoneId } =
          .error .NotImplementedError)) := by
  unfold zoneKey zoneCriterionFromRequest
  cases request.tsigkey with
  | none =>
    by_cases henforce : opts.queryEnforceTsig = true
    · simp [henforce]
    · simp [henforce]
  | some key =>
    obtain ⟨scope, resourceId⟩ := key
    cases scope <;> simp

/-- A query is answered when its recordset is found, and a zone under the criterion. -/
theorem handleRecordQuery_noerror
    (hfound : findRecordset opts db request.name request.type = .ok row) {response : Response} :
    (handleRecordQuery dns opts db request = .ok response ∧ response.rcode = .NOERROR) ↔
      ∃ zone id poolId rrset, zoneKey opts request row = some (id, poolId) ∧
        findZone opts db { id := some id, poolId := poolId } = .ok zone ∧
        convertToRrset dns zone row (recordsOf db row) = .ok rrset ∧
        response = ⟨.NOERROR, rrset.toList⟩ := by
  unfold handleRecordQuery
  simp only [hfound]
  rcases zoneCriterion_eq opts request row with ⟨id, poolId, hkey, hcriterion⟩ | ⟨hkey, hraised⟩
  · rw [hkey, hcriterion]
    simp only [bind, Except.bind]
    cases hz : findZone opts db { id := some id, poolId := poolId } with
    | error e =>
      obtain rfl := findZone_error hz
      constructor
      · intro ⟨h, hr⟩
        rw [← Except.ok.inj h] at hr
        exact absurd hr (by simp)
      · intro ⟨zone, id', poolId', rrset, hk, h, _⟩
        cases hk
        exact absurd (hz.symm.trans h) (by simp)
    | ok zone =>
      dsimp only
      cases hrrset : convertToRrset dns zone row (recordsOf db row) with
      | error e =>
        -- the library could not read the data
        constructor
        · intro ⟨h, _⟩
          exact absurd h (by simp [Except.map])
        · intro ⟨zone', id', poolId', rrset, hk, h, hconverted, _⟩
          cases hk
          obtain rfl := Except.ok.inj (hz.symm.trans h)
          exact absurd (hrrset.symm.trans hconverted) (by simp)
      | ok rrset =>
        constructor
        · intro ⟨h, _⟩
          exact ⟨zone, id, poolId, rrset, rfl, hz, hrrset, (Except.ok.inj h).symm⟩
        · intro ⟨zone', id', poolId', rrset', hk, h, hconverted, hr⟩
          cases hk
          obtain rfl := Except.ok.inj (hz.symm.trans h)
          obtain rfl := Except.ok.inj (hrrset.symm.trans hconverted)
          subst hr
          exact ⟨rfl, rfl⟩
  · rw [hkey]
    rcases hraised with hraised | hraised <;> rw [hraised] <;> simp only [bind, Except.bind]
    · constructor
      · intro ⟨h, hr⟩
        rw [← Except.ok.inj h] at hr
        exact absurd hr (by simp)
      · intro ⟨_, _, _, _, h, _⟩
        exact absurd h (by simp)
    · constructor
      · intro ⟨h, _⟩
        exact absurd h (by simp)
      · intro ⟨_, _, _, _, h, _⟩
        exact absurd h (by simp)

/-- In the zone that holds it, an only match is what is answered. -/
theorem answeredFrom_of_only (hdns : dns.Documented) (hzones : (db.zones.map Zone.id).Nodup)
    (hids : (db.recordsets.map RecordSetRow.id).Nodup)
    (hreads : ∀ data ∈ liveData db row, (dns.fromText row.type data).isSome = true)
    (hholds : Holds opts db request row zone) (honly : Only opts db request row)
    (hkeyless : request.tsigkey = none → opts.queryEnforceTsig = false) :
    AnsweredFrom dns opts db request row zone := by
  have hfound := (findRecordset_iff hzones hids).mpr honly
  obtain ⟨rrset, hrrset⟩ := convertToRrset_ok hdns hreads zone
  refine ⟨hfound, rrset, hrrset, ((handleRecordQuery_noerror hfound).mpr ?_).1⟩
  have hscope := hholds.scope
  unfold InScope at hscope
  -- the criterion is one the zone of the recordset meets
  have hkey : ∃ poolId, zoneKey opts request row = some (zone.id, poolId) ∧
      ∀ pool, poolId = some pool → zone.poolId = pool := by
    unfold zoneKey
    cases htsig : request.tsigkey with
    | none =>
      rw [htsig] at hscope
      exact ⟨some opts.defaultPoolId, by simp [hkeyless htsig, hholds.zoneId],
        by simpa using hscope⟩
    | some key =>
      rw [htsig] at hscope
      obtain ⟨scope, resourceId⟩ := key
      cases scope with
      | POOL => exact ⟨some resourceId, by simp [hholds.zoneId], by simpa using hscope⟩
      | ZONE => exact ⟨none, by simpa using hscope.symm, by simp⟩
      | other => exact hscope.elim
  obtain ⟨poolId, hkey, hpool⟩ := hkey
  exact ⟨zone, zone.id, poolId, rrset, hkey,
    (findZone_iff hzones).mpr ⟨hholds.zone_mem, hholds.live, rfl, hpool⟩, hrrset, rfl⟩

/-- A request without a key that is answered was let in. -/
theorem not_enforced_of_answeredFrom (h : AnsweredFrom dns opts db request row zone)
    (htsig : request.tsigkey = none) : opts.queryEnforceTsig = false := by
  obtain ⟨hfound, rrset, -, hanswer⟩ := h
  obtain ⟨zone', id, poolId, _, hkey, -⟩ := (handleRecordQuery_noerror hfound).mp ⟨hanswer, rfl⟩
  unfold zoneKey at hkey
  rw [htsig] at hkey
  by_cases henforce : opts.queryEnforceTsig = true
  · simp [henforce] at hkey
  · simpa using henforce

/-- Every query stays in its scope exactly when none is diverted. -/
theorem staysInScope_iff (hdns : dns.Documented) (hreads : dns.Reads db)
    (hzones : (db.zones.map Zone.id).Nodup) (hids : (db.recordsets.map RecordSetRow.id).Nodup) :
    StaysInScope dns opts db request ↔ NotDiverted opts db request := by
  constructor
  · intro hstays key row htsig hscope honly hlive
    obtain ⟨zone, hz, hd, hid⟩ := hlive
    -- a recordset that is the only match is answered from, so it has to be in scope
    have hfound := (findRecordset_iff hzones hids).mpr honly
    obtain ⟨rrset, hrrset⟩ := convertToRrset_ok hdns (hreads row honly.1.1) zone
    have hanswer := (handleRecordQuery_noerror hfound).mpr
      ⟨zone, key.resourceId, none, rrset, by simp [zoneKey, htsig, hscope],
        (findZone_iff hzones).mpr ⟨hz, hd, hid, by simp⟩, hrrset, rfl⟩
    obtain ⟨holder, -, -, hholder, hin⟩ := hstays row _ hfound hanswer.1 hanswer.2
    unfold InScope at hin
    simp only [htsig, hscope] at hin
    exact hholder.symm.trans hin
  · intro hdivert row response hfound hresponse hcode
    have honly := (findRecordset_iff hzones hids).mp hfound
    obtain ⟨zone, id, poolId, _, hkey, hzone, -⟩ :=
      (handleRecordQuery_noerror hfound).mp ⟨hresponse, hcode⟩
    obtain ⟨hz, hd, hid, hpool⟩ := (findZone_iff hzones).mp hzone
    unfold zoneKey at hkey
    -- one case a kind of key: only the one that is bound to a zone takes its zone from the key
    cases htsig : request.tsigkey with
    | none =>
      rw [htsig] at hkey
      by_cases henforce : opts.queryEnforceTsig = true
      · simp [henforce] at hkey
      · simp only [henforce, Bool.false_eq_true, if_false] at hkey
        cases hkey
        exact ⟨zone, hz, hd, hid, by simpa [InScope, htsig] using hpool⟩
    | some key =>
      rw [htsig] at hkey
      cases hscope : key.scope with
      | POOL =>
        simp only [hscope] at hkey
        cases hkey
        exact ⟨zone, hz, hd, hid, by simpa [InScope, htsig, hscope] using hpool⟩
      | ZONE =>
        simp only [hscope] at hkey
        cases hkey
        -- the zone of the key need not be the recordset's; here it is not diverted
        have hrow := hdivert key row htsig hscope honly ⟨zone, hz, hd, hid⟩
        exact ⟨zone, hz, hd, hid.trans hrow.symm, by simp [InScope, htsig, hscope, hid]⟩
      | other => simp [hscope] at hkey

/--
A query is answered by its scope, with what the scope holds and with nothing else, exactly when
no other recordset matches its name and type beside the one of the scope, and a key of a zone
does not meet another zone's recordset.
-/
theorem answers_by_scope_iff (hdns : dns.Documented) (hreads : dns.Reads db)
    (hzones : (db.zones.map Zone.id).Nodup) (hids : (db.recordsets.map RecordSetRow.id).Nodup) :
    AnswersScope dns opts db request ∧ StaysInScope dns opts db request ↔
      NotHidden opts db request ∧ NotDiverted opts db request := by
  rw [staysInScope_iff hdns hreads hzones hids]
  refine and_congr_left fun _ => ?_
  constructor
  · intro h row zone hone
    have hanswered := h row zone hone
    exact ⟨(findRecordset_iff hzones hids).mp hanswered.1, not_enforced_of_answeredFrom hanswered⟩
  · intro h row zone hone
    obtain ⟨honly, hkeyless⟩ := h row zone hone
    exact answeredFrom_of_only hdns hzones hids (hreads row honly.1.1) hone.1 honly hkeyless

/-! ## A library -/

/-- A library that takes every text as it stands, and holds an SOA to one rdata. -/
def sampleDns : Dnspython where
  fromText _ text := some text
  isSingleton type := type == .SOA
  fromTextList type texts := some (if type == .SOA then texts.getLast?.toList else texts.dedup)

theorem sampleDns_documented : sampleDns.Documented where
  keeps type texts _ := by
    refine ⟨_, rfl, fun r => ?_⟩
    change _ ↔ ∃ text, (if (type == .SOA) = true then texts.getLast? = some text else text ∈ texts) ∧
      some text = some r
    simp only [Option.some.injEq, exists_eq_right]
    split
    · exact Option.mem_toList
    · exact List.mem_dedup

theorem sampleDns_reads (db : Db) : sampleDns.Reads db := fun _ _ _ _ => rfl

/-! ## Two pools with one name -/

def poolOneOptions : Options :=
  { defaultPoolId := 1 }

def twoPoolsZone (id poolId : Nat) : Zone :=
  ⟨id, some "t", "example.org.", .PRIMARY, 3600, 1, .NONE, .ACTIVE, poolId, none, none, false⟩

def twoPoolsRow (id zoneId : Nat) : RecordSetRow :=
  ⟨id, zoneId, some "t", "www.example.org.", .A, none, none⟩

def twoPoolsRecord (id zoneId : Nat) (data : String) : RecordRow :=
  { id, zoneId, recordsetId := id, tenantId := some "t", data, hash := data, managed := false,
    action := .NONE, status := .ACTIVE, serial := 1 }

/-- Pool 1 holds the name, and pool 2 a zone of it that has no recordset. -/
def onePoolDb : Db :=
  { zones := [twoPoolsZone 1 1, twoPoolsZone 2 2]
    recordsets := [twoPoolsRow 11 1]
    records := [twoPoolsRecord 11 1 "10.0.0.1"] }

/-- Both pools hold it. -/
def twoPoolsDb : Db :=
  { onePoolDb with
    recordsets := [twoPoolsRow 11 1, twoPoolsRow 12 2]
    records := [twoPoolsRecord 11 1 "10.0.0.1", twoPoolsRecord 12 2 "10.0.0.2"] }

def wwwRequest : Request :=
  { name := "www.example.org.", type := "A" }

/-- The same, signed with the key of zone 2. -/
def zoneTwoRequest : Request :=
  { wwwRequest with tsigkey := some ⟨.ZONE, 2⟩ }

theorem answers_by_scope_iff_onePool :
    AnswersScope sampleDns poolOneOptions onePoolDb wwwRequest ∧
        StaysInScope sampleDns poolOneOptions onePoolDb wwwRequest ↔
      NotHidden poolOneOptions onePoolDb wwwRequest ∧
        NotDiverted poolOneOptions onePoolDb wwwRequest :=
  answers_by_scope_iff sampleDns_documented (sampleDns_reads _) (by decide) (by decide)

/--
Without a key, the recordset of the default pool is refused as soon as another pool has one of
its name; and the key of one zone is answered with the recordset of another.
-/
theorem not_answers_by_scope :
    ¬ AnswersScope sampleDns poolOneOptions twoPoolsDb wwwRequest ∧
      ¬ StaysInScope sampleDns poolOneOptions onePoolDb zoneTwoRequest := by
  constructor
  · intro h
    have hholds : Holds poolOneOptions twoPoolsDb wwwRequest
        (twoPoolsRow 11 1) (twoPoolsZone 1 1) :=
      ⟨by decide, by decide, rfl, rfl, rfl, rfl, rfl⟩
    have hanswer := h _ _ ⟨hholds, by
      intro row zone hother
      have hz := hother.zone_mem
      have hscope : zone.poolId = 1 := hother.scope
      simp only [twoPoolsDb, onePoolDb, List.mem_cons, List.not_mem_nil, or_false] at hz
      obtain rfl | rfl := hz
      · rfl
      · exact absurd hscope (by decide)⟩
    exact absurd hanswer.1 (by decide)
  · intro h
    obtain ⟨zone, -, -, hid, hscope⟩ := h (twoPoolsRow 11 1)
      ⟨.NOERROR, [⟨"www.example.org.", .A, 3600, ["10.0.0.1"]⟩]⟩ (by decide) (by decide) rfl
    have hid : zone.id = 1 := hid
    have hscope : zone.id = 2 := hscope
    omega

end Mdns

end Designate
