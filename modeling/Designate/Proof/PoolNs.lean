import Designate.Proof.PoolKeeps
import Designate.Proof.Requests
import Designate.Sample

/-!
# Name servers that come and go

`_add_ns` and `_delete_ns` change the list of records of an object and have the recordset
stored, and storing a recordset leaves its records out. So whatever `update_pool` does, the
records stay as they are: a new recordset has none, and an old one those it had.
-/

namespace Designate

namespace Pools

open Exec

/-! ## What there is of a managed NS recordset -/

/-- One of the records of the recordset is managed. -/
def isManaged (records : List RecordRow) (recordsetId : Nat) : Bool :=
  records.any fun r => r.recordsetId == recordsetId && r.managed

/-- The data of the managed NS recordset of a zone, as stored. -/
def nsHosts (zoneId : Nat) (db : Db) : List String :=
  (db.recordsets.filter fun s =>
    s.zoneId == zoneId && s.type == .NS && isManaged db.records s.id).flatMap fun s =>
      (db.records.filter fun r => r.recordsetId == s.id).map RecordRow.data

/-- Since `w₀` no record has changed, and recordsets have only come, under new identifiers. -/
structure RecordsStay (w₀ w : World) : Prop where
  records : w.db.records = w₀.db.records
  recordsets : ∃ news, w.db.recordsets.map RecordSetRow.place =
    w₀.db.recordsets.map RecordSetRow.place ++ news ∧ ∀ p ∈ news, w₀.nextId ≤ p.1
  nextId : w₀.nextId ≤ w.nextId

theorem recordsStay_refl (w : World) : RecordsStay w w :=
  ⟨rfl, ⟨[], by simp, fun _ h => absurd h List.not_mem_nil⟩, Nat.le_refl _⟩

theorem recordsStay_quiet (w₀ : World) : IgnoresQuiet (RecordsStay w₀) := by
  intro w w' hq h
  obtain ⟨news, hnews, hnew⟩ := h.recordsets
  exact ⟨hq.records.trans h.records, ⟨news, hq.recordsets.trans hnews, hnew⟩,
    Nat.le_trans h.nextId hq.nextId⟩

/-- The hosts of a zone, from the records and the places of the recordsets. -/
theorem nsHosts_eq (zoneId : Nat) (db : Db) :
    nsHosts zoneId db = ((db.recordsets.map RecordSetRow.place).filter fun p =>
      p.2.1 == zoneId && p.2.2.2.2 == .NS && isManaged db.records p.1).flatMap fun p =>
        (db.records.filter fun r => r.recordsetId == p.1).map RecordRow.data := by
  rw [List.filter_map, List.flatMap_map]
  rfl

/-- The hosts of every zone are as they were. -/
theorem RecordsStay.nsHosts {w₀ w : World} (h : RecordsStay w₀ w)
    (hfresh : ∀ r ∈ w₀.db.records, r.recordsetId < w₀.nextId) (zoneId : Nat) :
    nsHosts zoneId w.db = nsHosts zoneId w₀.db := by
  obtain ⟨news, hnews, hnew⟩ := h.recordsets
  -- a recordset under a new identifier has no record
  have hbare : ∀ p ∈ news, isManaged w₀.db.records p.1 = false := by
    intro p hp
    refine List.any_eq_false.mpr fun r hr hmanaged => ?_
    have hid : r.recordsetId = p.1 := by simpa using (Bool.and_eq_true_iff.mp hmanaged).1
    have := hfresh r hr
    have := hnew p hp
    omega
  have hnone : (news.filter fun p =>
      p.2.1 == zoneId && p.2.2.2.2 == .NS && isManaged w₀.db.records p.1) = [] := by
    refine List.filter_eq_nil_iff.mpr fun p hp => ?_
    rw [hbare p hp, Bool.and_false]
    exact Bool.false_ne_true
  rw [nsHosts_eq, nsHosts_eq, h.records, hnews, List.filter_append, hnone, List.append_nil]

/-! ## Calls about zones -/

section

variable {ctx : Context} {conf : Conf} {w₀ : World} {zone : Zone}

namespace RecordsStay

theorem transaction {α : Type} {m : Call α} (hm : Keeps (RecordsStay w₀) m) :
    Keeps (RecordsStay w₀) (Designate.transaction m) :=
  Keeps.rollback hm fun _ _ h h' => ⟨h.records, h.recordsets, h'.nextId⟩

theorem updateZoneRow (id : Nat) (f : Zone → Zone) :
    Keeps (RecordsStay w₀) (updateZoneRow ctx id f) :=
  Keeps.bind (Keeps.read _) fun _ =>
    Keeps.bind (Keeps.modify fun _ h => ⟨h.records, h.recordsets, h.nextId⟩) fun _ => Keeps.pure _

theorem updateZoneInStorage (increment : Bool) :
    Keeps (RecordsStay w₀) (updateZoneInStorage ctx conf zone increment) :=
  transaction (Keeps.ite (fun _ => Keeps.bind (updateZoneRow _ _) fun zone =>
    Keeps.bind ((recordsStay_quiet w₀).updateSoa zone) fun _ => Keeps.pure _)
    fun _ => updateZoneRow _ _)

theorem updateRecordsetRow (recordset : RecordSet) :
    Keeps (RecordsStay w₀) (updateRecordsetRow ctx recordset) := by
  refine (recordsStay_quiet w₀).quietWrite fun w a w' h => ?_
  split at h
  · exact absurd h (by simp)
  · obtain ⟨-, rfl⟩ := Prod.mk.inj (Except.ok.inj h)
    exact ⟨rfl, Table.map_update fun _ _ _ => rfl, rfl, rfl, Nat.le_refl _⟩

theorem updateRecordsetAndSerial (recordset : RecordSet) :
    Keeps (RecordsStay w₀) (updateRecordsetAndSerial ctx conf zone recordset) :=
  transaction (Keeps.bind (Keeps.read _) fun _ => Keeps.bind (updateZoneInStorage true) fun _ =>
    Keeps.bind (Keeps.read _) fun _ => updateRecordsetRow recordset)

/-- A new recordset has a new identifier. -/
theorem createRecordsetInStorage (recordset : NewRecordSet) :
    Keeps (RecordsStay w₀) (createRecordsetInStorage ctx conf zone recordset) := by
  refine transaction (Keeps.bind (Keeps.read _) fun _ => Keeps.bind (Keeps.read _) fun _ =>
    Keeps.bind (Keeps.read _) fun owner => ?_)
  have hid : Triple (RecordsStay w₀) generateUuid
      (fun id w => RecordsStay w₀ w ∧ w₀.nextId ≤ id) (RecordsStay w₀) := fun w hw =>
    ⟨⟨hw.records, hw.recordsets, Nat.le_succ_of_le hw.nextId⟩, hw.nextId⟩
  refine (Triple.bind hid fun id => Triple.write (fun w a w' hw h => ?_) fun _ hw => hw.1).keeps
  split at h
  · exact absurd h (by simp)
  · obtain ⟨-, rfl⟩ := Prod.mk.inj (Except.ok.inj h)
    obtain ⟨news, hnews, hnew⟩ := hw.1.recordsets
    refine ⟨hw.1.records, ⟨news ++ [(id, zone.id, owner.tenantId, recordset.name,
      recordset.type)], ?_, fun p hp => ?_⟩, hw.1.nextId⟩
    · rw [List.map_append, hnews, List.append_assoc]
      rfl
    · rcases List.mem_append.mp hp with hp | hp
      · exact hnew p hp
      · obtain rfl := List.mem_singleton.mp hp
        exact hw.2

theorem addNs (ns : String) : Keeps (RecordsStay w₀) (addNs ctx conf zone ns) := by
  refine Keeps.bind (Keeps.read _) fun recordsets => ?_
  split
  · exact Keeps.ite (fun _ => Keeps.pure _) fun _ =>
      Keeps.bind (createRecordsetInStorage _) fun _ => Keeps.pure _
  · exact updateRecordsetAndSerial _
  · exact Keeps.raise _

theorem deleteNs (ns : String) : Keeps (RecordsStay w₀) (deleteNs ctx conf zone ns) :=
  Keeps.bind (Keeps.read _) fun _ => updateRecordsetAndSerial _

end RecordsStay

end

/-! ## Calls about pools -/

/-- The records of a state, as those of a world. -/
def StateStays (w₀ : World) (s : State) : Prop := RecordsStay w₀ s.world

section

variable {ctx : Context} {conf : Conf} {order : List String → List String} {w₀ : World}

namespace StateStays

theorem onWorld {α : Type} {m : Call α} (hm : Keeps (RecordsStay w₀) m) :
    Keeps (StateStays w₀) (onWorld m) := fun s hs => hm s.world hs

theorem updatePoolInStorage (pool : Pool) :
    Keeps (StateStays w₀) (updatePoolInStorage ctx pool) :=
  keeps_updatePoolInStorage (keeping_world fun _ h =>
    ⟨h.records, h.recordsets, Nat.le_succ_of_le h.nextId⟩) ctx pool

theorem forZones (poolId : Nat) {f : Conf → Zone → Call Unit}
    (hf : ∀ conf zone, Keeps (RecordsStay w₀) (f conf zone)) (zones : List Zone) :
    Keeps (StateStays w₀) (forZones conf poolId f zones) :=
  Keeps.forEach fun _ _ => Keeps.bind (Keeps.read _) fun _ => onWorld (hf _ _)

theorem addEverywhere (poolId : Nat) (ns : String) :
    Keeps (StateStays w₀) (addEverywhere ctx conf poolId ns) :=
  Keeps.bind (onWorld (Keeps.read _)) fun zones =>
    forZones poolId (fun _ _ => RecordsStay.addNs ns) zones

theorem deleteEverywhere (poolId : Nat) (requested : List String) (ns : String) :
    Keeps (StateStays w₀) (deleteEverywhere ctx conf poolId requested ns) :=
  Keeps.bind (Keeps.raiseIf _ _) fun _ => Keeps.bind (onWorld (Keeps.read _)) fun zones =>
    forZones poolId (fun _ _ => RecordsStay.deleteNs ns) zones

/-- **No change of a pool changes a record.** -/
theorem updatePool (pool : Pool) : Keeps (StateStays w₀) (updatePool ctx conf order pool) := by
  refine Keeps.rollback ?_ fun s s' h h' => ⟨h.records, h.recordsets, h'.nextId⟩
  split
  · exact Keeps.bind (updatePoolInStorage pool) fun _ => Keeps.raise _
  · exact Keeps.bind (Keeps.bind (Keeps.read _) fun _ => Keeps.read _) fun _ =>
      Keeps.bind (updatePoolInStorage pool) fun _ =>
      Keeps.bind (Keeps.forEach fun _ _ => addEverywhere _ _) fun _ =>
      Keeps.bind (Keeps.forEach fun _ _ => deleteEverywhere _ _ _) fun _ => Keeps.pure _

end StateStays

/-! ## What follows a change, and when -/

variable {s s' : State} {pool : Pool}

/-- The hostnames the pool is to have. -/
def requested (pool : Pool) : List String :=
  (pool.nsRecords.getD []).map NsRecordObject.hostname

/-- A name server that comes. -/
def Added (pool : Pool) (s : State) (h : String) : Prop :=
  h ∈ requested pool ∧ h ∉ hostnames pool.id s

/-- A name server that goes. -/
def Removed (pool : Pool) (s : State) (h : String) : Prop :=
  h ∈ hostnames pool.id s ∧ h ∉ requested pool

/-- A zone that is to follow the pool. -/
structure IsIn (pool : Pool) (s : State) (zone : Zone) : Prop where
  mem : zone ∈ s.world.db.zones
  live : zone.deleted = false
  primary : zone.type = .PRIMARY
  pool : zone.poolId = pool.id

/-- In every zone of the pool the NS recordset has lost what goes, and got what comes. -/
structure Follows (pool : Pool) (s s' : State) : Prop where
  hosts : ∀ zone, IsIn pool s zone → ∀ h, h ∈ nsHosts zone.id s'.world.db ↔
    h ∈ nsHosts zone.id s.world.db ∧ ¬ Removed pool s h ∨ Added pool s h
  kept : ∀ zone, IsIn pool s zone → nsHosts zone.id s.world.db ≠ [] →
    nsHosts zone.id s'.world.db ≠ []

/-- The tables are as they were. -/
def Unchanged (s s' : State) : Prop :=
  s' = { s with world := { s'.world with db := s.world.db } }

/-- Every zone of the pool has what comes already, and nothing of what goes. -/
def NothingToDo (pool : Pool) (s : State) : Prop :=
  ∀ zone, IsIn pool s zone → ∀ h, (Added pool s h → h ∈ nsHosts zone.id s.world.db) ∧
    (Removed pool s h → h ∉ nsHosts zone.id s.world.db)

/-- Zones that stay as they are have followed where there was nothing to do. -/
theorem follows_iff (hsame : ∀ zoneId, nsHosts zoneId s'.world.db = nsHosts zoneId s.world.db) :
    Follows pool s s' ↔ NothingToDo pool s := by
  constructor
  · intro hfollows zone hzone h
    have hhosts := hfollows.hosts zone hzone h
    rw [hsame] at hhosts
    refine ⟨fun hadded => hhosts.mpr (Or.inr hadded), fun hremoved hmem => ?_⟩
    rcases hhosts.mp hmem with ⟨-, hnot⟩ | hadded
    · exact hnot hremoved
    · exact hadded.2 hremoved.1
  · intro hnothing
    refine ⟨fun zone hzone h => ?_, fun zone _ hne => by rw [hsame]; exact hne⟩
    obtain ⟨hadded, hremoved⟩ := hnothing zone hzone h
    rw [hsame]
    constructor
    · intro hmem
      exact Or.inl ⟨hmem, fun hgone => hremoved hgone hmem⟩
    · rintro (⟨hmem, -⟩ | hnew)
      · exact hmem
      · exact hadded hnew

/-- What a transaction that raises leaves. -/
theorem transaction_unchanged {α : Type} {m : PoolCall α} {e : PoolExc}
    (h : transaction m s = (.error e, s')) : Unchanged s s' := by
  unfold transaction Exec.rollback at h
  split at h
  · exact absurd (Prod.mk.inj h).1 (by simp)
  · obtain ⟨-, rfl⟩ := Prod.mk.inj h
    rfl

/--
**A change of a pool that raises changes nothing, and one that returns reaches its zones
only where there was nothing to do**: where every zone of the pool had what comes, and had
nothing of what goes.
-/
theorem updatePool_follows_iff {result : Except PoolExc Pool}
    (hfresh : ∀ r ∈ s.world.db.records, r.recordsetId < s.world.nextId)
    (hrun : updatePool ctx conf order pool s = (result, s')) :
    (∀ e, result = .error e → Unchanged s s') ∧
      ∀ updated, result = .ok updated → (Follows pool s s' ↔ NothingToDo pool s) := by
  constructor
  · rintro e rfl
    exact transaction_unchanged hrun
  · intro updated hok
    have hstays : StateStays s.world s' := by
      have hkeeps : Exec.Keeps (StateStays s.world) (updatePool ctx conf order pool) :=
        StateStays.updatePool pool
      have h := hkeeps s (recordsStay_refl s.world)
      rw [hrun] at h
      exact h
    exact follows_iff fun zoneId => hstays.nsHosts hfresh zoneId

section Sample

/-- A record of the zone. -/
def sampleRecord (id recordsetId : Nat) (data : String) : RecordRow where
  id := id
  zoneId := 2
  recordsetId := recordsetId
  tenantId := some "t"
  data := data
  hash := data
  managed := true
  action := .NONE
  status := .ACTIVE
  serial := 1

/-- A pool with one name server and one zone, whose NS recordset has these records. -/
def sampleState (records : List RecordRow) : State where
  world :=
    { db := { zones := [Sample.zone]
              recordsets := [⟨3, 2, some "t", "example.com.", .SOA, none, none⟩,
                ⟨4, 2, some "t", "example.com.", .NS, none, none⟩]
              records := sampleRecord 5 3 "soa" :: records }
      nextId := 10 }
  pools := [⟨0, "default", none, none, "UNMANAGED"⟩]
  nsRecords := [⟨9, 0, ⟨1, "ns1.example.net."⟩⟩]

/-- The pool is to have a second name server. -/
def samplePool : Pool where
  id := 0
  name := .loaded "default"
  description := .loaded none
  tenantId := .loaded none
  provisioner := .loaded "UNMANAGED"
  attributes := some []
  nsRecords := some [⟨some 9, .loaded 1, "ns1.example.net.", false⟩,
    ⟨none, Tracked.unset.set 2, "ns2.example.net.", true⟩]
  nameservers := some []
  targets := some []
  alsoNotifies := some []

/-- The update, where the zone has both name servers, or only the first. -/
def sampleBoth : State :=
  sampleState [sampleRecord 6 4 "ns1.example.net.", sampleRecord 7 4 "ns2.example.net."]

def sampleFirst : State := sampleState [sampleRecord 6 4 "ns1.example.net."]

def sampleUpdate (s : State) : Except PoolExc Pool × State :=
  updatePool Sample.ctx Sample.conf id samplePool s

/-- A zone that has both name servers keeps them. -/
theorem updatePool_follows_iff_sample :
    (sampleUpdate sampleBoth).1.isOk ∧
      Follows samplePool sampleBoth (sampleUpdate sampleBoth).2 := by
  have hok : (sampleUpdate sampleBoth).1.isOk := by decide +kernel
  have hnothing : NothingToDo samplePool sampleBoth := by
    intro zone hzone h
    obtain rfl := List.mem_singleton.mp hzone.mem
    have hhosts : nsHosts Sample.zone.id sampleBoth.world.db = requested samplePool := by decide
    rw [hhosts]
    exact ⟨fun hadded => hadded.1, fun hremoved => hremoved.2⟩
  cases hrun : sampleUpdate sampleBoth with
  | mk result s' =>
    rw [hrun] at hok
    cases result with
    | ok updated => exact ⟨hok, ((updatePool_follows_iff (by decide) hrun).2 updated rfl).mpr hnothing⟩
    | error e => exact absurd hok (by simp [Except.isOk, Except.toBool])

/-- **A zone that has the first only does not get the second**, though the call returns. -/
theorem new_server_not_stored :
    (sampleUpdate sampleFirst).1.isOk ∧
      ¬ Follows samplePool sampleFirst (sampleUpdate sampleFirst).2 := by
  refine ⟨by decide +kernel, fun hfollows => ?_⟩
  have hadded : Added samplePool sampleFirst "ns2.example.net." := ⟨by decide, by decide⟩
  have hmissing : "ns2.example.net." ∉ nsHosts Sample.zone.id
      (sampleUpdate sampleFirst).2.world.db := by decide +kernel
  have hzone : IsIn samplePool sampleFirst Sample.zone :=
    ⟨List.mem_singleton_self _, rfl, rfl, rfl⟩
  exact hmissing ((hfollows.hosts Sample.zone hzone _).mpr (Or.inr hadded))

end Sample

end

end Pools

end Designate
