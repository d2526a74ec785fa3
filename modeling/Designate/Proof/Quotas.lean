import Designate.Proof.Exclusive

/-!
# Quotas

Three limits are checked before a row is added, with what is counted adjusted by the
length of the list the request carries. A loop that adds counts anew at each turn, and
the recordset has had fewer records at each of them than the list is long; that is why
the adjusted value is enough.
-/

namespace Designate

open Exec

variable {ctx : Context} {conf : Conf} {zone : Zone} {recordset : RecordSet} {record : Record}
  {w w' : World} {row : RecordRow} {zoneId : Nat}

/-- The recordsets of a zone. -/
def Db.recordsetsIn (db : Db) (zoneId : Nat) : Nat := db.recordsets.countP fun s => s.zoneId == zoneId

/-- The records of a zone that are not managed. -/
def Db.unmanagedIn (db : Db) (zoneId : Nat) : Nat :=
  db.records.countP fun r => r.zoneId == zoneId && !r.managed

/-- The records of a recordset that are not managed. -/
def Db.unmanagedOf (db : Db) (recordsetId : Nat) : Nat :=
  db.records.countP fun r => r.recordsetId == recordsetId && !r.managed

/-- The zone `zoneId` is within the quotas of its tenant. -/
structure World.WithinQuota (conf : Conf) (zoneId : Nat) (w : World) : Prop where
  recordsets : ∀ z ∈ w.db.zones, z.id = zoneId →
    w.db.recordsetsIn zoneId ≤ conf.quota z.tenantId .zoneRecordsets
  records : ∀ z ∈ w.db.zones, z.id = zoneId →
    w.db.unmanagedIn zoneId ≤ conf.quota z.tenantId .zoneRecords
  recordsOf : ∀ z ∈ w.db.zones, z.id = zoneId → ∀ s ∈ w.db.recordsets, s.zoneId = zoneId →
    w.db.unmanagedOf s.id ≤ conf.quota z.tenantId .recordsetRecords

/-! ## Taking away -/

theorem shrinking_unmanagedIn (zoneId : Nat) :
    Shrinking fun r => r.zoneId == zoneId && !r.managed := by
  intro row new hp hu h
  have hid : new.zoneId = row.zoneId := congrArg (fun p => p.2.1) hp
  simp only [Bool.and_eq_true, Bool.not_eq_true'] at h ⊢
  exact ⟨hid ▸ h.1, hu h.2⟩

theorem shrinking_unmanagedOf (recordsetId : Nat) :
    Shrinking fun r => r.recordsetId == recordsetId && !r.managed := by
  intro row new hp hu h
  have hid : new.recordsetId = row.recordsetId := congrArg (fun p => p.2.2.1) hp
  simp only [Bool.and_eq_true, Bool.not_eq_true'] at h ⊢
  exact ⟨hid ▸ h.1, hu h.2⟩

theorem World.WithinQuota.of_fewer (h : w.WithinQuota conf zoneId) (hz : w'.db.zones = w.db.zones)
    (hs : (w'.db.recordsets.map RecordSetRow.place).Sublist (w.db.recordsets.map RecordSetRow.place))
    (hr : ∀ p, Shrinking p → w'.db.records.countP p ≤ w.db.records.countP p) :
    w'.WithinQuota conf zoneId := by
  refine ⟨fun z hm hid => ?_, fun z hm hid => ?_, fun z hm hid s hsm hzone => ?_⟩
  · have hcount := hs.countP_le (p := fun place => place.2.1 == zoneId)
    rw [List.countP_map, List.countP_map] at hcount
    exact Nat.le_trans hcount (h.recordsets z (hz ▸ hm) hid)
  · exact Nat.le_trans (hr _ (shrinking_unmanagedIn zoneId)) (h.records z (hz ▸ hm) hid)
  · obtain ⟨s₀, hm₀, he⟩ := mem_of_map_subset hs.subset hsm
    simp only [RecordSetRow.place, Prod.mk.injEq] at he
    have hle := h.recordsOf z (hz ▸ hm) hid s₀ hm₀ (he.2.1.trans hzone)
    rw [he.1] at hle
    exact Nat.le_trans (hr _ (shrinking_unmanagedOf s.id)) hle

/-- The invariant: next to the quotas, the links, by which a tenant sees all of a zone. -/
def Quotas (conf : Conf) (zoneId : Nat) (w : World) : Prop := w.Linked ∧ w.WithinQuota conf zoneId

theorem quotas_stable (conf : Conf) (zoneId : Nat) : Stable (Quotas conf zoneId) where
  linked h := h.1
  still hs h := ⟨linked_stable.still hs h.1, h.2.of_fewer hs.zones
    (by rw [hs.recordsets]) fun _ _ => Nat.le_of_eq (by rw [hs.records])⟩
  write new h hm hp hu := ⟨linked_stable.write new h.1 hm hp hu, h.2.of_fewer rfl
    (List.Sublist.refl _) fun _ hsh => hsh.countP_withRecord h.1 hm hp hu⟩
  drop id h := ⟨linked_stable.drop id h.1, h.2.of_fewer rfl (List.Sublist.refl _)
    fun _ _ => List.Sublist.countP_le List.filter_sublist⟩

theorem quotas_removable (conf : Conf) (zoneId : Nat) : Removable (Quotas conf zoneId) :=
  fun _ id h => ⟨h.1.withoutRecordset id, h.2.of_fewer rfl (List.Sublist.map _ List.filter_sublist)
    fun _ _ => List.Sublist.countP_le List.filter_sublist⟩

/-! ## What a check has counted -/

theorem limitCheck_ok {tenantId : Option String} {resource : Resource} {value : Int}
    (h : limitCheck conf tenantId resource value = .ok ()) :
    value < conf.quota tenantId resource := by
  unfold limitCheck at h
  split at h
  · exact absurd h (by simp)
  · omega

/-- A record of a zone that was found counts. -/
theorem World.Linked.visible (h : w.Linked) (hz : findZone ctx zone.id w.db = .ok zone)
    {r : RecordRow} (hr : r ∈ w.db.records) (hid : r.zoneId = zone.id) :
    ctx.sees r.tenantId = true ∧ w.db.liveZone r.zoneId = true := by
  obtain ⟨hm, -, hsees, -⟩ := findZone_mem hz
  obtain ⟨s, hs, -, hzone, hten⟩ := h.recordset r hr
  rw [← hten, h.tenant hm hs (hzone.trans hid), hid]
  exact ⟨hsees, liveZone_of_found hz⟩

/-- All the records of a kind that are in the zone are counted. -/
theorem countRecords_eq (h : w.Linked) (hz : findZone ctx zone.id w.db = .ok zone)
    {p : RecordRow → Bool} (hp : ∀ r ∈ w.db.records, p r = true → r.zoneId = zone.id) :
    countRecords ctx p w.db = w.db.records.countP p := by
  unfold countRecords
  rw [← List.countP_eq_length_filter]
  refine List.countP_congr fun r hr => ?_
  cases hpr : p r with
  | false => simp
  | true =>
    obtain ⟨hsees, hlive⟩ := h.visible hz hr (hp r hr hpr)
    simp [hsees, hlive]

theorem countRecordsets_eq (h : w.Linked) (hz : findZone ctx zone.id w.db = .ok zone) :
    countRecordsets ctx (fun s => s.zoneId == zone.id) w.db = w.db.recordsetsIn zone.id := by
  obtain ⟨hm, -, hsees, -⟩ := findZone_mem hz
  unfold countRecordsets Db.recordsetsIn
  rw [← List.countP_eq_length_filter]
  refine List.countP_congr fun s hs => ?_
  by_cases hid : s.zoneId = zone.id
  · simp [hid, h.tenant hm hs hid, hsees, liveZone_of_found hz]
  · simp [hid]

/-- The records of a recordset of the zone are in the zone. -/
theorem Placed.zone_eq (hp : Placed zone.id recordset.id w) (h : w.Linked) {r : RecordRow}
    (hr : r ∈ w.db.records) (hid : r.recordsetId = recordset.id) : r.zoneId = zone.id := by
  obtain ⟨s, hs, hsid, hzone⟩ := hp
  obtain ⟨s', hs', hs'id, hs'zone, -⟩ := h.recordset r hr
  obtain rfl := Table.eq_of_key h.recordsetIds hs' hs (hs'id.trans (hid.trans hsid.symm))
  rw [← hs'zone, hzone]

/-- A recordset that is new has no records yet. -/
theorem World.Linked.unmanagedOf_new (h : w.Linked) : w.db.unmanagedOf w.nextId = 0 := by
  refine List.countP_eq_zero.mpr fun r hr he => ?_
  rw [Bool.and_eq_true] at he
  exact absurd (eq_of_beq he.1) (Nat.ne_of_lt (h.recordsetId_lt hr))

/-- What the quota of records leaves room for. -/
theorem enforceRecordQuota_ok (h : w.Linked) (hz : findZone ctx zone.id w.db = .ok zone)
    (hp : Placed zone.id recordset.id w) {len : Nat}
    (hq : enforceRecordQuota ctx conf zone recordset.id false len w.db = .ok ()) :
    w.db.unmanagedIn zone.id + len < conf.quota zone.tenantId .zoneRecords +
        w.db.unmanagedOf recordset.id ∧
      w.db.unmanagedOf recordset.id < conf.quota zone.tenantId .recordsetRecords := by
  obtain ⟨hzone, hrecordset⟩ := bind_check hq
  have hzone := limitCheck_ok hzone
  have hrecordset := limitCheck_ok hrecordset
  have hin : countRecords ctx (fun r => r.zoneId == zone.id && !r.managed) w.db =
      w.db.unmanagedIn zone.id := countRecords_eq h hz fun r _ hr => by
    rw [Bool.and_eq_true] at hr
    exact eq_of_beq hr.1
  have hof : countRecords ctx (fun r => r.recordsetId == recordset.id && !r.managed) w.db =
      w.db.unmanagedOf recordset.id := countRecords_eq h hz fun r hm hr => by
    rw [Bool.and_eq_true] at hr
    exact hp.zone_eq h hm (eq_of_beq hr.1)
  rw [hin, hof] at hzone
  rw [hof] at hrecordset
  omega

/-! ## Adding -/

/-- A row is managed if the object was. -/
theorem Stores.managed {db : Db} {id : Nat}
    (h : Stores ctx conf zone recordset record db id row) :
    row.managed = record.managed.write false := by
  obtain ⟨-, z, -, hrow, -⟩ := h
  unfold Record.insertRow at hrow
  split at hrow
  · simp only [Option.bind_eq_bind, Option.bind_eq_some_iff, Option.pure_def,
      Option.some.injEq] at hrow
    obtain ⟨_, -, _, -, _, -, _, -, rfl⟩ := hrow
    rfl
  · exact absurd hrow (by simp)

/-- A stored object cannot be stored again: it has the zone already. -/
theorem Stores.unset {db : Db} {id : Nat}
    (h : Stores ctx conf zone recordset record db id row) : record.zoneId ≠ .loaded zone.id := by
  intro hloaded
  obtain ⟨-, z, -, hrow, -⟩ := h
  have hz : ((record.pending zone).placed conf zone.id recordset.id).zoneId =
      record.zoneId.set zone.id := rfl
  have hc : (record.zoneId.set zone.id).changed = false := by
    rw [hloaded]
    simp [Tracked.set]
  unfold Record.insertRow at hrow
  rw [hz, hc] at hrow
  exact absurd hrow (by simp)

/-- A record is added within the quotas if it is managed or if its recordset is not full. -/
theorem Quotas.inserted (h : Quotas conf zoneId w) (hz : findZone ctx zone.id w.db = .ok zone)
    (hp : Placed zone.id recordset.id w)
    (hstores : Stores ctx conf zone recordset record w.db w.nextId row)
    (hroom : row.managed = true ∨ recordset.managed = false ∧
      w.db.unmanagedOf recordset.id < recordset.records.length) :
    Quotas conf zoneId (w.inserted row) := by
  obtain ⟨hl, hq⟩ := h
  have hrow := hstores.inserted
  have happend : (w.inserted row).db.records = w.db.records ++ [row] := rfl
  have hin : (w.inserted row).db.unmanagedIn zoneId = w.db.unmanagedIn zoneId +
      if row.zoneId = zoneId ∧ row.managed = false then 1 else 0 := by
    simp [Db.unmanagedIn, happend, List.countP_append, List.countP_cons]
  have hof : ∀ id, (w.inserted row).db.unmanagedOf id = w.db.unmanagedOf id +
      if row.recordsetId = id ∧ row.managed = false then 1 else 0 := by
    intro id
    simp [Db.unmanagedOf, happend, List.countP_append, List.countP_cons]
  refine ⟨(linked_steady ctx conf).insert hl hp hstores, hq.recordsets, fun z hm hid => ?_,
    fun z hm hid s hs hzone => ?_⟩
  · have hle := hq.records z hm hid
    rw [hin]
    split
    · rename_i hone
      rcases hroom with hmanaged | ⟨hmanaged, hroom⟩
      · rw [hone.2] at hmanaged
        exact absurd hmanaged (by simp)
      · -- the zone of the request is the one whose records are counted
        have hzid : zone.id = zoneId := hrow.zoneId.symm.trans hone.1
        obtain rfl : z = zone :=
          Table.eq_of_key hl.zoneIds hm (findZone_mem hz).1 (hid.trans hzid.symm)
        have hcheck := hstores.1
        rw [hmanaged] at hcheck
        have hok := (enforceRecordQuota_ok hl hz hp hcheck).1
        rw [hzid] at hok
        omega
    · exact hle
  · have hle := hq.recordsOf z hm hid s hs hzone
    rw [hof]
    split
    · rename_i hone
      rcases hroom with hmanaged | ⟨hmanaged, -⟩
      · rw [hone.2] at hmanaged
        exact absurd hmanaged (by simp)
      · have hsid : recordset.id = s.id := hrow.recordsetId.symm.trans hone.1
        obtain ⟨s', hs', hs'id, hs'zone⟩ := hp
        obtain rfl := Table.eq_of_key hl.recordsetIds hs' hs (hs'id.trans hsid)
        have hzid : zone.id = zoneId := hs'zone.symm.trans hzone
        obtain rfl : z = zone :=
          Table.eq_of_key hl.zoneIds hm (findZone_mem hz).1 (hid.trans hzid.symm)
        have hcheck := hstores.1
        rw [hmanaged] at hcheck
        have hok := (enforceRecordQuota_ok hl hz ⟨s', hs', hs'id, hs'zone⟩ hcheck).2
        rw [hsid] at hok
        omega
    · exact hle

/-- A recordset is added within the quotas. -/
theorem Quotas.withRecordset (h : Quotas conf zoneId w) {recordset : NewRecordSet}
    (hz : findZone ctx zone.id w.db = .ok zone)
    (hs : StoresRecordset ctx conf zone recordset w.db) :
    Quotas conf zoneId (w.withRecordsetRow (recordset.row zone w.nextId)) := by
  obtain ⟨hl, hq⟩ := h
  obtain ⟨hm, -⟩ := findZone_mem hz
  -- the check counts what the zone has, which is what the quota is about
  have hroom := limitCheck_ok hs.1
  rw [countRecordsets_eq hl hz] at hroom
  have hin : (w.withRecordsetRow (recordset.row zone w.nextId)).db.recordsetsIn zoneId =
      w.db.recordsetsIn zoneId + if zone.id = zoneId then 1 else 0 := by
    simp [Db.recordsetsIn, World.withRecordsetRow, NewRecordSet.row, List.countP_append,
      List.countP_cons]
  refine ⟨hl.withRecordsetRow rfl ⟨zone, hm, rfl, rfl⟩,
    fun z hzm hid => ?_, hq.records, fun z hzm hid s hsm hzone => ?_⟩
  · have hle := hq.recordsets z hzm hid
    rw [hin]
    split
    · rename_i hzid
      obtain rfl : z = zone := Table.eq_of_key hl.zoneIds hzm hm (hid.trans hzid.symm)
      rw [hzid] at hroom
      omega
    · exact hle
  · -- a new recordset has no records yet
    rcases List.mem_append.mp hsm with hsm | hsm
    · exact hq.recordsOf z hzm hid s hsm hzone
    · rw [List.mem_singleton.mp hsm]
      exact Nat.le_trans (Nat.le_of_eq (hl.unmanagedOf_new)) (Nat.zero_le _)

/-! ## Loops -/

/-- What a loop can count on in the zone of the call. -/
def InZone (ctx : Context) (conf : Conf) (zoneId : Nat) (zone : Zone) (recordset : RecordSet)
    (w : World) : Prop :=
  Quotas conf zoneId w ∧ (w.Linked ∧ findZone ctx zone.id w.db = .ok zone) ∧
    w.Linked ∧ Placed zone.id recordset.id w

theorem inZone_stable : Stable (InZone ctx conf zoneId zone recordset) :=
  (quotas_stable conf zoneId).and ((Stable.found ctx zone).and (Stable.placed zone.id recordset.id))

theorem InZone.inserted (h : InZone ctx conf zoneId zone recordset w)
    (hstores : Stores ctx conf zone recordset record w.db w.nextId row)
    (hroom : row.managed = true ∨ recordset.managed = false ∧
      w.db.unmanagedOf recordset.id < recordset.records.length) :
    InZone ctx conf zoneId zone recordset (w.inserted row) := by
  obtain ⟨hq, ⟨-, hz⟩, -, hp⟩ := h
  have hnew := hq.inserted hz hp hstores hroom
  exact ⟨hnew, ⟨hnew.1, hz⟩, hnew.1, hp⟩

/-- The invariant of a loop: the recordset had `m` records before, and `k` more since. -/
def Filling (ctx : Context) (conf : Conf) (zoneId : Nat) (zone : Zone) (recordset : RecordSet)
    (m k : Nat) (w : World) : Prop :=
  InZone ctx conf zoneId zone recordset w ∧ w.Linked ∧ w.db.unmanagedOf recordset.id ≤ m + k

theorem filling_counted (m : Nat) : Counted (Filling ctx conf zoneId zone recordset m) where
  stable k := inZone_stable.and (Stable.records_le (m + k) (shrinking_unmanagedOf recordset.id))
  mono _ _ h := ⟨h.1, h.2.1, Nat.le_succ_of_le h.2.2⟩

/-- One turn adds one record at most. -/
theorem Filling.inserted {m k : Nat} (h : Filling ctx conf zoneId zone recordset m k w)
    (hstores : Stores ctx conf zone recordset record w.db w.nextId row)
    (hroom : row.managed = true ∨ recordset.managed = false)
    (hk : m + k < recordset.records.length) :
    Filling ctx conf zoneId zone recordset m (k + 1) (w.inserted row) := by
  obtain ⟨hin, hl, hcount⟩ := h
  have hnew := hin.inserted hstores (hroom.imp_right fun h => ⟨h, by omega⟩)
  refine ⟨hnew, hnew.1.1, ?_⟩
  have happend : (w.inserted row).db.unmanagedOf recordset.id = w.db.unmanagedOf recordset.id +
      [row].countP fun r => r.recordsetId == recordset.id && !r.managed :=
    List.countP_append
  have hone : [row].countP (fun r => r.recordsetId == recordset.id && !r.managed) ≤ 1 :=
    List.countP_le_length
  omega

/-- A new object is managed as it was made. -/
theorem made_managed {managed : Bool} {data : String} :
    (Record.made managed data).managed.value = some true ↔ managed = true := by
  cases managed <;> simp [Record.made, Record.new, Record.newManaged]

theorem createAll_quotas (h : Quotas conf zoneId w) {plan : Nat → Faults}
    {recordset : NewRecordSet} {call : RecordsetCall}
    (hcreates : call.Creates ctx conf w plan zone recordset) :
    Quotas conf zoneId (createAll ctx conf zone
      (RecordSet.ofRow (recordset.row zone w.nextId) recordset.records) plan recordset.records
      (w.withRecordsetRow (recordset.row zone w.nextId))).2 := by
  cases call with
  | create plan' zoneId' name type ttl description managed texts =>
    obtain ⟨-, -, hz, rfl, hs⟩ := hcreates
    have hstored := h.withRecordset hz hs
    refine ((filling_counted 0).createAll (n := (texts.map (Record.made managed)).length)
      (fun k hk record hm w row hJ hs => hJ.inserted hs ?_ (by rw [Nat.zero_add]; exact hk)) plan
      (Nat.le_of_eq (Nat.zero_add _))
      ⟨⟨hstored, ⟨hstored.1, hz⟩, hstored.1, (typed_stored h.1 _).1⟩, hstored.1,
        Nat.le_of_eq h.1.unmanagedOf_new⟩).1.1
    -- the records of the list are all managed, or the recordset is not
    obtain ⟨data, -, rfl⟩ := List.mem_map.mp hm
    cases managed with
    | true => exact Or.inl (hs.managed.trans rfl)
    | false =>
      refine Or.inr (List.any_eq_false.mpr fun record hr => ?_)
      obtain ⟨data', -, rfl⟩ := List.mem_map.mp hr
      simp [Record.made, Record.new]
  | _ => exact hcreates.elim

/-- A list is all managed if any of it is. -/
def RecordSet.Uniform (recordset : RecordSet) : Prop :=
  recordset.managed = true → ∀ record ∈ recordset.records, record.managed.value = some true

theorem applyEntries_quotas (h : Quotas conf zoneId w) {plan : Nat → Faults} {call : RecordsetCall}
    {ttlChanged : Bool} {entries : List (Record × Entry)}
    (hloops : call.Loops ctx w plan zone recordset ttlChanged entries) (huniform : recordset.Uniform) :
    Quotas conf zoneId (applyEntries ctx conf zone recordset ttlChanged plan entries w).2 := by
  obtain ⟨s, stored, list, -, hz, -, -, -, -, -, hlist⟩ := hloops.guards
  have hp := hloops.placed
  obtain ⟨-, hcount, hvalid⟩ := doUpdateGuard_ok hlist
  have hlen : recordset.records.length = entries.length := by
    rw [← (formatValidate_spec hvalid).1, List.length_map]
  have hle : creates entries ≤ entries.length := List.countP_le_length
  -- the list is as long as the records there are and those it creates
  have hstart : w.db.unmanagedOf recordset.id ≤ recordset.records.length - creates entries := by
    have heq := eq_of_beq hcount
    rw [countP_isCreate hvalid, countRecords_eq h.1 hz fun r hr hid =>
      hp.zone_eq h.1 hr (eq_of_beq hid)] at heq
    rw [heq]
    refine List.countP_mono_left fun r _ hr => ?_
    rw [Bool.and_eq_true] at hr
    exact hr.1
  refine ((filling_counted (recordset.records.length - creates entries)).applyEntries
    (n := creates entries) plan (fun p hp => hloops.steadfast hp)
    (fun k hk t ht _ hJ row hstores => hJ.inserted hstores ?_ (by omega))
    (Nat.le_of_eq (Nat.zero_add _)) ⟨⟨h, ⟨h.1, hz⟩, h.1, hp⟩, h.1, hstart⟩).1.1
  cases hm : recordset.managed with
  | false => exact Or.inr rfl
  | true =>
    refine Or.inl ?_
    have hmem := turns_entry ht
    rcases hloops.object hmem with ⟨row₀, hrow₀, data, he⟩ | ⟨managed, data, he⟩
    · obtain ⟨hrow₀, hid⟩ := mem_recordsOf.mp hrow₀
      have hzone : t.entry.1.zoneId = .loaded zone.id := by
        rw [he, ← hp.zone_eq h.1 hrow₀ hid]
        rfl
      exact absurd hzone hstores.unset
    · have hvalue : t.entry.1.managed.value = some true := by
        refine huniform hm _ ?_
        rw [← (formatValidate_spec hvalid).1]
        exact List.mem_map_of_mem hmem
      rw [he, made_managed] at hvalue
      rw [hstores.managed, he, hvalue]
      rfl

/-- The default records are managed. -/
theorem quotas_admits {name : String} {type : RRType} {ttl : Option Nat} {data : String}
    (h : Quotas conf zoneId w) (hz : findZone ctx zone.id w.db = .ok zone)
    (hs : StoresRecordset ctx conf zone
      { name := name, type := type, ttl := ttl, description := none
        records := [Record.newManaged data] } w.db) :
    ∃ J, Stable.Admits ctx conf zone
      { name := name, type := type, ttl := ttl, description := none
        records := [Record.newManaged data] } (Quotas conf zoneId) w J := by
  have hnew := h.withRecordset hz hs
  refine ⟨InZone ctx conf zoneId zone _, inZone_stable, fun _ h => h.1,
    ⟨hnew, ⟨hnew.1, hz⟩, hnew.1, (typed_stored h.1 _).1⟩, fun w' record row hm hJ hstores => ?_⟩
  refine hJ.inserted hstores (Or.inl ?_)
  rw [hstores.managed, List.mem_singleton.mp hm]
  rfl

/-! ## Runs -/

/-- The lists of the call are all managed or all unmanaged. -/
def RecordsetInput.Uniform (input : RecordsetInput) (w : World) : Prop :=
  ∀ plan zone recordset ttlChanged entries,
    input.call.Loops input.ctx w plan zone recordset ttlChanged entries → recordset.Uniform

theorem RecordsetInput.run_quotas {input : RecordsetInput} (h : Quotas conf zoneId w)
    (huniform : input.Uniform w) : Quotas conf zoneId (input.run conf w) :=
  RecordsetInput.run_keeps (quotas_stable conf zoneId) (quotas_removable conf zoneId) h
    (fun _ _ _ hcreates => createAll_quotas h hcreates)
    (fun plan zone recordset ttlChanged entries hloops => applyEntries_quotas h hloops
      (huniform plan zone recordset ttlChanged entries hloops))
    fun _ _ _ _ _ _ h hz hs => quotas_admits h hz hs

/-- An empty zone is within any quota. -/
theorem quotas_empty (conf : Conf) (h : w.Linked)
    (hempty : ∀ s ∈ w.db.recordsets, s.zoneId ≠ zoneId) : Quotas conf zoneId w := by
  have hin : w.db.recordsetsIn zoneId = 0 :=
    List.countP_eq_zero.mpr fun s hs he => hempty s hs (eq_of_beq he)
  have hrecords : w.db.unmanagedIn zoneId = 0 := by
    refine List.countP_eq_zero.mpr fun r hr he => ?_
    rw [Bool.and_eq_true] at he
    obtain ⟨s, hs, -, hzone, -⟩ := h.recordset r hr
    exact hempty s hs (hzone.trans (eq_of_beq he.1))
  refine ⟨h, fun z _ _ => ?_, fun z _ _ => ?_, fun z _ _ s hs hzone => absurd hzone (hempty s hs)⟩
  · rw [hin]
    exact Nat.zero_le _
  · rw [hrecords]
    exact Nat.zero_le _

/--
**Quotas hold along every run** from an empty zone, whichever steps of the device fail, if
each list is all managed or all unmanaged.
-/
theorem run_withinQuota (conf : Conf) (inputs : List RecordsetInput) (w : World) (zoneId : Nat)
    (hw : w.Linked) (hempty : ∀ s ∈ w.db.recordsets, s.zoneId ≠ zoneId)
    (huniform : ∀ t ∈ Run.transitions (RecordsetInput.run conf) inputs w,
      t.input.Uniform t.before) :
    (∀ t ∈ Run.transitions (RecordsetInput.run conf) inputs w, t.before.WithinQuota conf zoneId) ∧
      (Run.final (RecordsetInput.run conf) inputs w).WithinQuota conf zoneId := by
  obtain ⟨hbefore, hfinal⟩ := Run.invariant (I := Quotas conf zoneId)
    (G := fun (input : RecordsetInput) w => input.Uniform w)
    (fun _ _ h hu => RecordsetInput.run_quotas h hu) (quotas_empty conf hw hempty) huniform
  exact ⟨fun t ht => (hbefore t ht).2, hfinal.2⟩

/-! ## At the sample -/

/-- The zone without its recordsets. -/
def Sample.empty : World :=
  { Sample.world with db := { Sample.world.db with recordsets := [], records := [] } }

/-- A recordset of two records, of which the first is refused by the device. -/
def Sample.pair : RecordsetInput :=
  ⟨Sample.ctx, .create (fun n => if n = 0 then fun site => site = .device else Faults.none) 2
    "ftp.example.com." .A none none false ["192.0.2.1", "192.0.2.2"]⟩

/-- A second record for it after all. -/
def Sample.addendum : RecordsetInput :=
  ⟨Sample.ctx, .update (fun _ => Faults.none) 2 17 none none
    [.made false ("nochange;" ++ Text.uuidText 19 ++ ";192.0.2.2"),
      .made false "create;;192.0.2.3"]⟩

/-- Quotas the calls below come close to. -/
def Sample.tight : Conf := { Sample.conf with quota := fun _ _ => 3 }

theorem addendum_uniform (w : World) : Sample.addendum.Uniform w := by
  intro plan zone recordset ttlChanged entries hloops hmanaged
  obtain ⟨-, stored, -, rfl, -, -⟩ := hloops
  -- neither record of the list is managed
  exact absurd hmanaged (by simp [RecordSet.relisted, RecordSet.managed, ListedRecord.objects,
    Record.made, Record.new])

theorem run_withinQuota_sample :
    (∀ t ∈ Run.transitions (RecordsetInput.run Sample.tight)
        [⟨Sample.ctx, .createDefault 2⟩, Sample.pair, Sample.addendum] Sample.empty,
      t.before.WithinQuota Sample.tight 2) ∧
      (Run.final (RecordsetInput.run Sample.tight)
        [⟨Sample.ctx, .createDefault 2⟩, Sample.pair, Sample.addendum] Sample.empty).WithinQuota
          Sample.tight 2 := by
  have hlinked : Sample.empty.Linked :=
    ⟨by decide, by decide, by decide, by decide, by decide, by decide, by decide, by decide⟩
  refine run_withinQuota Sample.tight _ Sample.empty 2 hlinked (by decide) fun t ht => ?_
  rcases List.mem_cons.mp ht with rfl | ht
  · exact fun _ _ _ _ _ h => h.elim
  · rcases List.mem_pair.mp ht with rfl | rfl
    · exact fun _ _ _ _ _ h => h.elim
    · exact addendum_uniform _

end Designate
