import Designate.Proof.Atomic
import Designate.Upsert
import Designate.ZoneSync

/-!
# What the sync of a secondary zone stores

Recordsets are found, created and purged by name and type as they should be. The
records they come with are not looked at: a stored recordset keeps the records it has,
and a new one has none.
-/

namespace Designate

namespace ZoneSync

open Exec

variable {ctx : Context} {zone : ZoneObject} {row : Zone} {w w' : World} {zoneId : Nat}
  {rrset : ReceivedRecordSet} {received : List ReceivedRecordSet} {data : List RecordSetRow}

/-! ## Keys -/

/-- What the unique constraint of the recordsets is over. -/
def key (s : RecordSetRow) : Nat × String × RdType := (s.zoneId, s.name, .known s.type)

/-- The key a received recordset has in a zone. -/
def keyIn (zoneId : Nat) (rrset : ReceivedRecordSet) : Nat × String × RdType :=
  (zoneId, rrset.name, rrset.type)

/-- A row with what was received for it. -/
def put (rrset : ReceivedRecordSet) (s : RecordSetRow) : RecordSetRow := storedCurrent s rrset

theorem key_put (rrset : ReceivedRecordSet) (s : RecordSetRow) : key (put rrset s) = key s := rfl

theorem isFor_iff {s : RecordSetRow} (hs : s.zoneId = zoneId) :
    ReceivedRecordSet.isFor rrset s = true ↔ keyIn zoneId rrset = key s := by
  simp only [ReceivedRecordSet.isFor, keyIn, key, Bool.and_eq_true, beq_iff_eq, Prod.mk.injEq, hs,
    true_and]
  exact ⟨fun h => ⟨h.1.symm, h.2.symm⟩, fun h => ⟨h.1.symm, h.2.symm⟩⟩

/-- What the constraints of the tables say of recordsets. -/
structure Sound (w : World) : Prop where
  ids : (w.db.recordsets.map RecordSetRow.id).Nodup
  keys : (w.db.recordsets.map key).Nodup
  below : ∀ s ∈ w.db.recordsets, s.id < w.nextId
  records : ∀ r ∈ w.db.records, r.recordsetId < w.nextId

/-- The rows that were loaded are rows of the zone, and the caller's to see. -/
def Loaded (ctx : Context) (zoneId : Nat) (data : List RecordSetRow) (w : World) : Prop :=
  ∀ s ∈ data, s ∈ w.db.recordsets ∧ s.zoneId = zoneId ∧ ctx.sees s.tenantId = true

/-- Each received recordset has a type the column takes, and its row, if it has one, is loaded. -/
def Fits (zoneId : Nat) (data : List RecordSetRow) (received : List ReceivedRecordSet)
    (w : World) : Prop :=
  ∀ e ∈ received, e.type.stored = true ∧
    ∀ s ∈ w.db.recordsets, keyIn zoneId e = key s → s ∈ data

/-! ## One recordset -/

/-- The tables with a received recordset put over its row. -/
def overRow (current : RecordSetRow) (rrset : ReceivedRecordSet) (w : World) : World :=
  w.withDb { w.db with
    recordsets := Table.update RecordSetRow.id current.id (put rrset) w.db.recordsets }

theorem updateRecordsetRow_current {current : RecordSetRow} (hw : Sound w)
    (hm : current ∈ w.db.recordsets) (hsees : ctx.sees current.tenantId = true) :
    updateRecordsetRow ctx (currentUpdated current rrset) w = (.ok (), overRow current rrset w) := by
  have hfind : Table.find RecordSetRow.id current.id (fun r => ctx.sees r.tenantId)
      Exc.RecordSetNotFound w.db.recordsets = .ok current :=
    Table.find_of_mem hw.ids hm rfl hsees
  -- only the ttl can differ, as the object is the row but for what was received
  have hwrite : Table.update RecordSetRow.id current.id
      (fun r => { r with ttl := (currentUpdated current rrset).ttl.write r.ttl
                         description := (currentUpdated current rrset).description.write
                           r.description }) w.db.recordsets =
      Table.update RecordSetRow.id current.id (put rrset) w.db.recordsets := by
    unfold Table.update
    refine List.map_congr_left fun r hr => ?_
    by_cases hid : r.id = current.id
    · obtain rfl : r = current := Table.eq_of_key hw.ids hr hm hid
      rw [if_pos rfl, if_pos rfl]
      unfold currentUpdated put storedCurrent
      cases rrset.ttl with
      | none => rfl
      | some ttl => simp [RecordSet.ofRow]
    · rw [if_neg hid, if_neg hid]
  unfold updateRecordsetRow
  have hrow : (currentUpdated current rrset).id = current.id := rfl
  simp only [Exec.write, hrow, hfind]
  rw [hwrite]
  rfl

theorem Sound.overRow {current : RecordSetRow} (hw : Sound w) : Sound (overRow current rrset w) where
  ids := by
    show ((Table.update RecordSetRow.id current.id (put rrset) w.db.recordsets).map _).Nodup
    rw [Table.map_update (f := put rrset) fun _ _ _ => rfl]
    exact hw.ids
  keys := by
    show ((Table.update RecordSetRow.id current.id (put rrset) w.db.recordsets).map _).Nodup
    rw [Table.map_update (f := put rrset) fun _ _ _ => rfl]
    exact hw.keys
  below s hs := by
    rcases Table.mem_update.mp hs with ⟨hm, -⟩ | ⟨s₀, hm, -, rfl⟩
    · exact hw.below s hm
    · exact hw.below s₀ hm
  records := hw.records

/-- The row a received recordset is created as. -/
def createdRow (row : Zone) (rrset : ReceivedRecordSet) (type : RRType) (id : Nat) : RecordSetRow :=
  { id := id, zoneId := row.id, tenantId := row.tenantId, name := rrset.name, type := type
    ttl := rrset.ttlValue, description := none }

/-- The key is taken. -/
def Taken (zoneId : Nat) (rrset : ReceivedRecordSet) (w : World) : Prop :=
  ∃ s ∈ w.db.recordsets, keyIn zoneId rrset = key s

theorem not_taken_iff {type : RRType} (ht : rrset.type = .known type) : ¬ Taken zoneId rrset w ↔
    ∀ s ∈ w.db.recordsets, ¬ (s.zoneId = zoneId ∧ s.name = rrset.name ∧ s.type = type) := by
  unfold Taken keyIn key
  rw [ht]
  push Not
  simp only [Prod.mk.injEq, RdType.known.injEq, ne_eq, not_and]
  exact forall₂_congr fun s _ =>
    ⟨fun h hz hn ht => h hz.symm hn.symm ht.symm, fun h hz hn ht => h hz.symm hn.symm ht.symm⟩

theorem createRecordset_free {type : RRType} (hz : findZone ctx zoneId w.db = .ok row)
    (ht : rrset.type = .known type) (hfree : ¬ Taken zoneId rrset w) :
    createRecordset ctx zoneId rrset w =
      (.ok w.nextId, w.withRecordsetRow (createdRow row rrset type w.nextId)) := by
  obtain ⟨-, rfl, -⟩ := findZone_mem hz
  unfold createRecordset
  rw [ht]
  dsimp only
  rw [bind_ok (insertRecordset_ok hz ((not_taken_iff ht).mp hfree))]
  rfl

/-- What is created has a type the column takes, and no one else's key. -/
theorem createRecordset_returns {id : Nat} (hz : findZone ctx zoneId w.db = .ok row)
    (h : createRecordset ctx zoneId rrset w = (.ok id, w')) :
    ∃ type, rrset.type = .known type ∧ ¬ Taken zoneId rrset w := by
  obtain ⟨-, rfl, -⟩ := findZone_mem hz
  unfold createRecordset at h
  cases ht : rrset.type with
  | other text =>
    rw [ht] at h
    obtain ⟨z, -, h⟩ := of_read_bind h
    exact absurd (congrArg Prod.fst h) (by simp)
  | known type =>
    refine ⟨type, rfl, fun htaken => ?_⟩
    rw [ht] at h
    dsimp only at h
    have hnot := mt (not_taken_iff ht).mpr (not_not.mpr htaken)
    rw [bind_error (insertRecordset_taken hz hnot)] at h
    exact absurd (congrArg Prod.fst h) (by simp)

theorem Sound.created {type : RRType} (hw : Sound w) (ht : rrset.type = .known type)
    (hfree : ¬ Taken row.id rrset w) :
    Sound (w.withRecordsetRow (createdRow row rrset type w.nextId)) where
  ids := Table.append_nodup hw.ids fun s hs => Nat.ne_of_lt (hw.below s hs)
  keys := by
    refine Table.append_nodup hw.keys fun s hs he => hfree ⟨s, hs, ?_⟩
    rw [he, keyIn, ht]
    rfl
  below s hs := by
    rcases List.mem_append.mp hs with hs | hs
    · exact Nat.lt_succ_of_lt (hw.below s hs)
    · rw [List.mem_singleton.mp hs]
      exact Nat.lt_succ_self _
  records r hr := Nat.lt_succ_of_lt (hw.records r hr)

/-! ## The loop -/

/-- A row, as far as the loop looks at it. -/
def tag (s : RecordSetRow) : Nat × Nat × String × RdType := (s.id, key s)

theorem taken_iff : Taken zoneId rrset w ↔ ∃ id, (id, keyIn zoneId rrset) ∈ w.db.recordsets.map tag := by
  constructor
  · rintro ⟨s, hs, hk⟩
    exact ⟨s.id, hk ▸ List.mem_map_of_mem (f := tag) hs⟩
  · rintro ⟨id, hm⟩
    obtain ⟨s, hs, he⟩ := List.mem_map.mp hm
    exact ⟨s, hs, (congrArg Prod.snd he).symm⟩

/-- A row with the one received recordset of its key put over it. -/
def overAll (zoneId : Nat) (received : List ReceivedRecordSet) : RecordSetRow → RecordSetRow :=
  Upsert.upsert key (keyIn zoneId) put received

theorem overAll_cases (zoneId : Nat) (received : List ReceivedRecordSet) (s : RecordSetRow) :
    (∃ e ∈ received, keyIn zoneId e = key s ∧ overAll zoneId received s = put e s) ∨
      ((∀ e ∈ received, keyIn zoneId e ≠ key s) ∧ overAll zoneId received s = s) :=
  Upsert.upsert_cases

/-- What the loop leaves: `news` are the recordsets it created, `keep` those that are to stay. -/
structure Merged (zoneId : Nat) (received : List ReceivedRecordSet) (w w' : World)
    (keep : List Nat) (news : List RecordSetRow) : Prop where
  recordsets : w'.db.recordsets = w.db.recordsets.map (overAll zoneId received) ++ news
  records : w'.db.records = w.db.records
  zones : w'.db.zones = w.db.zones
  sound : Sound w'
  fresh : ∀ s ∈ news, w.nextId ≤ s.id
  created : ∀ s ∈ news, ∃ e ∈ received,
    keyIn zoneId e = key s ∧ s.ttl = e.ttlValue ∧ ¬ Taken zoneId e w
  creates : ∀ e ∈ received, ¬ Taken zoneId e w →
    ∃ s ∈ news, keyIn zoneId e = key s ∧ s.ttl = e.ttlValue
  keep : ∀ id, id ∈ keep ↔
    (∃ e ∈ received, (id, keyIn zoneId e) ∈ w.db.recordsets.map tag) ∨ ∃ s ∈ news, s.id = id

theorem overRow_tags {current : RecordSetRow} :
    (overRow current rrset w).db.recordsets.map tag = w.db.recordsets.map tag :=
  Table.map_update (f := put rrset) fun _ _ _ => rfl

/-- The loop goes on from a row that was there. -/
theorem Merged.cons_current {current : RecordSetRow} {keep : List Nat} {news : List RecordSetRow}
    (hw : Sound w) (hd : ((rrset :: received).map (keyIn zoneId)).Nodup)
    (hm : current ∈ w.db.recordsets) (hk : keyIn zoneId rrset = key current)
    (h : Merged zoneId received (overRow current rrset w) w' keep news) :
    Merged zoneId (rrset :: received) w w' (current.id :: keep) news := by
  have htaken : ∀ e, Taken zoneId e (overRow current rrset w) ↔ Taken zoneId e w := fun e => by
    rw [taken_iff, taken_iff, overRow_tags]
  have hhead : Taken zoneId rrset w := ⟨current, hm, hk⟩
  refine ⟨?_, h.records, h.zones, h.sound, h.fresh, fun s hs => ?_, fun e he hfree => ?_,
    fun id => ?_⟩
  · rw [h.recordsets]
    show (List.map _ _).map _ ++ news = _
    rw [List.map_map]
    congr 1
    refine List.map_congr_left fun s hs => ?_
    rw [Function.comp_apply, overAll, overAll, Upsert.upsert_cons key_put hd]
    congr 1
    -- the row of the key is the one row of the id
    by_cases hid : s.id = current.id
    · obtain rfl : s = current := Table.eq_of_key hw.ids hs hm hid
      rw [if_pos rfl, if_pos hk]
    · rw [if_neg hid, if_neg fun he => hid ?_]
      rw [Table.eq_of_key hw.keys hs hm (he.symm.trans hk)]
  · obtain ⟨e, he, hke, httl, hfree⟩ := h.created s hs
    exact ⟨e, List.mem_cons_of_mem _ he, hke, httl, fun ht => hfree ((htaken e).mpr ht)⟩
  · rcases List.mem_cons.mp he with rfl | he
    · exact absurd hhead hfree
    · exact h.creates e he fun ht => hfree ((htaken e).mp ht)
  · rw [List.mem_cons, h.keep, overRow_tags, List.exists_mem_cons_iff, or_assoc, ← or_assoc]
    have hiff : id = current.id ↔ (id, keyIn zoneId rrset) ∈ w.db.recordsets.map tag := by
      constructor
      · rintro rfl
        exact hk ▸ List.mem_map_of_mem (f := tag) hm
      · intro hmem
        obtain ⟨s, hs, he⟩ := List.mem_map.mp hmem
        have hkey : key s = key current := (congrArg Prod.snd he).trans hk
        rw [← Table.eq_of_key hw.keys hs hm hkey]
        exact (congrArg Prod.fst he).symm
    rw [hiff, or_assoc]

/-- The loop goes on from a row it has created. -/
theorem Merged.cons_created {type : RRType} {keep : List Nat} {news : List RecordSetRow}
    (hd : ((rrset :: received).map (keyIn row.id)).Nodup) (ht : rrset.type = .known type)
    (hfree : ¬ Taken row.id rrset w)
    (h : Merged row.id received (w.withRecordsetRow (createdRow row rrset type w.nextId)) w' keep
      news) :
    Merged row.id (rrset :: received) w w' (w.nextId :: keep)
      (createdRow row rrset type w.nextId :: news) := by
  have hkey : keyIn row.id rrset = key (createdRow row rrset type w.nextId) := by
    rw [keyIn, ht]
    rfl
  rw [List.map_cons, List.nodup_cons] at hd
  -- no other received recordset has the name and type of this one
  have hne : ∀ e ∈ received, keyIn row.id e ≠ keyIn row.id rrset := fun e he hk =>
    hd.1 (hk ▸ List.mem_map_of_mem he)
  -- so to the others the new row makes no difference
  have htags : ∀ e ∈ received, ∀ id, (id, keyIn row.id e) ∈
      (w.withRecordsetRow (createdRow row rrset type w.nextId)).db.recordsets.map tag ↔
        (id, keyIn row.id e) ∈ w.db.recordsets.map tag := by
    intro e he id
    show _ ∈ List.map tag (w.db.recordsets ++ [_]) ↔ _
    rw [List.map_append, List.mem_append, List.map_cons, List.map_nil, List.mem_singleton]
    refine or_iff_left fun heq => hne e he ?_
    exact (congrArg Prod.snd heq).trans hkey.symm
  have htaken : ∀ e ∈ received, (Taken row.id e
      (w.withRecordsetRow (createdRow row rrset type w.nextId)) ↔ Taken row.id e w) :=
    fun e he => by
      rw [taken_iff, taken_iff]
      exact exists_congr fun id => htags e he id
  have hstays : Upsert.upsert key (keyIn row.id) put received (createdRow row rrset type w.nextId) =
      createdRow row rrset type w.nextId :=
    Upsert.upsert_of_ne fun e he => hkey ▸ hne e he
  refine ⟨?_, h.records, h.zones, h.sound, fun s hs => ?_, fun s hs => ?_, fun e he hf => ?_,
    fun id => ?_⟩
  · rw [h.recordsets]
    show List.map _ (w.db.recordsets ++ [_]) ++ news = _
    rw [List.map_append, List.append_assoc, List.map_cons, List.map_nil, overAll,
      hstays]
    congr 1
    refine List.map_congr_left fun s hs => ?_
    exact (Upsert.upsert_cons_ne fun hk => hfree ⟨s, hs, hk⟩).symm
  · rcases List.mem_cons.mp hs with rfl | hs
    · exact Nat.le_refl _
    · exact Nat.le_of_succ_le (h.fresh s hs)
  · rcases List.mem_cons.mp hs with rfl | hs
    · exact ⟨rrset, List.mem_cons_self, hkey, rfl, hfree⟩
    · obtain ⟨e, he, hke, httl, hf⟩ := h.created s hs
      exact ⟨e, List.mem_cons_of_mem _ he, hke, httl, fun ht => hf ((htaken e he).mpr ht)⟩
  · rcases List.mem_cons.mp he with rfl | he
    · exact ⟨_, List.mem_cons_self, hkey, rfl⟩
    · obtain ⟨s, hs, hke⟩ := h.creates e he fun ht => hf ((htaken e he).mp ht)
      exact ⟨s, List.mem_cons_of_mem _ hs, hke⟩
  · -- nothing was stored in its place, so the row to keep is the new one
    have hhead : (id, keyIn row.id rrset) ∉ w.db.recordsets.map tag := fun hm =>
      hfree (taken_iff.mpr ⟨id, hm⟩)
    have hrest : (∃ e ∈ received, (id, keyIn row.id e) ∈
        (w.withRecordsetRow (createdRow row rrset type w.nextId)).db.recordsets.map tag) ↔
        ∃ e ∈ received, (id, keyIn row.id e) ∈ w.db.recordsets.map tag :=
      exists_congr fun e => and_congr_right fun he => htags e he id
    rw [List.mem_cons, h.keep, hrest, List.exists_mem_cons_iff, List.exists_mem_cons_iff,
      or_iff_right hhead]
    have hnew : (createdRow row rrset type w.nextId).id = id ↔ id = w.nextId :=
      ⟨fun h => h.symm, fun h => h.symm⟩
    rw [hnew]
    exact or_left_comm

/-- The row found for a received recordset: loaded, and the one row of its key. -/
theorem find_current {current : RecordSetRow} (hl : Loaded ctx zoneId data w)
    (hf : data.find? (ReceivedRecordSet.isFor rrset) = some current) :
    current ∈ w.db.recordsets ∧ ctx.sees current.tenantId = true ∧
      keyIn zoneId rrset = key current := by
  obtain ⟨hm, hz, hsees⟩ := hl current (List.mem_of_find?_eq_some hf)
  exact ⟨hm, hsees, (isFor_iff hz).mp (List.find?_some hf)⟩

/-- Nothing loaded has the key. -/
theorem find_none (hl : Loaded ctx zoneId data w)
    (hf : data.find? (ReceivedRecordSet.isFor rrset) = none) {s : RecordSetRow} (hs : s ∈ data) :
    keyIn zoneId rrset ≠ key s := fun hk =>
  absurd ((isFor_iff (hl s hs).2.1).mpr hk) (List.find?_eq_none.mp hf s hs)

/-- What is loaded follows the rows. -/
theorem Loaded.overRow {current : RecordSetRow} (hl : Loaded ctx zoneId data w) :
    Loaded ctx zoneId (Table.update RecordSetRow.id current.id (put rrset) data)
      (overRow current rrset w) := by
  intro s hs
  rcases Table.mem_update.mp hs with ⟨hm, hne⟩ | ⟨s₀, hm, hid, rfl⟩
  · obtain ⟨hw, hz, hsees⟩ := hl s hm
    exact ⟨Table.mem_update.mpr (Or.inl ⟨hw, hne⟩), hz, hsees⟩
  · obtain ⟨hw, hz, hsees⟩ := hl s₀ hm
    exact ⟨Table.mem_update.mpr (Or.inr ⟨s₀, hw, hid, rfl⟩), hz, hsees⟩

theorem Fits.overRow {current : RecordSetRow} (hf : Fits zoneId data received w) :
    Fits zoneId (Table.update RecordSetRow.id current.id (put rrset) data) received
      (overRow current rrset w) := by
  refine fun e he => ⟨(hf e he).1, fun s hs hk => ?_⟩
  rcases Table.mem_update.mp hs with ⟨hm, hne⟩ | ⟨s₀, hm, hid, rfl⟩
  · exact Table.mem_update.mpr (Or.inl ⟨(hf e he).2 s hm hk, hne⟩)
  · exact Table.mem_update.mpr (Or.inr ⟨s₀, (hf e he).2 s₀ hm hk, hid, rfl⟩)

/-- The converse: rows that are loaded after the step were before it. -/
theorem Fits.of_overRow {current : RecordSetRow} (hw : Sound w) (hl : Loaded ctx zoneId data w)
    (hf : Fits zoneId (Table.update RecordSetRow.id current.id (put rrset) data) received
      (ZoneSync.overRow current rrset w)) : Fits zoneId data received w := by
  refine fun e he => ⟨(hf e he).1, fun s hs hk => ?_⟩
  obtain ⟨s', hs', hid⟩ : ∃ s' ∈ data, s'.id = s.id := by
    by_cases hid : s.id = current.id
    · have hm := (hf e he).2 (put rrset s) (Table.mem_update.mpr (Or.inr ⟨s, hs, hid, rfl⟩)) hk
      rcases Table.mem_update.mp hm with ⟨-, hne⟩ | ⟨s₀, hm, hid₀, -⟩
      · exact absurd hid hne
      · exact ⟨s₀, hm, hid₀.trans hid.symm⟩
    · have hm := (hf e he).2 s (Table.mem_update.mpr (Or.inl ⟨hs, hid⟩)) hk
      rcases Table.mem_update.mp hm with ⟨hm, -⟩ | ⟨s₀, hm, hid₀, hput⟩
      · exact ⟨s, hm, rfl⟩
      · exact absurd ((congrArg RecordSetRow.id hput).trans hid₀) hid
  rw [← Table.eq_of_key hw.ids (hl s' hs').1 hs hid]
  exact hs'

/-- **The loop goes through where every recordset has a type the column takes and no one
else's row in its way**, and leaves them merged. By induction on the recordsets. -/
theorem mergeRecordsets_merged (hd : (received.map (keyIn zoneId)).Nodup) (hw : Sound w)
    (hz : findZone ctx zoneId w.db = .ok row) (hl : Loaded ctx zoneId data w)
    (hf : Fits zoneId data received w) :
    ∃ keep news w', mergeRecordsets ctx zoneId data received w = (.ok keep, w') ∧
      Merged zoneId received w w' keep news := by
  induction received generalizing data w with
  | nil =>
    refine ⟨[], [], w, rfl, ?_, rfl, rfl, hw, ?_, ?_, ?_, ?_⟩
    · rw [List.append_nil]
      exact (List.map_id _).symm
    all_goals simp
  | cons rrset received ih =>
    have hd' : (received.map (keyIn zoneId)).Nodup := (List.nodup_cons.mp hd).2
    have hrest : Fits zoneId data received w := fun e he => hf e (List.mem_cons_of_mem _ he)
    cases hfind : data.find? (ReceivedRecordSet.isFor rrset) with
    | some current =>
      obtain ⟨hm, hsees, hk⟩ := find_current hl hfind
      obtain ⟨keep, news, w', hrun, hmerged⟩ :=
        ih (w := ZoneSync.overRow current rrset w) hd' hw.overRow hz hl.overRow hrest.overRow
      refine ⟨_, news, w', ?_, hmerged.cons_current hw hd hm hk⟩
      rw [mergeRecordsets, hfind]
      dsimp only
      rw [bind_ok (updateRecordsetRow_current hw hm hsees)]
      exact bind_ok hrun
    | none =>
      obtain ⟨hstored, hdata⟩ := hf rrset List.mem_cons_self
      have hfree : ¬ Taken zoneId rrset w := by
        rintro ⟨s, hs, hk⟩
        exact find_none hl hfind (hdata s hs hk) hk
      obtain ⟨-, rfl, -⟩ := findZone_mem hz
      obtain ⟨type, ht⟩ : ∃ type, rrset.type = .known type := by
        cases ht : rrset.type with
        | known type => exact ⟨type, rfl⟩
        | other text => rw [ht] at hstored; exact absurd hstored (by simp [RdType.stored])
      obtain ⟨keep, news, w', hrun, hmerged⟩ :=
        ih (w := w.withRecordsetRow (createdRow row rrset type w.nextId)) hd'
          (hw.created ht hfree) hz
          (fun s hs => ⟨List.mem_append_left _ (hl s hs).1, (hl s hs).2⟩)
          (fun e he => ⟨(hrest e he).1, fun s hs hk => by
            rcases List.mem_append.mp hs with hs | hs
            · exact (hrest e he).2 s hs hk
            · -- the new row has the key of no other recordset
              refine absurd ?_ (List.nodup_cons.mp hd).1
              rw [List.mem_singleton.mp hs] at hk
              have hkey : keyIn row.id e = keyIn row.id rrset := by rw [hk, keyIn, ht]; rfl
              exact hkey ▸ List.mem_map_of_mem he⟩)
      refine ⟨_, _, w', ?_, hmerged.cons_created hd ht hfree⟩
      rw [mergeRecordsets, hfind]
      dsimp only
      rw [bind_ok (createRecordset_free hz ht hfree)]
      exact bind_ok hrun

/-- Where the loop returns, nothing was in its way. By induction on the recordsets. -/
theorem mergeRecordsets_fits {keep : List Nat} (hw : Sound w)
    (hz : findZone ctx zoneId w.db = .ok row) (hl : Loaded ctx zoneId data w)
    (h : mergeRecordsets ctx zoneId data received w = (.ok keep, w')) :
    Fits zoneId data received w := by
  induction received generalizing data w w' keep with
  | nil => exact fun e he => absurd he List.not_mem_nil
  | cons rrset received ih =>
    rw [mergeRecordsets] at h
    cases hfind : data.find? (ReceivedRecordSet.isFor rrset) with
    | some current =>
      -- the recordset was loaded, and its row is the only one with its name and type
      obtain ⟨hm, hsees, hk⟩ := find_current hl hfind
      rw [hfind] at h
      dsimp only at h
      rw [bind_ok (updateRecordsetRow_current hw hm hsees)] at h
      obtain ⟨keep', w₁, hrun, -⟩ := bind_eq_ok.mp h
      have hrest := (ih (w := ZoneSync.overRow current rrset w) hw.overRow hz hl.overRow
        hrun).of_overRow hw hl
      intro e he
      rcases List.mem_cons.mp he with rfl | he
      · have ht : e.type = .known current.type := congrArg (fun k => k.2.2) hk
        refine ⟨by rw [ht]; rfl, fun s hs hks => ?_⟩
        rw [Table.eq_of_key hw.keys hs hm (hks.symm.trans hk)]
        exact List.mem_of_find?_eq_some hfind
      · exact hrest e he
    | none =>
      -- the recordset was not loaded, and storing it has got through, so nothing was in its place
      rw [hfind] at h
      dsimp only at h
      obtain ⟨id, w₁, hcreate, h⟩ := bind_eq_ok.mp h
      obtain ⟨keep', w₂, hrun, -⟩ := bind_eq_ok.mp h
      obtain ⟨type, ht, hfree⟩ := createRecordset_returns hz hcreate
      rw [createRecordset_free hz ht hfree] at hcreate
      obtain ⟨-, rfl⟩ := Prod.mk.inj hcreate
      obtain ⟨-, rfl, -⟩ := findZone_mem hz
      have hrest := ih (w := w.withRecordsetRow (createdRow row rrset type w.nextId))
        (hw.created ht hfree) hz
        (fun s hs => ⟨List.mem_append_left _ (hl s hs).1, (hl s hs).2⟩) hrun
      intro e he
      rcases List.mem_cons.mp he with rfl | he
      · exact ⟨by rw [ht]; rfl, fun s hs hk => absurd ⟨s, hs, hk⟩ hfree⟩
      · exact ⟨(hrest e he).1, fun s hs hk => (hrest e he).2 s (List.mem_append_left _ hs) hk⟩

/-! ## The purge -/

/-- The tables without the recordsets of the given ids. -/
def purged (ids : List Nat) (w : World) : World :=
  w.withDb { w.db with
    recordsets := w.db.recordsets.filter fun s => !ids.contains s.id
    records := w.db.records.filter fun r => !ids.contains r.recordsetId }

theorem deleteRecordsetRow_found {s : RecordSetRow} (hids : (w.db.recordsets.map RecordSetRow.id).Nodup)
    (hs : s ∈ w.db.recordsets) (hsees : ctx.sees s.tenantId = true)
    (hlive : w.db.liveZone s.zoneId = true) :
    deleteRecordsetRow ctx s.id w = (.ok (), purged [s.id] w) := by
  have hfind : findRecordsetRow ctx s.id w.db = .ok s :=
    Table.find_of_mem hids hs rfl (by rw [hsees, hlive]; rfl)
  unfold deleteRecordsetRow
  simp only [Exec.write, hfind]
  have hne : ∀ a b : Nat, (!List.contains [b] a) = decide (a ≠ b) := fun a b => by simp
  unfold purged Table.remove
  simp only [hne]
  rfl

/-- The purge takes away what it is given, with the records. By induction on the ids. -/
theorem purge_ok {ids : List Nat} (hids : ids.Nodup)
    (hrows : (w.db.recordsets.map RecordSetRow.id).Nodup)
    (hfound : ∀ id ∈ ids, ∃ s ∈ w.db.recordsets, s.id = id ∧ ctx.sees s.tenantId = true ∧
      w.db.liveZone s.zoneId = true) :
    Exec.forEach (deleteRecordsetRow ctx) ids w = (.ok (), purged ids w) := by
  induction ids generalizing w with
  | nil =>
    show (Except.ok (), w) = (Except.ok (), purged [] w)
    unfold purged
    simp only [List.contains_nil, Bool.not_false, List.filter_true]
    rfl
  | cons id ids ih =>
    obtain ⟨hnot, hrest⟩ := List.nodup_cons.mp hids
    obtain ⟨s, hs, rfl, hsees, hlive⟩ := hfound id List.mem_cons_self
    rw [Exec.forEach, bind_ok (deleteRecordsetRow_found hrows hs hsees hlive)]
    have hpurged := ih (w := purged [s.id] w) hrest
      (hrows.sublist (List.Sublist.map _ List.filter_sublist)) fun id hid => by
        obtain ⟨s', hs', rfl, hsees', hlive'⟩ := hfound id (List.mem_cons_of_mem _ hid)
        refine ⟨s', List.mem_filter.mpr ⟨hs', ?_⟩, rfl, hsees', hlive'⟩
        -- the identifiers differ, so the first deletion leaves the rest to be found
        have hne : s'.id ≠ s.id := fun he => hnot (he ▸ hid)
        simpa using hne
    rw [hpurged]
    -- taking them away one after the other is taking them away at once
    have hboth : ∀ a, ((!ids.contains a) && (!List.contains [s.id] a)) =
        !(s.id :: ids).contains a := fun a => by
      simp only [List.contains_cons, List.contains_nil, Bool.or_false, Bool.not_or, Bool.and_comm]
    unfold purged
    simp only [World.withDb_db, List.filter_filter, hboth]
    rfl

/-! ## What is stored in the end -/

/-- The data of the records of a recordset. -/
def dataOf (db : Db) (recordsetId : Nat) : List String :=
  (db.recordsOf recordsetId).map RecordRow.data

/-- **The zone holds what was received**: the recordsets, with their TTLs, and their records. -/
structure Exact (zoneId : Nat) (received : List ReceivedRecordSet) (db : Db) : Prop where
  recordsets : ((db.recordsets.filter fun s => s.zoneId == zoneId).map fun s =>
      (s.name, RdType.known s.type, s.ttl)).Perm
    (received.map fun e => (e.name, e.type, e.ttlValue))
  records : ∀ s ∈ db.recordsets, s.zoneId = zoneId → ∀ e ∈ received, keyIn zoneId e = key s →
    (dataOf db s.id).Perm e.data

/-- The recordsets the caller owns in the zone: those that are loaded. -/
def Existing (ctx : Context) (zoneId : Nat) (w : World) (s : RecordSetRow) : Prop :=
  s ∈ w.db.recordsets ∧ s.zoneId = zoneId ∧ ctx.owns s.tenantId = true

/-- What the update leaves in the zone. -/
structure Synced (ctx : Context) (zoneId : Nat) (received : List ReceivedRecordSet)
    (w w' : World) : Prop where
  keys : (w'.db.recordsets.map key).Nodup
  kept : ∀ s ∈ w.db.recordsets, ∀ e ∈ received, keyIn zoneId e = key s → put e s ∈ w'.db.recordsets
  created : ∀ e ∈ received, ¬ Taken zoneId e w →
    ∃ s ∈ w'.db.recordsets, keyIn zoneId e = key s ∧ s.ttl = e.ttlValue ∧ dataOf w'.db s.id = []
  left : ∀ s ∈ w.db.recordsets, s.zoneId = zoneId → ¬ Existing ctx zoneId w s →
    ∃ s' ∈ w'.db.recordsets, key s' = key s
  only : ∀ s' ∈ w'.db.recordsets, s'.zoneId = zoneId →
    (∃ s ∈ w.db.recordsets, ∃ e ∈ received, keyIn zoneId e = key s ∧ s' = put e s) ∨
    (∃ s ∈ w.db.recordsets, s.zoneId = zoneId ∧ ¬ Existing ctx zoneId w s) ∨
    ∃ e ∈ received, keyIn zoneId e = key s' ∧ s'.ttl = e.ttlValue ∧ ¬ Taken zoneId e w ∧
      dataOf w'.db s'.id = []
  data : ∀ s ∈ w.db.recordsets, ∀ e ∈ received, keyIn zoneId e = key s →
    dataOf w'.db s.id = dataOf w.db s.id

/--
The list brings no news of records: the caller owns the recordsets of the zone, every
recordset of the list has a type there is a column value for, a TTL of zero only where
there is none stored, and the data that is stored already, none for a new one.
-/
structure Syncable (ctx : Context) (zoneId : Nat) (received : List ReceivedRecordSet)
    (w : World) : Prop where
  owned : ∀ s ∈ w.db.recordsets, s.zoneId = zoneId → ctx.owns s.tenantId = true
  stored : ∀ e ∈ received, e.type.stored = true
  ttl : ∀ e ∈ received, ∀ s ∈ w.db.recordsets, keyIn zoneId e = key s → e.ttl = none → s.ttl = none
  data : ∀ e ∈ received, ∀ s ∈ w.db.recordsets, keyIn zoneId e = key s →
    (dataOf w.db s.id).Perm e.data
  new : ∀ e ∈ received, ¬ Taken zoneId e w → e.data = []

theorem eq_of_keyIn (hd : (received.map (keyIn zoneId)).Nodup) {e e' : ReceivedRecordSet}
    (he : e ∈ received) (he' : e' ∈ received) (h : keyIn zoneId e = keyIn zoneId e') : e = e' :=
  Table.eq_of_key hd he he' h

/-- What is there under a key is one recordset, and what is received another. -/
theorem triples_nodup (zoneId : Nat) {rows : List RecordSetRow} (hk : (rows.map key).Nodup) :
    ((rows.filter fun s => s.zoneId == zoneId).map fun s =>
      (s.name, RdType.known s.type, s.ttl)).Nodup := by
  refine List.Nodup.of_map (fun t => (zoneId, t.1, t.2.1)) ?_
  rw [List.map_map]
  have hsame : (rows.filter fun s => s.zoneId == zoneId).map
      ((fun t : String × RdType × Option Nat => (zoneId, t.1, t.2.1)) ∘
        fun s => (s.name, RdType.known s.type, s.ttl)) =
      (rows.filter fun s => s.zoneId == zoneId).map key := by
    refine List.map_congr_left fun s hs => ?_
    have hz : s.zoneId = zoneId := by simpa using (List.mem_filter.mp hs).2
    rw [Function.comp_apply, key, hz]
  rw [hsame]
  exact hk.sublist (List.Sublist.map _ List.filter_sublist)

theorem received_nodup (hd : (received.map (keyIn zoneId)).Nodup) :
    (received.map fun e => (e.name, e.type, e.ttlValue)).Nodup := by
  refine List.Nodup.of_map (fun t => (zoneId, t.1, t.2.1)) ?_
  rw [List.map_map]
  exact hd

/-- A TTL that is not given goes over a null only. -/
theorem put_ttl {s : RecordSetRow} (h : rrset.ttl = none → s.ttl = none) :
    (put rrset s).ttl = rrset.ttlValue := by
  unfold ReceivedRecordSet.ttlValue put storedCurrent
  cases ht : rrset.ttl with
  | none => exact h ht
  | some ttl => rfl

/-- **What the update leaves is what was received exactly if the list brings no news.** -/
theorem Synced.exact_iff (h : Synced ctx zoneId received w w')
    (hd : (received.map (keyIn zoneId)).Nodup)
    (hstored : ∀ e ∈ received, e.type.stored = true)
    (hfits : ∀ e ∈ received, ∀ s ∈ w.db.recordsets, keyIn zoneId e = key s →
      Existing ctx zoneId w s) :
    Exact zoneId received w'.db ↔ Syncable ctx zoneId received w := by
  have hperm := List.perm_ext_iff_of_nodup (triples_nodup zoneId h.keys) (received_nodup hd)
  -- a row of the zone is in the list under its key
  have hlisted : Exact zoneId received w'.db → ∀ s ∈ w'.db.recordsets, s.zoneId = zoneId →
      ∃ e ∈ received, keyIn zoneId e = key s ∧ s.ttl = e.ttlValue := by
    intro hex s hs hz
    obtain ⟨e, he, heq⟩ := List.mem_map.mp ((hperm.mp hex.recordsets _).mp
      (List.mem_map_of_mem (List.mem_filter.mpr ⟨hs, by simpa using hz⟩)))
    simp only [Prod.mk.injEq] at heq
    exact ⟨e, he, by rw [keyIn, key, hz, heq.1, heq.2.1], heq.2.2.symm⟩
  constructor
  · intro hex
    refine ⟨fun s hs hz => ?_, hstored, fun e he s hs hk hnone => ?_, fun e he s hs hk => ?_,
      fun e he hfree => ?_⟩
    · -- a recordset of somebody else stays, so it is in the list; but then it was found
      by_contra howns
      have hnot : ¬ Existing ctx zoneId w s := fun hex => howns hex.2.2
      obtain ⟨s', hs', hk⟩ := h.left s hs hz hnot
      have hz' : s'.zoneId = zoneId := (congrArg Prod.fst hk).trans hz
      obtain ⟨e, he, hke, -⟩ := hlisted hex s' hs' hz'
      exact hnot (hfits e he s hs (hke.trans hk))
    · have hz : s.zoneId = zoneId := (congrArg Prod.fst hk).symm
      obtain ⟨e', he', hke, httl⟩ := hlisted hex (put e s) (h.kept s hs e he hk) hz
      obtain rfl := eq_of_keyIn hd he' he (hke.trans hk.symm)
      have hsame : s.ttl = e'.ttlValue := by
        rw [← httl, put, storedCurrent, hnone]
        rfl
      rw [hsame, ReceivedRecordSet.ttlValue, hnone]
      rfl
    · have hz : s.zoneId = zoneId := (congrArg Prod.fst hk).symm
      rw [← h.data s hs e he hk]
      exact hex.records (put e s) (h.kept s hs e he hk) hz e he hk
    · obtain ⟨s, hs, hk, -, hnone⟩ := h.created e he hfree
      have hp := hex.records s hs (congrArg Prod.fst hk).symm e he hk
      rw [hnone] at hp
      exact hp.nil_eq.symm
  · intro hsync
    have hleft : ∀ s ∈ w.db.recordsets, s.zoneId = zoneId → Existing ctx zoneId w s :=
      fun s hs hz => ⟨hs, hz, hsync.owned s hs hz⟩
    refine ⟨hperm.mpr fun t => ⟨fun ht => ?_, fun ht => ?_⟩, fun s hs hz e he hk => ?_⟩
    · obtain ⟨s', hs', rfl⟩ := List.mem_map.mp ht
      obtain ⟨hs', hz⟩ := List.mem_filter.mp hs'
      rcases h.only s' hs' (by simpa using hz) with ⟨s, hs, e, he, hk, rfl⟩ | ⟨s, hs, hzs, hnot⟩ |
        ⟨e, he, hk, httl, -⟩
      · have httl := put_ttl (hsync.ttl e he s hs hk)
        refine List.mem_map.mpr ⟨e, he, ?_⟩
        simp only [keyIn, key, Prod.mk.injEq] at hk
        rw [hk.2.1, hk.2.2, ← httl]
        rfl
      · exact absurd (hleft s hs hzs) hnot
      · refine List.mem_map.mpr ⟨e, he, ?_⟩
        simp only [keyIn, key, Prod.mk.injEq] at hk
        rw [hk.2.1, hk.2.2, httl]
    · obtain ⟨e, he, rfl⟩ := List.mem_map.mp ht
      by_cases hfree : Taken zoneId e w
      · obtain ⟨s, hs, hk⟩ := hfree
        have hm := h.kept s hs e he hk
        have httl := put_ttl (hsync.ttl e he s hs hk)
        simp only [keyIn, key, Prod.mk.injEq] at hk
        refine List.mem_map.mpr ⟨put e s, List.mem_filter.mpr ⟨hm, ?_⟩, ?_⟩
        · simpa [put, storedCurrent] using hk.1.symm
        · rw [hk.2.1, hk.2.2, ← httl]
          rfl
      · obtain ⟨s, hs, hk, httl, -⟩ := h.created e he hfree
        simp only [keyIn, key, Prod.mk.injEq] at hk
        refine List.mem_map.mpr ⟨s, List.mem_filter.mpr ⟨hs, by simpa using hk.1.symm⟩, ?_⟩
        rw [hk.2.1, hk.2.2, httl]
    · rcases h.only s hs hz with ⟨s₀, hs₀, e', he', hk', rfl⟩ | ⟨s₀, hs₀, hzs, hnot⟩ |
        ⟨e', he', hk', -, hfree, hnone⟩
      · obtain rfl := eq_of_keyIn hd he he' (hk.trans hk'.symm)
        have hsame : dataOf w'.db (put e s₀).id = dataOf w.db s₀.id := h.data s₀ hs₀ e he hk'
        rw [hsame]
        exact hsync.data e he s₀ hs₀ hk'
      · exact absurd (hleft s₀ hs₀ hzs) hnot
      · obtain rfl := eq_of_keyIn hd he he' (hk.trans hk'.symm)
        rw [hnone, hsync.new e he hfree]

/-! ## The update -/

/-- The ids the purge is given. -/
def purgeList (ctx : Context) (zoneId : Nat) (keep : List Nat) (w : World) : List Nat :=
  ((findRecordsets ctx (fun r => r.zoneId == zoneId) w.db).map RecordSetRow.id).filter
    fun id => !keep.contains id

theorem mem_existing {s : RecordSetRow} (hlive : w.db.liveZone zoneId = true) :
    s ∈ findRecordsets ctx (fun r => r.zoneId == zoneId) w.db ↔ Existing ctx zoneId w s := by
  unfold findRecordsets Existing
  rw [List.mem_filter, Bool.and_eq_true, Bool.and_eq_true, beq_iff_eq, and_assoc]
  refine and_congr_right fun _ => ⟨fun h => ⟨h.1, h.2.1⟩, fun h => ⟨h.1, h.2, ?_⟩⟩
  rw [h.1]
  exact hlive

theorem existing_loaded (hlive : w.db.liveZone zoneId = true) :
    Loaded ctx zoneId (findRecordsets ctx (fun r => r.zoneId == zoneId) w.db) w := by
  intro s hs
  obtain ⟨hm, hz, howns⟩ := (mem_existing hlive).mp hs
  refine ⟨hm, hz, ?_⟩
  unfold Context.owns at howns
  unfold Context.sees
  rw [howns]
  rfl

theorem mem_purgeList {keep : List Nat} {id : Nat} (hlive : w.db.liveZone zoneId = true) :
    id ∈ purgeList ctx zoneId keep w ↔ (∃ s, Existing ctx zoneId w s ∧ s.id = id) ∧ id ∉ keep := by
  unfold purgeList
  rw [List.mem_filter, List.mem_map]
  refine and_congr (exists_congr fun s => and_congr_left fun _ => mem_existing hlive) ?_
  simp

/-- A recordset the purge has left. -/
theorem mem_purged {ids : List Nat} {s : RecordSetRow} :
    s ∈ (purged ids w).db.recordsets ↔ s ∈ w.db.recordsets ∧ s.id ∉ ids := by
  show s ∈ List.filter _ _ ↔ _
  simp

theorem dataOf_purged {ids : List Nat} {id : Nat} (h : id ∉ ids) :
    dataOf (purged ids w).db id = dataOf w.db id := by
  unfold dataOf Db.recordsOf
  show ((w.db.records.filter _).filter _).map _ = _
  rw [List.filter_filter]
  congr 1
  refine List.filter_congr fun r _ => ?_
  by_cases hr : r.recordsetId = id
  · simp [hr, h]
  · simp [hr]

/-- Merged and purged, the zone is synced. -/
theorem Merged.synced {keep : List Nat} {news : List RecordSetRow} (hw : Sound w)
    (hd : (received.map (keyIn zoneId)).Nodup) (hlive : w.db.liveZone zoneId = true)
    (h : Merged zoneId received w w' keep news) :
    Synced ctx zoneId received w (purged (purgeList ctx zoneId keep w) w') := by
  -- the ids of the new recordsets are on no list yet
  have hnews : ∀ s ∈ news, s.id ∉ purgeList ctx zoneId keep w := by
    intro s hs hm
    obtain ⟨⟨s₀, hex, hid⟩, -⟩ := (mem_purgeList hlive).mp hm
    have hlt := hw.below s₀ hex.1
    have hle := h.fresh s hs
    omega
  have hkept : ∀ s ∈ w.db.recordsets, ∀ e ∈ received, keyIn zoneId e = key s →
      s.id ∉ purgeList ctx zoneId keep w := by
    intro s hs e he hk hm
    refine ((mem_purgeList hlive).mp hm).2 ((h.keep _).mpr (Or.inl ⟨e, he, ?_⟩))
    exact hk ▸ List.mem_map_of_mem (f := tag) hs
  have hnone : ∀ s ∈ news,
      dataOf (purged (purgeList ctx zoneId keep w) w').db s.id = [] := by
    intro s hs
    rw [dataOf_purged (hnews s hs)]
    unfold dataOf Db.recordsOf
    rw [h.records, List.map_eq_nil_iff, List.filter_eq_nil_iff]
    intro r hr hid
    have hlt := hw.records r hr
    have hle := h.fresh s hs
    have heq : r.recordsetId = s.id := by simpa using hid
    omega
  have hover : ∀ s ∈ w.db.recordsets, overAll zoneId received s ∈ w'.db.recordsets :=
    fun s hs => by
      rw [h.recordsets]
      exact List.mem_append_left _ (List.mem_map_of_mem hs)
  refine ⟨h.sound.keys.sublist (List.Sublist.map _ List.filter_sublist), fun s hs e he hk => ?_,
    fun e he hfree => ?_, fun s hs hz hnot => ?_, fun s' hs' hz => ?_, fun s hs e he hk => ?_⟩
  · refine mem_purged.mpr ⟨?_, hkept s hs e he hk⟩
    have hm := hover s hs
    rwa [overAll, Upsert.upsert_of_mem hd he hk] at hm
  · obtain ⟨s, hs, hk, httl⟩ := h.creates e he hfree
    refine ⟨s, mem_purged.mpr ⟨?_, hnews s hs⟩, hk, httl, hnone s hs⟩
    rw [h.recordsets]
    exact List.mem_append_right _ hs
  · have hid : (overAll zoneId received s).id = s.id := by
      rcases overAll_cases zoneId received s with ⟨e, -, -, he⟩ | ⟨-, he⟩
      · rw [he]; rfl
      · rw [he]
    refine ⟨_, mem_purged.mpr ⟨hover s hs, fun hm => ?_⟩, Upsert.upsert_key key_put⟩
    obtain ⟨⟨s₀, hex, heq⟩, -⟩ := (mem_purgeList hlive).mp hm
    rw [Table.eq_of_key hw.ids hex.1 hs (heq.trans hid)] at hex
    exact hnot hex
  · obtain ⟨hm, hnot⟩ := mem_purged.mp hs'
    rw [h.recordsets] at hm
    rcases List.mem_append.mp hm with hm | hm
    · obtain ⟨s, hs, rfl⟩ := List.mem_map.mp hm
      rcases overAll_cases zoneId received s with ⟨e, he, hk, hput⟩ | ⟨hne, hsame⟩
      · exact Or.inl ⟨s, hs, e, he, hk, hput⟩
      · -- no one asked for it, so it can only be somebody else's
        rw [hsame] at hz hnot
        refine Or.inr (Or.inl ⟨s, hs, hz, fun hex => hnot ?_⟩)
        refine (mem_purgeList hlive).mpr ⟨⟨s, hex, rfl⟩, fun hkeep => ?_⟩
        rcases (h.keep _).mp hkeep with ⟨e, he, hmem⟩ | ⟨s₁, hs₁, hid⟩
        · obtain ⟨s₁, hs₁, htag⟩ := List.mem_map.mp hmem
          obtain rfl : s₁ = s := Table.eq_of_key hw.ids hs₁ hs (congrArg Prod.fst htag)
          exact hne e he (congrArg Prod.snd htag).symm
        · have hlt := hw.below s hs
          have hle := h.fresh s₁ hs₁
          omega
    · obtain ⟨e, he, hk, httl, hfree⟩ := h.created s' hm
      exact Or.inr (Or.inr ⟨e, he, hk, httl, hfree, hnone s' hm⟩)
  · rw [dataOf_purged (hkept s hs e he hk)]
    unfold dataOf Db.recordsOf
    rw [h.records]

/-- A recordset without its tenant and its description, and a record as far as it says something. -/
def core (s : RecordSetRow) : Nat × Nat × String × RRType × Option Nat :=
  (s.id, s.zoneId, s.name, s.type, s.ttl)

def said (r : RecordRow) : Nat × String := (r.recordsetId, r.data)

theorem dataOf_eq (db : Db) (id : Nat) :
    dataOf db id = ((db.records.map said).filter fun p => p.1 == id).map Prod.snd := by
  unfold dataOf Db.recordsOf
  rw [List.filter_map, List.map_map]
  rfl

theorem triples_eq (db : Db) :
    ((db.recordsets.filter fun s => s.zoneId == zoneId).map fun s =>
      (s.name, RdType.known s.type, s.ttl)) =
    ((db.recordsets.map core).filter fun c => c.2.1 == zoneId).map fun c =>
      (c.2.2.1, RdType.known c.2.2.2.1, c.2.2.2.2) := by
  rw [List.filter_map, List.map_map]
  rfl

/-- Whose the recordsets and records are is no matter. -/
theorem Exact.congr {db db' : Db} (hs : db'.recordsets.map core = db.recordsets.map core)
    (hr : db'.records.map said = db.records.map said) (h : Exact zoneId received db) :
    Exact zoneId received db' := by
  refine ⟨?_, fun s hsm hz e he hk => ?_⟩
  · rw [triples_eq, hs, ← triples_eq]
    exact h.recordsets
  · obtain ⟨s₀, hs₀, heq⟩ := mem_of_map_eq hs hsm
    simp only [core, Prod.mk.injEq] at heq
    have hkey : key s₀ = key s := by rw [key, key, heq.2.1, heq.2.2.1, heq.2.2.2.1]
    have hdata : dataOf db' s.id = dataOf db s₀.id := by
      rw [dataOf_eq, hr, ← dataOf_eq, heq.1]
    rw [hdata]
    exact h.records s₀ hs₀ (heq.2.1.trans hz) e he (hk.trans hkey.symm)

theorem moveContents_ok (zone : ZoneObject) (tenantId : Option String) (w : World) :
    ∃ w', moveContents zone tenantId w = (.ok (), w') ∧
      w'.db.recordsets.map core = w.db.recordsets.map core ∧
      w'.db.records.map said = w.db.records.map said := by
  unfold moveContents
  cases zone.tenantId.changed with
  | false => exact ⟨w, rfl, rfl, rfl⟩
  | true =>
    refine ⟨_, rfl, ?_, ?_⟩
    · exact Table.map_update (f := fun r : RecordSetRow => { r with tenantId := tenantId })
        fun _ _ _ => rfl
    · exact Table.map_update (f := fun r : RecordRow => { r with tenantId := tenantId })
        fun _ _ _ => rfl

theorem updateRow_ok (hrow : findZone ctx zone.id w.db = .ok row) (hnulls : zone.nulls = false) :
    updateRow ctx zone w = (.ok (zone.over row), w.withDb (w.db.zoneChanged zone.id zone.over)) := by
  unfold updateRow
  rw [hnulls]
  exact updateZoneRow_ok hrow

/-- The row is there afterwards, as the object wrote it. -/
theorem findZone_updated (hrow : findZone ctx zone.id w.db = .ok row)
    (hzones : (w.db.zones.map Zone.id).Nodup) (hsees : ctx.sees (zone.over row).tenantId = true) :
    findZone ctx zone.id (w.withDb (w.db.zoneChanged zone.id zone.over)).db =
      .ok (zone.over row) := by
  obtain ⟨hm, hid, -, hlive⟩ := findZone_mem hrow
  have hlive' : (zone.over row).deleted = false := hlive
  refine Table.find_of_mem ?_ (Table.mem_update.mpr (Or.inr ⟨row, hm, hid, rfl⟩)) hid
    (by rw [hsees, hlive']; rfl)
  show ((Table.update Zone.id zone.id zone.over w.db.zones).map Zone.id).Nodup
  rw [Table.map_update (f := zone.over) fun _ _ _ => rfl]
  exact hzones

theorem liveZone_of_found (hrow : findZone ctx zoneId w.db = .ok row) :
    w.db.liveZone zoneId = true := by
  obtain ⟨hm, hid, -, hlive⟩ := findZone_mem hrow
  exact List.any_eq_true.mpr ⟨row, hm, by simp [hid, hlive]⟩

/-- The rows of the zones are no matter to the recordsets. -/
theorem syncable_zoneChanged {id : Nat} {f : Zone → Zone} :
    Syncable ctx zoneId received (w.withDb (w.db.zoneChanged id f)) ↔
      Syncable ctx zoneId received w :=
  ⟨fun h => ⟨h.owned, h.stored, h.ttl, h.data, h.new⟩,
    fun h => ⟨h.owned, h.stored, h.ttl, h.data, h.new⟩⟩

theorem Sound.zoneChanged {id : Nat} {f : Zone → Zone} (h : Sound w) :
    Sound (w.withDb (w.db.zoneChanged id f)) := ⟨h.ids, h.keys, h.below, h.records⟩

theorem sound_of_linked (hw : w.Linked) (hkeys : (w.db.recordsets.map key).Nodup) : Sound w where
  ids := hw.recordsetIds
  keys := hkeys
  below := hw.recordsets
  records r hr := by
    obtain ⟨s, hs, hid, -⟩ := hw.recordset r hr
    have hlt := hw.recordsets s hs
    omega

/-- Nobody sends two recordsets of one key, if all have types there are column values for. -/
theorem transfer_distinct (dns : DnsZone)
    (hstored : ∀ e ∈ dnspyrecordsToRecordsetlist dns.nodes, e.type.stored = true) (zoneId : Nat) :
    ((dnspyrecordsToRecordsetlist dns.nodes).map (keyIn zoneId)).Nodup := by
  have hall : dns.nodes.filter (fun r => r.type.stored) = dns.nodes :=
    List.filter_eq_self.mpr fun r hr => hstored _ (List.mem_map_of_mem hr)
  have hd := dns.distinct
  rw [hall] at hd
  unfold dnspyrecordsToRecordsetlist
  rw [List.map_map]
  have hinj : Function.Injective fun k : String × RdType => (zoneId, k) := fun _ _ h =>
    (Prod.mk.inj h).2
  have hmap := hd.map hinj
  rw [List.map_map] at hmap
  exact hmap

theorem existing_read (w : World) :
    (Exec.read fun w => .ok (findRecordsets ctx (fun r => r.zoneId == zoneId) w.db) :
      Call (List RecordSetRow)) w =
      (.ok (findRecordsets ctx (fun r => r.zoneId == zoneId) w.db), w) := rfl

/-- Where the recordsets go through, they are synced. -/
theorem updateRecordsets_synced (hw : Sound w) (hd : (received.map (keyIn zoneId)).Nodup)
    (hz : findZone ctx zoneId w.db = .ok row)
    (hf : Fits zoneId (findRecordsets ctx (fun r => r.zoneId == zoneId) w.db) received w) :
    ∃ w', updateRecordsets ctx zoneId .SECONDARY (some received) w = (.ok (), w') ∧
      Synced ctx zoneId received w w' := by
  have hlive := liveZone_of_found hz
  obtain ⟨keep, news, w₁, hrun, hmerged⟩ :=
    mergeRecordsets_merged hd hw hz (existing_loaded hlive) hf
  have hlive₁ : w₁.db.liveZone zoneId = true := by
    unfold Db.liveZone
    rw [hmerged.zones]
    exact hlive
  have hpurge : Exec.forEach (deleteRecordsetRow ctx) (purgeList ctx zoneId keep w) w₁ =
      (.ok (), purged (purgeList ctx zoneId keep w) w₁) := by
    refine purge_ok ?_ hmerged.sound.ids fun id hid => ?_
    · refine (hw.ids.sublist ?_).filter _
      exact List.Sublist.map _ List.filter_sublist
    · obtain ⟨⟨s, hex, rfl⟩, hnot⟩ := (mem_purgeList hlive).mp hid
      obtain ⟨-, hzone, hsees⟩ := existing_loaded hlive s ((mem_existing hlive).mpr hex)
      -- nothing was put over a row that is to be purged
      have hsame : overAll zoneId received s = s := by
        rcases overAll_cases zoneId received s with ⟨e, he, hk, -⟩ | ⟨-, he⟩
        · refine absurd ((hmerged.keep _).mpr (Or.inl ⟨e, he, ?_⟩)) hnot
          exact hk ▸ List.mem_map_of_mem (f := tag) hex.1
        · exact he
      refine ⟨s, ?_, rfl, hsees, by rw [hzone]; exact hlive₁⟩
      rw [hmerged.recordsets]
      exact List.mem_append_left _ (List.mem_map.mpr ⟨s, hex.1, hsame⟩)
  refine ⟨_, ?_, hmerged.synced hw hd hlive⟩
  rw [updateRecordsets, bind_ok (existing_read w), bind_ok hrun, if_pos rfl]
  exact hpurge

end ZoneSync

/-! ## A secondary zone of two recordsets -/

namespace ZoneSync.Sample

def soa : Rdata := .soa "ns.example.com." "admin.example.com." 1 3600 600 86400 3600

def zoneRow : Zone := { Designate.Sample.zone with type := .SECONDARY }

def soaRow : RecordSetRow :=
  { id := 3, zoneId := 2, tenantId := some "t", name := "example.com.", type := .SOA
    ttl := some 300, description := none }

def wwwRow : RecordSetRow := { Designate.Sample.wwwRow with id := 4 }

/-- The zone as it was transferred the last time. -/
def world : World where
  db :=
    { zones := [zoneRow], recordsets := [soaRow, wwwRow]
      records := [Designate.Sample.record 5 3 soa.toText, Designate.Sample.record 6 4 "192.0.2.1"] }
  nextId := 7

/-- A transfer in which `www` has the given addresses. -/
def transfer (addresses : List String) : DnsZone where
  origin := "example.com."
  nodes := [⟨"example.com.", .known .SOA, some 300, [soa]⟩,
    ⟨"www.example.com.", .known .A, some 300, addresses.map .other⟩]
  distinct := by simp [RdType.stored]

/-- The zone as it was loaded, with what came in. -/
def object (addresses : List String) : ZoneObject where
  id := 2
  tenantId := .loaded (some "t")
  type := .loaded .SECONDARY
  ttl := .loaded (some 3600)
  serial := .loaded 1
  action := .loaded .NONE
  status := .loaded .ACTIVE
  recordsets := some (dnspyrecordsToRecordsetlist (transfer addresses).nodes)

theorem world_linked : world.Linked :=
  ⟨by decide, by decide, by decide, by decide, by decide, by decide, by decide, by decide⟩

end ZoneSync.Sample

namespace ZoneSync

end ZoneSync

end Designate
