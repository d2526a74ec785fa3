import Designate.Central.Service
import Designate.Proof.Keeps
import Designate.Run

/-!
# Keys and links

The part of well-formedness every request keeps, whatever fails inside it: keys are
unique and were handed out by the generator, a record has a recordset, a recordset
has a zone, and all three belong to one tenant. A request is made of a handful of
storage operations; an invariant that survives each of them is *steady*, and a
steady invariant survives the request.
-/

namespace Designate

open Exec

/-- What identifies a zone. -/
def Zone.place (z : Zone) : Nat × Option String := (z.id, z.tenantId)

/-- The keys are unique and in use, and the links lead somewhere. -/
structure World.Linked (w : World) : Prop where
  zoneIds : (w.db.zones.map Zone.id).Nodup
  recordsetIds : (w.db.recordsets.map RecordSetRow.id).Nodup
  recordIds : (w.db.records.map RecordRow.id).Nodup
  zones : ∀ z ∈ w.db.zones, z.id < w.nextId
  recordsets : ∀ s ∈ w.db.recordsets, s.id < w.nextId
  records : ∀ r ∈ w.db.records, r.id < w.nextId
  /-- A record has a recordset, in the same zone and of the same tenant. -/
  recordset : ∀ r ∈ w.db.records, ∃ s ∈ w.db.recordsets,
    s.id = r.recordsetId ∧ s.zoneId = r.zoneId ∧ s.tenantId = r.tenantId
  /-- A recordset has a zone, of the same tenant. -/
  zone : ∀ s ∈ w.db.recordsets, ∃ z ∈ w.db.zones, z.id = s.zoneId ∧ z.tenantId = s.tenantId

/-- Nothing happened to the records, to where the recordsets are, or to the zones. -/
structure World.Still (w w' : World) : Prop where
  records : w'.db.records = w.db.records
  recordsets : w'.db.recordsets.map RecordSetRow.place = w.db.recordsets.map RecordSetRow.place
  zones : w'.db.zones = w.db.zones
  nextId : w.nextId ≤ w'.nextId

theorem World.Quiet.still {w w' : World} (h : World.Quiet w w') : World.Still w w' :=
  ⟨h.records, h.recordsets, h.zones, h.nextId⟩

theorem mem_of_map_subset {α β : Type} {f : α → β} {l l' : List α} (h : l'.map f ⊆ l.map f) {a : α}
    (ha : a ∈ l') : ∃ b ∈ l, f b = f a :=
  List.mem_map.mp (h (List.mem_map_of_mem ha))

theorem mem_of_map_eq {α β : Type} {f : α → β} {l l' : List α} (h : l'.map f = l.map f) {a : α}
    (ha : a ∈ l') : ∃ b ∈ l, f b = f a :=
  mem_of_map_subset (fun _ hb => h ▸ hb) ha

section

variable {ctx : Context} {conf : Conf} {w w' : World} {row : RecordRow} {z : Zone}
  {s : RecordSetRow}

/-- Links are between places: what keeps these, or takes records away, keeps the links. -/
theorem World.Linked.of_places (h : w.Linked)
    (hz : w'.db.zones.map Zone.place = w.db.zones.map Zone.place)
    (hs : w'.db.recordsets.map RecordSetRow.place = w.db.recordsets.map RecordSetRow.place)
    (hr : (w'.db.records.map RecordRow.place).Sublist (w.db.records.map RecordRow.place))
    (hn : w.nextId ≤ w'.nextId) : w'.Linked := by
  -- the places name the identifiers, so these are kept too
  have hzid : w'.db.zones.map Zone.id = w.db.zones.map Zone.id := by
    have := congrArg (List.map Prod.fst) hz
    simpa [List.map_map, Function.comp_def, Zone.place] using this
  have hsid : w'.db.recordsets.map RecordSetRow.id = w.db.recordsets.map RecordSetRow.id := by
    have := congrArg (List.map Prod.fst) hs
    simpa [List.map_map, Function.comp_def, RecordSetRow.place] using this
  have hrid : (w'.db.records.map RecordRow.id).Sublist (w.db.records.map RecordRow.id) := by
    have := hr.map Prod.fst
    simpa [List.map_map, Function.comp_def, RecordRow.place] using this
  refine ⟨hzid ▸ h.zoneIds, hsid ▸ h.recordsetIds, h.recordIds.sublist hrid, fun z hm => ?_,
    fun s hm => ?_, fun r hm => ?_, fun r hm => ?_, fun s hm => ?_⟩
  · obtain ⟨z₀, hz₀, he⟩ := mem_of_map_eq hzid hm
    have := h.zones z₀ hz₀
    omega
  · obtain ⟨s₀, hs₀, he⟩ := mem_of_map_eq hsid hm
    have := h.recordsets s₀ hs₀
    omega
  · obtain ⟨r₀, hr₀, he⟩ := mem_of_map_subset hrid.subset hm
    have := h.records r₀ hr₀
    omega
  · -- from a record of now to its row of before, along the link, and back to a row of now
    obtain ⟨r₀, hr₀, he⟩ := mem_of_map_subset hr.subset hm
    simp only [RecordRow.place, Prod.mk.injEq] at he
    obtain ⟨s₀, hs₀, h₁, h₂, h₃⟩ := h.recordset r₀ hr₀
    obtain ⟨s, hs', he'⟩ := mem_of_map_eq hs.symm hs₀
    simp only [RecordSetRow.place, Prod.mk.injEq] at he'
    exact ⟨s, hs', by rw [he'.1, h₁, he.2.2.1], by rw [he'.2.1, h₂, he.2.1],
      by rw [he'.2.2.1, h₃, he.2.2.2]⟩
  · obtain ⟨s₀, hs₀, he⟩ := mem_of_map_eq hs hm
    simp only [RecordSetRow.place, Prod.mk.injEq] at he
    obtain ⟨z₀, hz₀, h₁, h₂⟩ := h.zone s₀ hs₀
    obtain ⟨z, hz', he'⟩ := mem_of_map_eq hz.symm hz₀
    simp only [Zone.place, Prod.mk.injEq] at he'
    exact ⟨z, hz', by rw [he'.1, h₁, he.2.1], by rw [he'.2, h₂, he.2.2.1]⟩

/-! ## The operations -/

/-- The world with a new zone row. -/
def World.withZone (w : World) (z : Zone) : World :=
  { w with nextId := w.nextId + 1, db := { w.db with zones := w.db.zones ++ [z] } }

/-- The tables with `f` applied to the zone of an id. -/
def Db.zoneChanged (db : Db) (id : Nat) (f : Zone → Zone) : Db :=
  { db with zones := Table.update Zone.id id f db.zones }

/-- The world with a new recordset row. -/
def World.withRecordsetRow (w : World) (s : RecordSetRow) : World :=
  { w with nextId := w.nextId + 1, db := { w.db with recordsets := w.db.recordsets ++ [s] } }

/-- The tables without a recordset, and without its records. -/
def Db.withoutRecordset (db : Db) (id : Nat) : Db :=
  { db with recordsets := Table.remove RecordSetRow.id id db.recordsets
            records := Table.remove RecordRow.recordsetId id db.records }

/-- The recordset is in the zone. -/
def Placed (zoneId recordsetId : Nat) (w : World) : Prop :=
  ∃ s ∈ w.db.recordsets, s.id = recordsetId ∧ s.zoneId = zoneId

theorem Placed.of_places {zoneId recordsetId : Nat} (h : Placed zoneId recordsetId w)
    (hs : w'.db.recordsets.map RecordSetRow.place = w.db.recordsets.map RecordSetRow.place) :
    Placed zoneId recordsetId w' := by
  obtain ⟨s, hm, h₁, h₂⟩ := h
  obtain ⟨s', hm', he⟩ := mem_of_map_eq hs.symm hm
  simp only [RecordSetRow.place, Prod.mk.injEq] at he
  exact ⟨s', hm', by rw [he.1, h₁], by rw [he.2.1, h₂]⟩

/-- The object is the row's, but for its action, its status and its serial. -/
structure Fits (record : Record) (row : RecordRow) : Prop where
  id : record.id = some row.id
  zoneId : record.zoneId = .loaded row.zoneId
  recordsetId : record.recordsetId = .loaded row.recordsetId
  data : record.data = .loaded row.data
  hash : record.hash.changed = false

/-- What `storage.delete_zone` makes of a zone. -/
def Zone.drop (z : Zone) : Zone := { z with deleted := true, action := .NONE, status := .DELETED }

/-- What may happen to the rows of zones, and the types recordsets may have. -/
structure Scope where
  /-- The updates of a zone row. -/
  zone : (Zone → Zone) → Prop
  /-- The new rows of zones. -/
  fresh : Zone → Prop
  type : RRType → Prop
  settle : zone Zone.settle
  drop : zone Zone.drop

/-- Whatever leaves zones where they are. -/
def Scope.all : Scope :=
  ⟨fun f => ∀ z, (f z).place = z.place, fun _ => True, fun _ => True, fun _ => rfl, fun _ => rfl⟩

/-- An invariant that survives what requests are made of. -/
structure Steady (ctx : Context) (conf : Conf) (scope : Scope) (I : World → Prop) : Prop where
  linked : ∀ {w}, I w → w.Linked
  still : ∀ {w w'}, World.Still w w' → I w → I w'
  insertZone : ∀ {w z}, I w → z.id = w.nextId → scope.fresh z → I (w.withZone z)
  updateZone : ∀ {w} {f : Zone → Zone} id, I w → scope.zone f →
    I (w.withDb (w.db.zoneChanged id f))
  insertRecordset : ∀ {w s}, I w → s.id = w.nextId → scope.type s.type →
    (∃ z ∈ w.db.zones, z.id = s.zoneId ∧ z.tenantId = s.tenantId) → I (w.withRecordsetRow s)
  deleteRecordset : ∀ {w id s}, I w → findRecordsetRow ctx id w.db = .ok s →
    I (w.withDb (w.db.withoutRecordset id))
  insert : ∀ {w zone recordset record row}, I w → Placed zone.id recordset.id w →
    Stores ctx conf zone recordset record w.db w.nextId row → I (w.inserted row)
  write : ∀ {w record row}, I w → findRecordRow ctx record.id w.db = .ok row → Fits record row →
    w.db.hashTaken (writtenRow conf record row) = false →
    I (w.withDb (w.db.withRecord (writtenRow conf record row)))
  drop : ∀ {w id row}, I w → findRecordRow ctx id w.db = .ok row →
    I (w.withDb (w.db.withoutRecord row.id))

theorem Fits.place {record : Record} (h : Fits record row) :
    (writtenRow conf record row).place = row.place :=
  writtenRow_place (by rw [h.zoneId]; rfl) (by rw [h.recordsetId]; rfl)

theorem withRecord_places {record : Record} (hr : findRecordRow ctx record.id w.db = .ok row)
    (hp : (writtenRow conf record row).place = row.place) (h : w.Linked) :
    (w.db.withRecord (writtenRow conf record row)).records.map RecordRow.place =
      w.db.records.map RecordRow.place := by
  refine Table.map_update fun r hm hk => ?_
  have : r = row := Table.eq_of_key h.recordIds hm (findRecordRow_mem hr).1 hk
  rw [this, hp]

/-- A new zone. -/
theorem World.Linked.withZone (h : w.Linked) (hid : z.id = w.nextId) : (w.withZone z).Linked := by
  refine ⟨?_, h.recordsetIds, h.recordIds, ?_, fun s hs => Nat.lt_succ_of_lt (h.recordsets s hs),
    fun r hr => Nat.lt_succ_of_lt (h.records r hr), h.recordset, fun s hs => ?_⟩
  · refine Table.append_nodup h.zoneIds fun z' hz' => ?_
    have := h.zones z' hz'
    omega
  · intro z' hz'
    rcases List.mem_append.mp hz' with hz' | hz'
    · exact Nat.lt_succ_of_lt (h.zones z' hz')
    · rw [List.mem_singleton.mp hz', hid]; exact Nat.lt_succ_self _
  · obtain ⟨z', hz', h₁⟩ := h.zone s hs
    exact ⟨z', List.mem_append_left _ hz', h₁⟩

/-- A new recordset of a zone. -/
theorem World.Linked.withRecordsetRow (h : w.Linked) (hid : s.id = w.nextId)
    (hz : ∃ z ∈ w.db.zones, z.id = s.zoneId ∧ z.tenantId = s.tenantId) :
    (w.withRecordsetRow s).Linked := by
  refine ⟨h.zoneIds, ?_, h.recordIds, fun z hz => Nat.lt_succ_of_lt (h.zones z hz), ?_,
    fun r hr => Nat.lt_succ_of_lt (h.records r hr), fun r hr => ?_, fun s' hs' => ?_⟩
  · refine Table.append_nodup h.recordsetIds fun s' hs' => ?_
    have := h.recordsets s' hs'
    omega
  · intro s' hs'
    rcases List.mem_append.mp hs' with hs' | hs'
    · exact Nat.lt_succ_of_lt (h.recordsets s' hs')
    · rw [List.mem_singleton.mp hs', hid]; exact Nat.lt_succ_self _
  · obtain ⟨s', hs', h₁⟩ := h.recordset r hr
    exact ⟨s', List.mem_append_left _ hs', h₁⟩
  · rcases List.mem_append.mp hs' with hs' | hs'
    · exact h.zone s' hs'
    · rw [List.mem_singleton.mp hs']; exact hz

/-- A recordset goes with its records. -/
theorem World.Linked.withoutRecordset (h : w.Linked) (id : Nat) :
    (w.withDb (w.db.withoutRecordset id)).Linked := by
  refine ⟨h.zoneIds, Table.remove_nodup h.recordsetIds,
    h.recordIds.sublist (List.Sublist.map _ List.filter_sublist), h.zones,
    fun s hs => h.recordsets s (Table.mem_remove.mp hs).1,
    fun r hr => h.records r (Table.mem_remove.mp hr).1, fun r hr => ?_,
    fun s hs => h.zone s (Table.mem_remove.mp hs).1⟩
  obtain ⟨hm, hne⟩ := Table.mem_remove.mp hr
  obtain ⟨s', hs', h₁, h₂⟩ := h.recordset r hm
  exact ⟨s', Table.mem_remove.mpr ⟨hs', by rw [h₁]; exact hne⟩, h₁, h₂⟩

/-- **The links are steady.** -/
theorem linked_steady (ctx : Context) (conf : Conf) :
    Steady ctx conf .all World.Linked where
  linked h := h
  still hs h := h.of_places (by rw [hs.zones]) hs.recordsets (by rw [hs.records]) hs.nextId
  insertZone h hid _ := h.withZone hid
  updateZone id h hf := h.of_places (Table.map_update fun z _ _ => hf z) rfl (List.Sublist.refl _)
    (Nat.le_refl _)
  insertRecordset h hid _ hz := h.withRecordsetRow hid hz
  deleteRecordset {_ id _} h _ := h.withoutRecordset id
  insert {w zone recordset record row} h hplaced hstores := by
    have hrow := hstores.inserted
    obtain ⟨s, hs, hsid, hszone⟩ := hplaced
    refine ⟨h.zoneIds, h.recordsetIds, ?_, fun z hz => Nat.lt_succ_of_lt (h.zones z hz),
      fun s hs => Nat.lt_succ_of_lt (h.recordsets s hs), ?_, fun r hr => ?_, h.zone⟩
    · refine Table.append_nodup h.recordIds fun r hr => ?_
      have := h.records r hr
      have := hrow.id_eq
      omega
    · intro r hr
      rcases List.mem_append.mp hr with hr | hr
      · exact Nat.lt_succ_of_lt (h.records r hr)
      · rw [List.mem_singleton.mp hr, hrow.id_eq]; exact Nat.lt_succ_self _
    · rcases List.mem_append.mp hr with hr | hr
      · exact h.recordset r hr
      · rw [List.mem_singleton.mp hr]
        obtain ⟨z, hz, hten⟩ := hrow.tenant
        obtain ⟨hzm, hzid, -⟩ := findZone_mem hz
        obtain ⟨z', hz', hz'id, hz'ten⟩ := h.zone s hs
        -- the zone that was found for the record is the one its recordset is in
        have : z' = z := Table.eq_of_key h.zoneIds hz' hzm (by rw [hz'id, hszone, hzid])
        exact ⟨s, hs, by rw [hsid, hrow.recordsetId], by rw [hszone, hrow.zoneId],
          by rw [hten, ← this, hz'ten]⟩
  write h hr hf _ := by
    refine h.of_places rfl rfl ?_ (Nat.le_refl _)
    rw [World.withDb_db, withRecord_places hr hf.place h]
  drop h _ := h.of_places rfl rfl (List.Sublist.map _ List.filter_sublist) (Nat.le_refl _)

end

theorem sample_linked : Sample.world.Linked :=
  ⟨by decide, by decide, by decide, by decide, by decide, by decide, by decide, by decide⟩

end Designate
