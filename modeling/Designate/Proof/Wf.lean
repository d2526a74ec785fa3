import Designate.Storage

/-!
# Well-formed tables

What the keys, the foreign keys and the generator of identifiers give: keys are
unique and in use below `nextId`, a record belongs to a recordset and a recordset
to a zone, and all of them to one tenant.
-/

namespace Designate

/--
Identifiers are handed out in increasing order. A row that is written under a new identifier thus
meets no row of before.
-/
structure World.Fresh (w : World) : Prop where
  records : ∀ r ∈ w.db.records, r.id < w.nextId
  associations : ∀ a ∈ w.db.recordAssociations, a.recordId < w.nextId ∧ a.zdnsRecordId < w.nextId
  zdnsRecords : ∀ z ∈ w.db.zdnsRecords, z.id < w.nextId

/--
The tables are well formed. These are the keys of the tables and what the foreign keys stand for;
the tenants are copied by the code.
-/
structure World.Wf (w : World) : Prop extends World.Fresh w where
  zoneIds : (w.db.zones.map Zone.id).Nodup
  recordsetIds : (w.db.recordsets.map RecordSetRow.id).Nodup
  recordIds : (w.db.records.map RecordRow.id).Nodup
  /-- A record has a recordset, in the same zone and of the same tenant. -/
  recordset : ∀ r ∈ w.db.records, ∃ s ∈ w.db.recordsets,
    s.id = r.recordsetId ∧ s.zoneId = r.zoneId ∧ s.tenantId = r.tenantId
  /-- A recordset has a zone, of the same tenant. -/
  zone : ∀ s ∈ w.db.recordsets, ∃ z ∈ w.db.zones, z.id = s.zoneId ∧ z.tenantId = s.tenantId

/-- The records of a recordset, in the order of the table. -/
def Db.recordsOf (db : Db) (recordsetId : Nat) : List RecordRow :=
  db.records.filter fun r => r.recordsetId == recordsetId

@[simp] theorem mem_recordsOf {db : Db} {recordsetId : Nat} {r : RecordRow} :
    r ∈ db.recordsOf recordsetId ↔ r ∈ db.records ∧ r.recordsetId = recordsetId := by
  simp [Db.recordsOf]

namespace World.Wf

variable {w : World} {ctx : Context}

theorem record_eq (h : w.Wf) {r r' : RecordRow} (hr : r ∈ w.db.records) (hr' : r' ∈ w.db.records)
    (he : r.id = r'.id) : r = r' := Table.eq_of_key h.recordIds hr hr' he

/-- A request that finds a recordset sees all its records, in a live zone. -/
theorem sees_records (h : w.Wf) {id : Nat} {s : RecordSetRow}
    (hs : findRecordsetRow ctx id w.db = .ok s) {r : RecordRow} (hr : r ∈ w.db.recordsOf id) :
    ctx.sees r.tenantId = true ∧ w.db.liveZone r.zoneId = true ∧ r.zoneId = s.zoneId := by
  obtain ⟨hm, hid, hp⟩ := Table.find_mem hs
  rw [Bool.and_eq_true] at hp
  obtain ⟨hrm, hrs⟩ := mem_recordsOf.mp hr
  obtain ⟨s', hs', hs'id, hz, ht⟩ := h.recordset r hrm
  have : s' = s := Table.eq_of_key h.recordsetIds hs' hm (by rw [hs'id, hrs, hid])
  subst this
  exact ⟨ht ▸ hp.1, hz ▸ hp.2, hz.symm⟩

/-- So it counts them all, and finds them all. -/
theorem countRecords_eq (h : w.Wf) {id : Nat} {s : RecordSetRow}
    (hs : findRecordsetRow ctx id w.db = .ok s) :
    countRecords ctx (fun r => r.recordsetId == id) w.db = (w.db.recordsOf id).length := by
  unfold countRecords Db.recordsOf
  congr 1
  refine List.filter_congr fun r hr => ?_
  by_cases hrs : r.recordsetId = id
  · obtain ⟨h₁, h₂, -⟩ := h.sees_records hs (mem_recordsOf.mpr ⟨hr, hrs⟩)
    simp [hrs, h₁, h₂]
  · simp [beq_eq_false_iff_ne.mpr hrs]

theorem findRecords_eq (h : w.Wf) {id : Nat} {s : RecordSetRow}
    (hs : findRecordsetRow ctx id w.db = .ok s) :
    findRecords ctx (fun r => r.recordsetId == id) w = (.ok (w.db.recordsOf id), w) := by
  unfold findRecords Db.recordsOf
  rw [Exec.read_apply]
  congr 2
  refine List.filter_congr fun r hr => ?_
  by_cases hrs : r.recordsetId = id
  · simp [hrs, (h.sees_records hs (mem_recordsOf.mpr ⟨hr, hrs⟩)).1]
  · simp [beq_eq_false_iff_ne.mpr hrs]

end World.Wf

end Designate
