import Designate.Proof.RecordAction

/-!
# What storing a record does

`_create_record_in_storage` appends one row, whose every column is known, or
raises and leaves the tables alone.
-/

namespace Designate

variable {ctx : Context} {conf : Conf} {zone : Zone} {recordset : RecordSet} {record : Record}
  {w w' : World}

/-- The hash storage computes for data of a recordset. -/
def hashOf (conf : Conf) (recordsetId : Nat) (data : String) : String :=
  conf.md5 (Text.uuidText recordsetId ++ ":" ++ data)

/-- The tables with one more record row. -/
def Db.withNewRecord (db : Db) (row : RecordRow) : Db := { db with records := db.records ++ [row] }

/-- The world with `row` inserted. -/
def World.inserted (w : World) (row : RecordRow) : World :=
  { w with nextId := w.nextId + 1, db := w.db.withNewRecord row }

/-- Nothing stops storage from inserting `row` for `record`. -/
def Stores (ctx : Context) (conf : Conf) (zone : Zone) (recordset : RecordSet) (record : Record)
    (db : Db) (id : Nat) (row : RecordRow) : Prop :=
  enforceRecordQuota ctx conf zone recordset.id recordset.managed recordset.records.length db
      = .ok () ∧
    ∃ z, findZone ctx zone.id db = .ok z ∧
      ((record.pending zone).placed conf zone.id recordset.id).insertRow id z.tenantId = some row ∧
      (∃ r ∈ db.recordsets, r.id = recordset.id) ∧ ∀ r ∈ db.records, r.hash ≠ row.hash

/-- What is known of the row that storing `record` appends to the tables `db`. -/
structure Inserted (ctx : Context) (conf : Conf) (zone : Zone) (recordset : RecordSet)
    (record : Record) (db : Db) (id : Nat) (row : RecordRow) : Prop where
  id_eq : row.id = id
  zoneId : row.zoneId = zone.id
  recordsetId : row.recordsetId = recordset.id
  data : row.data = record.text
  action : row.action = .CREATE
  status : row.status = .PENDING
  hash : row.hash = hashOf conf recordset.id row.data
  /-- The unique constraint let it through. -/
  hashFree : ∀ r ∈ db.records, r.hash ≠ row.hash
  /-- The row belongs to the tenant of the zone, which the request sees. -/
  tenant : ∃ z, findZone ctx zone.id db = .ok z ∧ row.tenantId = z.tenantId
  visible : ctx.sees row.tenantId = true

theorem insertRow_some {record : Record} {id : Nat} {tenantId : Option String} {row : RecordRow}
    (h : record.insertRow id tenantId = some row) :
    row.id = id ∧ record.zoneId.value = some row.zoneId ∧
      record.recordsetId.value = some row.recordsetId ∧ row.tenantId = tenantId ∧
      record.data.value = some row.data ∧ record.hash.value = some row.hash ∧
      row.action = record.action.write .CREATE ∧ row.status = record.status.write .PENDING := by
  unfold Record.insertRow at h
  split at h
  · cases hz : record.zoneId.value <;> cases hr : record.recordsetId.value <;>
      cases hd : record.data.value <;> cases hh : record.hash.value <;>
      simp [hz, hr, hd, hh] at h
    subst h
    simp
  · exact absurd h (by simp)

/-- A fixed value is written whether or not the field was marked. -/
theorem set_write_same {α : Type} [DecidableEq α] (t : Tracked α) (a : α) :
    (t.set a).write a = a := by
  unfold Tracked.set Tracked.write
  split <;> rfl

theorem generateUuid_apply (w : World) :
    generateUuid w = (.ok w.nextId, { w with nextId := w.nextId + 1 }) := rfl

/-- The exceptions `do_update` raises by its own count. -/
def Exc.Tally (e : Exc) : Prop := e = .AllFailed ∨ e = .PartlyFailed

/-- What storage inserts, or that it refuses. -/
theorem insertRecord_cases (ctx : Context) (conf : Conf) (zoneId recordsetId : Nat)
    (record : Record) (w : World) :
    (∃ e w', insertRecord ctx conf zoneId recordsetId record w = (.error e, w') ∧
      w'.device = w.device ∧ w.nextId ≤ w'.nextId ∧ ¬ e.Tally ∧
      ∀ z row, ¬ (findZone ctx zoneId w.db = .ok z ∧
        (record.placed conf zoneId recordsetId).insertRow w.nextId z.tenantId = some row ∧
        (∃ r ∈ w.db.recordsets, r.id = recordsetId) ∧ ∀ r ∈ w.db.records, r.hash ≠ row.hash)) ∨
    ∃ z row, (findZone ctx zoneId w.db = .ok z ∧
      (record.placed conf zoneId recordsetId).insertRow w.nextId z.tenantId = some row ∧
      (∃ r ∈ w.db.recordsets, r.id = recordsetId) ∧ ∀ r ∈ w.db.records, r.hash ≠ row.hash) ∧
      insertRecord ctx conf zoneId recordsetId record w =
        (.ok (Record.ofRow row), w.inserted row) := by
  unfold insertRecord getZone
  cases hz : findZone ctx zoneId w.db with
  | error e =>
    refine Or.inl ⟨e, w, Exec.bind_error (by rw [Exec.read_apply, hz]), rfl, Nat.le_refl _, ?_,
      by simp⟩
    rw [Table.find_error hz]
    simp [Exc.Tally]
  | ok z =>
    rw [Exec.bind_ok (by rw [Exec.read_apply, hz]), Exec.bind_ok (generateUuid_apply w)]
    have hnext : w.nextId ≤ w.nextId + 1 := Nat.le_succ _
    let w₁ : World := { w with nextId := w.nextId + 1 }
    -- the statement raises over a NULL, a foreign key or the unique hash, in this order
    cases hrow : (record.placed conf zoneId recordsetId).insertRow w.nextId z.tenantId with
    | none =>
      refine Or.inl ⟨.DBError, w₁, by simp only [Exec.write]; rfl, rfl, hnext, by simp [Exc.Tally],
        ?_⟩
      rintro z' row ⟨hz', hrow', -⟩
      obtain rfl := Except.ok.inj hz'
      exact absurd (hrow.symm.trans hrow') (by simp)
    | some row =>
      by_cases hs : ∃ r ∈ w.db.recordsets, r.id = recordsetId
      · have hs' : (w.db.recordsets.all fun r => r.id != recordsetId) = false := by simpa using hs
        by_cases hh : ∀ r ∈ w.db.records, r.hash ≠ row.hash
        · -- the one path on which the row is added
          refine Or.inr ⟨z, row, ⟨rfl, hrow, hs, hh⟩, ?_⟩
          have hh' : (w.db.records.any fun r => r.hash == row.hash) = false := by simpa using hh
          simp only [Exec.write, hs', hh', Bool.false_eq_true, if_false]
          rfl
        · have hh' : (w.db.records.any fun r => r.hash == row.hash) = true := by simpa using hh
          refine Or.inl ⟨.DuplicateRecord, w₁, by
            simp only [Exec.write, hs', hh', if_true, Bool.false_eq_true, if_false]; rfl, rfl,
            hnext, by simp [Exc.Tally], ?_⟩
          rintro z' row' ⟨hz', hrow', -, hfree⟩
          obtain rfl := Except.ok.inj hz'
          obtain rfl := Option.some.inj (hrow.symm.trans hrow')
          exact hh hfree
      · have hs' : (w.db.recordsets.all fun r => r.id != recordsetId) = true := by simpa using hs
        exact Or.inl ⟨.DBError, w₁, by simp only [Exec.write, hs', if_true]; rfl, rfl, hnext,
          by simp [Exc.Tally], fun _ _ h => hs h.2.2.1⟩

theorem findZone_mem {id : Nat} {db : Db} {z : Zone} (h : findZone ctx id db = .ok z) :
    z ∈ db.zones ∧ z.id = id ∧ ctx.sees z.tenantId = true ∧ z.deleted = false := by
  obtain ⟨hm, hk, hp⟩ := Table.find_mem h
  rw [Bool.and_eq_true] at hp
  exact ⟨hm, hk, hp.1, by simpa using hp.2⟩

theorem Stores.inserted {db : Db} {id : Nat} {row : RecordRow}
    (h : Stores ctx conf zone recordset record db id row) :
    Inserted ctx conf zone recordset record db id row := by
  obtain ⟨-, z, hz, hrow, -, hfree⟩ := h
  obtain ⟨hid, hzone, hrset, hten, hdata, hhash, hact, hstat⟩ := insertRow_some hrow
  have hdata' : row.data = record.text := by
    have : record.data.value = some row.data := hdata
    rw [Record.text, this]; rfl
  refine ⟨hid, (Option.some.inj hzone).symm, (Option.some.inj hrset).symm, hdata', ?_, ?_, ?_,
    hfree, ⟨z, hz, hten⟩, ?_⟩
  · rw [hact]; exact set_write_same _ _
  · rw [hstat]; exact set_write_same _ _
  · rw [hdata']
    exact (Option.some.inj hhash).symm
  · rw [hten]; exact (findZone_mem hz).2.2.1

theorem limitCheck_error {tenantId : Option String} {resource : Resource} {value : Int} {e : Exc}
    (h : limitCheck conf tenantId resource value = .error e) : e = .OverQuota := by
  unfold limitCheck at h
  split at h
  · exact (Except.error.inj h).symm
  · exact absurd h (by simp)

theorem enforceRecordQuota_error {recordsetId len : Nat} {managed : Bool} {db : Db} {e : Exc}
    (h : enforceRecordQuota ctx conf zone recordsetId managed len db = .error e) :
    e = .OverQuota := by
  unfold enforceRecordQuota at h
  split at h
  · exact absurd h (by simp)
  · dsimp only at h
    cases hl : limitCheck conf zone.tenantId .zoneRecords
        (countRecords ctx (fun r => r.zoneId == zone.id && !r.managed) db -
          countRecords ctx (fun r => r.recordsetId == recordsetId && !r.managed) db + len) with
    | error e' =>
      rw [hl] at h
      rw [← Except.error.inj h]
      exact limitCheck_error hl
    | ok u =>
      rw [hl] at h
      exact limitCheck_error h

/-- **Storing a record appends one row, or changes no table.** -/
theorem createRecordInStorage_cases (ctx : Context) (conf : Conf) (zone : Zone)
    (recordset : RecordSet) (record : Record) (w : World) :
    (∃ e w', createRecordInStorage ctx conf zone recordset record w = (.error e, w') ∧
      w'.db = w.db ∧ w'.device = w.device ∧ w.nextId ≤ w'.nextId ∧ ¬ e.Tally ∧
      ∀ row, ¬ Stores ctx conf zone recordset record w.db w.nextId row) ∨
    ∃ row, Stores ctx conf zone recordset record w.db w.nextId row ∧
      createRecordInStorage ctx conf zone recordset record w =
        (.ok (Record.ofRow row), w.inserted row) := by
  unfold createRecordInStorage transaction Exec.rollback check
  -- the quota is asked first; behind it the transaction takes back whatever the insert did
  cases hq : enforceRecordQuota ctx conf zone recordset.id recordset.managed
      recordset.records.length w.db with
  | error e =>
    refine Or.inl ⟨e, w, ?_, rfl, rfl, Nat.le_refl _, ?_, fun row hs => ?_⟩
    · rw [Exec.bind_error (by rw [Exec.read_apply, hq])]
    · rw [enforceRecordQuota_error hq]; simp [Exc.Tally]
    · exact absurd (hq.symm.trans hs.1) (by simp)
  | ok u =>
    rw [Exec.seq_ok (by rw [Exec.read_apply, hq])]
    rcases insertRecord_cases ctx conf zone.id recordset.id (record.pending zone) w with
      ⟨e, w', he, hdev, hnext, htally, hnot⟩ | ⟨z, row, hrow, hok⟩
    · refine Or.inl ⟨e, { w' with db := w.db }, by rw [he], rfl, hdev, hnext, htally, ?_⟩
      rintro row ⟨-, z, hs⟩
      exact hnot z row hs
    · rw [hok]
      exact Or.inr ⟨row, ⟨hq, z, hrow⟩, rfl⟩

end Designate
