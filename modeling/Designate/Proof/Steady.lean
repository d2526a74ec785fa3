import Designate.Proof.Linked

/-!
# Requests keep steady invariants

Each function of central and of the worker keeps a steady invariant, whichever of
its steps fail. Two things are carried along. A function that goes through a list
of records it has read relies on no one having moved them or changed their data:
that is an invariant too, `Cores`, and a steady one. A transaction that raises puts
the old tables under newer identifiers: that is a still step, since identifiers only
grow, and that they do is steady as well.
-/

namespace Designate

open Exec

variable {ctx : Context} {conf : Conf} {scope : Scope} {I : World → Prop}

/-! ## What is carried along -/

/-- Where a record is, and what it says. -/
def RecordRow.core (r : RecordRow) : (Nat × Nat × Nat × Option String) × String := (r.place, r.data)

/-- The records of `rows`, as far as they are still there, are where they were and say the same. -/
def Cores (rows : List RecordRow) (w : World) : Prop :=
  ∀ row₀ ∈ rows, row₀.id < w.nextId ∧ ∀ r ∈ w.db.records, r.id = row₀.id → r.core = row₀.core

/-- The object was made from `row` and has had its action, its status and its serial assigned. -/
structure Carries (record : Record) (row : RecordRow) : Prop where
  id : record.id = some row.id
  zoneId : record.zoneId = .loaded row.zoneId
  recordsetId : record.recordsetId = .loaded row.recordsetId
  data : record.data = .loaded row.data
  hash : record.hash.changed = false

theorem carries_ofRow (row : RecordRow) : Carries (Record.ofRow row) row := ⟨rfl, rfl, rfl, rfl, rfl⟩

theorem Carries.settle {record : Record} {row : RecordRow} (h : Carries record row) :
    Carries record.settle row := ⟨h.id, h.zoneId, h.recordsetId, h.data, h.hash⟩

/-- The object of a row read earlier still fits the row it finds. -/
theorem Cores.fits {rows : List RecordRow} {w : World} (h : Cores rows w) {row₀ row : RecordRow}
    (hm : row₀ ∈ rows) {record : Record} (hc : Carries record row₀)
    (hr : findRecordRow ctx record.id w.db = .ok row) : Fits record row := by
  obtain ⟨hrm, hid, -⟩ := findRecordRow_mem hr
  have hrow : row.id = row₀.id := Option.some.inj (hid.symm.trans hc.id)
  have hcore := (h row₀ hm).2 row hrm hrow
  simp only [RecordRow.core, RecordRow.place, Prod.mk.injEq] at hcore
  obtain ⟨⟨-, hz, hs, -⟩, hd⟩ := hcore
  exact ⟨hid, by rw [hc.zoneId, hz], by rw [hc.recordsetId, hs], by rw [hc.data, hd], hc.hash⟩

theorem Fits.core {record : Record} {row : RecordRow} (h : Fits record row) :
    (writtenRow conf record row).core = row.core := by
  have hd : (writtenRow conf record row).data = row.data := by
    rw [writtenRow_data, h.data]; rfl
  rw [RecordRow.core, h.place, hd]
  rfl

/-- What was just read is as it was read. -/
theorem World.Linked.cores {w : World} (h : w.Linked) {rows : List RecordRow}
    (hsub : rows ⊆ w.db.records) : Cores rows w := by
  intro row₀ hm
  refine ⟨h.records row₀ (hsub hm), fun r hr he => ?_⟩
  rw [Table.eq_of_key h.recordIds hr (hsub hm) he]

theorem updateZoneRow_ok {id : Nat} {f : Zone → Zone} {z : Zone} {w : World}
    (hz : findZone ctx id w.db = .ok z) :
    updateZoneRow ctx id f w = (.ok (f z), w.withDb (w.db.zoneChanged id f)) := by
  unfold updateZoneRow getZone
  rw [bind_ok (by rw [read_apply, hz])]
  rfl

theorem updateZoneRow_missing {id : Nat} {f : Zone → Zone} {e : Exc} {w : World}
    (hz : findZone ctx id w.db = .error e) : updateZoneRow ctx id f w = (.error e, w) := by
  unfold updateZoneRow getZone
  rw [bind_error (by rw [read_apply, hz])]

/-- A record that is looked up is there. -/
theorem getRecord_keeps {α : Type} {id : Nat} {f : RecordRow → Call α}
    (hf : ∀ row w, I w → findRecordRow ctx (some id) w.db = .ok row → I (f row w).2) :
    Keeps I (getRecord ctx id >>= f) := by
  intro w hw
  unfold getRecord
  cases hr : findRecordRow ctx (some id) w.db with
  | error e => rw [bind_error (by rw [read_apply, hr])]; exact hw
  | ok row => rw [bind_ok (by rw [read_apply, hr])]; exact hf row w hw hr

/-! ### What each of its steps keeps, a callback keeps -/

section

variable (hrecord : ∀ id, Keeps I (deleteRecordRow ctx id))
  (hrecordset : ∀ id, Keeps I (deleteRecordsetRow ctx id))

include hrecord hrecordset

theorem keeps_dropRecord (fails : Nat → Bool) (row : RecordRow) :
    Keeps I (dropRecord ctx fails row) :=
  Keeps.bind (Keeps.raiseIf _ _) fun _ => Keeps.bind (hrecord _) fun _ =>
    Keeps.bind (Keeps.raiseIf _ _) fun _ => Keeps.bind (Keeps.read _) fun _ =>
      Keeps.ite (fun _ => Keeps.bind (Keeps.raiseIf _ _) fun _ => hrecordset _)
        fun _ => Keeps.pure _

theorem keeps_deleteRecordWithZoneDelete (hlink : ∀ id, Keeps I (deleteRecordAssociationRow id))
    (hmirror : ∀ id, Keeps I (deleteZdnsRecordRow id)) (fails : Nat → Bool) (row : RecordRow) :
    Keeps I (deleteRecordWithZoneDelete ctx fails row) := by
  refine Keeps.bind (Keeps.raiseIf _ _) fun _ => Keeps.bind (Keeps.read _) fun association => ?_
  have hend : Keeps I (do mayFail (fails 5); deleteZdnsRecordRow association.zdnsRecordId) :=
    Keeps.bind (Keeps.raiseIf _ _) fun _ => hmirror _
  exact Keeps.bind (Keeps.raiseIf _ _) fun _ => Keeps.bind (hlink _)
    fun _ => Keeps.bind (Keeps.raiseIf _ _) fun _ => Keeps.bind (hrecord _)
    fun _ => Keeps.bind (Keeps.raiseIf _ _) fun _ => Keeps.bind (Keeps.read _)
    fun _ => Keeps.ite (fun _ => Keeps.bind (Keeps.raiseIf _ _) fun _ =>
      Keeps.bind (hrecordset _) fun _ => hend) fun _ => hend

end

/-- The loop of `update_zone_status`, by induction on the records. -/
theorem keeps_updateZoneRecords {rows : List RecordRow}
    (hsettle : ∀ row ∈ rows, Keeps I (settleRecord ctx conf row))
    (hdrop : ∀ fails row, Keeps I (dropRecord ctx fails row))
    (hdelete : ∀ fails row, Keeps I (deleteRecordWithZoneDelete ctx fails row))
    (faults : StatusSite → Bool) (action : Action) (status : Status) (n : Nat) :
    Keeps I (updateZoneRecords ctx conf faults action status n rows) := by
  induction rows generalizing n with
  | nil => exact Keeps.pure _
  | cons row rows ih =>
    refine Keeps.bind ?_ fun _ => ih (fun row' hm => hsettle row' (List.mem_cons_of_mem _ hm)) (n + 1)
    unfold updateZoneRecord
    split
    · exact Keeps.bind (Keeps.raiseIf _ _) fun _ => hsettle row List.mem_cons_self
    · exact hdrop _ row
    · exact hdelete _ row
    · exact Keeps.pure _

theorem keeps_finishZone {zoneId : Nat} (hdrop : Keeps I (deleteZoneRow ctx zoneId))
    (hsettle : Keeps I (updateZoneRow ctx zoneId Zone.settle)) (action : Action) (status : Status) :
    Keeps I (finishZone ctx zoneId action status) := by
  have hdel := Keeps.bind hdrop fun _ => Keeps.pure (ε := Exc) ()
  have hset := Keeps.bind hsettle fun _ => Keeps.pure (ε := Exc) ()
  unfold finishZone
  split
  · exact Keeps.ite (fun _ => hdel) fun _ => hset
  · exact Keeps.ite (fun _ => hdel) fun _ => hset
  · exact Keeps.pure _

namespace Steady

/-- **That nobody touches what was read is steady.** -/
theorem cores (hI : Steady ctx conf scope I) (rows : List RecordRow) :
    Steady ctx conf scope fun w => I w ∧ Cores rows w where
  linked h := hI.linked h.1
  still hs h := ⟨hI.still hs h.1, fun row₀ hm =>
    ⟨Nat.lt_of_lt_of_le (h.2 row₀ hm).1 hs.nextId, by rw [hs.records]; exact (h.2 row₀ hm).2⟩⟩
  insertZone h hid hz := ⟨hI.insertZone h.1 hid hz, fun row₀ hm =>
    ⟨Nat.lt_succ_of_lt (h.2 row₀ hm).1, (h.2 row₀ hm).2⟩⟩
  updateZone id h hf := ⟨hI.updateZone id h.1 hf, h.2⟩
  insertRecordset h hid ht hz := ⟨hI.insertRecordset h.1 hid ht hz, fun row₀ hm =>
    ⟨Nat.lt_succ_of_lt (h.2 row₀ hm).1, (h.2 row₀ hm).2⟩⟩
  deleteRecordset h hs := ⟨hI.deleteRecordset h.1 hs, fun row₀ hm =>
    ⟨(h.2 row₀ hm).1, fun r hr => (h.2 row₀ hm).2 r (Table.mem_remove.mp hr).1⟩⟩
  insert h hp hstores := by
    refine ⟨hI.insert h.1 hp hstores, fun row₀ hm => ⟨Nat.lt_succ_of_lt (h.2 row₀ hm).1, ?_⟩⟩
    intro r hr he
    rcases List.mem_append.mp hr with hr | hr
    · exact (h.2 row₀ hm).2 r hr he
    · -- the new row has an identifier nobody had
      rw [List.mem_singleton.mp hr, hstores.inserted.id_eq] at he
      have := (h.2 row₀ hm).1
      omega
  write {w record row} h hr hf hh := by
    refine ⟨hI.write h.1 hr hf hh, fun row₀ hm => ⟨(h.2 row₀ hm).1, fun r hr' he => ?_⟩⟩
    rcases Table.mem_update.mp hr' with ⟨hr', -⟩ | ⟨r', -, -, rfl⟩
    · exact (h.2 row₀ hm).2 r hr' he
    · rw [hf.core]
      exact (h.2 row₀ hm).2 row (findRecordRow_mem hr).1 he
  drop h hr := ⟨hI.drop h.1 hr, fun row₀ hm =>
    ⟨(h.2 row₀ hm).1, fun r hr => (h.2 row₀ hm).2 r (Table.mem_remove.mp hr).1⟩⟩

/-- That identifiers only grow is steady. -/
theorem above (hI : Steady ctx conf scope I) (n : Nat) :
    Steady ctx conf scope fun w => I w ∧ n ≤ w.nextId where
  linked h := hI.linked h.1
  still hs h := ⟨hI.still hs h.1, Nat.le_trans h.2 hs.nextId⟩
  insertZone h hid hz := ⟨hI.insertZone h.1 hid hz, Nat.le_succ_of_le h.2⟩
  updateZone id h hf := ⟨hI.updateZone id h.1 hf, h.2⟩
  insertRecordset h hid ht hz := ⟨hI.insertRecordset h.1 hid ht hz, Nat.le_succ_of_le h.2⟩
  deleteRecordset h hs := ⟨hI.deleteRecordset h.1 hs, h.2⟩
  insert h hp hstores := ⟨hI.insert h.1 hp hstores, Nat.le_succ_of_le h.2⟩
  write h hr hf hh := ⟨hI.write h.1 hr hf hh, h.2⟩
  drop h hr := ⟨hI.drop h.1 hr, h.2⟩

section

variable (hI : Steady ctx conf scope I)

include hI

/-! ## The rules -/

theorem quiet : IgnoresQuiet I := fun _ _ hq => hI.still hq.still

theorem stillModify {f : World → World} (hf : ∀ w, World.Still w (f w)) :
    Keeps I (Exec.modify f : Call Unit) :=
  Keeps.modify fun w => hI.still (hf w)

/-- A transaction that raises leaves the old tables under newer identifiers. -/
theorem transactionReturns {α : Type} {m : Call α} {P : World → Prop} {Q : α → World → Prop}
    (hP : ∀ w, P w → I w)
    (hm : ∀ n, Triple (fun w => P w ∧ n ≤ w.nextId) m Q fun w => n ≤ w.nextId) : Triple P (transaction m) Q I := by
  intro w hw
  have h := hm w.nextId w ⟨hw, Nat.le_refl _⟩
  unfold transaction Exec.rollback
  cases hr : m w with
  | mk r w' =>
    rw [hr] at h
    cases r with
    | ok a => exact h
    | error e =>
      have hstill : World.Still w { w' with db := w.db } := ⟨rfl, rfl, rfl, h⟩
      exact hI.still hstill (hP w hw)

/-- A transaction keeps what its body keeps. -/
theorem transaction {α : Type} {m : Call α} (hm : ∀ n, Keeps (fun w => I w ∧ n ≤ w.nextId) m) :
    Keeps I (transaction m) :=
  (hI.transactionReturns (fun _ h => h) fun n =>
    (hm n).triple.weaken (fun _ h => h) (fun _ _ h => h.1) fun _ h => h.2).keeps

/-- What is read of the records can be relied on. -/
theorem withRows {α : Type} {p : RecordRow → Bool} {f : List RecordRow → Call α}
    (hf : ∀ rows, Keeps (fun w => I w ∧ Cores rows w) (f rows)) :
    Keeps I (findRecords ctx p >>= f) := by
  refine (Triple.bind (Q := fun rows w => I w ∧ Cores rows w) (E := I)
    (R := fun _ => I) (Triple.read (fun w rows hw hr => ?_) fun _ h => h) fun rows => ?_).keeps
  · obtain rfl := Except.ok.inj hr
    exact ⟨hw, (hI.linked hw).cores (List.filter_subset_self _)⟩
  · exact (hf rows).triple.weaken (fun _ h => h) (fun _ _ h => h.1) fun _ h => h.1

/-! ## Storage -/

theorem updateZoneRow (id : Nat) {f : Zone → Zone} (hf : scope.zone f) :
    Keeps I (updateZoneRow ctx id f) :=
  Keeps.bind (Keeps.read _) fun _ =>
    Keeps.bind (Keeps.modify fun _ hw => hI.updateZone id hw hf) fun _ => Keeps.pure _

theorem deleteZoneRow (id : Nat) : Keeps I (deleteZoneRow ctx id) :=
  hI.updateZoneRow id scope.drop

theorem deleteRecordsetRow (id : Nat) : Keeps I (deleteRecordsetRow ctx id) := by
  refine Keeps.write fun w a w' hw h => ?_
  cases hs : findRecordsetRow ctx id w.db with
  | error e => rw [hs] at h; exact absurd h (by simp)
  | ok s =>
    rw [hs] at h
    obtain ⟨-, rfl⟩ := Prod.mk.inj (Except.ok.inj h)
    exact hI.deleteRecordset hw hs

theorem deleteRecordRow (id : Option Nat) : Keeps I (deleteRecordRow ctx id) := by
  intro w hw
  cases hr : findRecordRow ctx id w.db with
  | error e => rw [deleteRecordRow_missing hr]; exact hw
  | ok row => rw [deleteRecordRow_ok hr]; exact hI.drop hw hr

/-- Writing the object of a row that was read keeps the invariant, and what was read. -/
theorem updateRecordRow {rows : List RecordRow} {row₀ : RecordRow} (hm : row₀ ∈ rows)
    {record : Record} (hc : Carries record row₀) :
    Keeps (fun w => I w ∧ Cores rows w) (updateRecordRow ctx conf record) := by
  intro w hw
  rcases updateRecordRow_cases ctx conf record w with ⟨e, he⟩ | ⟨row, hr, hh, hok⟩
  · rw [he]; exact hw
  · rw [hok]
    exact (hI.cores rows).write hw hr (hw.2.fits hm hc hr) hh

/-- A worker's action for the object of a row that was read. -/
theorem keptBy {rows : List RecordRow} {row₀ : RecordRow} (hm : row₀ ∈ rows) (action : Action)
    {record : Record} (hc : Carries record row₀) :
    KeptBy ctx conf action record fun w => I w ∧ Cores rows w where
  quiet := (hI.cores rows).quiet
  ask {w} h := by
    have hstill : World.Still w (w.asked ⟨action, record.id⟩) := ⟨rfl, rfl, rfl, Nat.le_refl _⟩
    exact (hI.cores rows).still hstill h
  write _ h hr hh := (hI.cores rows).write h hr (h.2.fits hm hc.settle hr) hh
  drop h hr := (hI.cores rows).drop h hr

/-! ## Callbacks -/

theorem dropRecord (fails : Nat → Bool) (row : RecordRow) : Keeps I (dropRecord ctx fails row) :=
  keeps_dropRecord hI.deleteRecordRow hI.deleteRecordsetRow fails row

theorem deleteRecordWithZoneDelete (fails : Nat → Bool) (row : RecordRow) :
    Keeps I (deleteRecordWithZoneDelete ctx fails row) :=
  keeps_deleteRecordWithZoneDelete hI.deleteRecordRow hI.deleteRecordsetRow
    (fun _ => hI.quiet.deleteRecordAssociationRow) (fun _ => hI.quiet.deleteZdnsRecordRow) fails row

theorem settleRecord {rows : List RecordRow} {row : RecordRow} (hm : row ∈ rows) :
    Keeps (fun w => I w ∧ Cores rows w) (settleRecord ctx conf row) :=
  hI.updateRecordRow hm (carries_ofRow row).settle

theorem updateRecordsetStatus (recordsetId : Nat) (action : Action) (status : Status) :
    Keeps I (updateRecordsetStatus ctx conf recordsetId action status) := by
  refine hI.withRows fun rows => Keeps.forEach fun row hm => ?_
  have hJ := hI.cores rows
  cases action with
  | CREATE => exact Keeps.ite (fun _ => hJ.dropRecord _ row) fun _ => hI.settleRecord hm
  | DELETE => exact Keeps.ite (fun _ => hJ.dropRecord _ row) fun _ => hI.settleRecord hm
  | UPDATE => exact Keeps.ite (fun _ => hI.settleRecord hm) fun _ => Keeps.pure _
  | NONE => exact Keeps.ite (fun _ => hI.settleRecord hm) fun _ => Keeps.pure _

theorem updateZoneRecords {rows : List RecordRow} (faults : StatusSite → Bool) (action : Action)
    (status : Status) (n : Nat) :
    Keeps (fun w => I w ∧ Cores rows w)
      (updateZoneRecords ctx conf faults action status n rows) :=
  keeps_updateZoneRecords (fun _ hm => hI.settleRecord hm) (hI.cores rows).dropRecord
    (hI.cores rows).deleteRecordWithZoneDelete faults action status n

theorem finishZone (zoneId : Nat) (action : Action) (status : Status) :
    Keeps I (finishZone ctx zoneId action status) :=
  keeps_finishZone (hI.deleteZoneRow zoneId) (hI.updateZoneRow zoneId scope.settle) action status

theorem updateZoneStatus (faults : StatusSite → Bool) (zoneId : Nat) (action : Action)
    (status : Status) : Keeps I (updateZoneStatus ctx conf faults zoneId action status) :=
  Keeps.bind (Keeps.raiseIf _ _) fun _ => hI.withRows fun rows =>
    Keeps.bind (hI.updateZoneRecords faults action status 0) fun _ =>
      Keeps.bind (Keeps.raiseIf _ _) fun _ => (hI.cores rows).finishZone zoneId action status

end

end Steady

end Designate
