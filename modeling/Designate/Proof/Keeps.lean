import Designate.Proof.Entries
import Designate.Proof.Insert

/-!
# Invariants of a record action

Whatever fails inside it, a record action does four things that matter to the
record rows: it asks the device about its record, it writes its record's row, it
drops its record's row, and it does things that leave the rows alone. An
invariant kept by these is kept by the action.
-/

namespace Designate

open Exec

/-- What identifies a recordset: everything but its ttl and its description. -/
def RecordSetRow.place (r : RecordSetRow) : Nat × Nat × Option String × String × RRType :=
  (r.id, r.zoneId, r.tenantId, r.name, r.type)

/-- Nothing happened to the records, to the calls, or to where the recordsets are. -/
structure World.Quiet (w w' : World) : Prop where
  records : w'.db.records = w.db.records
  recordsets : w'.db.recordsets.map RecordSetRow.place = w.db.recordsets.map RecordSetRow.place
  zones : w'.db.zones = w.db.zones
  calls : w'.device.calls = w.device.calls
  nextId : w.nextId ≤ w'.nextId

/-- `I` does not look at what a quiet step changes. -/
def IgnoresQuiet (I : World → Prop) : Prop := ∀ w w', World.Quiet w w' → I w → I w'

/-- `I` survives what an action for `record` can do. A DELETE writes no row. -/
structure KeptBy (ctx : Context) (conf : Conf) (action : Action) (record : Record)
    (I : World → Prop) : Prop where
  quiet : IgnoresQuiet I
  ask : ∀ {w}, I w → I (w.asked ⟨action, record.id⟩)
  write : ∀ {w row}, action ≠ .DELETE → I w → findRecordRow ctx record.id w.db = .ok row →
    w.db.hashTaken (writtenRow conf record.settle row) = false →
    I (w.withDb (w.db.withRecord (writtenRow conf record.settle row)))
  drop : ∀ {w row}, I w → findRecordRow ctx record.id w.db = .ok row →
    I (w.withDb (w.db.withoutRecord row.id))

section

variable {ctx : Context} {conf : Conf} {faults : Faults} {zone : Zone} {record : Record}
  {recordset : RecordSet} {I : World → Prop}

theorem lookupView_keeps : Keeps I (lookupView ctx faults zone) :=
  Keeps.bind (Keeps.raiseIf _ _) fun _ => Keeps.read _

theorem lookupZdnsRecord_keeps : Keeps I (lookupZdnsRecord faults record) :=
  Keeps.bind (Keeps.raiseIf _ _) fun _ => Keeps.bind (Keeps.read _) fun _ =>
    Keeps.bind (Keeps.raiseIf _ _) fun _ => Keeps.read _

theorem findRecordById_keeps {id : Option Nat} : Keeps I (findRecordById ctx id) := by
  unfold findRecordById
  cases id with
  | none => exact Keeps.raise _
  | some id => exact Keeps.read _

namespace IgnoresQuiet

variable (hq : IgnoresQuiet I)

include hq

/-- A write that leaves the record rows alone. -/
theorem quietWrite {α : Type} {f : World → Except Exc (α × World)}
    (hf : ∀ w a w', f w = .ok (a, w') → World.Quiet w w') : Keeps I (Exec.write f) :=
  Keeps.write fun w a w' hw hfw => hq _ _ (hf w a w' hfw) hw

/-- A change of the other tables. -/
theorem updateDb {f : Db → Db} (hr : ∀ db, (f db).records = db.records)
    (hs : ∀ db, (f db).recordsets = db.recordsets) (hz : ∀ db, (f db).zones = db.zones) :
    Keeps I (updateDb f) :=
  Keeps.modify fun w hw => hq _ _ ⟨hr _, by rw [hs], hz _, rfl, Nat.le_refl _⟩ hw

theorem generateUuid : Keeps I generateUuid := by
  refine Keeps.write fun w a w' hw hgen => ?_
  obtain ⟨-, rfl⟩ := Prod.mk.inj (Except.ok.inj hgen)
  exact hq w _ ⟨rfl, rfl, rfl, rfl, Nat.le_succ _⟩ hw

theorem deviceCreate {data : RRData} : Keeps I (Device.createRecord conf data) := by
  refine hq.quietWrite fun w a w' hw => ?_
  split at hw
  · obtain ⟨-, rfl⟩ := Prod.mk.inj (Except.ok.inj hw)
    exact ⟨rfl, rfl, rfl, rfl, Nat.le_refl _⟩
  · exact absurd hw (by simp)

theorem deviceUpdate {view zone : String} {rrId : RRId} {ttl : Option Nat} {rdata : String} :
    Keeps I (Device.updateRecord conf view zone rrId ttl rdata) := by
  refine hq.quietWrite fun w a w' hw => ?_
  split at hw
  · exact absurd hw (by simp)
  · obtain ⟨-, rfl⟩ := Prod.mk.inj (Except.ok.inj hw)
    exact ⟨rfl, rfl, rfl, rfl, Nat.le_refl _⟩

theorem deviceDelete {view zone : String} {rrId : RRId} :
    Keeps I (Device.deleteRecord view zone rrId) := by
  refine hq.quietWrite fun w a w' hw => ?_
  split at hw
  · exact absurd hw (by simp)
  · obtain ⟨-, rfl⟩ := Prod.mk.inj (Except.ok.inj hw)
    exact ⟨rfl, rfl, rfl, rfl, Nat.le_refl _⟩

theorem createZdnsRecord {id : Nat} {values : ZdnsRecordValues} :
    Keeps I (createZdnsRecord faults id values) :=
  Keeps.bind (Keeps.raiseIf _ _) fun _ => Keeps.bind
    (Keeps.bind hq.generateUuid fun _ => Keeps.bind
      (hq.updateDb (fun _ => rfl) (fun _ => rfl) (fun _ => rfl)) fun _ => Keeps.pure _) fun _ =>
    Keeps.bind (Keeps.raiseIf _ _) fun _ => hq.updateDb (fun _ => rfl) (fun _ => rfl) (fun _ => rfl)

theorem deleteRecordAssociationRow {id : Option Nat} : Keeps I (deleteRecordAssociationRow id) := by
  refine hq.quietWrite fun w a w' hw => ?_
  split at hw
  · exact absurd hw (by simp)
  · obtain ⟨-, rfl⟩ := Prod.mk.inj (Except.ok.inj hw)
    exact ⟨rfl, rfl, rfl, rfl, Nat.le_refl _⟩

theorem deleteZdnsRecordRow {id : Nat} : Keeps I (deleteZdnsRecordRow id) := by
  refine hq.quietWrite fun w a w' hw => ?_
  split at hw
  · exact absurd hw (by simp)
  · obtain ⟨-, rfl⟩ := Prod.mk.inj (Except.ok.inj hw)
    exact ⟨rfl, rfl, rfl, rfl, Nat.le_refl _⟩

/-- The transaction puts back tables it has not changed by then. -/
theorem updateRecordsetCallback :
    Keeps I (updateRecordsetCallback ctx conf faults zone recordset) := by
  intro w hw
  by_cases hc : CallbackAccepted ctx conf faults zone recordset w.db
  · rw [updateRecordsetCallback_accepted hc]
    exact hq w _ ⟨rfl, Table.map_update fun _ _ _ => rfl, rfl, rfl, Nat.le_refl _⟩ hw
  · obtain ⟨e, he⟩ := updateRecordsetCallback_refused hc
    rw [he]; exact hw

/-- The same, outside a worker call. -/
theorem updateRecordsetInStorage :
    Keeps I (updateRecordsetInStorage ctx conf zone recordset) :=
  show Keeps I (Designate.updateRecordsetCallback ctx conf Faults.none zone recordset) from
    hq.updateRecordsetCallback

theorem updateZdnsRecord {z : ZdnsRecord} : Keeps I (updateZdnsRecord faults z) := by
  refine Keeps.bind (Keeps.raiseIf _ _) fun _ => hq.quietWrite fun w a w' hw => ?_
  split at hw
  · exact absurd hw (by simp)
  · obtain ⟨-, rfl⟩ := Prod.mk.inj (Except.ok.inj hw)
    exact ⟨rfl, rfl, rfl, rfl, Nat.le_refl _⟩

end IgnoresQuiet

namespace KeptBy

variable {action : Action} (h : KeptBy ctx conf action record I)

include h

theorem callDevice {α : Type} {m : Call α} (hm : Keeps I m) :
    Keeps I (callDevice faults action record m) :=
  Keeps.bind (Keeps.modify fun _ => h.ask) fun _ =>
    Keeps.bind (Keeps.raiseIf _ _) fun _ => hm

theorem updateRecordRow (ha : action ≠ .DELETE) :
    Keeps I (updateRecordRow ctx conf record.settle) := by
  intro w hw
  rcases updateRecordRow_cases ctx conf record.settle w with ⟨e, he⟩ | ⟨row, hr, hh, hok⟩
  · rw [he]; exact hw
  · rw [hok]; exact h.write ha hw hr hh

theorem deleteRecordRow : Keeps I (deleteRecordRow ctx record.id) := by
  intro w hw
  cases hr : findRecordRow ctx record.id w.db with
  | error e => rw [deleteRecordRow_missing hr]; exact hw
  | ok row => rw [deleteRecordRow_ok hr]; exact h.drop hw hr

theorem updateRecordStatus {status : Status} :
    Keeps I (updateRecordStatus ctx conf faults record action status) := by
  refine Keeps.bind (Keeps.raiseIf _ _) fun _ => Keeps.bind findRecordById_keeps fun _ => ?_
  have hdrop : Keeps I (do
      let association ← Designate.deleteRecordAssociationRow record.id
      mayFail (faults .deleteZdnsRecord)
      Designate.deleteZdnsRecordRow association.zdnsRecordId
      mayFail (faults .deleteRecord)
      Designate.deleteRecordRow ctx record.id) :=
    Keeps.bind h.quiet.deleteRecordAssociationRow fun _ => Keeps.bind (Keeps.raiseIf _ _) fun _ =>
      Keeps.bind h.quiet.deleteZdnsRecordRow fun _ => Keeps.bind (Keeps.raiseIf _ _) fun _ =>
        h.deleteRecordRow
  cases action with
  | CREATE => exact Keeps.ite (fun _ => h.deleteRecordRow) fun _ => h.updateRecordRow (by simp)
  | DELETE => exact Keeps.ite (fun _ => hdrop) fun _ => Keeps.pure _
  | UPDATE => exact Keeps.ite (fun _ => h.updateRecordRow (by simp)) fun _ => Keeps.pure _
  | NONE => exact Keeps.ite (fun _ => h.updateRecordRow (by simp)) fun _ => Keeps.pure _

theorem recordActionUpdateStatus {status : Status} :
    Keeps I (recordActionUpdateStatus ctx conf faults record action status) :=
  Keeps.bind (Keeps.modify fun w hw => h.quiet w _ ⟨rfl, rfl, rfl, rfl, Nat.le_refl _⟩ hw)
    fun _ => h.updateRecordStatus

/-- **A record action keeps what its steps keep**, whichever of them fail. -/
theorem recordAction :
    Keeps I (recordAction ctx conf faults zone record action recordset) := by
  cases action with
  | CREATE =>
    refine Keeps.saga ?_ (fun response _ => ?_) h.recordActionUpdateStatus
    · exact Keeps.bind lookupView_keeps fun _ =>
        Keeps.bind (h.callDevice h.quiet.deviceCreate) fun _ => Keeps.pure _
    · unfold RecordAction.createRest
      cases record.id with
      | none => exact Keeps.bind (Keeps.raise _) fun _ => h.recordActionUpdateStatus
      | some id => exact Keeps.bind h.quiet.createZdnsRecord fun _ => h.recordActionUpdateStatus
  | UPDATE =>
    refine Keeps.saga ?_ (fun response z => ?_) h.recordActionUpdateStatus
    · exact Keeps.bind lookupView_keeps fun _ => Keeps.bind lookupZdnsRecord_keeps fun _ =>
        Keeps.bind (h.callDevice h.quiet.deviceUpdate) fun _ => Keeps.pure _
    · exact Keeps.bind h.quiet.updateRecordsetCallback fun _ => Keeps.bind h.quiet.updateZdnsRecord fun _ =>
        h.recordActionUpdateStatus
  | DELETE =>
    refine Keeps.saga ?_ (fun _ _ => h.recordActionUpdateStatus) h.recordActionUpdateStatus
    exact Keeps.bind lookupView_keeps fun _ => Keeps.bind lookupZdnsRecord_keeps fun _ =>
      Keeps.bind (h.callDevice h.quiet.deviceDelete) fun _ => Keeps.pure _
  | NONE => exact Keeps.raise _

end KeptBy

/-! ## Invariants of the loops -/

/-- Storing a record keeps what an insertion keeps. -/
theorem createRecordInStorage_triple {P : Record → Prop}
    (hquiet : IgnoresQuiet I)
    (hinsert : ∀ w row, I w → Stores ctx conf zone recordset record w.db w.nextId row →
      I (w.inserted row) ∧ P (Record.ofRow row)) :
    Triple I (createRecordInStorage ctx conf zone recordset record)
      (fun record w => I w ∧ P record) I := by
  intro w hw
  rcases createRecordInStorage_cases ctx conf zone recordset record w with
    ⟨e, w', herr, hdb, hdev, hnext, -⟩ | ⟨row, hstores, hok⟩
  · rw [herr]
    exact hquiet _ _ ⟨by rw [hdb], by rw [hdb], by rw [hdb], by rw [hdev], hnext⟩ hw
  · rw [hok]
    exact hinsert w row hw hstores

/-- Creating one record keeps what the insertion and the worker keep. -/
theorem createOne_keeps (hquiet : IgnoresQuiet I)
    (hinsert : ∀ w row, I w → Stores ctx conf zone recordset record w.db w.nextId row →
      I (w.inserted row) ∧ KeptBy ctx conf .CREATE (Record.ofRow row) I) :
    Keeps I (createOne ctx conf faults zone recordset record) := by
  refine (Triple.bind (createRecordInStorage_triple (P := fun record => KeptBy ctx conf .CREATE record I)
    hquiet hinsert) fun record => ?_).keeps
  intro w hw
  exact (Keeps.bind hw.2.recordAction fun _ => Keeps.pure _).triple w hw.1

/-- `I` survives what an entry can do. -/
structure EntryKept (ctx : Context) (conf : Conf) (zone : Zone) (recordset : RecordSet)
    (dealwithNochange : Bool) (I : World → Prop) (p : Record × Entry) : Prop where
  quiet : IgnoresQuiet I
  insert : p.2.op = .create → ∀ w row, I w →
    Stores ctx conf zone recordset { p.1 with data := p.1.data.set p.2.data } w.db w.nextId row →
    I (w.inserted row) ∧ KeptBy ctx conf .CREATE (Record.ofRow row) I
  sent : ∀ action object, p.2.sent p.1 dealwithNochange = some (action, object) →
    KeptBy ctx conf action object I

theorem EntryKept.applyEntry {dealwithNochange : Bool} {p : Record × Entry}
    (h : EntryKept ctx conf zone recordset dealwithNochange I p) :
    Keeps I (applyEntry ctx conf faults zone recordset dealwithNochange p.1 p.2) := by
  by_cases hop : p.2.op = .create
  · rw [applyEntry_create hop]
    exact Keeps.bind (createOne_keeps h.quiet (h.insert hop)) fun _ => Keeps.pure _
  · cases hs : p.2.sent p.1 dealwithNochange with
    | none => rw [applyEntry_kept hop hs]; exact Keeps.pure _
    | some pair =>
      rw [applyEntry_sent hs]
      exact Keeps.bind (h.sent _ _ hs).recordAction fun _ => Keeps.pure _

/-- **The loop over the entries keeps what each entry keeps.** -/
theorem applyEntries_keeps {dealwithNochange : Bool} {entries : List (Record × Entry)}
    (h : ∀ p ∈ entries, EntryKept ctx conf zone recordset dealwithNochange I p)
    (plan : Nat → Faults) :
    Keeps I (applyEntries ctx conf zone recordset dealwithNochange plan entries) := by
  induction entries generalizing plan with
  | nil => exact Keeps.pure _
  | cons p entries ih =>
    exact Keeps.bind (h p List.mem_cons_self).applyEntry fun _ =>
      Keeps.bind (ih (fun p hp => h p (List.mem_cons_of_mem _ hp)) _) fun _ => Keeps.pure _

theorem updateAll_keeps {rows : List RecordRow}
    (h : ∀ row ∈ rows, KeptBy ctx conf .UPDATE
      { Record.ofRow row with action := (Record.ofRow row).action.set .UPDATE } I)
    (plan : Nat → Faults) : Keeps I (updateAll ctx conf zone recordset plan rows) := by
  induction rows generalizing plan with
  | nil => exact Keeps.pure _
  | cons row rows ih =>
    exact Keeps.bind (h row List.mem_cons_self).recordAction fun _ =>
      Keeps.bind (ih (fun r hr => h r (List.mem_cons_of_mem _ hr)) _) fun _ => Keeps.pure _

theorem deleteAll_keeps {rows : List RecordRow}
    (h : ∀ row ∈ rows, KeptBy ctx conf .DELETE
      { Record.ofRow row with action := (Record.ofRow row).action.set .DELETE } I)
    (plan : Nat → Faults) : Keeps I (deleteAll ctx conf zone recordset plan rows) := by
  induction rows generalizing plan with
  | nil => exact Keeps.pure _
  | cons row rows ih =>
    exact Keeps.bind (h row List.mem_cons_self).recordAction fun _ =>
      Keeps.bind (ih (fun r hr => h r (List.mem_cons_of_mem _ hr)) _) fun _ => Keeps.pure _

theorem raiseUnlessAll_keeps {n len : Nat} : Keeps I (raiseUnlessAll n len) :=
  Keeps.ite (fun _ => Keeps.pure _) fun _ =>
    Keeps.ite (fun _ => Keeps.raise _) fun _ => Keeps.raise _

theorem centralGetRecordset_keeps {zoneId recordsetId : Nat} :
    Keeps I (centralGetRecordset ctx zoneId recordsetId) :=
  Keeps.bind (Keeps.read _) fun _ => Keeps.bind (Keeps.read _) fun _ =>
    Keeps.bind (Keeps.raiseIf _ _) fun _ => Keeps.pure _

end

end Designate
