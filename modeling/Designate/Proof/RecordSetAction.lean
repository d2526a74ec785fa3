import Designate.Worker.RecordSetAction
import Designate.Proof.RecordSetStatus

/-!
# The action of a recordset

It is meant to sum up the actions of the records, so that the worker can take it. What the
object says instead is right of recordsets at rest only, and the worker takes none of them.
-/

namespace Designate

/-- What the actions of records amount to. -/
def summary (actions : List (Option Action)) : Action :=
  if ∀ a ∈ actions, a = some .NONE then .NONE
  else if ∀ a ∈ actions, a = some .CREATE then .CREATE
  else if ∀ a ∈ actions, a = some .DELETE then .DELETE
  else .UPDATE

/-- Something is still to be done for one of the records. -/
def RecordSet.Pending (recordset : RecordSet) : Prop :=
  ∃ r ∈ recordset.records, r.status.value = some .PENDING

/-- The worker takes the action. -/
def RecordSetAction.Accepts (action : Action) : Prop :=
  ∀ w, validateAction action w = (.ok (), w)

/-- The action sums up those of the records, and the worker takes it where records are pending. -/
def RecordSet.ActionRight (recordset : RecordSet) : Prop :=
  recordset.action = summary (recordset.records.map fun r => r.action.value) ∧
    (recordset.Pending → RecordSetAction.Accepts recordset.action)

theorem summary_eq_none (actions : List (Option Action)) :
    summary actions = .NONE ↔ ∀ a ∈ actions, a = some .NONE := by
  unfold summary
  constructor
  · intro h
    by_contra hsome
    rw [if_neg hsome] at h
    split at h
    · exact absurd h nofun
    · split at h <;> exact absurd h nofun
  · intro h
    rw [if_pos h]

theorem RecordSetAction.accepts_iff (action : Action) :
    RecordSetAction.Accepts action ↔ action ≠ .NONE := by
  cases action with
  | NONE =>
    refine iff_of_false (fun h => ?_) (fun h => h rfl)
    exact absurd (congrArg Prod.fst (h {})) nofun
  | _ => exact iff_of_true (fun _ => rfl) nofun

/--
**The action of a recordset is right exactly where its records are all at rest: no record has an
action, and none is pending.**
-/
theorem RecordSet.action_right_iff (recordset : RecordSet) :
    recordset.ActionRight ↔
      (∀ r ∈ recordset.records, r.action.value = some .NONE) ∧ ¬ recordset.Pending := by
  have hsummary : recordset.action = summary (recordset.records.map fun r => r.action.value) ↔
      ∀ r ∈ recordset.records, r.action.value = some .NONE := by
    rw [eq_comm]
    refine (summary_eq_none _).trans ?_
    rw [List.forall_mem_map]
  have hrejected : ¬ RecordSetAction.Accepts recordset.action := by
    rw [RecordSetAction.accepts_iff]
    exact fun h => h rfl
  unfold RecordSet.ActionRight
  rw [hsummary, imp_iff_not hrejected]

/-- A recordset with one record that is still to be created. -/
theorem RecordSet.action_lost : ¬ ∀ recordset : RecordSet, recordset.ActionRight := by
  intro h
  have hright := h (RecordSet.ofRow { id := 1, zoneId := 1, tenantId := none
                                      name := "www.example.org.", type := .A, ttl := none
                                      description := none }
    [{ Record.new "192.0.2.1" with action := .loaded .CREATE, status := .loaded .PENDING }])
  exact absurd hright.1 (by decide)

end Designate
