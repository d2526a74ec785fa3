import Designate.Central.Callbacks
import Designate.Objects.RecordSet

/-!
# The worker's recordset action

`RecordSetAction.__call__` takes one of three actions and raises for anything else, before its
`try` block begins. The worker hands it the action of the recordset object.
-/

namespace Designate

/-- The backend of a target, as far as whole recordsets go. -/
structure RecordSetBackend where
  createRecordset : Zone → RecordSet → Call Unit
  updateRecordset : Zone → RecordSet → Call Unit
  deleteRecordset : Zone → RecordSet → Call Unit

namespace RecordSetAction

/-- `_validate_action`. -/
def validateAction (action : Action) : Call Unit :=
  Exec.raiseIf (!([Action.CREATE, .UPDATE, .DELETE].contains action)) .BadAction

section

variable (ctx : Context) (conf : Conf) (backend : RecordSetBackend) (zone : Zone)
  (recordset : RecordSet)

/-- The `try` block. -/
def body (action : Action) : Call Unit := do
  match action with
  | .CREATE => backend.createRecordset zone recordset
  | .UPDATE => backend.updateRecordset zone recordset
  | .DELETE => backend.deleteRecordset zone recordset
  | .NONE => pure ()
  updateRecordsetStatus ctx conf recordset.id action .SUCCESS

/-- `RecordSetAction.__call__`. -/
def call (action : Action) : Call Unit := do
  validateAction action
  Exec.onError (body ctx conf backend zone recordset action)
    (updateRecordsetStatus ctx conf recordset.id action .ERROR)

end

end RecordSetAction

/-- `_do_recordset_action`, with the targets of the zone's pool. -/
def doRecordsetAction (ctx : Context) (conf : Conf) (targets : List RecordSetBackend) (zone : Zone)
    (recordset : RecordSet) : Call Unit :=
  match targets with
  | [] => Exec.raise .IndexError
  | target :: _ => RecordSetAction.call ctx conf target zone recordset recordset.action

end Designate
