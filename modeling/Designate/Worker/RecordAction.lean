import Designate.Central.Callbacks

/-!
# The worker's record action

`RecordAction.__call__`: one device call between look-ups and book-keeping, and
one handler for everything that raises. The handler reports `ERROR` and returns
whatever the device had answered by then.
-/

namespace Designate

/-- `UpdateRecordStatus`: tell central how the action ended. -/
def recordActionUpdateStatus (ctx : Context) (conf : Conf) (faults : Faults) (record : Record)
    (action : Action) (status : Status) : Call Unit := do
  Exec.modify fun w => { w with
    statusMessages := w.statusMessages ++ [⟨record.id, action, status⟩] }
  updateRecordStatus ctx conf faults record action status

/-- The device call, if it gets through. -/
def callDevice {α : Type} (faults : Faults) (action : Action) (record : Record) (m : Call α) :
    Call α := do
  Device.ask ⟨action, record.id⟩
  Exec.raiseIf (faults .device) .ZdnsErrMessage
  m

def lookupView (ctx : Context) (faults : Faults) (zone : Zone) : Call View := do
  mayFail (faults .getView)
  getView ctx zone.viewId

/-- The zdns row behind a record, through its association. -/
def lookupZdnsRecord (faults : Faults) (record : Record) : Call ZdnsRecord := do
  mayFail (faults .getRecordAssociation)
  let association ← getRecordAssociation record.id
  mayFail (faults .getZdnsRecord)
  getZdnsRecord association.zdnsRecordId

namespace RecordAction

section

variable (ctx : Context) (conf : Conf) (faults : Faults) (zone : Zone) (record : Record)
  (recordset : RecordSet)

/-- Up to and including the device call of a CREATE. -/
def createCall : Call (RRId × Unit) := do
  let view ← lookupView ctx faults zone
  let response ← callDevice faults .CREATE record
    (Device.createRecord conf { view := view.name, zone := zone.name, name := recordset.name,
                                type := recordset.type, ttl := recordset.ttlValue,
                                rdata := record.text })
  pure (response, ())

/-- What a CREATE does once the device has answered. -/
def createRest (response : RRId) : Call Unit := do
  match record.id with
  | none => Exec.raise .AttributeError
  | some id =>
    createZdnsRecord faults id
      { rrId := response, name := recordset.name, type := recordset.type,
        ttl := recordset.ttlValue, rdata := record.text }
  recordActionUpdateStatus ctx conf faults record .CREATE .SUCCESS

/-- Up to and including the device call of an UPDATE. -/
def updateCall : Call (RRId × ZdnsRecord) := do
  let view ← lookupView ctx faults zone
  let zdnsRecord ← lookupZdnsRecord faults record
  let zdnsRecord := { zdnsRecord with rdata := record.text, ttl := recordset.ttlValue }
  let response ← callDevice faults .UPDATE record
    (Device.updateRecord conf view.name zone.name zdnsRecord.rrId zdnsRecord.ttl zdnsRecord.rdata)
  pure (response, zdnsRecord)

/-- What an UPDATE does once the device has answered. -/
def updateRest (response : RRId) (zdnsRecord : ZdnsRecord) : Call Unit := do
  updateRecordsetCallback ctx conf faults zone recordset
  updateZdnsRecord faults { zdnsRecord with rrId := response }
  recordActionUpdateStatus ctx conf faults record .UPDATE .SUCCESS

/-- Up to and including the device call of a DELETE. -/
def deleteCall : Call (RRId × Unit) := do
  let view ← lookupView ctx faults zone
  let zdnsRecord ← lookupZdnsRecord faults record
  let response ← callDevice faults .DELETE record
    (Device.deleteRecord view.name zone.name zdnsRecord.rrId)
  pure (response, ())

/-- What a DELETE does once the device has answered. -/
def deleteRest : Call Unit :=
  recordActionUpdateStatus ctx conf faults record .DELETE .SUCCESS

/-- The `except` branch. -/
def handler (action : Action) : Call Unit :=
  recordActionUpdateStatus ctx conf faults record action .ERROR

end

end RecordAction

/-- `RecordAction.__call__`. -/
def recordAction (ctx : Context) (conf : Conf) (faults : Faults) (zone : Zone) (record : Record)
    (action : Action) (recordset : RecordSet) : Call (Option RRId) :=
  match action with
  | .CREATE =>
    Exec.saga (RecordAction.createCall ctx conf faults zone record recordset)
      (fun response _ => RecordAction.createRest ctx conf faults record recordset response)
      (RecordAction.handler ctx conf faults record .CREATE)
  | .UPDATE =>
    Exec.saga (RecordAction.updateCall ctx conf faults zone record recordset)
      (RecordAction.updateRest ctx conf faults zone record recordset)
      (RecordAction.handler ctx conf faults record .UPDATE)
  | .DELETE =>
    Exec.saga (RecordAction.deleteCall ctx faults zone record)
      (fun _ _ => RecordAction.deleteRest ctx conf faults record)
      (RecordAction.handler ctx conf faults record .DELETE)
  | .NONE => Exec.raise .BadAction

end Designate
