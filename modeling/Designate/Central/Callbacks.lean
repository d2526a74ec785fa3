import Designate.Central.Validate

/-!
# What the worker calls back into central

Each callback is a call of its own over RPC, with its own transactions: central
commits it whatever becomes of the request that made the worker act. A step of
a callback that may fail by itself is a `Site`; a worker call runs under a set
of failing sites.
-/

namespace Designate

/-- The steps of a record action that may fail. -/
inductive Site where
  | getView | getRecordAssociation | getZdnsRecord | device
  | createZdnsRecord | createRecordAssociation
  | updateRecordsetCallback | updateZdnsRecord
  | updateStatus | deleteZdnsRecord | deleteRecord
  /-- The status update of the `except` branch. -/
  | errorStatus
  deriving DecidableEq, Repr

/-- The sites that fail in one worker call. -/
abbrev Faults := Site → Bool

/-- Everything gets through. -/
def Faults.none : Faults := fun _ => false

/-- The columns of a zdns row the worker sends. -/
structure ZdnsRecordValues where
  rrId : RRId
  name : String
  type : RRType
  ttl : Option Nat
  rdata : String

def ZdnsRecordValues.row (values : ZdnsRecordValues) (id : Nat) : ZdnsRecord :=
  { id := id, rrId := values.rrId, name := values.name, type := values.type, ttl := values.ttl,
    rdata := values.rdata }

/--
`create_zdns_record`: the mirror row, then its association. Between the two lies a site: a mirror
without its association is what a crash here leaves.
-/
def createZdnsRecord (faults : Faults) (recordId : Nat) (values : ZdnsRecordValues) : Call Unit := do
  mayFail (faults .createZdnsRecord)
  let id ← insertZdnsRecord values.row
  mayFail (faults .createRecordAssociation)
  insertRecordAssociation { recordId := recordId, zdnsRecordId := id }

/--
`_update_recordset_in_storage` without a serial increment. The checks are those of a request,
also where it is the worker that calls.
-/
def updateRecordsetInStorage (ctx : Context) (conf : Conf) (zone : Zone) (recordset : RecordSet) :
    Call Unit :=
  transaction do
    check (validateRecordset ctx conf zone (some recordset.id) recordset.name recordset.type
      (if recordset.ttl.changed then recordset.ttlValue else none) recordset.records.length)
    check fun db =>
      if recordset.records.isEmpty then .ok ()
      else enforceRecordQuota ctx conf zone recordset.id recordset.managed
        recordset.records.length db
    updateRecordsetRow ctx recordset

/-- `update_recordset_callback`. -/
def updateRecordsetCallback (ctx : Context) (conf : Conf) (faults : Faults) (zone : Zone)
    (recordset : RecordSet) : Call Unit := do
  mayFail (faults .updateRecordsetCallback)
  updateRecordsetInStorage ctx conf zone recordset

/-- `update_zdns_record`. -/
def updateZdnsRecord (faults : Faults) (zdnsRecord : ZdnsRecord) : Call Unit := do
  mayFail (faults .updateZdnsRecord)
  updateZdnsRecordRow zdnsRecord

/-- The object with `action` NONE and `status` ACTIVE. -/
def Record.settle (record : Record) : Record :=
  { record with action := record.action.set .NONE, status := record.status.set .ACTIVE }

/-- `update_record_status`. -/
def updateRecordStatus (ctx : Context) (conf : Conf) (faults : Faults) (record : Record)
    (action : Action) (status : Status) : Call Unit := do
  mayFail (faults (if status = .ERROR then .errorStatus else .updateStatus))
  let _ ← findRecordById ctx record.id
  match action with
  | .CREATE =>
    if status = .ERROR then deleteRecordRow ctx record.id
    else updateRecordRow ctx conf record.settle
  | .DELETE =>
    if status = .SUCCESS then do
      let association ← deleteRecordAssociationRow record.id
      mayFail (faults .deleteZdnsRecord)
      deleteZdnsRecordRow association.zdnsRecordId
      mayFail (faults .deleteRecord)
      deleteRecordRow ctx record.id
  | _ => if status = .SUCCESS then updateRecordRow ctx conf record.settle

/--
Delete a record, and its recordset if that was the last one. Step `n` of it fails
where `fails n`.
-/
def dropRecord (ctx : Context) (fails : Nat → Bool) (row : RecordRow) : Call Unit := do
  mayFail (fails 0)
  deleteRecordRow ctx (some row.id)
  mayFail (fails 1)
  let recordset ← getRecordset ctx row.recordsetId
  if recordset.records.isEmpty then do
    mayFail (fails 2)
    deleteRecordsetRow ctx recordset.id

/-- Settle the record of a row. -/
def settleRecord (ctx : Context) (conf : Conf) (row : RecordRow) : Call Unit :=
  updateRecordRow ctx conf (Record.ofRow row).settle

/-- `update_recordset_status`, for the record action `action`. -/
def updateRecordsetStatus (ctx : Context) (conf : Conf) (recordsetId : Nat) (action : Action)
    (status : Status) : Call Unit := do
  let records ← findRecords ctx fun r => r.recordsetId == recordsetId
  Exec.forEach (fun row =>
    match action with
    | .CREATE => if status = .ERROR then dropRecord ctx (fun _ => false) row
        else settleRecord ctx conf row
    | .DELETE => if status = .SUCCESS then dropRecord ctx (fun _ => false) row
        else settleRecord ctx conf row
    | _ => if status = .SUCCESS then settleRecord ctx conf row else pure ()) records

end Designate
