import Designate.Central.Callbacks

/-!
# What the worker calls back for a zone

`create_zdns_zone`, `delete_zdns_zone` and `update_zone_status`. The last one goes
through the records of the zone before it turns to the zone itself, and any step on
the way may fail.
-/

namespace Designate

/-- The steps of a zone action that may fail, short of the status updates. -/
inductive ZoneSite where
  | getView | device
  | createZdnsZone | createZoneAssociation
  | getZoneAssociation | deleteZoneAssociation | deleteZdnsZone | updateZdnsZone
  deriving DecidableEq, Repr

/-- The steps of `update_zone_status` that may fail. -/
inductive StatusSite where
  | findRecords
  /-- A step at the record of the given place. -/
  | record (n step : Nat)
  | zone
  deriving DecidableEq, Repr

/-- The failing steps of one zone action. -/
structure ZoneFaults where
  sites : ZoneSite → Bool
  /-- Of the status update that reports success. -/
  success : StatusSite → Bool
  /-- Of the status update of the `except` branch. -/
  error : StatusSite → Bool

/-- Everything gets through. -/
def ZoneFaults.none : ZoneFaults := ⟨fun _ => false, fun _ => false, fun _ => false⟩

/-- `create_zdns_zone`: the mirror row, then its association. -/
def createZdnsZone (faults : ZoneSite → Bool) (zoneId : Nat) : Call Unit := do
  mayFail (faults .createZdnsZone)
  let id ← insertZdnsZone
  mayFail (faults .createZoneAssociation)
  insertZoneAssociation { zoneId := zoneId, zdnsZoneId := id }

/-- `delete_zdns_zone`. -/
def deleteZdnsZone (faults : ZoneSite → Bool) (zoneId : Nat) : Call Unit := do
  mayFail (faults .getZoneAssociation)
  let association ← getZoneAssociation zoneId
  mayFail (faults .deleteZoneAssociation)
  deleteZoneAssociations zoneId
  mayFail (faults .deleteZdnsZone)
  deleteZdnsZoneRow association.zdnsZoneId

/-- `update_zdns_zone`: none of the columns it writes is read again. -/
def updateZdnsZone (faults : ZoneSite → Bool) (zoneId : Nat) : Call Unit := do
  mayFail (faults .getZoneAssociation)
  let _ ← getZoneAssociation zoneId
  mayFail (faults .updateZdnsZone)

/-- `_delete_record_with_zone_delete`. Step `n` of it fails where `fails n`. -/
def deleteRecordWithZoneDelete (ctx : Context) (fails : Nat → Bool) (row : RecordRow) :
    Call Unit := do
  mayFail (fails 0)
  let association ← getRecordAssociation (some row.id)
  mayFail (fails 1)
  let _ ← deleteRecordAssociationRow (some row.id)
  mayFail (fails 2)
  deleteRecordRow ctx (some row.id)
  mayFail (fails 3)
  let recordset ← getRecordset ctx row.recordsetId
  if recordset.records.isEmpty then do
    mayFail (fails 4)
    deleteRecordsetRow ctx recordset.id
  mayFail (fails 5)
  deleteZdnsRecordRow association.zdnsRecordId

/-- What `update_zone_status` does to one record of the zone. -/
def updateZoneRecord (ctx : Context) (conf : Conf) (fails : Nat → Bool) (action : Action)
    (status : Status) (row : RecordRow) : Call Unit :=
  match action, status with
  | .CREATE, .SUCCESS => do
    mayFail (fails 0)
    settleRecord ctx conf row
  | .CREATE, .ERROR => dropRecord ctx fails row
  | .DELETE, .SUCCESS => deleteRecordWithZoneDelete ctx fails row
  | _, _ => pure ()

/-- The loop of `update_zone_status` over the records, of which the first is at place `n`. -/
def updateZoneRecords (ctx : Context) (conf : Conf) (faults : StatusSite → Bool) (action : Action)
    (status : Status) : Nat → List RecordRow → Call Unit
  | _, [] => pure ()
  | n, row :: rows => do
    updateZoneRecord ctx conf (fun step => faults (.record n step)) action status row
    updateZoneRecords ctx conf faults action status (n + 1) rows

/-- The zone with `action` NONE and `status` ACTIVE. -/
def Zone.settle (zone : Zone) : Zone := { zone with action := .NONE, status := .ACTIVE }

/-- How `update_zone_status` ends: the zone goes if it was deleted, or could not be created. -/
def finishZone (ctx : Context) (zoneId : Nat) (action : Action) (status : Status) : Call Unit := do
  match status with
  | .SUCCESS =>
    if action = .DELETE then let _ ← deleteZoneRow ctx zoneId
    else let _ ← updateZoneRow ctx zoneId Zone.settle
  | .ERROR =>
    if action = .CREATE then let _ ← deleteZoneRow ctx zoneId
    else let _ ← updateZoneRow ctx zoneId Zone.settle
  | _ => pure ()

/-- `update_zone_status`, for a zone object with the given action and status. -/
def updateZoneStatus (ctx : Context) (conf : Conf) (faults : StatusSite → Bool) (zoneId : Nat)
    (action : Action) (status : Status) : Call Unit := do
  mayFail (faults .findRecords)
  let records ← findRecords ctx fun r => r.zoneId == zoneId
  updateZoneRecords ctx conf faults action status 0 records
  mayFail (faults .zone)
  finishZone ctx zoneId action status

end Designate
