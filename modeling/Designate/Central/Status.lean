import Designate.Central.RecordSets

/-!
# Pending changes and status messages

A change of a zone or a record is stored as pending, with a raised serial. The pool
reports by `update_status` up to which serial its servers have got, that they
failed, or that they do not know the zone; central answers for the records of the
zone first and for the zone then.
-/

namespace Designate

/-! ## Changes -/

/--
`utils.increment_serial`. A serial that is ahead of the clock counts on from where it is, so it
rises in either case.
-/
def incrementSerial (now serial : Nat) : Nat := if now ≤ serial then serial + 1 else now

/--
`find_recordset`: the one recordset under the criterion, with its records. More than one is as
bad as none.
-/
def findRecordset (ctx : Context) (p : RecordSetRow → Bool) : Call RecordSet :=
  Exec.read fun w =>
    (Table.one (w.db.recordsets.filter fun r =>
        p r && ctx.sees r.tenantId && w.db.liveZone r.zoneId) Exc.RecordSetNotFound).map fun row =>
      RecordSet.ofRow row
        ((w.db.records.filter fun r => r.recordsetId == row.id && ctx.sees r.tenantId).map
          Record.ofRow)

/--
`_update_soa`. The new data is assigned to the object of the SOA record, and
`_update_recordset_in_storage` does not write the records of a recordset.
-/
def updateSoa (ctx : Context) (conf : Conf) (zone : Zone) : Call Unit :=
  if zone.type = .PRIMARY then do
    Exec.raiseIf (zone.poolId ≠ conf.poolId) .PoolNotFound
    let soa ← findRecordset ctx fun r => r.zoneId == zone.id && r.type == .SOA
    Exec.raiseIf (soa.records.isEmpty || conf.poolNsRecords.isEmpty) .IndexError
    updateRecordsetInStorage ctx conf zone soa
  else pure ()

/--
`_increment_zone_serial`: the row gets the serial and what else the object carries, by `f`. The
serial is raised from what the object says, not from what is stored.
-/
def incrementZoneSerial (ctx : Context) (conf : Conf) (zone : Zone) (f : Zone → Zone) :
    Call Zone := do
  let zone ← updateZoneRow ctx zone.id fun z =>
    { f z with serial := incrementSerial ctx.now zone.serial }
  updateSoa ctx conf zone
  pure zone

/-- What an update writes of a zone object: the fields a caller changes, and that it is pending. -/
def Zone.updating (zone : Zone) (row : Zone) : Zone :=
  { row with ttl := zone.ttl, parentZoneId := zone.parentZoneId
             action := .UPDATE, status := .PENDING }

/-- `_update_zone_in_storage`. -/
def updateZoneInStorage (ctx : Context) (conf : Conf) (zone : Zone) (increment : Bool) :
    Call Zone :=
  transaction do
    if increment then incrementZoneSerial ctx conf zone zone.updating
    else updateZoneRow ctx zone.id zone.updating

/--
`_delete_zone_in_storage`. The serial stays: a deletion is reported at the serial of the last
change.
-/
def deleteZoneInStorage (ctx : Context) (zone : Zone) : Call Zone :=
  transaction (updateZoneRow ctx zone.id fun z => { z with action := .DELETE, status := .PENDING })

/-- `_update_record_in_storage` and `_delete_record_in_storage`, which differ in the action. -/
def changeRecordInStorage (ctx : Context) (conf : Conf) (zone : Zone) (record : Record)
    (action : Action) (increment : Bool) : Call Unit :=
  transaction do
    let zone ← if increment then updateZoneInStorage ctx conf zone true else pure zone
    updateRecordRow ctx conf
      { record with action := record.action.set action, status := record.status.set .PENDING
                    serial := record.serial.set zone.serial }

/-- `_update_record_in_storage`. -/
def updateRecordInStorage (ctx : Context) (conf : Conf) (zone : Zone) (record : Record)
    (increment : Bool) : Call Unit :=
  changeRecordInStorage ctx conf zone record .UPDATE increment

/-- `_delete_record_in_storage`. -/
def deleteRecordInStorage (ctx : Context) (conf : Conf) (zone : Zone) (record : Record)
    (increment : Bool) : Call Unit :=
  changeRecordInStorage ctx conf zone record .DELETE increment

/-! ## Messages -/

/-- A message of the pool about a zone. -/
structure PoolStatus where
  status : Status
  serial : Nat
  deriving DecidableEq, Repr

/--
`_update_zone_or_record_status`, for a zone or a record of the given action, status
and serial: its new action and status, and whether it goes.
-/
def updateZoneOrRecordStatus (m : PoolStatus) (action : Action) (status : Status) (serial : Nat) :
    Action × Status × Bool :=
  match m.status with
  | .SUCCESS =>
    if (action = .CREATE ∨ action = .UPDATE) ∧ (status = .PENDING ∨ status = .ERROR) ∧
        serial ≤ m.serial then (.NONE, .ACTIVE, false)
    else if action = .DELETE ∧ (status = .PENDING ∨ status = .ERROR) ∧ serial ≤ m.serial then
      (.NONE, .DELETED, true)
    else (action, status, false)
  | .ERROR =>
    if status = .PENDING ∧ (serial ≤ m.serial ∨ m.serial = 0) then (action, .ERROR, false)
    else (action, status, false)
  | .NO_ZONE => (.NONE, .DELETED, true)
  | _ => (action, status, false)

/-- The criterion on the records of the zone: none for `NO_ZONE`. -/
def PoolStatus.concerns (m : PoolStatus) (row : RecordRow) : Bool :=
  match m.status with
  | .SUCCESS => (row.status == .PENDING || row.status == .ERROR) && decide (row.serial ≤ m.serial)
  | .ERROR => row.status == .PENDING && (m.serial == 0 || decide (row.serial ≤ m.serial))
  | _ => true

section

variable (ctx : Context) (conf : Conf) (m : PoolStatus)

/-- The object of a row with what the message makes of it, and whether it goes. -/
def PoolStatus.record (row : RecordRow) : Record × Bool :=
  let (action, status, deleted) := updateZoneOrRecordStatus m row.action row.status row.serial
  let record := Record.ofRow row
  ({ record with action := record.action.set action, status := record.status.set status }, deleted)

/-- One turn of the loop of `_update_record_status`. -/
def updateOneRecordStatus (row : RecordRow) : Call Unit := do
  let (record, deleted) := m.record row
  if record.whatChanged then updateRecordRow ctx conf record
  if deleted then dropRecord ctx (fun _ => false) row

/-- `_update_record_status`. -/
def updateRecordStatuses (zoneId : Nat) : Call Unit := do
  let records ← findRecords ctx fun r => r.zoneId == zoneId && m.concerns r
  Exec.forEach (updateOneRecordStatus ctx conf m) records

/-- `_update_zone_status`. -/
def updateOneZoneStatus (zoneId : Nat) : Call Unit := do
  let zone ← getZone ctx zoneId
  let (action, status, deleted) := updateZoneOrRecordStatus m zone.action zone.status zone.serial
  if status ≠ .DELETED then
    let _ ← updateZoneRow ctx zone.id fun z => { z with action := action, status := status }
  if deleted then
    let _ ← deleteZoneRow ctx zone.id

/-- `update_status`. -/
def updateStatus (zoneId : Nat) : Call Unit :=
  transaction do
    updateRecordStatuses ctx conf m zoneId
    updateOneZoneStatus ctx m zoneId

end

end Designate
