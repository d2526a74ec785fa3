import Designate.Dnsutils

/-!
# The sync of a secondary zone

What a zone transfer brings is put into a zone object, and `storage.update_zone` makes
of the recordsets the object carries what it will. Its attributes and masters are in
tables of their own, and left out here.
-/

namespace Designate

namespace ZoneSync

/-- A `Zone` with the recordsets it carries, if they are set. -/
structure ZoneObject where
  id : Nat
  tenantId : Tracked (Option String)
  type : Tracked ZoneType
  ttl : Tracked (Option Nat)
  serial : Tracked Nat
  action : Tracked Action
  status : Tracked Status
  recordsets : Option (List ReceivedRecordSet)

/-- The columns an object writes over a row. -/
def ZoneObject.over (zone : ZoneObject) (row : Zone) : Zone :=
  { row with tenantId := zone.tenantId.write row.tenantId
             type := zone.type.write row.type
             ttl := (zone.ttl.write (some row.ttl)).getD row.ttl
             serial := zone.serial.write row.serial
             action := zone.action.write row.action
             status := zone.status.write row.status }

/-- The object would write a null over the TTL. -/
def ZoneObject.nulls (zone : ZoneObject) : Bool :=
  zone.ttl.changed && zone.ttl.value == some none

/-- The row of the zone, by `_update`. -/
def updateRow (ctx : Context) (zone : ZoneObject) : Call Zone := do
  Exec.raiseIf zone.nulls .DBError
  updateZoneRow ctx zone.id zone.over

/-- The recordset of a key of `data`. -/
def ReceivedRecordSet.isFor (rrset : ReceivedRecordSet) (row : RecordSetRow) : Bool :=
  row.name == rrset.name && RdType.known row.type == rrset.type

/-- `current.update(rrset)`, with the records of the received one. -/
def currentUpdated (current : RecordSetRow) (rrset : ReceivedRecordSet) : RecordSet :=
  let recordset := RecordSet.ofRow current (rrset.data.map Record.new)
  { recordset with ttl := match rrset.ttl with
                          | none => recordset.ttl
                          | some ttl => recordset.ttl.set ttl }

/-- The object is as its row again once it is stored. -/
def storedCurrent (current : RecordSetRow) (rrset : ReceivedRecordSet) : RecordSetRow :=
  { current with ttl := rrset.ttl.getD current.ttl }

/-- `storage.create_recordset`, for a type the column may not have. -/
def createRecordset (ctx : Context) (zoneId : Nat) (rrset : ReceivedRecordSet) : Call Nat :=
  match rrset.type with
  | .known type => do
    let recordset ← insertRecordset ctx zoneId
      { name := rrset.name, type := type, ttl := rrset.ttlValue, description := none
        records := rrset.data.map Record.new }
    pure recordset.id
  | .other _ => do
    let _ ← getZone ctx zoneId
    Exec.raise .DBError

/-- The loop of `update_zone` over the recordsets it was given: the ids that are to stay. -/
def mergeRecordsets (ctx : Context) (zoneId : Nat) :
    List RecordSetRow → List ReceivedRecordSet → Call (List Nat)
  | _, [] => pure []
  | data, rrset :: rrsets =>
    match data.find? (ReceivedRecordSet.isFor rrset) with
    | some current => do
      updateRecordsetRow ctx (currentUpdated current rrset)
      let keep ← mergeRecordsets ctx zoneId
        (Table.update RecordSetRow.id current.id (fun row => storedCurrent row rrset) data) rrsets
      pure (current.id :: keep)
    | none => do
      let id ← createRecordset ctx zoneId rrset
      let keep ← mergeRecordsets ctx zoneId data rrsets
      pure (id :: keep)

/--
The part of `update_zone` that is about recordsets: they are found by name and type, or
created; those of a secondary zone that are in no list are purged.
-/
def updateRecordsets (ctx : Context) (zoneId : Nat) (type : ZoneType) :
    Option (List ReceivedRecordSet) → Call Unit
  | none => pure ()
  | some rrsets => do
    let existing ← Exec.read fun w => .ok (findRecordsets ctx (fun r => r.zoneId == zoneId) w.db)
    let keep ← mergeRecordsets ctx zoneId existing rrsets
    if type = .SECONDARY then
      Exec.forEach (deleteRecordsetRow ctx)
        ((existing.map RecordSetRow.id).filter fun id => !keep.contains id)
    else pure ()

/-- The recordsets and records follow the zone to another tenant, where it is assigned one. -/
def moveContents (zone : ZoneObject) (tenantId : Option String) : Call Unit :=
  if zone.tenantId.changed then
    updateDb fun db => { db with
      recordsets := Table.update RecordSetRow.zoneId zone.id
        (fun r => { r with tenantId := tenantId }) db.recordsets
      records := Table.update RecordRow.zoneId zone.id (fun r => { r with tenantId := tenantId })
        db.records }
  else pure ()

/-- `storage.update_zone`. -/
def updateZone (ctx : Context) (zone : ZoneObject) : Call Zone := do
  let updated ← updateRow ctx zone
  updateRecordsets ctx zone.id updated.type zone.recordsets
  moveContents zone updated.tenantId
  pure updated

end ZoneSync

end Designate
