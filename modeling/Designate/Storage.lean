import Designate.Exec
import Designate.Objects
import Designate.Table

/-!
# Storage and the device

The tables, the device behind the worker, and the operations of both. Storage
queries carry the tenant criterion of the request on the tables that have a
tenant column (`zones`, `recordsets`, `records`); the mirror tables and the
association tables have none. Deleting a recordset cascades to its records, as
the foreign key says, and to nothing else. A zone is deleted softly.

A device call performs its change and answers, or answers with an error and
changes nothing. The device chooses the names of its resource records, also anew
at an update, and finds them below the view and the zone of the request.
-/

namespace Designate

structure ViewAcl where
  id : Nat
  viewId : Nat
  aclId : Nat
  deriving DecidableEq, Repr

structure ViewZdnsView where
  viewId : Nat
  zdnsViewId : Nat
  deriving DecidableEq, Repr

structure ZdnsViewInfo where
  id : Nat
  name : String
  priority : Nat
  deriving DecidableEq, Repr

/-- The order of a query by priority. -/
def ZdnsViewInfo.Before (i j : ZdnsViewInfo) : Prop :=
  i.priority < j.priority ∨ i.priority = j.priority ∧ i.id ≤ j.id

instance : DecidableRel ZdnsViewInfo.Before := fun i j =>
  inferInstanceAs (Decidable (i.priority < j.priority ∨ i.priority = j.priority ∧ i.id ≤ j.id))

/-- The tables. -/
structure Db where
  zones : List Zone := []
  recordsets : List RecordSetRow := []
  records : List RecordRow := []
  zdnsRecords : List ZdnsRecord := []
  recordAssociations : List RecordAssociation := []
  /-- `zdns_zones_info_t`, by id. -/
  zdnsZones : List Nat := []
  zoneAssociations : List ZoneAssociation := []
  views : List View := []
  viewAcls : List ViewAcl := []
  viewZdnsViews : List ViewZdnsView := []
  zdnsViewInfos : List ZdnsViewInfo := []
  deriving DecidableEq, Repr

/-- What a resource record on the device says, and where. -/
structure RRData where
  view : String
  zone : String
  name : String
  type : RRType
  ttl : Option Nat
  rdata : String
  deriving DecidableEq, Repr

/-- A resource record on the device, under the name the device gave it. -/
structure RR extends RRData where
  id : RRId
  deriving DecidableEq, Repr

/-- The device finds a resource record by its name below a view and a zone. -/
def RR.key (rr : RR) : RRId × String × String := (rr.id, rr.view, rr.zone)

/-- A record call the device was asked to make, and for which record. -/
structure DeviceCall where
  action : Action
  recordId : Option Nat
  deriving DecidableEq, Repr

structure Device where
  rrs : List RR := []
  /-- The zones, as view name and zone name. -/
  zones : List (String × String) := []
  calls : List DeviceCall := []
  /-- How many changes the device has made. -/
  changes : Nat := 0
  deriving DecidableEq, Repr

/-- A message of the worker that reports how a record action ended. -/
structure StatusMessage where
  recordId : Option Nat
  action : Action
  status : Status
  deriving DecidableEq, Repr

/-- Everything the two services act on. Every identifier in use is below `nextId`. -/
structure World where
  db : Db := {}
  device : Device := {}
  nextId : Nat := 1
  statusMessages : List StatusMessage := []
  deriving DecidableEq, Repr

/-- The number of a handle. -/
def RRId.number : RRId → Nat
  | .handle n => n + 1
  | .text _ => 0

/-- A deployment: limits, quotas, the pool, and the functions it takes from outside. -/
structure Conf where
  md5 : String → String := id
  /-- The name the device gives a resource record, next to the ones it has already. -/
  rrName : List RR → RRData → RRId := fun rrs _ =>
    .handle (rrs.foldr (fun rr n => max rr.id.number n) 0)
  quota : Option String → Resource → Nat := fun _ _ => 1000
  maxZoneNameLen : Nat := 255
  maxRecordsetNameLen : Nat := 255
  minTtl : Option Nat := none
  /-- Whether policy lets the caller go below `minTtl`. -/
  useLowTtl : Bool := false
  defaultTtl : Nat := 3600
  poolId : Nat := 0
  poolNsRecords : List String := []
  /-- The verdict of the TLD and blacklist tables on a zone name. -/
  allowedZoneName : String → Bool := fun _ => true
  /-- The order of texts in the database. -/
  collation : String → String → Bool := fun a b => decide (a ≤ b)
  dialect : Text.Dialect := .mysql
  /-- To `LIKE` a letter of either case is the same, as it is under mysql's default collation. -/
  ignoresCase : Bool := false

/-- `LIKE` minds the case of letters under some collations of mysql, and never in sqlite. -/
def Conf.mindsCase (conf : Conf) : Bool := !conf.ignoresCase && conf.dialect != .sqlite

/-- What `LIKE` compares of a character. -/
def Conf.fold (conf : Conf) : Char → Char := if conf.mindsCase then id else Char.toLower

/-- `LIKE`. -/
def Conf.like (conf : Conf) (pattern text : List Char) : Bool :=
  Text.like conf.dialect conf.fold pattern text

/-- A service call. -/
abbrev Call := Exec World Exc

/-- A step that does not get through when `b`. -/
def mayFail (b : Bool) : Call Unit := Exec.raiseIf b .StepFailed

/-- `transaction`: the tables go back when the body raises, the device does not. -/
def transaction {α : Type} (m : Call α) : Call α :=
  Exec.rollback (fun w w' => { w' with db := w.db }) m

/-- `generate_uuid`. -/
def generateUuid : Call Nat :=
  Exec.write fun w => .ok (w.nextId, { w with nextId := w.nextId + 1 })

/-- Change the tables. -/
def updateDb (f : Db → Db) : Call Unit := Exec.modify fun w => { w with db := f w.db }

/-! ## Zones and views -/

def Db.liveZone (db : Db) (id : Nat) : Bool := db.zones.any fun z => z.id == id && !z.deleted

/-- The live zone a keyed query finds. -/
def findZone (ctx : Context) (id : Nat) (db : Db) : Except Exc Zone :=
  Table.find Zone.id id (fun z => ctx.sees z.tenantId && !z.deleted) .ZoneNotFound db.zones

def getZone (ctx : Context) (id : Nat) : Call Zone := Exec.read fun w => findZone ctx id w.db

def findZones (ctx : Context) (p : Zone → Bool) : Call (List Zone) :=
  Exec.read fun w =>
    .ok (w.db.zones.filter fun z => p z && ctx.sees z.tenantId && !z.deleted)

/-- `storage.create_zone`: names are unique among the live zones of a pool. -/
def insertZone (zone : Zone) : Call Zone := do
  let id ← generateUuid
  Exec.write fun w =>
    if w.db.zones.any fun z => z.name == zone.name && !z.deleted && z.poolId == zone.poolId then
      .error .DuplicateZone
    else
      let row := { zone with id := id, deleted := false }
      .ok (row, { w with db := { w.db with zones := w.db.zones ++ [row] } })

/-- `storage.update_zone`: `f` is the assignment of the changed columns. -/
def updateZoneRow (ctx : Context) (id : Nat) (f : Zone → Zone) : Call Zone := do
  let zone ← getZone ctx id
  updateDb fun db => { db with zones := Table.update Zone.id id f db.zones }
  pure (f zone)

/-- `storage.delete_zone`. -/
def deleteZoneRow (ctx : Context) (id : Nat) : Call Zone :=
  updateZoneRow ctx id fun z => { z with deleted := true, action := .NONE, status := .DELETED }

/-- The row behind the `view_id` attribute of a zone. -/
def findView (ctx : Context) (id : Option Nat) (db : Db) : Except Exc View :=
  match id with
  | none => .error .AttributeError
  | some id => Table.find View.id id (fun v => ctx.sees v.tenantId) .ViewNotFound db.views

def getView (ctx : Context) (id : Option Nat) : Call View := Exec.read fun w => findView ctx id w.db

/-- `MAXIMUM_SUBZONE_DEPTH`. -/
def maximumSubzoneDepth : Nat := 128

/--
One turn of the loop of `purge_zones`. Where the walk from the zone ends is known before anything
is written; what was below the zone goes there first, so that no zone is orphaned by its going.
-/
def purgeTurn {m : Type → Type} [Monad m] {κ : Type} (walk : m κ) (reparent : κ → m Unit)
    (purge : m Unit) : m Unit := do
  let survivingParentId ← walk
  reparent survivingParentId
  purge

/-! ## Recordsets -/

def findRecords (ctx : Context) (p : RecordRow → Bool) : Call (List RecordRow) :=
  Exec.read fun w => .ok (w.db.records.filter fun r => p r && ctx.sees r.tenantId)

/-- `count_records`: only the records of live zones count. -/
def countRecords (ctx : Context) (p : RecordRow → Bool) (db : Db) : Nat :=
  (db.records.filter fun r => p r && ctx.sees r.tenantId && db.liveZone r.zoneId).length

/-- `find_recordsets`: with the tenant criterion that leaves out the rows without a tenant. -/
def findRecordsets (ctx : Context) (p : RecordSetRow → Bool) (db : Db) : List RecordSetRow :=
  db.recordsets.filter fun r => p r && ctx.owns r.tenantId && db.liveZone r.zoneId

def countRecordsets (ctx : Context) (p : RecordSetRow → Bool) (db : Db) : Nat :=
  (db.recordsets.filter fun r => p r && ctx.sees r.tenantId && db.liveZone r.zoneId).length

/-- The recordset row a keyed query finds. -/
def findRecordsetRow (ctx : Context) (id : Nat) (db : Db) : Except Exc RecordSetRow :=
  Table.find RecordSetRow.id id (fun r => ctx.sees r.tenantId && db.liveZone r.zoneId)
    .RecordSetNotFound db.recordsets

/-- `storage.get_recordset`, with the records the recordset has. -/
def getRecordset (ctx : Context) (id : Nat) : Call RecordSet :=
  Exec.read fun w =>
    (findRecordsetRow ctx id w.db).map fun row =>
      RecordSet.ofRow row
        ((w.db.records.filter fun r => r.recordsetId == id && ctx.sees r.tenantId).map Record.ofRow)

/-- `storage.create_recordset`: one recordset per zone, name and type. -/
def insertRecordset (ctx : Context) (zoneId : Nat) (recordset : NewRecordSet) : Call RecordSet := do
  let zone ← getZone ctx zoneId
  let id ← generateUuid
  Exec.write fun w =>
    if w.db.recordsets.any fun r =>
        r.zoneId == zoneId && r.name == recordset.name && r.type == recordset.type then
      .error .DuplicateRecordSet
    else
      let row : RecordSetRow :=
        { id := id, zoneId := zoneId, tenantId := zone.tenantId, name := recordset.name,
          type := recordset.type, ttl := recordset.ttl, description := recordset.description }
      .ok (RecordSet.ofRow row recordset.records,
        { w with db := { w.db with recordsets := w.db.recordsets ++ [row] } })

/-- `storage.update_recordset`: the changed columns only, never the records. -/
def updateRecordsetRow (ctx : Context) (recordset : RecordSet) : Call Unit :=
  Exec.write fun w =>
    match Table.find RecordSetRow.id recordset.id (fun r => ctx.sees r.tenantId)
        .RecordSetNotFound w.db.recordsets with
    | .error e => .error e
    | .ok _ =>
      .ok ((), { w with db := { w.db with
        recordsets := Table.update RecordSetRow.id recordset.id
          (fun r => { r with ttl := recordset.ttl.write r.ttl
                             description := recordset.description.write r.description })
          w.db.recordsets } })

/-- `storage.delete_recordset`; the foreign key takes the records along. -/
def deleteRecordsetRow (ctx : Context) (id : Nat) : Call Unit :=
  Exec.write fun w =>
    match findRecordsetRow ctx id w.db with
    | .error e => .error e
    | .ok _ =>
      .ok ((), { w with db := { w.db with
        recordsets := Table.remove RecordSetRow.id id w.db.recordsets
        records := Table.remove RecordRow.recordsetId id w.db.records } })

/-! ## Records -/

/-- `'%s' % recordset_id`. -/
def recordsetIdText (record : Record) : String :=
  match record.recordsetId.value with
  | some id => Text.uuidText id
  | none => "None"

/-- `_recalculate_record_hash`. -/
def recalculateRecordHash (conf : Conf) (record : Record) : String :=
  conf.md5 (recordsetIdText record ++ ":" ++ record.text)

/-- The columns an INSERT of the object writes, if it writes all that may not be null. -/
def Record.insertRow (record : Record) (id : Nat) (tenantId : Option String) : Option RecordRow :=
  if record.zoneId.changed && record.recordsetId.changed && record.data.changed
      && record.hash.changed then do
    let zoneId ← record.zoneId.value
    let recordsetId ← record.recordsetId.value
    let data ← record.data.value
    let hash ← record.hash.value
    pure { id := id, zoneId := zoneId, recordsetId := recordsetId, tenantId := tenantId,
           data := data, hash := hash, managed := record.managed.write false,
           action := record.action.write .CREATE, status := record.status.write .PENDING,
           serial := record.serial.write 1, description := record.description,
           managedBy := record.managedBy }
  else none

/-- The object as `create_record` completes it. -/
def Record.placed (conf : Conf) (zoneId recordsetId : Nat) (record : Record) : Record :=
  let record := { record with zoneId := record.zoneId.set zoneId
                              recordsetId := record.recordsetId.set recordsetId }
  { record with hash := record.hash.set (recalculateRecordHash conf record) }

/-- `storage.create_record`. -/
def insertRecord (ctx : Context) (conf : Conf) (zoneId recordsetId : Nat) (record : Record) :
    Call Record := do
  let zone ← getZone ctx zoneId
  let id ← generateUuid
  Exec.write fun w =>
    match (record.placed conf zoneId recordsetId).insertRow id zone.tenantId with
    | none => .error .DBError
    | some row =>
      if w.db.recordsets.all fun r => r.id != recordsetId then .error .DBError
      else if w.db.records.any fun r => r.hash == row.hash then .error .DuplicateRecord
      else .ok (Record.ofRow row, { w with db := { w.db with records := w.db.records ++ [row] } })

/-- The row an UPDATE from the object leaves. -/
def Record.updateRow (record : Record) (row : RecordRow) : RecordRow :=
  { row with zoneId := record.zoneId.write row.zoneId
             recordsetId := record.recordsetId.write row.recordsetId
             data := record.data.write row.data
             hash := record.hash.write row.hash
             managed := record.managed.write row.managed
             action := record.action.write row.action
             status := record.status.write row.status
             serial := record.serial.write row.serial }

/-- The object with its hash recalculated, which storage does if anything has changed. -/
def Record.rehash (conf : Conf) (record : Record) : Record :=
  if record.whatChanged then
    { record with hash := record.hash.set (recalculateRecordHash conf record) }
  else record

/-- The record row a keyed query finds; a text that is no UUID is refused by the column. -/
def findRecordRow (ctx : Context) (id : Option Nat) (db : Db) : Except Exc RecordRow :=
  match id with
  | none => .error .DBError
  | some id => Table.find RecordRow.id id (fun r => ctx.sees r.tenantId) .RecordNotFound db.records

/-- Another row holds the hash already. -/
def Db.hashTaken (db : Db) (row : RecordRow) : Bool :=
  db.records.any fun r => r.id != row.id && r.hash == row.hash

/-- `storage.update_record`. -/
def updateRecordRow (ctx : Context) (conf : Conf) (record : Record) : Call Unit :=
  Exec.write fun w =>
    match findRecordRow ctx record.id w.db with
    | .error e => .error e
    | .ok row =>
      let new := (record.rehash conf).updateRow row
      if w.db.hashTaken new then .error .DuplicateRecord
      else
        .ok ((), { w with db := { w.db with
          records := Table.update RecordRow.id row.id (fun _ => new) w.db.records } })

/-- `storage.delete_record`. -/
def deleteRecordRow (ctx : Context) (id : Option Nat) : Call Unit :=
  Exec.write fun w =>
    match findRecordRow ctx id w.db with
    | .error e => .error e
    | .ok row =>
      .ok ((), { w with db := { w.db with
        records := Table.remove RecordRow.id row.id w.db.records } })

/-- `find_records` by id: the UUID column refuses a text that is no UUID. -/
def findRecordById (ctx : Context) (id : Option Nat) : Call (List RecordRow) :=
  match id with
  | none => Exec.raise .DBError
  | some id => findRecords ctx fun r => r.id == id

/-! ## The mirror tables -/

def findRecordAssociation (recordId : Option Nat) (db : Db) : Except Exc RecordAssociation :=
  match recordId with
  | none => .error .RecordNotFound
  | some id =>
    Table.find RecordAssociation.recordId id (fun _ => true) .RecordNotFound db.recordAssociations

def findZdnsRecord (id : Nat) (db : Db) : Except Exc ZdnsRecord :=
  Table.find ZdnsRecord.id id (fun _ => true) .RecordNotFound db.zdnsRecords

def getRecordAssociation (recordId : Option Nat) : Call RecordAssociation :=
  Exec.read fun w => findRecordAssociation recordId w.db

def getZdnsRecord (id : Nat) : Call ZdnsRecord := Exec.read fun w => findZdnsRecord id w.db

/-- `storage.create_zdns_record`: the row gets an id of its own. -/
def insertZdnsRecord (row : Nat → ZdnsRecord) : Call Nat := do
  let id ← generateUuid
  updateDb fun db => { db with zdnsRecords := db.zdnsRecords ++ [row id] }
  pure id

def insertRecordAssociation (association : RecordAssociation) : Call Unit :=
  updateDb fun db => { db with recordAssociations := db.recordAssociations ++ [association] }

/-- `update_zdns_record_in_storage`. -/
def updateZdnsRecordRow (zdnsRecord : ZdnsRecord) : Call Unit :=
  Exec.write fun w =>
    match Table.find ZdnsRecord.id zdnsRecord.id (fun _ => true) Exc.RecordSetNotFound
        w.db.zdnsRecords with
    | .error e => .error e
    | .ok _ =>
      .ok ((), { w with db := { w.db with
        zdnsRecords := Table.update ZdnsRecord.id zdnsRecord.id (fun _ => zdnsRecord)
          w.db.zdnsRecords } })

def deleteZdnsRecordRow (id : Nat) : Call Unit :=
  Exec.write fun w =>
    match findZdnsRecord id w.db with
    | .error e => .error e
    | .ok _ =>
      .ok ((), { w with db := { w.db with
        zdnsRecords := Table.remove ZdnsRecord.id id w.db.zdnsRecords } })

/-- `storage.delete_record_association`. -/
def deleteRecordAssociationRow (recordId : Option Nat) : Call RecordAssociation :=
  Exec.write fun w =>
    match findRecordAssociation recordId w.db with
    | .error e => .error e
    | .ok association =>
      .ok (association, { w with db := { w.db with
        recordAssociations :=
          Table.remove RecordAssociation.recordId association.recordId
            w.db.recordAssociations } })

/-! ## The mirror tables of zones -/

/-- The association row of a zone; the code indexes what the query gives, be it empty. -/
def findZoneAssociation (zoneId : Nat) (db : Db) : Except Exc ZoneAssociation :=
  match db.zoneAssociations.find? fun a => a.zoneId == zoneId with
  | some association => .ok association
  | none => .error .TypeError

def getZoneAssociation (zoneId : Nat) : Call ZoneAssociation :=
  Exec.read fun w => findZoneAssociation zoneId w.db

/-- `storage.create_zdns_zone`, with the id central gives it. -/
def insertZdnsZone : Call Nat := do
  let id ← generateUuid
  updateDb fun db => { db with zdnsZones := db.zdnsZones ++ [id] }
  pure id

def insertZoneAssociation (association : ZoneAssociation) : Call Unit :=
  updateDb fun db => { db with zoneAssociations := db.zoneAssociations ++ [association] }

/-- `storage.delete_zone_asso`: every row of the zone, and there may be none. -/
def deleteZoneAssociations (zoneId : Nat) : Call Unit :=
  updateDb fun db => { db with
    zoneAssociations := Table.remove ZoneAssociation.zoneId zoneId db.zoneAssociations }

/-- `storage.delete_zdns_zone`, without a look at what it deletes. -/
def deleteZdnsZoneRow (id : Nat) : Call Unit :=
  updateDb fun db => { db with zdnsZones := db.zdnsZones.filter (· ≠ id) }

/-! ## The device -/

namespace Device

/-- Note that the device is being asked. -/
def ask (call : DeviceCall) : Call Unit :=
  Exec.modify fun w => { w with device := { w.device with calls := w.device.calls ++ [call] } }

/-- A change of the resource records. -/
def change (device : Device) (rrs : List RR) : Device :=
  { device with rrs := rrs, changes := device.changes + 1 }

/-- Where a zone's resource records are. -/
def RR.at (view zone : String) (rr : RR) : Bool := rr.view == view && rr.zone == zone

/-- The resource record a request names. -/
def find (view zone : String) (rrId : RRId) (device : Device) : Except Exc RR :=
  Table.find RR.key (rrId, view, zone) (fun _ => true) .ZdnsErrMessage device.rrs

def createRecord (conf : Conf) (data : RRData) : Call RRId :=
  Exec.write fun w =>
    if (data.view, data.zone) ∈ w.device.zones then
      let id := conf.rrName w.device.rrs data
      .ok (id, { w with device := w.device.change (w.device.rrs ++ [⟨data, id⟩]) })
    else .error .ZdnsErrMessage

/-- The resource record comes back under the name that fits what it says now. -/
def updateRecord (conf : Conf) (view zone : String) (rrId : RRId) (ttl : Option Nat)
    (rdata : String) : Call RRId :=
  Exec.write fun w =>
    match find view zone rrId w.device with
    | .error e => .error e
    | .ok rr =>
      let data := { rr.toRRData with ttl := ttl, rdata := rdata }
      let id := conf.rrName (Table.remove RR.key rr.key w.device.rrs) data
      .ok (id, { w with
        device := w.device.change (Table.update RR.key rr.key (fun _ => ⟨data, id⟩) w.device.rrs) })

def deleteRecord (view zone : String) (rrId : RRId) : Call RRId :=
  Exec.write fun w =>
    match find view zone rrId w.device with
    | .error e => .error e
    | .ok rr =>
      .ok (rrId, { w with device := w.device.change (Table.remove RR.key rr.key w.device.rrs) })

def createZone (view zone : String) : Call Unit :=
  Exec.write fun w =>
    if (view, zone) ∈ w.device.zones then .error .ZdnsErrMessage
    else .ok ((), { w with device := { w.device with
      zones := w.device.zones ++ [(view, zone)], changes := w.device.changes + 1 } })

def updateZone (view zone : String) : Call Unit :=
  Exec.write fun w =>
    if (view, zone) ∈ w.device.zones then
      .ok ((), { w with device := { w.device with changes := w.device.changes + 1 } })
    else .error .ZdnsErrMessage

/-- The zone goes with everything in it. -/
def deleteZone (view zone : String) : Call Unit :=
  Exec.write fun w =>
    if (view, zone) ∈ w.device.zones then
      .ok ((), { w with device := { w.device with
        zones := w.device.zones.filter (· ≠ (view, zone))
        rrs := w.device.rrs.filter fun rr => !RR.at view zone rr
        changes := w.device.changes + 1 } })
    else .error .ZdnsErrMessage

end Device

end Designate
