import Designate.Central.Zones

/-!
# The service

A request is one call of central with everything it depends on: its arguments, and
which of the steps inside it fail. The service takes requests one at a time, as the
zone lock makes it do for the zone they are about; a run is a list of requests.
-/

namespace Designate

/--
`RecordSetAPIv2Adapter._parse_object`: the stored records whose data is among the
texts, then an object for every other text. The texts are a set, in the order in
which it is gone through.
-/
def parseRecords (stored : List Record) (texts : List String) : List Record :=
  stored.filter (fun record => texts.contains record.text) ++
    (texts.filter fun text => !stored.any fun record => record.text == text).map Record.new

/-- A stored recordset with the fields of a request in it. -/
def parseRecordset (stored : RecordSet) (ttl : Option Nat) (description : Option String)
    (texts : List String) : RecordSet :=
  { stored with ttl := stored.ttl.set ttl, description := stored.description.set description
                records := parseRecords stored.records texts }

inductive Request where
  | createZone (faults : ZoneFaults) (plan : Nat → ZoneFaults) (zone : NewZone)
  | updateZone (faults : ZoneFaults) (zoneId : Nat) (ttl : Nat)
  /-- Abandons the zone if the context says so. -/
  | deleteZone (faults : ZoneFaults) (zoneId : Nat)
  | deleteView (refused : Bool) (plan : Nat → ZoneFaults) (viewId : Nat)
  | createRecordset (plan : Nat → Faults) (zoneId : Nat) (name : String) (type : RRType)
    (ttl : Option Nat) (description : Option String) (texts : List String)
  | createRecord (faults : Faults) (zoneId recordsetId : Nat) (text : String)
  | updateRecordset (plan : Nat → Faults) (zoneId recordsetId : Nat) (ttl : Option Nat)
    (description : Option String) (texts : List String)
  | deleteRecordset (plan : Nat → Faults) (zoneId recordsetId : Nat)
  /-- `_update_record_in_storage`, with new data. -/
  | updateRecord (zoneId recordId : Nat) (text : String)
  /-- `_delete_record_in_storage`. -/
  | deleteRecord (zoneId recordId : Nat)
  | updateStatus (zoneId : Nat) (message : PoolStatus)

/-- A request in its context. -/
structure Input where
  ctx : Context
  request : Request

section

variable (ctx : Context) (conf : Conf)

/-- `storage.get_record`. -/
def getRecord (id : Nat) : Call RecordRow := Exec.read fun w => findRecordRow ctx (some id) w.db

/-- What a request does, its result aside. -/
def Request.call : Request → Call Unit
  | .createZone faults plan zone => do
    let _ ← Designate.createZone ctx conf faults plan zone
  | .updateZone faults zoneId ttl => do
    let zone ← getZone ctx zoneId
    let _ ← Designate.updateZone ctx conf faults zone { zone with ttl := ttl }
  | .deleteZone faults zoneId => do
    let _ ← Designate.deleteZone ctx conf faults zoneId
  | .deleteView refused plan viewId => Designate.deleteView ctx conf refused plan viewId
  | .createRecordset plan zoneId name type ttl description texts => do
    let _ ← Designate.createRecordset ctx conf plan zoneId
      { name := name, type := type, ttl := ttl, description := description
        records := texts.map Record.new }
  | .createRecord faults zoneId recordsetId text => do
    let recordset ← centralGetRecordset ctx zoneId recordsetId
    let _ ← Designate.createRecord ctx conf faults zoneId recordset (Record.new text)
  | .updateRecordset plan zoneId recordsetId ttl description texts => do
    let recordset ← centralGetRecordset ctx zoneId recordsetId
    let _ ← Designate.updateRecordset ctx conf plan
      (parseRecordset recordset ttl description texts)
  | .deleteRecordset plan zoneId recordsetId =>
    Designate.deleteRecordset ctx conf plan zoneId recordsetId
  | .updateRecord zoneId recordId text => do
    let zone ← getZone ctx zoneId
    let row ← getRecord ctx recordId
    let record := Record.ofRow row
    updateRecordInStorage ctx conf zone { record with data := record.data.set text } true
  | .deleteRecord zoneId recordId => do
    let zone ← getZone ctx zoneId
    let row ← getRecord ctx recordId
    deleteRecordInStorage ctx conf zone (Record.ofRow row) true
  | .updateStatus zoneId message => Designate.updateStatus ctx conf message zoneId

end

/-- The service takes a request to its end, also when it raises. -/
def serve (conf : Conf) (input : Input) (w : World) : World :=
  (input.request.call input.ctx conf w).2

end Designate
