import Designate.Central.Records

/-!
# Notification handlers

The sink offers the events of other services to its handlers. An address handler makes
records of the addresses of a resource that was created, one for each name format, and
deletes them by their managed columns when the resource is. An exception ends the event
it comes up in; what central has stored until then stays.
-/

namespace Designate

namespace Sink

/-! ## Event data -/

/-- The dictionary the formats are applied to; its values may be anything. -/
abbrev EventData (V : Type) := List (String × V)

/-- `data.update(new)`. -/
def update {V : Type} (data new : EventData V) : EventData V :=
  new ++ data.filter fun entry => !new.any fun e => e.1 == entry.1

/-- What makes a name: the values of the dictionary, the operator `%` and the codec `idna`. -/
structure Python (V : Type) where
  text : String → V
  number : Nat → V
  percent : String → EventData V → Except Exc String
  idna : String → Except Exc String

structure Address where
  address : String
  version : Nat
  deriving DecidableEq, Repr

/-- `A` for version 4, `AAAA` for whatever else. -/
def Address.type (addr : Address) : RRType := if addr.version = 4 then .A else .AAAA

section

variable {V : Type} (py : Python V)

/-- The entries `octet0`, `octet1`, and so on. -/
def octets (parts : List String) : EventData V :=
  parts.mapIdx fun i part => ("octet" ++ toString i, py.text part)

/-- `_get_ip_data`. -/
def getIpData (addr : Address) : Except Exc (EventData V) :=
  let ipVersion := ("ip_version", py.number addr.version)
  if addr.version = 4 then
    let parts := Text.split addr.address '.'
    if parts.length < 4 then .error .IndexError
    else .ok (ipVersion :: ("ip_address", py.text (Text.replace addr.address '.' '-'))
      :: octets py (parts.take 4))
  else if addr.version = 6 then
    .ok (ipVersion :: ("ip_address", py.text (Text.replace addr.address ':' '-'))
      :: octets py ((Text.splitColons addr.address.toList).map String.ofList))
  else .ok [ipVersion]

end

/-! ## Handlers -/

/-- A plugin with its section of the configuration. Its name is compared as it stands. -/
structure Handler where
  pluginName : String
  namePlain : plain pluginName = true
  zoneId : Nat
  formatv4 : List String := []
  formatv6 : List String := []
  format : List String := []

/-- `__plugin_type__` of every notification handler. -/
def pluginType : String := "handler"

/-- The type and the id of what an event is about. -/
structure Subject where
  type : String
  id : String
  deriving DecidableEq, Repr

/-- An event, as a handler passes it on to `_create` or `_delete`. -/
inductive Event (V : Type) where
  | created (subject : Subject) (addresses : List Address) (extra : EventData V)
  | deleted (subject : Subject)

/-- `default_formatv4` and `default_formatv6`. -/
def defaultFormat : List String := ["%(hostname)s.%(domain)s"]

namespace Handler

variable (handler : Handler)

/-- `_get_formatv4`. -/
def getFormatv4 : List String :=
  if handler.formatv4 ≠ [] then handler.formatv4
  else if handler.format ≠ [] then handler.format
  else defaultFormat

/-- `_get_formatv6`. -/
def getFormatv6 : List String :=
  if handler.formatv6 ≠ [] then handler.formatv6
  else if handler.format ≠ [] then handler.format
  else defaultFormat

/-- The formats of an address. -/
def formats (addr : Address) : List String :=
  if addr.version = 4 then handler.getFormatv4 else handler.getFormatv6

/-- The managed columns of a record of this handler. -/
def columns (subject : Subject) : ManagedFields :=
  { pluginName := some handler.pluginName, pluginType := some pluginType
    resourceType := some subject.type, resourceId := some subject.id }

end Handler

/-- The context of a handler: no tenant of its own, and all of them to see. -/
def context : Context := { tenant := "", allTenants := true, editManagedRecords := true }

section

variable {V : Type} (py : Python V) (conf : Conf) (handler : Handler)

/-- `_find_or_create_recordset`. -/
def findOrCreateRecordset (zoneId : Nat) (name : String) (type : RRType) : Call RecordSet := do
  let name ← Exec.read fun _ => py.idna name
  Exec.catching (· == .DuplicateRecordSet)
    (createBareRecordset context conf zoneId
      { name := name, type := type, ttl := none, description := none, records := [] })
    (do
      let named ← Exec.read fun _ => nameCriterion conf name
      findRecordset context fun r => r.zoneId == zoneId && named r.name && r.type == type)

/-- The innermost turn of `_create`. -/
def createFormatted (zone : Zone) (subject : Subject) (addr : Address) (data : EventData V)
    (format : String) : Call Unit := do
  let name ← Exec.read fun _ => py.percent format data
  let recordset ← findOrCreateRecordset py conf zone.id name addr.type
  let _ ← createRecordOf context conf Faults.none zone.id (.text recordset.id)
    { Record.newManaged addr.address with managedBy := handler.columns subject }

/-- The turn of `_create` for an address. -/
def createAddress (zone : Zone) (subject : Subject) (data : EventData V) (addr : Address) :
    Call Unit := do
  let ip ← Exec.read fun _ => getIpData py addr
  Exec.forEach (createFormatted py conf handler zone subject addr (update data ip))
    (handler.formats addr)

/-- `_create`. -/
def create (subject : Subject) (addresses : List Address) (extra : EventData V) : Call Unit := do
  let zone ← getZone context handler.zoneId
  let data := update extra [("zone", py.text zone.name)]
  Exec.forEach (createAddress py conf handler zone subject data) addresses

/-- The criterion of `_delete`. -/
def deleteCriterion (subject : Subject) : Except Exc (RecordRow → Bool) := do
  let pluginName ← columnCriterion conf handler.pluginName
  let pluginType ← columnCriterion conf pluginType
  let resourceId ← columnCriterion conf subject.id
  let resourceType ← columnCriterion conf subject.type
  pure fun r => r.zoneId == handler.zoneId && r.managed && pluginName r.managedBy.pluginName &&
    pluginType r.managedBy.pluginType && resourceId r.managedBy.resourceId &&
    resourceType r.managedBy.resourceType

/-- The turn of `_delete` for a record. -/
def deleteFound (record : RecordRow) : Call Unit := do
  let _ ← deleteRecord context conf Faults.none handler.zoneId record.recordsetId record.id

/-- `_delete`. -/
def delete (subject : Subject) : Call Unit := do
  let criterion ← Exec.read fun _ => deleteCriterion conf handler subject
  let records ← findRecords context criterion
  Exec.forEach (deleteFound conf handler) records

/-- `process_notification`. -/
def processNotification : Event V → Call Unit
  | .created subject addresses extra => create py conf handler subject addresses extra
  | .deleted subject => delete conf handler subject

/-- The sink takes an event to its end, also when the handler raises. -/
def info (event : Event V) (w : World) : World := (processNotification py conf handler event w).2

end

end Sink

end Designate
