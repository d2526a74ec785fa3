import Designate.Central.Zones
import Designate.Dnsutils

/-!
# Zone imports and exports

An import reads a zone file with dnspython, makes a zone object of it and creates the
zone with the recordsets it brings along. An export writes the records of a zone back
as a zone file. Every exception of an import ends up in the message of its task.
-/

namespace Designate

/-! ## A zone that brings recordsets along -/

section

variable (ctx : Context) (conf : Conf)

/--
The loop of `_create_zone_in_storage` over the recordsets of the zone. A type that the column
does not have is refused by the database, not by a check.
-/
def storeRecordsets (zone : Zone) : List ReceivedRecordSet → Call Unit
  | [] => pure ()
  | rrset :: rrsets => do
    match rrset.type with
    | .known type =>
      let _ ← createRecordsetInStorage ctx conf zone
        { name := rrset.name, type := type, ttl := rrset.ttlValue, description := none
          records := rrset.data.map Record.new }
    | .other _ => Exec.raise .DBError
    storeRecordsets zone rrsets

/-- `_create_zone_in_storage`, with the recordsets of the zone. -/
def createZoneInStorageWith (zone : NewZone) (viewId : Nat) (parentZoneId : Option Nat)
    (rrsets : List ReceivedRecordSet) : Call Zone :=
  transaction do
    let zone ← insertZone
      { id := 0, tenantId := zone.tenantId, name := zone.name, type := zone.type
        ttl := zone.ttl.getD conf.defaultTtl
        serial := zone.serial.getD (if zone.type = .SECONDARY then 1 else ctx.now)
        action := .CREATE, status := .PENDING, poolId := conf.poolId, viewId := some viewId
        parentZoneId := parentZoneId, deleted := false }
    let _ ← getZone ctx zone.id
    storeRecordsets ctx conf zone rrsets
    pure zone

/--
`create_zone` of an object with recordsets. Its attributes need not be set; where they
are, there may be no `view_id` among them.
-/
def createZoneWith (faults : ZoneFaults) (plan : Nat → ZoneFaults) (zone : NewZone)
    (attributes : Option (Option Nat)) (rrsets : List ReceivedRecordSet) : Call Zone := do
  let zone := zone.owned ctx
  let (parent, subzones) ← createZoneChecks ctx conf zone
  match attributes with
  | none => Exec.raise .RelationNotLoaded
  | some none => Exec.raise .NeedView
  | some (some viewId) => do
    let _ ← getView ctx (some viewId)
    let zone ← createZoneInStorageWith ctx conf zone viewId parent rrsets
    zoneAction ctx conf faults zone
    let zone ← getZone ctx zone.id
    createDefaultRecord ctx conf zone
    adoptSubzones ctx conf zone.id plan subzones
    pure zone

end

/-! ## Imports -/

/-- What `dns.zone.from_text` raises. Only the first two have a message of their own. -/
inductive ZonefileError where
  | unknownOrigin
  | syntaxError
  | other (text : String)
  deriving DecidableEq, Repr

inductive TaskStatus where
  | PENDING | COMPLETE | ERROR
  deriving DecidableEq, Repr

/-- The columns of a zone task an import sets. -/
structure ZoneImport where
  status : TaskStatus
  message : Option String
  zoneId : Option Nat
  deriving DecidableEq, Repr

/-- What an import takes from outside: dnspython, and the texts of exceptions. -/
structure ImportEnv where
  fromText : String → Except ZonefileError DnsZone
  text : Exc → String

/-- `'An undefined error occurred. %s' % six.text_type(e)[:130]`. -/
def undefinedError (text : String) : String :=
  "An undefined error occurred. " ++ String.ofList (text.toList.take 130)

/-- `str(e)`; the one relation that can be missing here is the attributes of the zone. -/
def ImportEnv.textOf (env : ImportEnv) : Exc → String
  | .RelationNotLoaded => "attributes is not loaded on Zone"
  | .BadRequest msg => msg
  | e => env.text e

/-- The types an import leaves out. -/
def ReceivedRecordSet.imported (rrset : ReceivedRecordSet) : Bool :=
  rrset.type != .known .NS && rrset.type != .known .SOA

/--
`_import`: the zone object, or the message of the task. The types that are left out are dropped
only after the SOA has been read for the fields of the zone.
-/
def readZonefile (env : ImportEnv) (conf : Conf) (body : String) : Except String ReceivedZone :=
  match env.fromText body with
  | .error .unknownOrigin =>
    .error "The $ORIGIN statement is required and must be the first statement in the zonefile."
  | .error .syntaxError => .error "Malformed zonefile."
  | .error (.other text) => .error (undefinedError text)
  | .ok file =>
    match fromDnspythonZone conf file with
    | .error (.BadRequest _) => .error "An SOA record is required."
    | .error e => .error (undefinedError (env.textOf e))
    | .ok zone => .ok { zone with recordsets := zone.recordsets.filter ReceivedRecordSet.imported }

/--
The zone object as `create_zone` takes it. It has no tenant and no view: the one is filled in by
`create_zone`, the other never.
-/
def ReceivedZone.newZone (zone : ReceivedZone) : NewZone :=
  { name := zone.name, tenantId := none, type := .PRIMARY, ttl := zone.ttl
    serial := some zone.serial, viewId := none }

/--
What becomes of an exception of `create_zone`. Whatever has no message of its own is cut after
130 characters.
-/
def importError (env : ImportEnv) (e : Exc) : String :=
  match e with
  | .DuplicateZone => "Duplicate zone."
  | .InvalidTTL => env.textOf e
  | e => undefinedError (env.textOf e)

/-- `_import_zone`. The zone object has no attributes: nothing sets them. -/
def importZone (env : ImportEnv) (ctx : Context) (conf : Conf) (faults : ZoneFaults)
    (plan : Nat → ZoneFaults) (body : String) (w : World) : ZoneImport × World :=
  match readZonefile env conf body with
  | .error message => (⟨.ERROR, some message, none⟩, w)
  | .ok zone =>
    match createZoneWith ctx conf faults plan zone.newZone none zone.recordsets w with
    | (.ok created, w') => (⟨.COMPLETE, some (created.name ++ " imported"), some created.id⟩, w')
    | (.error e, w') => (⟨.ERROR, some (importError env e), none⟩, w')

/-! ## Exports -/

/-- A row of the join an export reads. -/
structure ExportRow where
  name : String
  ttl : Option Nat
  type : RRType
  data : String
  deriving DecidableEq, Repr

/-- `find_recordsets_export`: no tenant criterion. A recordset without records gives no row. -/
def findRecordsetsExport (zoneId : Nat) (db : Db) : List ExportRow :=
  (db.recordsets.filter fun s => s.zoneId == zoneId).flatMap fun s =>
    (db.records.filter fun r => r.recordsetId == s.id).map fun r => ⟨s.name, s.ttl, s.type, r.data⟩

/-- `{{recordset[1] or ''}}`. A TTL of 0 is falsy, so the line is written as if it had none. -/
def ExportRow.ttlText (row : ExportRow) : String :=
  match row.ttl with
  | none => ""
  | some 0 => ""
  | some ttl => toString ttl

/-- A line of `export-zone.jinja2`. -/
def ExportRow.line (row : ExportRow) : String :=
  String.intercalate " " [row.name, row.ttlText, "IN", row.type.text, row.data] ++ "\n"

/-- `export_zone`. The tenant is checked with the zone only. -/
def exportZone (ctx : Context) (zoneId : Nat) (db : Db) : Except Exc String :=
  (findZone ctx zoneId db).map fun zone =>
    "$ORIGIN " ++ zone.name ++ "\n$TTL " ++ toString zone.ttl ++ "\n\n" ++
      String.join ((findRecordsetsExport zoneId db).map ExportRow.line)

end Designate
