import Designate.Exec
import Designate.Objects.Rdata

/-!
# Recordset objects

The status of a recordset is that of its records, and its action is the same for all of them. To
validate one, its records are taken apart by the class of its type, the list of what came out is
put in the place of its records, and the schema of the object is given the format of the type for
the name; then the validation of any object is called.
-/

namespace Designate

open Adapters (Json Plain)

/-- The turn of the loop over the records: what the status is after a record of status `next`. -/
def statusAfter (status next : Option Status) : Option Status :=
  if next = some .ERROR ∨ (next = some .PENDING ∧ status ≠ some .ERROR) ∨
      status ≠ some .PENDING then next
  else status

/-- `RecordSet.status`. -/
def RecordSet.status (recordset : RecordSet) : Option Status :=
  recordset.records.foldl (fun status record => statusAfter status record.status.value)
    (some .ACTIVE)

/-- `RecordSet.action`: of what is said of the records in it, nothing is done. -/
def RecordSet.action (_recordset : RecordSet) : Action := .NONE

/-! ## Validation -/

/-- An item of the records: a `Record`, by its data, or an object of the class of a type. -/
inductive RecordItem where
  | record (data : Json)
  | rdata (type : RRType) (values : Parts)

/-- `record.data`, which nobody has set on an object of the class of a type. -/
def RecordItem.data : RecordItem → Json
  | .record data => data
  | .rdata _ _ => .null

/-- A recordset object, as far as its validation goes. -/
structure RecordSetObject (τ : Type) where
  /-- The fields that are set, but for the records. -/
  values : List (String × Plain τ)
  /-- The format of the name in `FIELDS`. -/
  nameFormat : Format := .hostname
  /-- The records, if they are loaded. -/
  records : Option (List RecordItem)

/-- `FIELDS`, with the format of the name. -/
def recordSetFields (nameFormat : Format) : List FieldDef :=
  let uuid : FieldSchema := [.type [.string], .format .uuid]
  [{ name := "id", schema := uuid },
   { name := "created_at", schema := [.type [.string], .format .dateTime] },
   { name := "updated_at", schema := [.type [.string, .null], .format .dateTime] },
   { name := "version", schema := [.type [.integer]] },
   { name := "shard", schema := [.type [.integer], .minimum 0, .maximum 4095] },
   { name := "tenant_id", schema := [.type [.string]] },
   { name := "zone_id", schema := uuid },
   { name := "records_ext" },
   { name := "zone_name", schema := [.type [.string], .format .domainname, .maxLength 255] },
   { name := "name", schema := [.type [.string], .format nameFormat, .maxLength 255],
     required := true },
   { name := "type", schema := [.type [.string]], required := true },
   { name := "ttl", schema := [.type [.integer, .null], .minimum 1, .maximum 2147483647],
     required := true },
   { name := "description", schema := [.type [.string, .null], .maxLength 160],
     required := true },
   { name := "records", required := true, relation := true }]

/-- What `validate` raises. -/
inductive Refused where
  | RelationNotLoaded
  | InvalidObject (message : String) (errors : List ValidationError)

/-- The errors an exception has. -/
def Refused.errors : Refused → List ValidationError
  | .RelationNotLoaded => []
  | .InvalidObject _ errors => errors

/-- The classes that have a class of lists, but are no classes of records. -/
def otherClasses : List String :=
  ["Blacklist", "Zone", "Acl", "ZoneAttribute", "ZoneMaster", "FloatingIP", "PoolManagerStatus",
   "Pool", "PoolAlsoNotify", "PoolAttribute", "PoolNsRecord", "PoolNameserver", "PoolTarget",
   "PoolTargetMaster", "PoolTargetOption", "Quota", "Record", "RecordSet", "ZdnsRecord",
   "RecordAssociation", "Server", "ServiceStatus", "Tenant", "Tld", "TsigKey", "ValidationError",
   "ZoneTransferRequest", "ZoneTransferAccept", "ZoneImport", "ZoneExport", "View",
   "ZdnsViewInfo"]

/-- The type of a name. -/
def RRType.ofText (s : String) : Option RRType :=
  [.A, .AAAA, .CNAME, .MX, .SRV, .TXT, .SPF, .NS, .PTR, .SSHFP, .SOA].find? fun t => t.text == s

section

variable {τ : Type} (lib : Lib) (messages : Messages τ)

/-- `self.type`. -/
def RecordSetObject.type (obj : RecordSetObject τ) : Json :=
  match obj.values.lookup "type" with
  | none => .null
  | some (.json v) => v
  | some (.datetime t) => .str (messages.time t)

/-- The class a type has. -/
def classOf (type : Json) : Option RRType :=
  match type with
  | .str s => RRType.ofText s
  | _ => none

/-- A class of the type and one of its lists are there, be they classes of records or not. -/
def isClass (type : Json) : Bool :=
  match type with
  | .str s => (RRType.ofText s).isSome || otherClasses.contains s
  | _ => false

def noMatch : String := "Provided object does not match schema"

/-- `_validate_fail`. -/
def validateFail {α : Type} (type : Json) (message : String) :
    Exec (RecordSetObject τ) Refused α :=
  Exec.raise (.InvalidObject noMatch
    [⟨[.key "recordset", .key "type"], message, "value", .list [type]⟩])

/-- The class of the records of a recordset, if the deployment supports its type. -/
def recordClass (supported : List RRType) : Exec (RecordSetObject τ) Refused RRType := do
  let type ← Exec.read fun obj => .ok (obj.type messages)
  match classOf type with
  | some t =>
    if supported.contains t then pure t
    else validateFail type ("'" ++ messages.str type ++ "' is not a supported record type")
  | none =>
    if isClass type then
      validateFail type ("'" ++ messages.str type ++ "' is not a supported record type")
    else validateFail type ("'" ++ messages.str type ++ "' is not a valid record type")

/-- What the loop over the records leaves: errors and their positions, and what was parsed. -/
structure Parsed where
  errors : List ValidationError := []
  errorIndexes : List Nat := []
  records : List Parts := []

/--
The loop over the records. What `_from_string` raises for a value that JSON has is one of the
three exceptions that are told from others, and they are treated alike.
-/
def fromStrings (type : RRType) : Nat → List RecordItem → Parsed
  | _, [] => {}
  | i, record :: more =>
    let rest := fromStrings type (i + 1) more
    match type.rdata.fromString lib record.data with
    | .ok values => { rest with records := values :: rest.records }
    | .error _ =>
      { rest with
        errors :=
          ⟨[.key "records", .index i],
            "'" ++ messages.str record.data ++ "' is not a '" ++ type.text ++ "' Record",
            "format", .list [.str type.text]⟩ :: rest.errors
        errorIndexes := i :: rest.errorIndexes }

/-- The errors of parsed records, each with its position in the list. -/
def itemErrors (type : RRType) : Nat → List Parts → List ValidationError
  | _, [] => []
  | i, values :: more =>
    valueErrors lib messages type.rdata.fields (values.map fun p => (p.1, .json p.2))
        [.key "records", .index i] ++ itemErrors type (i + 1) more

/-- The fields an object of the class of a type has set. -/
def RecordItem.values : RecordItem → Parts
  | .record data => [("data", data)]
  | .rdata _ values => values

/-- What the object fails of the schema made from its `FIELDS` and the class of its records. -/
def RecordSetObject.schemaErrors (type : RRType) (obj : RecordSetObject τ) :
    List ValidationError :=
  let fields := recordSetFields obj.nameFormat
  let isSet := fun name =>
    (obj.values.lookup name).isSome || (name == "records" && obj.records.isSome)
  missingErrors messages fields isSet [] ++ valueErrors lib messages fields obj.values [] ++
    itemErrors lib messages type 0 ((obj.records.getD []).map RecordItem.values)

/-- `DesignateObject.validate`. -/
def designateValidate (type : RRType) : Exec (RecordSetObject τ) Refused Unit :=
  Exec.read fun obj =>
    match obj.schemaErrors lib messages type with
    | [] => .ok ()
    | errors => .error (.InvalidObject noMatch errors)

/--
The `while` loop over a position: past those of the records that were dropped. It goes through
each of them once at most.
-/
def skipDropped (dropped : List Nat) : Nat → Nat → Nat → Nat × Nat
  | 0, i, increment => (i, increment)
  | fuel + 1, i, increment =>
    if i ∈ dropped then skipDropped dropped fuel (i + 1) (increment + 1) else (i, increment)

/-- The loop that puts the positions of errors right. -/
def reindex (dropped : List Nat) : Nat → List ValidationError → List ValidationError
  | _, [] => []
  | increment, e :: more =>
    match e.index with
    | none => e :: reindex dropped increment more
    | some i =>
      let (i, increment) := skipDropped dropped dropped.length (i + increment) increment
      e.setIndex i :: reindex dropped increment more

/-- The `try` block: what was wrong with the texts is told with what else is wrong. -/
def validateParsed (type : RRType) (parsed : Parsed) : Exec (RecordSetObject τ) Refused Unit :=
  fun obj =>
    match designateValidate lib messages type obj with
    | (.ok _, obj) =>
      if parsed.errors.isEmpty then (.ok (), obj)
      else (.error (.InvalidObject noMatch parsed.errors), obj)
    | (.error (.InvalidObject message errors), obj) =>
      (.error (.InvalidObject message (reindex parsed.errorIndexes 0 errors ++ parsed.errors)), obj)
    | (.error e, obj) => (.error e, obj)

/-- `RecordSet.validate`. -/
def RecordSetObject.validate (supported : List RRType) :
    Exec (RecordSetObject τ) Refused Unit := do
  let type ← recordClass messages supported
  let oldFormat ← Exec.read fun obj => .ok obj.nameFormat
  Exec.modify fun obj => { obj with nameFormat := type.rdata.nameFormat.getD obj.nameFormat }
  let oldRecords ← Exec.read fun obj =>
    match obj.records with
    | none => .error .RelationNotLoaded
    | some records => .ok records
  let parsed := fromStrings lib messages type 0 oldRecords
  Exec.modify fun obj => { obj with records := some (parsed.records.map (RecordItem.rdata type)) }
  Exec.ensuring (validateParsed lib messages type parsed) fun obj =>
    { obj with
      nameFormat := if type.rdata.nameFormat.isSome then oldFormat else obj.nameFormat }
  Exec.modify fun obj => { obj with records := some oldRecords }

end

end Designate
