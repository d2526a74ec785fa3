import Designate.Calls
import Designate.Sqlalchemy.ReverseNames

/-!
# Who writes the reversed names

To create a zone or a recordset, storage patches the reversed name in next to the fields that have
been changed. To update one, it writes the fields that have been changed and nothing else.

An operation is a program of statements, each of which the database carries out or refuses as a
whole. Some of them write one column of many rows, which is never the name. The attributes and masters of a zone have tables of their own: all there is to know of
storing them is whether it raises.
-/

namespace Designate

namespace ReverseNames

/-- The tables that storage writes. -/
inductive TableName where
  | zones | recordsets | records
  deriving DecidableEq, Repr

def TableName.columns : TableName → List String
  | zones => zonesColumns
  | recordsets => recordsetsColumns
  | records => recordsColumns

def Tables.rows (t : Tables) : TableName → List Row
  | .zones => t.zones
  | .recordsets => t.recordsets
  | .records => t.records

def Tables.put (t : Tables) (table : TableName) (rows : List Row) : Tables :=
  match table with
  | .zones => { t with zones := rows }
  | .recordsets => { t with recordsets := rows }
  | .records => { t with records := rows }

/-- What a statement or an operation raises. -/
inductive Fault where
  | exc (e : Exc)
  | DBDuplicateEntry
  /-- There is a value for a column that the table does not have. -/
  | CompileError
  deriving DecidableEq, Repr

/-- Values for some of the columns. -/
abbrev Values := List (String × Cell)

/-! ## Statements -/

inductive Statement where
  | select (query : Tables → Except Fault (List Row))
  | insert (table : TableName) (ctx : QueryContext) (values : Values)
  /-- An update of the row with this id. -/
  | update (table : TableName) (ctx : QueryContext) (id : Cell) (values : Values)
  | delete (table : TableName) (ctx : QueryContext) (id : Cell)
  /-- An update of all rows of a zone. -/
  | moveTenant (table : TableName) (ctx : QueryContext) (zoneId tenant : Cell)
  /-- An update of all children of a zone. -/
  | reparent (ctx : QueryContext) (zoneId parent : Cell)

/-- The database with what it keeps to and what its columns default to. -/
structure Engine extends Database where
  /-- References are enforced: rows go with the zone or the recordset they refer to. -/
  cascades : Bool := true
  /-- The constraints but for the primary keys and the names, which are not null. -/
  refuses : Tables → Option Fault := fun _ => none
  /-- `generate_uuid`. -/
  uuid : Tables → String
  defaultTtl : Int := 3600
  defaultSoaRefreshMin : Int := 3500
  defaultSoaRetry : Int := 600
  defaultSoaExpire : Int := 86400
  defaultSoaMinimum : Int := 3600

/-- `default_shard`. -/
def defaultShard : Cell → Except Fault Cell
  | .text id =>
    match id.toList.take 3, Text.hexValue 0 (id.toList.take 3) with
    | _ :: _, some n => .ok (.number n)
    | digits, _ => .error (.exc (.ValueError ("invalid literal for int() with base 16: '" ++
        String.ofList digits ++ "'")))
  | _ => .error (.exc .TypeError)

/-- What a column makes of a value: a name is a text. Nothing depends on the others. -/
def stored (column : String) (cell : Cell) : Cell :=
  match cell with
  | .number n => if column = "name" then .text (toString n) else .number n
  | cell => cell

section

variable (env : Engine)

/-- The defaults of a table, given the id of the row, its shard and the time. -/
def defaults (table : TableName) (ctx : QueryContext) (id shard : Cell) (column : String) : Cell :=
  match table, column with
  | _, "id" => id
  | _, "version" => .number 1
  | _, "created_at" => .number ctx.now
  | .zones, "shard" => shard
  | .zones, "deleted" => .text "0"
  | .zones, "ttl" => .number env.defaultTtl
  | .zones, "serial" => .number ctx.now
  | .zones, "refresh" => .number env.defaultSoaRefreshMin
  | .zones, "retry" => .number env.defaultSoaRetry
  | .zones, "expire" => .number env.defaultSoaExpire
  | .zones, "minimum" => .number env.defaultSoaMinimum
  | .zones, "status" => .text "PENDING"
  | .zones, "action" => .text "CREATE"
  | .zones, "delayed_notify" => .number 0
  | .recordsets, "zone_shard" => shard
  | .recordsets, "reverse_name" => .text ""
  | _, _ => .null

/-- The shard a row defaults to: that of a zone goes by its id, every other one by its zone's. -/
def shardOf (table : TableName) (id : Cell) (values : Values) : Except Fault Cell :=
  match table with
  | .zones => if (values.lookup "shard").isSome then .ok .null else defaultShard id
  | _ =>
    if (values.lookup "zone_shard").isSome then .ok .null
    else defaultShard ((values.lookup "zone_id").getD .null)

/-- The row an insert makes of its values, with an id and a shard to default to. -/
def insertedRow (table : TableName) (ctx : QueryContext) (values : Values) (id shard : Cell) : Row :=
  fun column =>
    match values.lookup column with
    | some cell => stored column cell
    | none => defaults env table ctx id shard column

/-- The row an insert makes. -/
def inserted (t : Tables) (table : TableName) (ctx : QueryContext) (values : Values) :
    Except Fault Row :=
  let id := (values.lookup "id").getD (.text (env.uuid t))
  (shardOf table id values).map (insertedRow env table ctx values id)

/-- The row an update makes: `_apply_version_increment`, and `onupdate`. -/
def updated (ctx : QueryContext) (values : Values) (row : Row) : Row := fun column =>
  if column = "version" then
    match row "version" with
    | .number n => .number (n + 1)
    | cell => cell
  else
    match values.lookup column with
    | some cell => stored column cell
    | none => if column = "updated_at" then .number ctx.now else row column

/-- The row with one column written, as by a statement that leaves the version alone. -/
def touched (ctx : QueryContext) (column : String) (cell : Cell) (row : Row) : Row := fun c =>
  if c = column then cell
  else if c = "updated_at" then .number ctx.now
  else row c

/-- The row with this id, if the context may see it. -/
def targets (table : TableName) (ctx : QueryContext) (id : Cell) (row : Row) : Bool :=
  row "id" == id && ownedBy ctx true row &&
    (decide ("deleted" ∉ table.columns) || notDeleted ctx row)

/-- Why the tables may not be so. -/
def refusal (table : TableName) (t : Tables) : Option Fault :=
  if "name" ∈ table.columns ∧ ∃ row ∈ t.rows table, row "name" = .null then some (.exc .DBError)
  else if ¬ ((t.rows table).map fun row => row "id").Nodup then some .DBDuplicateEntry
  else env.refuses t

/-- The new tables, unless they are refused. -/
def settle (t t' : Tables) (table : TableName) (answer : List Row) :
    Except Fault (List Row) × Tables :=
  match refusal env table t' with
  | some e => (.error e, t)
  | none => (.ok answer, t')

/-- The tables an update leads to. -/
def afterUpdate (t : Tables) (table : TableName) (ctx : QueryContext) (id : Cell) (values : Values) :
    Tables :=
  t.put table ((t.rows table).map fun row =>
    if targets table ctx id row then updated ctx values row else row)

/-- What goes with a row that is deleted. -/
def cascade (table : TableName) (id : Cell) (t : Tables) : Tables :=
  if env.cascades then
    match table with
    | .zones =>
      { zones := t.zones.map fun row c =>
          if c = "parent_zone_id" ∧ row c = id then .null else row c
        recordsets := t.recordsets.filter fun row => row "zone_id" != id
        records := t.records.filter fun row => row "zone_id" != id }
    | .recordsets => { t with records := t.records.filter fun row => row "recordset_id" != id }
    | .records => t
  else t

/-- The database carries a statement out, or refuses it. -/
def execute : Statement → Tables → Except Fault (List Row) × Tables
  | .select query, t => (query t, t)
  | .insert table ctx values, t =>
    if ∃ entry ∈ values, entry.1 ∉ table.columns then (.error .CompileError, t)
    else
      match inserted env t table ctx values with
      | .error e => (.error e, t)
      | .ok row => settle env t (t.put table (t.rows table ++ [row])) table [row]
  | .update table ctx id values, t =>
    if ∃ entry ∈ values, entry.1 ∉ table.columns then (.error .CompileError, t)
    else
      settle env t (afterUpdate t table ctx id values) table
        (((t.rows table).filter (targets table ctx id)).map (updated ctx values))
  | .delete table ctx id, t =>
    let (gone, rest) := (t.rows table).partition (targets table ctx id)
    let t' := t.put table rest
    settle env t (if gone.isEmpty then t' else cascade env table id t') table gone
  | .moveTenant table ctx zoneId tenant, t =>
    settle env t (t.put table ((t.rows table).map fun row =>
      if row "zone_id" = zoneId then touched ctx "tenant_id" tenant row else row)) table []
  | .reparent ctx zoneId parent, t =>
    settle env t (t.put .zones (t.zones.map fun row =>
      if row "parent_zone_id" = zoneId then touched ctx "parent_zone_id" parent row else row)) .zones []

end

/-! ## Objects -/

/-- The fields of a `Zone` but for its relations. -/
def zoneFields : List String :=
  ["shard", "tenant_id", "name", "email", "ttl", "refresh", "retry", "expire", "minimum",
    "parent_zone_id", "serial", "description", "status", "action", "pool_id", "view_id", "type",
    "transferred_at", "delayed_notify", "deleted", "deleted_at", "id", "created_at", "updated_at",
    "version"]

/-- The fields of a `RecordSet` but for its relation. -/
def recordSetFields : List String :=
  ["shard", "tenant_id", "zone_id", "records_ext", "zone_name", "name", "type", "ttl",
    "description", "id", "created_at", "updated_at", "version"]

/-- An object of storage: what its fields have been set to, and which have been changed. -/
structure Object where
  value : String → Option Cell
  changed : String → Bool

namespace Object

variable (obj : Object)

/-- The getter. -/
def get (field : String) : Cell := (obj.value field).getD .null

/-- The setter. -/
def set (field : String) (cell : Cell) : Object where
  value := fun f => if f = field then some cell else obj.value f
  changed := fun f => obj.changed f || (f == field && obj.value field != some cell)

/-- `update`, by the fields another object has set. -/
def update (other : Object) : Object where
  value := fun field => (other.value field).or (obj.value field)
  changed := fun field =>
    obj.changed field || ((other.value field).isSome && other.value field != obj.value field)

/-- `obj_get_changes`, without the relations. -/
def changes (fields : List String) : Values :=
  (fields.filter obj.changed).map fun field => (field, obj.get field)

/-- `_set_object_from_model`. -/
def ofModel (fields columns : List String) (model : Option Row) : Object where
  value := fun field =>
    match model with
    | some row => if field ∈ fields ∧ field ∈ columns then some (row field) else obj.value field
    | none => obj.value field
  changed := fun _ => false

end Object

/-- An object that has just been made. -/
def Object.new : Object := ⟨fun _ => none, fun _ => false⟩

structure RecordSet where
  fields : Object
  /-- Whether its records are set. -/
  hasRecords : Bool

structure Zone where
  fields : Object
  /-- What storing its attributes and masters comes to. -/
  relations : Except Fault Unit
  recordsets : Option (List RecordSet)

/-- A program of statements. -/
abbrev Program := Calls Statement (Except Fault (List Row)) Fault

/-! ## Operations -/

/-- The answer to a statement. -/
def ask (statement : Statement) : Program (List Row) := .call statement .ofExcept

/-- The answer to a statement, with an exception of its own for a duplicate. -/
def asking (excDup : Exc) (statement : Statement) : Program (List Row) :=
  .call statement fun
    | .error .DBDuplicateEntry => .raise (.exc excDup)
    | answer => .ofExcept answer

/-- Refetch the row. -/
def refetch (table : TableName) (id : Cell) : Program (Option Row) := do
  let rows ← ask (.select fun t => .ok ((t.rows table).filter fun row => row "id" == id))
  pure rows.head?

/-- A cell as the value of a criterion. -/
def Value.ofCell : Cell → Value
  | .null => .none
  | .number n => .number n
  | .text s => .text s

section

variable (db : Database) (ctx : QueryContext)

/-- `_create`. -/
def create (table : TableName) (fields : List String) (obj : Object) (excDup : Exc)
    (extraValues : Values) : Program Object := do
  let changes := (obj.changes fields).filter fun entry => entry.1 ∉ extraValues.map Prod.fst
  let rows ← asking excDup (.insert table ctx (changes ++ extraValues))
  let row ← refetch table ((rows.head?.map fun row => row "id").getD .null)
  pure (obj.ofModel fields table.columns row)

/-- `_update`. -/
def update (table : TableName) (fields : List String) (obj : Object) (excDup excNotfound : Exc) :
    Program Object := do
  let rows ← asking excDup (.update table ctx (obj.get "id") (obj.changes fields))
  if rows.length ≠ 1 then .raise (.exc excNotfound)
  else
    let row ← refetch table (obj.get "id")
    pure (obj.ofModel fields table.columns row)

/-- `_find_zones` for one zone. -/
def findZone (id : Cell) : Program Row := do
  let rows ← ask (.select fun t =>
    (findZones db ctx t rnameCheck [("id", .ofCell id)]).mapError .exc)
  match rows with
  | [row] => pure row
  | _ => .raise (.exc .ZoneNotFound)

/-- `_find_recordsets` for one recordset. -/
def findRecordset (id : Cell) : Program Row := do
  let rows ← ask (.select fun t =>
    ((applyCriterion db recordsetsColumns Joined.recordset (joinedRows t false)
      [("id", .ofCell id)]).map fun rows =>
        (rows.map Joined.recordset).filter (ownedBy ctx true)).mapError .exc)
  match rows with
  | [row] => pure row
  | _ => .raise (.exc .RecordSetNotFound)

/-- `name[::-1]`. -/
def reversed (name : Cell) : Program Cell :=
  match name with
  | .text s => pure (.text (Text.reverse s))
  | _ => .raise (.exc .TypeError)

/-- `create_zone`. -/
def createZone (zone : Zone) : Program Object := do
  let reverseName ← reversed (zone.fields.get "name")
  let created ← create ctx .zones zoneFields zone.fields .DuplicateZone
    [("reverse_name", reverseName)]
  let () ← .ofExcept zone.relations
  pure created

/-- `create_recordset`. -/
def createRecordset (zoneId : Cell) (recordset : RecordSet) : Program Object := do
  let zone ← findZone db ctx zoneId
  let fields := (recordset.fields.set "tenant_id" (zone "tenant_id")).set "zone_id" zoneId
  let reverseName ← reversed (fields.get "name")
  create ctx .recordsets recordSetFields fields .DuplicateRecordSet [("reverse_name", reverseName)]

/-- `update_recordset`. -/
def updateRecordset (recordset : Object) : Program Object :=
  update ctx .recordsets recordSetFields recordset .DuplicateRecordSet .RecordSetNotFound

/-- `delete_recordset`. -/
def deleteRecordset (id : Cell) : Program Unit := do
  let recordset ← findRecordset db ctx id
  let rows ← ask (.delete .recordsets ctx (recordset "id"))
  if rows.length ≠ 1 then .raise (.exc .RecordSetNotFound)
  else
    let _ ← refetch .recordsets (recordset "id")
    pure ()

/-- `delete_zone`. -/
def deleteZone (id : Cell) : Program Object := do
  let row ← findZone db ctx id
  let zone := Object.new.ofModel zoneFields zonesColumns (some row)
  let undashed := match row "id" with
    | .text s => .text (String.ofList (s.toList.filter (· ≠ '-')))
    | cell => cell
  update ctx .zones zoneFields
    ((((zone.set "deleted" undashed).set "deleted_at" (.number ctx.now)).set "action"
      (.text "NONE")).set "status" (.text "DELETED")) .TypeError .ZoneNotFound

/-- `purge_zone`. -/
def purgeZone (id : Cell) : Program Unit := do
  let rows ← ask (.delete .zones ctx id)
  if rows.length ≠ 1 then .raise (.exc .ZoneNotFound)
  else
    let _ ← refetch .zones id
    pure ()

/-- `_walk_up_zones`: the parent of the topmost of these zones on the way up. -/
def walkUpZones (zonesById : List (Cell × Row)) (maxSteps : Nat) (current : Row) :
    Except Fault Cell :=
  Table.walkUp (fun id => zonesById.lookup id) (fun row => row "parent_zone_id")
    (.exc .IllegalParentZone) maxSteps current

/-- The loop of `purge_zones`. -/
def purgeEach (zonesById : List (Cell × Row)) : List Row → Program Unit
  | [] => pure ()
  | zone :: zones => do
    purgeTurn (.ofExcept (walkUpZones zonesById maximumSubzoneDepth zone))
      (fun parent => do let _ ← ask (.reparent ctx (zone "id") parent))
      (purgeZone ctx (zone "id"))
    purgeEach zonesById zones

/-- `purge_zones`, `page` being what order and limit make of the rows. -/
def purgeZones (criterion : Criterion) (page : List Row → List Row) : Program Unit := do
  let ctx := if (criterion.lookup "deleted").isSome then { ctx with showDeleted := true } else ctx
  let zones ← ask (.select fun t =>
    ((findZones db ctx t rnameCheck criterion).map page).mapError .exc)
  purgeEach ctx (zones.map fun zone => (zone "id", zone)) zones

/-- The fields of a recordset that `find_recordsets` sets, of which all are changed. -/
def loadedFields : List String :=
  ["id", "version", "created_at", "updated_at", "tenant_id", "zone_id", "name", "type", "ttl",
    "description"]

/-- A recordset as `find_recordsets` has it. Its `zone_name` is not changed. -/
def loaded (row : Row) : Object where
  value := fun field => if field ∈ "zone_name" :: loadedFields then some (row field) else none
  changed := fun field => field ∈ loadedFields

/-- A row of the query, with the name of the zone. -/
def Joined.named (joined : Joined) : Row := fun column =>
  if column = "zone_name" then joined.zone "name" else joined.recordset column

/-- The recordsets there are, by their names and types. -/
abbrev Existing := List ((Cell × Cell) × Object)

/-- `data[key] = recordset`. -/
def Existing.put (data : Existing) (key : Cell × Cell) (recordset : Object) : Existing :=
  data.filter (fun entry => entry.1 ≠ key) ++ [(key, recordset)]

/-- The loop over the recordsets of a zone: what has become of the others, and which to keep. -/
def storeRecordsets (zoneId : Cell) :
    List RecordSet → Existing → List Cell → Program (Existing × List Cell)
  | [], data, keep => pure (data, keep)
  | rrset :: rrsets, data, keep => do
    let key := (rrset.fields.get "name", rrset.fields.get "type")
    match data.lookup key with
    | some current =>
      if !rrset.hasRecords then .raise (.exc .RelationNotLoaded)
      else
        let current ← updateRecordset ctx (current.update rrset.fields)
        storeRecordsets zoneId rrsets (data.put key current) (keep ++ [current.get "id"])
    | none =>
      let created ← createRecordset db ctx zoneId rrset
      storeRecordsets zoneId rrsets data (keep ++ [created.get "id"])

/-- Delete what is there and not kept. -/
def deleteRecordsets : List Cell → Program Unit
  | [] => pure ()
  | id :: ids => do
    deleteRecordset db ctx id
    deleteRecordsets ids

/-- What `update_zone` does about the recordsets. -/
def replaceRecordsets (zone : Object) (recordsets : List RecordSet) : Program Unit := do
  let existing ← ask (.select fun t =>
    ((findRecordsets db ctx t rnameCheck [("zone_id", .ofCell (zone.get "id"))]).map
      (List.map Joined.named)).mapError .exc)
  let data := existing.foldl
    (fun (data : Existing) row => data.put (row "name", row "type") (loaded row)) []
  let (data, keep) ← storeRecordsets db ctx (zone.get "id") recordsets data []
  if zone.get "type" = .text "SECONDARY" then
    deleteRecordsets db ctx ((data.map fun entry => entry.2.get "id").dedup.filter (· ∉ keep))
  else pure ()

/-- `update_zone`. -/
def updateZone (zone : Zone) : Program Object := do
  let tenantIdChanged := zone.fields.changed "tenant_id"
  let updatedZone ← update ctx .zones zoneFields zone.fields .DuplicateZone .ZoneNotFound
  let () ← .ofExcept zone.relations
  let () ← (match zone.recordsets with
    | some recordsets => replaceRecordsets db ctx updatedZone recordsets
    | none => pure ())
  if tenantIdChanged then
    let _ ← ask (.moveTenant .records ctx (updatedZone.get "id") (updatedZone.get "tenant_id"))
    let _ ← ask (.moveTenant .recordsets ctx (updatedZone.get "id") (updatedZone.get "tenant_id"))
    pure updatedZone
  else pure updatedZone

end

/-- The operations of storage that write zones and recordsets. -/
inductive Operation where
  | createZone (ctx : QueryContext) (zone : Zone)
  | updateZone (ctx : QueryContext) (zone : Zone)
  | deleteZone (ctx : QueryContext) (id : Cell)
  | purgeZones (ctx : QueryContext) (criterion : Criterion) (page : List Row → List Row)
  | createRecordset (ctx : QueryContext) (zoneId : Cell) (recordset : RecordSet)
  | updateRecordset (ctx : QueryContext) (recordset : RecordSet)
  | deleteRecordset (ctx : QueryContext) (id : Cell)

def Operation.program (db : Database) : Operation → Program Unit
  | .createZone ctx zone => do let _ ← ReverseNames.createZone ctx zone
  | .updateZone ctx zone => do let _ ← ReverseNames.updateZone db ctx zone
  | .deleteZone ctx id => do let _ ← ReverseNames.deleteZone db ctx id
  | .purgeZones ctx criterion page => ReverseNames.purgeZones db ctx criterion page
  | .createRecordset ctx zoneId recordset => do
    let _ ← ReverseNames.createRecordset db ctx zoneId recordset
  | .updateRecordset ctx recordset => do
    let _ ← ReverseNames.updateRecordset ctx recordset.fields
  | .deleteRecordset ctx id => ReverseNames.deleteRecordset db ctx id

/-! ## Updates that rename a row -/

/-- The statement gives a row that is there another name, and is not refused. -/
def Renames (env : Engine) : Statement → Tables → Prop
  | .update table ctx id values, t =>
    table ≠ .records ∧ (∀ entry ∈ values, entry.1 ∈ table.columns) ∧
      (∃ name, values.lookup "name" = some name ∧
        ∃ row ∈ t.rows table, targets table ctx id row = true ∧ row "name" ≠ stored "name" name) ∧
      refusal env table (afterUpdate t table ctx id values) = none
  | _, _ => False

end ReverseNames

end Designate
