import Designate.Central.Records
import Designate.Glob.Settle

/-!
# Looking for names back to front

Zones and recordsets are stored with their names and with the names reversed. A query for a name
with a star in front is made one for the reversed name, which an index helps with. The reversed
text is taken as any text of a criterion is: what stood at its end now stands in front.
-/

namespace Designate

namespace ReverseNames

open Text (Dialect likeParts)

/-- What a column of a row holds. -/
inductive Cell where
  | null
  | number (n : Int)
  | text (s : String)
  deriving DecidableEq, Repr

/-- A value of a criterion. -/
inductive Value where
  | none
  | number (n : Int)
  | text (s : String)
  | list (cells : List Cell)
  deriving DecidableEq, Repr

/-- A value that counts as true. -/
def Value.truthy : Value → Bool
  | .none => false
  | .number n => n != 0
  | .text s => s != ""
  | .list cells => !cells.isEmpty

abbrev Row := String → Cell

/-- The entries of a dict, of which no two have the same name. -/
abbrev Criterion := List (String × Value)

/-- The database. -/
structure Database where
  conf : Conf := {}
  /-- What a text of a criterion asks of a number. -/
  asksNumber : String → Int → Bool
  /-- A number is compared with a text. -/
  sameText : Int → String → Bool

/-- The columns of `zones`. -/
def zonesColumns : List String :=
  ["id", "version", "created_at", "updated_at", "deleted", "deleted_at", "shard", "tenant_id", "name",
    "email", "description", "type", "transferred_at", "ttl", "serial", "refresh", "retry", "expire",
    "minimum", "status", "parent_zone_id", "action", "pool_id", "view_id", "reverse_name",
    "delayed_notify"]

/-- The columns of `recordsets`. -/
def recordsetsColumns : List String :=
  ["id", "version", "created_at", "updated_at", "zone_shard", "tenant_id", "zone_id", "name", "type",
    "ttl", "description", "reverse_name"]

/-- The columns of `records`. -/
def recordsColumns : List String :=
  ["id", "version", "created_at", "updated_at", "zone_shard", "tenant_id", "zone_id", "recordset_id",
    "data", "description", "hash", "managed", "managed_extra", "managed_plugin_type",
    "managed_plugin_name", "managed_resource_type", "managed_resource_region", "managed_resource_id",
    "managed_tenant_id", "status", "action", "serial"]

structure Tables where
  zones : List Row
  recordsets : List Row
  records : List Row

/-- A context as far as storage goes. -/
structure QueryContext where
  tenant : String
  allTenants : Bool := false
  showDeleted : Bool := false
  /-- What the clock reads, in seconds. -/
  now : Nat := 0

/-! ## Criteria -/

section

variable (db : Database)

/-- What `_apply_criterion` asks of a column. -/
def condition : Value → Except Exc (Cell → Bool)
  | .text s => (columnCriterion db.conf s).map fun holds cell =>
    match cell with
    | .null => false
    | .number n => db.asksNumber s n
    | .text t => holds (some t)
  | .none => .ok fun cell => cell == .null
  | .number n => .ok fun cell =>
    match cell with
    | .null => false
    | .number m => m == n
    | .text t => db.sameText n t
  | .list cells => .ok fun cell => cell != .null && cells.contains cell

variable {α : Type}

/-- `_apply_criterion`: the rows that are left of a query, `of` being the rows of the table. -/
def applyCriterion (columns : List String) (of : α → Row) (query : List α) :
    Criterion → Except Exc (List α)
  | [] => .ok query
  | (name, value) :: criterion => do
    if name ∉ columns then .error .AttributeError
    else
      let holds ← condition db value
      applyCriterion columns of (query.filter fun a => holds (of a name)) criterion

end

/-- What is left of a criterion when some names have been taken out of it. -/
def Criterion.without (criterion : Criterion) (names : List String) : Criterion :=
  criterion.filter fun entry => entry.1 ∉ names

/-- `criterion[name] = value`. -/
def Criterion.set (criterion : Criterion) (name : String) (value : Value) : Criterion :=
  if (criterion.lookup name).isSome then
    criterion.map fun entry => if entry.1 = name then (name, value) else entry
  else criterion ++ [(name, value)]

/-- `_rname_check`. -/
def rnameCheck (criterion : Criterion) : Except Exc Criterion :=
  match criterion.lookup "name" with
  | none => .ok criterion
  | some (.text value) =>
    if Text.startsWith value "*" then
      .ok ((criterion.without ["name"]).set "reverse_name" (.text (Text.reverse value)))
    else .ok criterion
  | some _ => .error .AttributeError

/-! ## Queries -/

section

variable (db : Database) (ctx : QueryContext) (t : Tables)

/-- `_apply_tenant_criteria`. -/
def ownedBy (includeNullTenant : Bool) (row : Row) : Bool :=
  ctx.allTenants || row "tenant_id" == .text ctx.tenant ||
    (includeNullTenant && row "tenant_id" == .null)

/-- `_apply_deleted_criteria`, of a table with a column `deleted`. -/
def notDeleted (row : Row) : Bool := ctx.showDeleted || row "deleted" == .text "0"

/--
`find_zones`: the rows its query selects, of which order, marker and limit make the page. The
criterion is rewritten first.
-/
def findZones (rewrite : Criterion → Except Exc Criterion) (criterion : Criterion) :
    Except Exc (List Row) := do
  let criterion ← rewrite criterion
  let rows ← applyCriterion db zonesColumns (fun row => row) t.zones criterion
  .ok (rows.filter fun row => ownedBy ctx true row && notDeleted ctx row)

/-- A row of a join. -/
structure Joined where
  recordset : Row
  zone : Row
  record : Option Row

/-- `rzjoin`, of zones that are not deleted. -/
def joinedRows (filteringRecords : Bool) : List Joined :=
  t.recordsets.flatMap fun recordset =>
    (t.zones.filter fun zone =>
      zone "id" == recordset "zone_id" && zone "deleted" == .text "0").flatMap fun zone =>
        if filteringRecords then
          (t.records.filter fun record => record "recordset_id" == recordset "id").map fun record =>
            ⟨recordset, zone, some record⟩
        else [⟨recordset, zone, none⟩]

/-- The criterion on the records. -/
def recordsCriterion (data status : Option Value) : Criterion :=
  [("data", data), ("status", status)].filterMap fun entry =>
    match entry.2 with
    | none => none
    | some .none => none
    | some value => some (entry.1, value)

/-- `_find_recordsets_with_records`: the rows its query selects, before order, marker and limit. -/
def findRecordsetsWithRecords (criterion : Criterion) : Except Exc (List Joined) := do
  let data := criterion.lookup "data"
  let status := criterion.lookup "status"
  let filteringRecords := data.any Value.truthy || status.any Value.truthy
  let owned := (joinedRows t filteringRecords).filter fun row => ownedBy ctx false row.recordset
  let rows ← applyCriterion db recordsetsColumns Joined.recordset owned
    (criterion.without ["data", "status"])
  if filteringRecords then
    applyCriterion db recordsColumns (fun row => row.record.getD fun _ => .null) rows
      (recordsCriterion data status)
  else .ok rows

/-- What `find_recordsets` takes out of a criterion, for it names no column. -/
def withoutZonesDeleted (criterion : Criterion) : Criterion :=
  if (criterion.lookup "zones_deleted").any fun value => !value.truthy then
    criterion.without ["zones_deleted"]
  else criterion

/-- `find_recordsets`. The criterion is rewritten first. -/
def findRecordsets (rewrite : Criterion → Except Exc Criterion) (criterion : Criterion) :
    Except Exc (List Joined) := do
  let criterion ← rewrite criterion
  findRecordsetsWithRecords db ctx t (withoutZonesDeleted criterion)

end

/-! ## What the rewriting is to keep -/

/-- The row has its name reversed. -/
def InStep (row : Row) : Prop :=
  ∃ s, row "name" = .text s ∧ row "reverse_name" = .text (Text.reverse s)

/-- All zones and recordsets have their names reversed. -/
structure Tables.InStep (t : Tables) : Prop where
  zones : ∀ row ∈ t.zones, ReverseNames.InStep row
  recordsets : ∀ row ∈ t.recordsets, ReverseNames.InStep row

/-- The rewritten criterion selects what the criterion itself would. -/
def SelectsSame (db : Database) (criterion : Criterion) : Prop :=
  ∀ (ctx : QueryContext) (t : Tables), t.InStep →
    findZones db ctx t rnameCheck criterion = findZones db ctx t .ok criterion ∧
      findRecordsets db ctx t rnameCheck criterion = findRecordsets db ctx t .ok criterion

/--
The value asks of the reversed names, itself reversed, what it asks of the names. As a pattern it
is, but for gaps and blanks next to each other, the same pattern back to front; without a percent
sign, nothing at its end is an operator back to front.
-/
def ReadsBack (dialect : Dialect) (value : String) : Prop :=
  if '%' ∈ value.toList then
    Glob.settle (likeParts dialect value.toList.reverse) =
      Glob.settle (likeParts dialect value.toList).reverse
  else plain (Text.reverse value) = true

instance (dialect : Dialect) (value : String) : Decidable (ReadsBack dialect value) :=
  inferInstanceAs (Decidable (if '%' ∈ value.toList then
    Glob.settle (likeParts dialect value.toList.reverse) =
      Glob.settle (likeParts dialect value.toList).reverse
  else plain (Text.reverse value) = true))

end ReverseNames

end Designate
