import Mathlib.Order.Lattice

/-!
# Listing a table page by page

`_find` selects the rows that match, puts them in the order of a column and, within it, of
the identifier, and cuts off what goes beyond a limit. A later page is asked for by a
marker: the identifier of a row, whose values the rows wanted are compared with. Conditions
are those of SQL, with a third truth value for what is compared with `NULL`.
-/

namespace Designate

namespace Sqlalchemy

/-- What a listing raises. -/
inductive QueryError where
  | InvalidSortKey | MarkerNotFound
  | ArgumentError
  | IndexError
  deriving DecidableEq, Repr

/-- A truth value of SQL: `none` is `NULL`. -/
abbrev Truth := Option Bool

/-- `AND`. -/
def Truth.and : Truth → Truth → Truth
  | some false, _ => some false
  | _, some false => some false
  | some true, some true => some true
  | _, _ => none

/-- `OR`. -/
def Truth.or : Truth → Truth → Truth
  | some true, _ => some true
  | _, some true => some true
  | some false, some false => some false
  | _, _ => none

/-- The directions the API lets through. -/
inductive SortDir where
  | asc | desc
  deriving DecidableEq, Repr

/-- What is left to the database and to the library in front of it. -/
structure Engine (V : Type) where
  /-- `ORDER BY` counts `NULL` as the lowest value, or else as the highest. -/
  nullsLow : Bool
  /-- What the library makes of `column < None` and `column > None`. -/
  compareNone : Except QueryError Truth
  /-- `column < value`. It need not go by the order of `ORDER BY`, which is the one of the type:
  MySQL sorts an `ENUM` by the numbers of its values, and compares it as a text. -/
  below : V → V → Bool

variable {α ρ V ε : Type} [LinearOrder V]

/-- A column is compared by the order that it is sorted in. -/
def Engine.Agrees (engine : Engine V) (column : ρ → Option V) : Prop :=
  ∀ a b, ∀ v ∈ column a, ∀ w ∈ column b, engine.below v w = decide (v < w)

/-- The columns of a table: its identifier, and the others, which may be `NULL`. -/
structure Columns (ρ V : Type) where
  id : ρ → V
  other : String → Option (ρ → Option V)

/-- `getattr(table.c, name)`. -/
def Columns.get (columns : Columns ρ V) (name : String) : Option (ρ → Option V) :=
  if name = "id" then some fun row => some (columns.id row) else columns.other name

/-- So it is with the columns of a listing: the one to sort by, and the identifier. -/
def Engine.SortsAlike (engine : Engine V) (columns : Columns ρ V) (cell : ρ → Option V) : Prop :=
  engine.Agrees cell ∧ engine.Agrees fun row => some (columns.id row)

/-- `column == value`, which for `None` is `column IS NULL`. -/
def equals (cell value : Option V) : Truth :=
  match value with
  | none => some cell.isNone
  | some v => cell.map fun c => decide (c = v)

/-- `column < value` or `column > value`, after the direction, for a value. -/
def past (engine : Engine V) (dir : SortDir) (v : V) (cell : Option V) : Truth :=
  cell.map fun c =>
    match dir with
    | .asc => engine.below v c
    | .desc => engine.below c v

/-- `column < value` or `column > value`, after the direction. -/
def beyond (engine : Engine V) (dir : SortDir) (value : Option V) :
    Except QueryError (Option V → Truth) :=
  match value with
  | none => engine.compareNone.map fun t _ => t
  | some v => .ok (past engine dir v)

/--
The criteria of `paginate_query`, one for each sort key: the keys before it are as the
marker has them, and this one is beyond the marker.
-/
def criteria (engine : Engine V) (dir : SortDir) (marker : ρ) (before : List (ρ → Option V)) :
    List (ρ → Option V) → Except QueryError (List (ρ → Truth))
  | [] => .ok []
  | key :: keys => do
    let last ← beyond engine dir (key marker)
    let rest ← criteria engine dir marker (before ++ [key]) keys
    let this := fun row =>
      (before.map fun k => equals (k row) (k marker)).foldr Truth.and (last (key row))
    pure (this :: rest)

/-- The condition on the rows behind the marker. -/
def behind (engine : Engine V) (dir : SortDir) (keys : List (ρ → Option V)) (marker : ρ) :
    Except QueryError (ρ → Truth) := do
  let list ← criteria engine dir marker [] keys
  pure fun row => list.foldr (fun criterion t => Truth.or (criterion row) t) (some false)

/-- One value comes before another in ascending order. -/
def lower (engine : Engine V) : Option V → Option V → Bool
  | none, none => false
  | none, some _ => engine.nullsLow
  | some _, none => !engine.nullsLow
  | some a, some b => decide (a < b)

/-- One value comes before another in the order of `sort_dir_func`. -/
def precedes (engine : Engine V) (dir : SortDir) (a b : Option V) : Bool :=
  match dir with
  | .asc => lower engine a b
  | .desc => lower engine b a

/-- The order of `ORDER BY` with these keys, all in one direction. -/
def rowLe (engine : Engine V) (dir : SortDir) : List (ρ → Option V) → ρ → ρ → Bool
  | [], _, _ => true
  | key :: keys, a, b =>
    precedes engine dir (key a) (key b) ||
      (!precedes engine dir (key b) (key a) && rowLe engine dir keys a b)

/-- The columns of sort keys. -/
def sortColumns (columns : Columns ρ V) (sortKeys : List String) :
    Except QueryError (List (ρ → Option V)) :=
  match sortKeys.mapM columns.get with
  | some keys => .ok keys
  | none => .error .InvalidSortKey

/-- Rows of a query, in an order of the rows of the table they are made with. -/
def orderBy (engine : Engine V) (dir : SortDir) (keys : List (ρ → Option V)) (of : α → ρ)
    (rows : List α) : List α :=
  rows.mergeSort fun a b => rowLe engine dir keys (of a) (of b)

/-- `sort_query`, run on the rows the query has selected. -/
def sortQuery (engine : Engine V) (columns : Columns ρ V) (rows : List α) (of : α → ρ)
    (sortKeys : List String) (dir : SortDir) : Except QueryError (List α) := do
  let keys ← sortColumns columns sortKeys
  pure (orderBy engine dir keys of rows)

/--
`paginate_query`, run on the rows the query has selected; `of` is the row of the table
within a row of the query, and the marker is a row of the table.
-/
def paginateQuery (engine : Engine V) (columns : Columns ρ V) (rows : List α) (of : α → ρ)
    (limit : Option Nat) (sortKeys : List String) (marker : Option ρ) (dir : SortDir) :
    Except QueryError (List α) := do
  let keys ← sortColumns columns sortKeys
  let wanted ← match marker with
    | none => pure rows
    | some marker => do
      let condition ← behind engine dir keys marker
      pure (rows.filter fun row => condition (of row) == some true)
  let sorted := orderBy engine dir keys of wanted
  pure (match limit with
    | some limit => sorted.take limit
    | none => sorted)

/-- `check_marker`: the marker is looked for in the whole table. -/
def checkMarker (columns : Columns ρ V) (table : List ρ) (marker : V) : Except QueryError ρ :=
  match table.find? fun row => decide (columns.id row = marker) with
  | some row => .ok row
  | none => .error .MarkerNotFound

/-- The row of a marker, where there is one. -/
def markerRow (columns : Columns ρ V) (table : List ρ) (marker : Option V) :
    Except QueryError (Option ρ) :=
  match marker with
  | none => .ok none
  | some id => (checkMarker columns table id).map some

/-- `sort_key or 'created_at'`. -/
def sortKeyOf (sortKey : Option String) : String :=
  match sortKey with
  | some key => if key = "" then "created_at" else key
  | none => "created_at"

/-- `_find` for a list: `matching` is what the criterion, the tenant and `deleted` leave. -/
def find (engine : Engine V) (columns : Columns ρ V) (table : List ρ) (matching : ρ → Bool)
    (marker : Option V) (limit : Option Nat) (sortKey : Option String)
    (sortDir : Option SortDir) : Except QueryError (List ρ) := do
  let marker ← markerRow columns table marker
  paginateQuery engine columns (table.filter matching) (fun row => row) limit [sortKeyOf sortKey, "id"] marker
    (sortDir.getD .asc)

/--
`_iter`: pages are fetched, each from the last item of the one before, until one is empty.
There is no answer as long as the pages fetched are not enough.
-/
def iter (method : Option V → Except ε (List ρ)) (id : ρ → V) :
    Nat → Option V → Option (Except ε (List ρ))
  | 0, _ => none
  | pages + 1, marker =>
    match method marker with
    | .error e => some (.error e)
    | .ok items =>
      match items.getLast? with
      | none => some (.ok [])
      | some last => (iter method id pages (some (id last))).map fun rest => rest.map (items ++ ·)

end Sqlalchemy

end Designate
