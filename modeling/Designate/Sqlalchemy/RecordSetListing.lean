import Designate.Sqlalchemy.Paginate
import Designate.Storage

/-!
# Listing recordsets with their records

`_find_recordsets_with_records` asks twice. The first query selects the identifiers of a
page: recordsets joined with their zones and, when the criterion is about records too, with
these as well. The second fetches the recordsets with these identifiers and all of their
records, and the rows are put together recordset by recordset. The API gives a link to the
next page when the page is as long as the limit.
-/

namespace Designate

namespace Sqlalchemy

variable {V : Type} [LinearOrder V]

/-- A criterion on recordsets; `data` and `status` are taken out of it, and are the records'. -/
structure RecordSetCriterion where
  recordset : RecordSetRow → Bool
  data : Option String := none
  status : Option String := none

/-- What the clause of `_apply_criterion` for a text says about a column. -/
structure Clauses where
  data : String → String → Bool
  status : String → Status → Bool

/-- `data or status`: an empty text stands for none. -/
def RecordSetCriterion.filteringRecords (criterion : RecordSetCriterion) : Bool :=
  criterion.data.any (· ≠ "") || criterion.status.any (· ≠ "")

/-- The criterion on the records, where it is applied. -/
def RecordSetCriterion.record (clauses : Clauses) (criterion : RecordSetCriterion)
    (row : RecordRow) : Bool :=
  criterion.data.all (fun value => clauses.data value row.data) &&
    criterion.status.all (fun value => clauses.status value row.status)

/-- The columns of `recordsets`: how identifiers compare, and the other columns. -/
def recordsetColumns (idText : Nat → V) (other : String → Option (RecordSetRow → Option V)) :
    Columns RecordSetRow V where
  id row := idText row.id
  other := other

/-- A row of the first query. -/
structure JoinedRow where
  recordset : RecordSetRow
  zone : Zone
  record : Option RecordRow
  deriving DecidableEq, Repr

/-- `rzjoin`: recordsets with their zones, and with their records when those are filtered by. -/
def joinedRows (db : Db) (filtering : Bool) (row : RecordSetRow) : List JoinedRow :=
  (db.zones.filter fun zone => zone.id == row.zoneId).flatMap fun zone =>
    if filtering then
      (db.records.filter fun record => record.recordsetId == row.id).map fun record =>
        ⟨row, zone, some record⟩
    else [⟨row, zone, none⟩]

/-- The conditions of the first query but for the marker's. -/
def selected (clauses : Clauses) (ctx : Context) (criterion : RecordSetCriterion)
    (row : JoinedRow) : Bool :=
  !row.zone.deleted && ctx.owns row.recordset.tenantId && criterion.recordset row.recordset &&
    row.record.all (criterion.record clauses)

/-- The rows the conditions leave of the join. -/
def selectedRows (clauses : Clauses) (ctx : Context) (db : Db) (criterion : RecordSetCriterion) :
    List JoinedRow :=
  db.recordsets.flatMap fun row =>
    (joinedRows db criterion.filteringRecords row).filter (selected clauses ctx criterion)

/-- A recordset of a page. -/
structure Listed where
  recordset : RecordSetRow
  zoneName : Option String
  records : List RecordRow
  deriving DecidableEq, Repr

/-- `rjoin`: the recordsets asked for, with their records, if they have any. -/
def outerRows (db : Db) (ids : List Nat) : List (RecordSetRow × Option RecordRow) :=
  (db.recordsets.filter fun row => ids.contains row.id).flatMap fun row =>
    match db.records.filter fun record => record.recordsetId == row.id with
    | [] => [(row, none)]
    | record :: records => (record :: records).map fun record => (row, some record)

/-- The state of the loop over the raw rows: the recordsets done with, and the current one. -/
structure Gathering where
  rrsets : List Listed := []
  current : Option Listed := none

/-- One round of the loop: a row of another recordset begins a new one. -/
def Gathering.step (zoneName : Nat → Option String) (state : Gathering)
    (row : RecordSetRow × Option RecordRow) : Gathering :=
  let fresh : Listed := ⟨row.1, zoneName row.1.id, row.2.toList⟩
  match state.current with
  | none => { state with current := some fresh }
  | some current =>
    if row.1.id ≠ current.recordset.id then
      { rrsets := state.rrsets ++ [current], current := some fresh }
    else
      { state with current := some { current with records := current.records ++ row.2.toList } }

/-- After the loop, the current recordset is added unless it is the last one already. -/
def Gathering.finish (state : Gathering) : List Listed :=
  if state.rrsets.isEmpty || state.rrsets.getLast? != state.current then
    state.rrsets ++ state.current.toList
  else state.rrsets

/-- The loop over the raw rows. -/
def gather (zoneName : Nat → Option String) (rows : List (RecordSetRow × Option RecordRow)) :
    List Listed :=
  (rows.foldl (Gathering.step zoneName) {}).finish

/--
The second half of `_find_recordsets_with_records`: from the rows of the first query to the
number of recordsets in all, unless counts are hidden, and those of the page.
-/
def recordsetsOfRows (engine : Engine V) (clauses : Clauses) (columns : Columns RecordSetRow V)
    (ctx : Context) (hideCounts : Bool) (db : Db) (criterion : RecordSetCriterion)
    (sortKey : Option String) (sortDir : Option SortDir) (rows : List JoinedRow) :
    Except QueryError (Option Nat × List Listed) :=
  if rows.isEmpty then .ok (some 0, [])
  else
    -- a later row of the same recordset overwrites the name of its zone
    let zoneName := fun id =>
      (rows.reverse.find? fun row => row.recordset.id == id).map fun row => row.zone.name
    let totalCount :=
      if hideCounts then none
      else some ((selectedRows clauses ctx db criterion).map (·.recordset.id)).dedup.length
    (sortQuery engine columns (outerRows db (rows.map (·.recordset.id))) Prod.fst
      [sortKeyOf sortKey, "id"] (sortDir.getD .asc)).map fun rawRows =>
        (totalCount, gather zoneName rawRows)

/-- `_find_recordsets_with_records`. -/
def findRecordsetsWithRecords (engine : Engine V) (clauses : Clauses)
    (columns : Columns RecordSetRow V) (ctx : Context) (hideCounts : Bool) (db : Db)
    (criterion : RecordSetCriterion) (marker : Option V) (limit : Option Nat)
    (sortKey : Option String) (sortDir : Option SortDir) :
    Except QueryError (Option Nat × List Listed) := do
  let marker ← markerRow columns db.recordsets marker
  let rows ← paginateQuery engine columns (selectedRows clauses ctx db criterion)
    JoinedRow.recordset limit [sortKeyOf sortKey, "id"] marker (sortDir.getD .asc)
  recordsetsOfRows engine clauses columns ctx hideCounts db criterion sortKey sortDir rows

/--
Following the links of the API: there is one to the page behind the last recordset exactly
when the page has as many recordsets as the limit says.
-/
def follow (page : Option V → Except QueryError (List Listed)) (idText : Nat → V) (limit : Nat) :
    Nat → Option V → Option (Except QueryError (List Listed))
  | 0, _ => none
  | pages + 1, marker =>
    match page marker with
    | .error e => some (.error e)
    | .ok items =>
      if limit = items.length then
        match items.getLast? with
        | none => some (.error .IndexError)
        | some last =>
          (follow page idText limit pages (some (idText last.recordset.id))).map fun rest =>
            rest.map (items ++ ·)
      else some (.ok items)

end Sqlalchemy

end Designate
