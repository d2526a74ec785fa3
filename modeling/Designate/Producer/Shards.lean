import Designate.Sqlalchemy.Paginate
import Designate.Text
import Mathlib.Data.List.Sort

/-!
# Shards and the producers that look after them

A zone is stored with a shard number, read off the first digits of its identifier. The
producers of a group sort their names and cut the list of all partitions into slices of
one size: each takes the slice at its own place. The periodic tasks of a producer ask for
the zones whose shard is between the first and the last partition of its slice, and the
storage reads that range back from the text of the criterion. Three of the tasks are at the end.
-/

namespace Designate

namespace Shards

/-- `default_shard`: `int(id[0:3], 16)`. -/
def defaultShard (id : Nat) : Option Nat := Text.hexValue 0 ((Text.uuidText id).toList.take 3)

/-- The partitions a producer starts its partitioner with: `range(0, 4095)`. -/
def partitions : List Nat := List.range 4095

/--
`math.ceil(float(partition_count) / float(member_count))`. Counts of list elements are
floats without loss, and a quotient that is no integer is further from one than the
rounding of the division.
-/
def partitionSize (partitionCount memberCount : Nat) : Nat :=
  (partitionCount + memberCount - 1) / memberCount

/-- `_partition`; there is no answer where it raises, for no members or for one that is unknown. -/
def partition {α : Type} (members : List String) (me : String) (partitions : List α) :
    Option (List α) :=
  if members.isEmpty then none
  else do
    let size := partitionSize partitions.length members.length
    let myIndex ← members.idxOf? me
    let myStart := size * myIndex
    let myEnd := myStart + size
    pure ((partitions.drop myStart).take (myEnd - myStart))

/-- `_update_partitions`: the members come as a set, and are sorted by name. -/
def updatePartitions {α : Type} (members : List String) (me : String) (partitions : List α) :
    Option (List α) :=
  partition (members.mergeSort fun a b => decide (a ≤ b)) me partitions

/-- `_my_range`: an empty slice has neither a first nor a last partition. -/
def myRange (mine : List Nat) : Option (Nat × Nat) := do
  let first ← mine.head?
  let last ← mine.getLast?
  pure (first, last)

/-- `_filter_between`: the text of the criterion. -/
def filterBetween (mine : List Nat) : Option String :=
  (myRange mine).map fun range => "BETWEEN " ++ toString range.1 ++ "," ++ toString range.2

/--
The bounds `_apply_criterion` finds in a text. A pattern, or an operator in front, has
the text taken for something else.
-/
def betweenBounds (value : String) : Option (String × String) :=
  if value.toList.contains '%' || ["!", "<", ">"].any (Text.startsWith value) then none
  else if Text.startsWith value "BETWEEN" then
    match value.toList.dropWhile (· != ' ') with
    | [] => none
    | _ :: rest =>
      match (Text.splitChars ',' (Text.strip rest)).map Text.strip with
      | low :: high :: _ => some (String.ofList low, String.ofList high)
      | _ => none
  else none

/-- The number a text of decimal digits stands for, next to an integer column. -/
def decimal (s : String) : Option Nat :=
  if s.toList.isEmpty || !s.toList.all Char.isDigit then none
  else some (Nat.ofDigitChars 10 s.toList 0)

/-- `shard BETWEEN low AND high`. -/
def between (bounds : String × String) (shard : Nat) : Bool :=
  (decimal bounds.1).any (· ≤ shard) && (decimal bounds.2).any (shard ≤ ·)

/-- The periodic tasks of the producer `me` go through the zone `id`. -/
def handles (members : List String) (me : String) (id : Nat) : Bool :=
  (do
    let mine ← updatePartitions members me partitions
    let criterion ← filterBetween mine
    let bounds ← betweenBounds criterion
    let shard ← defaultShard id
    pure (between bounds shard)).getD false

/-! ## The periodic tasks -/

/-- The shards that a task asks for; there are none where `_my_range` raises. -/
def shardRange (mine : List Nat) : Option (Nat → Bool) := do
  let criterion ← filterBetween mine
  let bounds ← betweenBounds criterion
  pure (between bounds)

section

variable {ρ V ε : Type}

/--
What a loop over `_iter` gets to see, page by page, up to the end or to where it raises. There
is no answer as long as the pages are not enough.
-/
def visited (method : Option V → Except ε (List ρ)) (id : ρ → V) :
    Nat → Option V → Option (List ρ)
  | 0, _ => none
  | pages + 1, marker =>
    match method marker with
    | .error _ => some []
    | .ok items =>
      match items.getLast? with
      | none => some []
      | some last => (visited method id pages (some (id last))).map (items ++ ·)

/-- `_iter_zones`, with what `on_partition_change` was last called with. -/
def iterZones (findZones : (Nat → Bool) → Option V → Except ε (List ρ)) (id : ρ → V)
    (myPartitions : Option (List Nat)) (pages : Nat) : Option (List ρ) :=
  match myPartitions.bind shardRange with
  | none => some []
  | some shards => visited (findZones shards) id pages none

/-- The events about a zone that is there. -/
def existsEvents (zone : ρ) : List (String × ρ) :=
  [("dns.domain.exists", zone), ("dns.zone.exists", zone)]

/-- `PeriodicExistsTask`: the events of the zones it goes through. -/
def periodicExists (findZones : (Nat → Bool) → Option V → Except ε (List ρ)) (id : ρ → V)
    (myPartitions : Option (List Nat)) (pages : Nat) : Option (List (String × ρ)) :=
  (iterZones findZones id myPartitions pages).map fun zones => zones.flatMap existsEvents

/-- `seconds > zone.refresh`, in microseconds, for a zone that has been transferred at all. -/
def refreshDue (transferredAt : Option Int) (refresh : Nat) (now : Int) : Bool :=
  transferredAt.any fun transferred => decide ((refresh : Int) * 1000000 < now - transferred)

/-- The calls of a loop, of which the first that raises is the last. -/
def callsUpTo (raises : ρ → Bool) : List ρ → List ρ
  | [] => []
  | a :: l => if raises a then [a] else a :: callsUpTo raises l

/-- `PeriodicSecondaryRefreshTask`: the zones whose transfer it asks central for. -/
def secondaryRefresh (findZones : (Nat → Bool) → Option V → Except ε (List ρ)) (id : ρ → V)
    (due raises : ρ → Bool) (myPartitions : Option (List Nat)) (pages : Nat) : Option (List ρ) :=
  (iterZones findZones id myPartitions pages).map fun zones =>
    callsUpTo raises (zones.filter due)

/-- `WorkerPeriodicRecovery`: the range it asks the worker to recover, unless `_my_range` raises. -/
def workerPeriodicRecovery (enabled : Bool) (myPartitions : Option (List Nat)) :
    Option (Nat × Nat) :=
  if enabled then myPartitions.bind myRange else none

/-- `find_zones` with the criterion of a task: what else it asks for is `matching`. -/
def findZones [LinearOrder V] (engine : Sqlalchemy.Engine V) (columns : Sqlalchemy.Columns ρ V)
    (table : List ρ) (zoneId : ρ → Nat) (matching : ρ → Bool) (perPage : Nat)
    (shards : Nat → Bool) (marker : Option V) : Except Sqlalchemy.QueryError (List ρ) :=
  Sqlalchemy.find engine columns table
    (fun row => matching row && (defaultShard (zoneId row)).any shards) marker (some perPage)
    none none

end

end Shards

end Designate
