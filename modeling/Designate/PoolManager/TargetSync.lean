import Designate.Objects
import Designate.Removal
import Mathlib.Data.Finset.Basic
import Mathlib.Data.List.Sort

/-!
# Bringing a target up to date

A target that has been out of reach is brought up to date from the rows of the zones that were
updated since. What is to be done for a zone is read off its row: whether it has been deleted,
and whether it was created before. A zone that is deleted keeps its row, and a zone of the same
name that is created later has another one, so there may be any number of rows of one name, of
which at most one is not deleted.
-/

namespace Designate

namespace TargetSync

open Removal

/-- What `_target_sync` reads of a row of `zones`. -/
structure Zone where
  id : Nat
  name : String
  createdAt : Nat
  /-- Set by the first update only. -/
  updatedAt : Option Nat
  status : Status
  deriving DecidableEq, Repr

def Zone.live (zone : Zone) : Bool :=
  zone.status != .DELETED

/-! ## The rows -/

inductive Change where
  | create (id : Nat) (name : String)
  | update (id : Nat) (status : Status)
  | delete (id : Nat)

/-- An update of a row that is not deleted. -/
def touch (zones : List Zone) (now id : Nat) (status : Status) : List Zone :=
  zones.map fun zone =>
    if zone.id = id ∧ zone.live then { zone with updatedAt := some now, status } else zone

/-- A change at some time. Identifiers are unique, and names among the zones not deleted. -/
def Change.apply (zones : List Zone) (now : Nat) : Change → List Zone
  | .create id name =>
    if zones.any fun zone => zone.id == id || zone.live && zone.name == name then zones
    else zones ++ [⟨id, name, now, none, .PENDING⟩]
  | .update id status => if status = .DELETED then zones else touch zones now id status
  | .delete id => touch zones now id .DELETED

structure Event where
  time : Nat
  change : Change

/-- The rows after some history. -/
def replay (history : List Event) : List Zone :=
  history.foldl (fun zones event => event.change.apply zones event.time) []

/-- The names of the zones that are not deleted. -/
def liveNames (zones : List Zone) : Finset String :=
  ((zones.filter Zone.live).map Zone.name).toFinset

/-- What the names were at some time. -/
def liveAt (history : List Event) (timestamp : Nat) : Finset String :=
  liveNames (replay (history.filter fun event => decide (event.time ≤ timestamp)))

/-! ## `target_sync` -/

/-- The rows updated after a time, deleted or not, in order of `updated_at` and `id`. -/
def findZones (timestamp : Nat) (zones : List Zone) : List Zone :=
  (zones.filter fun zone => zone.updatedAt.any fun updated => decide (timestamp < updated)).insertionSort
    fun zone zone' =>
      let updated := zone.updatedAt.getD 0
      let updated' := zone'.updatedAt.getD 0
      updated < updated' ∨ updated = updated' ∧ zone.id ≤ zone'.id

/-- The first loop of `_target_sync`: what one row changes in `zone_ops`. -/
def plan (timestamp : Nat) (zoneOps : List (Zone × Action)) (zone : Zone) :
    List (Zone × Action) :=
  if zone.status = .DELETED then
    let zoneOps := removing (fun zoneOp => zone.name == zoneOp.1.name) zoneOps
    if zone.createdAt ≤ timestamp then zoneOps ++ [(zone, .DELETE)] else zoneOps
  else if timestamp < zone.createdAt then
    removing (fun zoneOp => zone.name == zoneOp.1.name && zoneOp.2 == .DELETE) zoneOps ++
      [(zone, .CREATE)]
  else zoneOps ++ [(zone, .UPDATE)]

def zoneOps (timestamp : Nat) (zones : List Zone) : List (Zone × Action) :=
  zones.foldl (plan timestamp) []

/-! ## The target -/

/-- An operation on the target, by the names it holds. One that is not found is an error. -/
def onTarget (names : Finset String) : Zone × Action → Option (Finset String)
  | (zone, .CREATE) => some (insert zone.name names)
  | (zone, .UPDATE) => if zone.name ∈ names then some names else none
  | (zone, .DELETE) => if zone.name ∈ names then some (names.erase zone.name) else none
  | (_, .NONE) => some names

/-- The second loop of `_target_sync`. -/
def runOps (names : Finset String) (ops : List (Zone × Action)) : Option (Finset String) :=
  ops.foldlM onTarget names

end TargetSync

end Designate
