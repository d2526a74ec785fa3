import Mathlib.Data.List.Basic
import Mathlib.Logic.Function.Basic

/-!
# The scheduler

A zone is scheduled to the one pool that a chain of filters leaves over. The filters here are
those that narrow the pools down: by the attributes of the zone, to the pool a zone names, to
the default pool, or at random.
-/

namespace Designate

namespace Scheduler

structure Attribute where
  key : String
  value : String
  deriving DecidableEq, Repr

/-- `to_dict` of a list of attributes: the last one of a key counts. -/
def toDict (attributes : List Attribute) : String → Option String :=
  attributes.foldl (fun data item => Function.update data item.key (some item.value)) fun _ => none

/-- `get` of a list of attributes: the first one of a key counts. -/
def get (attributes : List Attribute) (key : String) : Option String :=
  (attributes.find? fun obj => obj.key == key).map Attribute.value

structure Pool where
  id : String
  attributes : List Attribute
  deriving DecidableEq, Repr

/-- A zone to schedule; its attributes are a relation that may not have been loaded. -/
structure Zone where
  attributes : Option (List Attribute)
  deriving DecidableEq, Repr

inductive Error where
  | Forbidden | MultiplePoolsFound | NoValidPoolFound | NoFiltersConfigured
  deriving DecidableEq, Repr

/-- What the filters look up. -/
structure Deployment where
  pools : List Pool
  defaultPoolId : String
  /-- The caller may use the pool, by the policy `zone_create_forced_pool`. -/
  allowed : Pool → Bool
  /-- The truth value that a string spells, by `bool_from_string`. -/
  spells : String → Option Bool

/-- The filters of a chain, a random one with the number it draws. -/
inductive Filter where
  | attributeFilter | poolIdAttributeFilter | inDoubtDefaultPoolFilter
  | randomFilter (draw : Nat)
  deriving DecidableEq, Repr

variable (D : Deployment)

/-- `storage.get_pool`. -/
def getPool (id : String) : Option Pool := D.pools.find? fun pool => pool.id == id

/-- `bool_from_string(value, default=value)`. -/
def sense (value : String) : Bool ⊕ String :=
  match D.spells value with
  | some b => .inl b
  | none => .inr value

def zoneAttributes (zone : Zone) : List Attribute := zone.attributes.getD []

/-- `evaluate_pool`. -/
def evaluatePool (zone : Zone) (pool : Pool) : Bool :=
  (zoneAttributes zone).all (fun a => (toDict pool.attributes a.key).isSome) &&
    (zoneAttributes zone).all fun a =>
      decide ((toDict pool.attributes a.key).map (sense D) =
        (toDict (zoneAttributes zone) a.key).map (sense D))

/-- `filter` of each filter. -/
def Filter.filter (f : Filter) (zone : Zone) (pools : List Pool) : Except Error (List Pool) :=
  match f with
  | attributeFilter => .ok (pools.filter (evaluatePool D zone))
  | poolIdAttributeFilter =>
    match (zone.attributes.bind fun attributes => get attributes "pool_id").filter (· ≠ "") with
    | none => .ok pools
    | some poolId =>
      match getPool D poolId with
      -- the pool is unknown: nothing is left, and nothing is raised
      | none => .ok []
      | some pool =>
        -- a pool that an earlier filter has taken out leaves the candidates as they are
        if D.allowed pool then .ok (if pool ∈ pools then [pool] else pools)
        else .error .Forbidden
  | inDoubtDefaultPoolFilter =>
    if 1 < pools.length then
      match getPool D D.defaultPoolId with
      | none => .ok pools
      | some defaultPool => .ok (if defaultPool ∈ pools then [defaultPool] else pools)
    else .ok pools
  -- of no pools none is drawn
  | randomFilter draw => .ok (pools[draw % pools.length]?).toList

/-- The loop of `schedule_zone` over the filters. -/
def runFilters (zone : Zone) : List Filter → List Pool → Except Error (List Pool)
  | [], pools => .ok pools
  | f :: filters, pools => do
    let pools ← f.filter D zone pools
    runFilters zone filters pools

/-- `schedule_zone`. -/
def scheduleZone (filters : List Filter) (zone : Zone) : Except Error String :=
  if filters = [] then .error .NoFiltersConfigured
  else do
    let pools ← runFilters D zone filters D.pools
    match pools with
    | [] => .error .NoValidPoolFound
    | [pool] => .ok pool.id
    | _ => .error .MultiplePoolsFound

end Scheduler

end Designate
