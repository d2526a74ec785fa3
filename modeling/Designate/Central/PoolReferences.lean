import Designate.Central.ZoneTree

/-!
# Zones and their pools, with several calls under way

`create_zone` has the scheduler pick a pool, and looks the pool up once more in the
transaction that stores the zone. `delete_pool` refuses if it finds a zone in the pool
that is not on its way out. What the worker reports about a zone says nothing about its
pool. A step is what one transaction does, so that the calls of any tenants may come in
any order.
-/

namespace Designate

namespace PoolReferences

/-- A row of `pools`, with the hostnames of its name servers. -/
structure Pool where
  id : Nat
  nsRecords : List String
  deriving DecidableEq, Repr

/-- Central with its pools. -/
structure State where
  central : Central
  pools : List Pool
  /-- The `create_zone` calls that have passed their checks, each with the pool picked for it. -/
  creating : List (Creation × Nat) := []

inductive Event where
  /-- `create_zone` up to where it stores the zone; the scheduler picks the pool `poolId`. -/
  | createCheck (ctx : Context) (zone : NewZone) (poolId : Nat)
  | createStore (n : Nat)
  /-- A zone below a new one is updated, at the end of `create_zone`. -/
  | adopt (n : Nat) (ctx : Context)
  | takeBack (n : Nat) (ctx : Context)
  | deleteCheck (ctx : Context) (zoneId : Nat)
  | deleteStore (n : Nat)
  /-- The worker calls back. -/
  | report (n : Nat) (ctx : Context) (faults : StatusSite → Bool) (status : Status)
  | deletePool (ctx : Context) (poolId : Nat)

namespace State

variable (conf : Conf)

/-- There is a pool `poolId`. -/
def HasPool (s : State) (poolId : Nat) : Prop := ∃ pool ∈ s.pools, pool.id = poolId

instance (s : State) (poolId : Nat) : Decidable (s.HasPool poolId) :=
  inferInstanceAs (Decidable (∃ pool ∈ s.pools, pool.id = poolId))

/-- The configuration of a call about the pool `poolId`: it is the one pool there is, or there is another one. -/
def confOf (s : State) (poolId : Nat) : Conf :=
  match s.pools.find? fun pool => pool.id == poolId with
  | some pool => { conf with poolId := poolId, poolNsRecords := pool.nsRecords }
  | none => { conf with poolId := poolId + 1 }

/-- The checks of `create_zone`, and the name servers of the pool. -/
def createCheck (ctx : Context) (zone : NewZone) (poolId : Nat) (s : State) : State :=
  let zone := zone.owned ctx
  if s.HasPool poolId then
    match createZoneChecks ctx (s.confOf conf poolId) zone s.central.world, zone.viewId with
    | (.ok (parent, subzones), _), some viewId =>
      match findView ctx (some viewId) s.central.world.db with
      | .ok _ =>
        { s with creating := s.creating ++ [(⟨ctx, zone, viewId, parent, subzones⟩, poolId)] }
      | .error _ => s
    | _, _ => s
  else s

/-- `_create_zone_in_storage`: the zone goes again if `get_zone_ns_records` finds no pool. -/
def createStore (n : Nat) (s : State) : State :=
  match s.creating[n]? with
  | none => s
  | some (c, poolId) =>
    let world := s.central.world
    let s := { s with creating := s.creating.eraseIdx n }
    match createZoneInStorage c.ctx { conf with poolId := poolId } c.zone c.viewId c.parent world with
    | (.ok zone, w) =>
      if s.HasPool poolId then
        { s with central := { s.central with
          world := w, working := s.central.working ++ [⟨zone.id, .CREATE, c.subzones⟩] } }
      else { s with central := { s.central with world := { w with db := world.db } } }
    | (.error _, w) => { s with central := { s.central with world := w } }

/-- The pool of a zone row, if there is the row. -/
def poolOf (s : State) (zoneId : Nat) : Nat :=
  ((s.central.world.db.zones.find? fun z => z.id == zoneId).map Zone.poolId).getD 0

/-- `delete_pool`. -/
def deletePool (ctx : Context) (poolId : Nat) (s : State) : State :=
  match findZones ctx.elevated (fun z => z.poolId == poolId && z.action != .DELETE)
      s.central.world with
  | (.ok [], _) => { s with pools := Table.remove Pool.id poolId s.pools }
  | _ => s

/-- A step of a call that has nothing to do with pools but for the one of the zone `zoneId`. -/
def zoneStep (step : TreeStep) (zoneId : Nat) (s : State) : State :=
  { s with central := s.central.next (s.confOf conf (s.poolOf zoneId)) step }

/-- What becomes of everything in one step; there is no step of a call that is not there. -/
def next (event : Event) (s : State) : State :=
  match event with
  | .createCheck ctx zone poolId => s.createCheck conf ctx zone poolId
  | .createStore n => s.createStore conf n
  | .adopt n ctx =>
    match s.central.adopting[n]? with
    | none => s
    | some (_, subzone) => s.zoneStep conf (.adopt n ctx) subzone.id
  | .takeBack n ctx =>
    match s.central.updating[n]? with
    | none => s
    | some (zoneId, _) => s.zoneStep conf (.takeBack n ctx) zoneId
  | .deleteCheck ctx zoneId => s.zoneStep conf (.deleteCheck ctx zoneId) zoneId
  | .deleteStore n =>
    match s.central.deleting[n]? with
    | none => s
    | some d => s.zoneStep conf (.deleteStore n) d.zone.id
  | .report n ctx faults status =>
    match s.central.working[n]? with
    | none => s
    | some work => s.zoneStep conf (.report n ctx faults status) work.zoneId
  | .deletePool ctx poolId => s.deletePool ctx poolId

end State

end PoolReferences

end Designate
