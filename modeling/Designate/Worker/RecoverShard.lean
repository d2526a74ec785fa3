import Designate.Central.Clients
import Designate.Central.ZoneTree
import Designate.Producer.Shards

/-!
# Recovery

The worker goes through the zones of a range of shards for those in trouble, and has their actions
done again: zones in error, and zones that have been pending for too long. For how long is read
off the serial, which a new zone takes from the clock. The two kinds are asked for one after the
other, and requests may come in between.

The history around it is that of the zones: requests up to where the worker is called, and reports
on how its actions ended, in any order.
-/

namespace Designate

/-! ## `RecoverShard` -/

structure RecoverShard where
  beginShard : Nat
  endShard : Nat
  /-- `max_prop_time`, in seconds. -/
  maxPropTime : Nat

namespace RecoverShard

/-- `recover_shard`: the task for the range a producer asks about. -/
def recoverShard (maxPropTime : Nat) (range : Nat × Nat) : RecoverShard :=
  ⟨range.1, range.2, maxPropTime⟩

variable (task : RecoverShard)

/-- The criterion on the shard of a zone, as storage reads it. -/
def inShards (zone : Zone) : Bool :=
  (do
    let bounds ← Shards.betweenBounds
      ("BETWEEN " ++ toString task.beginShard ++ "," ++ toString task.endShard)
    let shard ← Shards.defaultShard zone.id
    pure (Shards.between bounds shard)).getD false

/-- The zones in `ERROR`. -/
def errorZones (zones : List Zone) : List Zone :=
  zones.filter fun z => task.inShards z && z.status == .ERROR && !z.deleted

/-- The `PENDING` zones with a serial below `current - max_prop_time`. -/
def staleZones (current : Nat) (zones : List Zone) : List Zone :=
  zones.filter fun z => task.inShards z && z.status == .PENDING &&
    decide ((z.serial : Int) < (current : Int) - (task.maxPropTime : Int)) && !z.deleted

/-- `_get_zones`: the second query is about the zones as they are `later`. -/
def getZones (current : Nat) (zones later : List Zone) : List Zone :=
  task.errorZones zones ++ task.staleZones current later

/-- What the worker is asked for on behalf of a zone. -/
def request (zone : Zone) : Option (Action × Zone) :=
  match zone.action with
  | .CREATE => some (.CREATE, zone)
  | .UPDATE => some (.UPDATE, zone)
  | .DELETE => some (.DELETE, zone)
  | .NONE => none

/-- `RecoverShard.__call__`: what the worker is asked for. -/
def requests (current : Nat) (zones later : List Zone) : List (Action × Zone) :=
  (task.getZones current zones later).filterMap request

end RecoverShard

/-! ## Requests about zones -/

section

variable (ctx : Context) (conf : Conf)

/-- `create_zone` up to where the worker is called. -/
def storeCreation (zone : NewZone) : Call Zone := do
  let zone := zone.owned ctx
  let (parent, _) ← createZoneChecks ctx conf zone
  match zone.viewId with
  | none => Exec.raise .NeedView
  | some viewId => do
    let _ ← getView ctx (some viewId)
    createZoneInStorage ctx conf zone viewId parent

/-- The zone as `patch_one` has loaded it, with a new ttl in it. -/
def patchedObject (loaded : Zone) (ttl : Nat) : ZoneObject :=
  { ZoneObject.ofRow loaded with ttl := (ZoneObject.ofRow loaded).ttl.set ttl }

inductive ZoneStep where
  /-- `post_all`, or the import of a zone file, which has a serial in it. -/
  | create (zone : NewZone)
  /-- `patch_one` of a zone that was loaded before, which has the serial left as it is. -/
  | patch (loaded : Zone) (ttl : Nat)
  /-- `create_zone` for a zone it has found below the new one; its new parent does not matter here. -/
  | adopt (loaded : Zone)
  /-- `delete_one`. -/
  | delete (zoneId : Nat)
  /-- `update_zone`, after the worker has raised: the zone that was loaded, and the stored one. -/
  | takeBack (loaded : Zone) (ttl : Nat) (origin : Zone)
  /-- The worker reports how an action of it has ended. -/
  | report (zoneId : Nat) (action : Action) (status : Status) (faults : StatusSite → Bool)
  /-- The pool reports on a zone. -/
  | poolReport (zoneId : Nat) (message : PoolStatus)

/-- What a step does; a request returns the zone it is about. -/
def ZoneStep.call : ZoneStep → Call (Option Nat)
  | .create zone => do
    let zone ← storeCreation ctx conf zone
    pure (some zone.id)
  | .patch loaded ttl => do
    Exec.raiseIf (loaded.action = .DELETE) (.BadRequest "Can not update a deleting zone")
    let (_, zone) ← storeZoneObject ctx conf (patchedObject loaded ttl) false
    pure (some zone.id)
  | .adopt loaded => do
    let (_, zone) ← storeZoneObject ctx conf (.ofRow loaded) true
    pure (some zone.id)
  | .delete zoneId => do
    let zone ← deleteZoneChecks ctx zoneId
    let zone ← storeDeletion ctx zone
    pure (some zone.id)
  | .takeBack loaded ttl origin => do
    let _ ← updateZoneRow ctx loaded.id ((patchedObject loaded ttl).restore origin)
    pure none
  | .report zoneId action status faults => do
    updateZoneStatus ctx conf faults zoneId action status
    pure none
  | .poolReport zoneId message => do
    updateStatus ctx conf message zoneId
    pure none

end

/-- A step in the context of its request. -/
structure HistoryInput where
  ctx : Context
  step : ZoneStep

/-- The services, and the time of the last request about each zone. -/
structure ZoneHistory where
  world : World
  requestedAt : Nat → Nat

namespace ZoneHistory

/-- The rows of the zones. -/
def zones (s : ZoneHistory) : List Zone := s.world.db.zones

/-- What a step has left, with a note of its time if it was a request. -/
def noted (s : ZoneHistory) (now : Nat) (about : Option Nat) (w : World) : ZoneHistory where
  world := w
  requestedAt := fun id => if about = some id then now else s.requestedAt id

/-- What becomes of everything in one step. -/
def next (conf : Conf) (input : HistoryInput) (s : ZoneHistory) : ZoneHistory :=
  match input.step.call input.ctx conf s.world with
  | (.ok about, w) => s.noted input.ctx.now about w
  | (.error _, w) => s.noted input.ctx.now none w

end ZoneHistory

end Designate
