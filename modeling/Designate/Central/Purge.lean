import Designate.Central.Service

/-!
# Purging zones

A deleted zone keeps its row until it is purged. The zones below a purged one, if
there are any, go to the first zone above it that is not purged along with it.
-/

namespace Designate

/-- The criterion of a purge; with a condition on `deleted`, deleted zones are shown as well. -/
structure PurgeCriterion where
  deleted : Option (Bool → Bool)
  others : Zone → Bool

def PurgeCriterion.shows (criterion : PurgeCriterion) (zone : Zone) : Bool :=
  criterion.deleted.isSome || !zone.deleted

def PurgeCriterion.picks (criterion : PurgeCriterion) (zone : Zone) : Bool :=
  criterion.others zone && criterion.shows zone && criterion.deleted.all fun p => p zone.deleted

/-- `_walk_up_zones`: the first zone above that is not among `zones`. -/
def walkUpZones (zones : List Zone) (maxSteps : Nat) (current : Zone) : Except Exc (Option Nat) :=
  Table.walkUp (fun id => zones.find? fun z => id == some z.id) Zone.parentZoneId
    .IllegalParentZone maxSteps current

/-- What the foreign keys make of the tables when the row of a zone goes. -/
def Db.withoutZone (id : Nat) (db : Db) : Db :=
  let gone := db.recordsets.filter fun r => r.zoneId == id
  { db with
    zones := Table.update Zone.parentZoneId (some id) (fun z => { z with parentZoneId := none })
      (Table.remove Zone.id id db.zones)
    recordsets := Table.remove RecordSetRow.zoneId id db.recordsets
    records := (Table.remove RecordRow.zoneId id db.records).filter fun r =>
      !gone.any fun s => s.id == r.recordsetId }

section

variable (ctx : Context)

/-- `purge_zone`. -/
def purgeZone (criterion : PurgeCriterion) (id : Nat) : Call Unit :=
  Exec.write fun w =>
    match Table.find Zone.id id (fun z => ctx.sees z.tenantId && criterion.shows z)
        Exc.ZoneNotFound w.db.zones with
    | .error e => .error e
    | .ok _ => .ok ((), { w with db := w.db.withoutZone id })

/-- One turn of the loop of `purge_zones` over `zones`. -/
def purgeOne (criterion : PurgeCriterion) (zones : List Zone) (zone : Zone) : Call Unit :=
  purgeTurn (Exec.read fun _ => walkUpZones zones maximumSubzoneDepth zone)
    (fun survivingParentId => updateDb fun db => { db with
      zones := Table.update Zone.parentZoneId (some zone.id)
        (fun z => { z with parentZoneId := survivingParentId }) db.zones })
    (purgeZone ctx criterion zone.id)

/-- `purge_zones`: how many there were, if any. -/
def purgeZones (criterion : PurgeCriterion) (limit : Option Nat) : Call (Option Nat) := do
  let found ← Exec.read fun w => .ok
    (w.db.zones.filter fun z => criterion.picks z && ctx.sees z.tenantId)
  let zones := match limit with
    | some n => found.take n
    | none => found
  Exec.forEach (purgeOne ctx criterion zones) zones
  pure (if zones.isEmpty then none else some zones.length)

end

end Designate
