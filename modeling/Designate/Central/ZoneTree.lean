import Designate.Central.Zones

/-!
# The zones above and below each other, with several calls under way

`create_zone` looks for the zone above the new one and for those below it, stores the
new zone with the identifier of its parent, and makes it the parent of those below.
`delete_zone` refuses if it finds a zone below. Neither keeps the others out between
its look and its change: the zone lock is for the one zone a call is about. The steps
here are the ones central and the worker take one at a time, so that those of several
calls may come in any order.
-/

namespace Designate

/-! ## The calls in steps -/

section

variable (ctx : Context) (conf : Conf)

/-- `delete_zone` up to where it changes something. -/
def deleteZoneChecks (zoneId : Nat) : Call Zone := do
  let zone ← getZone ctx zoneId
  let children ← findZones ctx fun z => z.parentZoneId == some zoneId
  Exec.raiseIf (!children.isEmpty) .ZoneHasSubZone
  pure zone

/-- The change of `delete_zone`; an abandoned zone goes at once. -/
def storeDeletion (zone : Zone) : Call Zone :=
  if ctx.abandon then deleteZoneRow ctx zone.id else deleteZoneInStorage ctx zone

/-- The first half of `update_zone` for a zone below a new one: what was stored, and what is. -/
def storeAdoption (subzone : Zone) (zoneId : Nat) : Call (Zone × Zone) := do
  let stored ← getZone ctx subzone.id
  let zone ← updateZoneInStorage ctx conf { subzone with parentZoneId := some zoneId } true
  pure (stored, zone)

/-- What `update_zone` does when the worker has failed. -/
def takeBack (zoneId : Nat) (stored : Zone) : Call Unit := do
  let _ ← updateZoneRow ctx zoneId fun z =>
    { z with ttl := stored.ttl, parentZoneId := stored.parentZoneId }

/--
`create_zone_transfer_accept` of a valid request: the zone and what is in it go to
another tenant.
-/
def acceptTransfer (zoneId : Nat) (tenantId : Option String) : Call Unit :=
  transaction do
    let zone ← getZone ctx.elevated zoneId
    Exec.raiseIf (zone.action = .DELETE) (.BadRequest "Can not transfer a deleting zone")
    let _ ← updateZoneRow ctx.elevated zone.id fun z => { z with tenantId := tenantId }
    updateDb fun db => { db with
      recordsets := Table.update RecordSetRow.zoneId zone.id
        (fun r => { r with tenantId := tenantId }) db.recordsets
      records := Table.update RecordRow.zoneId zone.id
        (fun r => { r with tenantId := tenantId }) db.records }

end

/-! ## Several calls under way -/

/-- A `delete_zone` that has passed its checks. -/
structure Deletion where
  ctx : Context
  zone : Zone

/-- A `create_zone` that has passed its checks: the zone above the new one, and those below. -/
structure Creation where
  ctx : Context
  zone : NewZone
  viewId : Nat
  parent : Option Nat
  subzones : List Zone

/-- A zone action the worker is at, and the zones that are to come below it afterwards. -/
structure Work where
  zoneId : Nat
  action : Action
  subzones : List Zone := []

/-- Central with the calls that are under way. -/
structure Central where
  world : World
  deleting : List Deletion := []
  creating : List Creation := []
  /-- New zones, with zones they are to become the parent of. -/
  adopting : List (Nat × Zone) := []
  /-- Zones as they were stored before an update the worker may still fail at. -/
  updating : List (Nat × Zone) := []
  /-- The zone actions the worker has been asked for and has not done with. -/
  working : List Work := []

inductive TreeStep where
  | deleteCheck (ctx : Context) (zoneId : Nat)
  | deleteStore (n : Nat)
  | createCheck (ctx : Context) (zone : NewZone)
  | createStore (n : Nat)
  | adopt (n : Nat) (ctx : Context)
  | takeBack (n : Nat) (ctx : Context)
  /-- The worker reports how a zone action ended. -/
  | report (n : Nat) (ctx : Context) (faults : StatusSite → Bool) (status : Status)
  /-- The pool reports on a zone. -/
  | poolReport (ctx : Context) (zoneId : Nat) (message : PoolStatus)
  | accept (ctx : Context) (zoneId : Nat) (tenantId : Option String)

namespace Central

/-- What becomes of everything in one step; there is no step of a call that is not there. -/
def next (conf : Conf) (step : TreeStep) (s : Central) : Central :=
  match step with
  | .deleteCheck ctx zoneId =>
    match deleteZoneChecks ctx zoneId s.world with
    | (.ok zone, _) => { s with deleting := s.deleting ++ [⟨ctx, zone⟩] }
    | (.error _, _) => s
  | .deleteStore n =>
    match s.deleting[n]? with
    | none => s
    | some d =>
      let s := { s with deleting := s.deleting.eraseIdx n }
      match storeDeletion d.ctx d.zone s.world with
      | (.ok zone, w) =>
        { s with world := w
                 working := if d.ctx.abandon then s.working else s.working ++ [⟨zone.id, .DELETE, []⟩] }
      | (.error _, w) => { s with world := w }
  | .createCheck ctx zone =>
    let zone := zone.owned ctx
    match createZoneChecks ctx conf zone s.world, zone.viewId with
    | (.ok (parent, subzones), _), some viewId =>
      match findView ctx (some viewId) s.world.db with
      | .ok _ => { s with creating := s.creating ++ [⟨ctx, zone, viewId, parent, subzones⟩] }
      | .error _ => s
    | _, _ => s
  | .createStore n =>
    match s.creating[n]? with
    | none => s
    | some c =>
      let s := { s with creating := s.creating.eraseIdx n }
      match createZoneInStorage c.ctx conf c.zone c.viewId c.parent s.world with
      | (.ok zone, w) =>
        { s with world := w, working := s.working ++ [⟨zone.id, .CREATE, c.subzones⟩] }
      | (.error _, w) => { s with world := w }
  | .adopt n ctx =>
    match s.adopting[n]? with
    | none => s
    | some (zoneId, subzone) =>
      let s := { s with adopting := s.adopting.eraseIdx n }
      match storeAdoption ctx conf subzone zoneId s.world with
      | (.ok (stored, zone), w) =>
        { s with world := w, updating := s.updating ++ [(zone.id, stored)]
                 working := s.working ++ [⟨zone.id, .UPDATE, []⟩] }
      | (.error _, w) => { s with world := w }
  | .takeBack n ctx =>
    match s.updating[n]? with
    | none => s
    | some (zoneId, stored) =>
      { s with updating := s.updating.eraseIdx n
               world := (Designate.takeBack ctx zoneId stored s.world).2 }
  | .report n ctx faults status =>
    match s.working[n]? with
    | none => s
    | some work =>
      let others := s.working.eraseIdx n
      match updateZoneStatus ctx conf faults work.zoneId work.action status s.world with
      | (.ok _, w) =>
        -- only a call that the worker has not failed goes on
        { s with world := w, working := others
                 adopting := if status = .SUCCESS then
                     s.adopting ++ work.subzones.map fun z => (work.zoneId, z)
                   else s.adopting }
      | (.error _, w) =>
        -- a report of success that does not get through is followed by one of an error
        { s with world := w, working := if status = .SUCCESS then s.working else others }
  | .poolReport ctx zoneId message =>
    { s with world := (updateStatus ctx conf message zoneId s.world).2 }
  | .accept ctx zoneId tenantId =>
    { s with world := (acceptTransfer ctx zoneId tenantId s.world).2 }

end Central

end Designate
