import Designate.Central.Service

/-!
# Clients with zone objects

A client loads a zone, changes the object it got and sends it back, at its own pace:
the zone lock covers the calls and not what lies between them. What comes back is an
object with a note of the fields assigned since it was loaded, and the new serial of
the zone is made from the serial that object carries. The clients here also touch
zones, create and import them, and bring in what a transfer from a master server said.
-/

namespace Designate

/-- A zone object: the row it was loaded from, and the fields that were assigned since. -/
structure ZoneObject where
  zone : Zone
  ttl : Tracked Nat
  serial : Tracked Nat
  action : Tracked Action
  status : Tracked Status

namespace ZoneObject

/-- The object loaded from a row. -/
def ofRow (zone : Zone) : ZoneObject where
  zone := zone
  ttl := .loaded zone.ttl
  serial := .loaded zone.serial
  action := .loaded zone.action
  status := .loaded zone.status

/-- `zone.serial`. -/
def serialValue (object : ZoneObject) : Nat := object.serial.value.getD object.zone.serial

/-- What an UPDATE of the changed columns leaves of a row. -/
def write (object : ZoneObject) (row : Zone) : Zone :=
  { row with ttl := object.ttl.write row.ttl, serial := object.serial.write row.serial
             action := object.action.write row.action, status := object.status.write row.status }

/-- The object with `action` UPDATE and `status` PENDING. -/
def pending (object : ZoneObject) : ZoneObject :=
  { object with action := object.action.set .UPDATE, status := object.status.set .PENDING }

/-- The changed columns with the values of `origin`, which is what goes back if the worker fails. -/
def restore (object : ZoneObject) (origin row : Zone) : Zone :=
  { row with ttl := if object.ttl.changed then origin.ttl else row.ttl
             serial := if object.serial.changed then origin.serial else row.serial }

/-- The object after a transfer, with what the SOA record of the master says. -/
def transferred (object : ZoneObject) (ttl serial : Nat) : ZoneObject :=
  { object with ttl := object.ttl.set ttl, serial := object.serial.set serial }

end ZoneObject

section

variable (ctx : Context) (conf : Conf)

/--
`update_zone` of central up to where the worker is called: the checks, the stored zone
the changes are taken back to, and `_update_zone_in_storage`.
-/
def storeZoneObject (object : ZoneObject) (increment : Bool) : Call (Zone × Zone) := do
  check fun _ => if object.ttl.changed then isValidTtl conf (object.ttl.value.getD 0) else .ok ()
  let origin ← getZone ctx object.zone.id
  let zone ← transaction
    (if increment then
      incrementZoneSerial ctx conf { object.zone with serial := object.serialValue }
        object.pending.write
    else updateZoneRow ctx object.zone.id object.pending.write)
  pure (origin, zone)

/-- `update_zone`; if the worker fails, the changed columns go back to what they were. -/
def updateZoneObject (faults : ZoneFaults) (object : ZoneObject) (increment : Bool) :
    Call Zone := do
  let (origin, zone) ← storeZoneObject ctx conf object increment
  Exec.onError (zoneAction ctx conf faults zone) do
    let _ ← updateZoneRow ctx zone.id (object.restore origin)
  getZone ctx zone.id

/--
`touch_zone` up to where the worker is called. The wrapper hands `_touch_zone_in_storage` a copy
of the zone, and what that returns is dropped: the zone here is as it was loaded.
-/
def storeTouch (zoneId : Nat) : Call Zone := do
  let zone ← getZone ctx zoneId
  let _ ← transaction (incrementZoneSerial ctx conf zone id)
  pure zone

/-- `touch_zone`. -/
def touchZone (faults : ZoneFaults) (zoneId : Nat) : Call Zone := do
  let zone ← storeTouch ctx conf zoneId
  zoneAction ctx conf faults zone
  pure zone

end

/-- The services, and the object each client has, if it has one. -/
structure Clients where
  world : World
  object : Nat → Option ZoneObject

inductive ClientStep where
  /-- `get_zone`. -/
  | load (client zoneId : Nat)
  /-- The client assigns a new ttl to its object. -/
  | edit (client ttl : Nat)
  | update (client : Nat) (increment : Bool) (faults : ZoneFaults)
  | touch (zoneId : Nat) (faults : ZoneFaults)
  | create (faults : ZoneFaults) (plan : Nat → ZoneFaults) (zone : NewZone)
  /-- The zone a file was read into: it comes without attributes, so it names no view. -/
  | importZone (faults : ZoneFaults) (plan : Nat → ZoneFaults) (name : String) (ttl serial : Nat)
  /-- `zone_sync` of the client's object, after an answer of the master. -/
  | transfer (client ttl serial : Nat) (faults : ZoneFaults)

/-- A step in the context of its request. -/
structure ClientInput where
  ctx : Context
  step : ClientStep

/-- What becomes of everything in one step. -/
def Clients.next (conf : Conf) (input : ClientInput) (s : Clients) : Clients :=
  let ctx := input.ctx
  match input.step with
  | .load client zoneId =>
    { s with object := fun c =>
        if c = client then (findZone ctx zoneId s.world.db).toOption.map ZoneObject.ofRow
        else s.object c }
  | .edit client ttl =>
    { s with object := fun c =>
        if c = client then (s.object client).map fun o => { o with ttl := o.ttl.set ttl }
        else s.object c }
  | .update client increment faults =>
    match s.object client with
    | none => s
    | some object => { s with world := (updateZoneObject ctx conf faults object increment s.world).2 }
  | .touch zoneId faults => { s with world := (touchZone ctx conf faults zoneId s.world).2 }
  | .create faults plan zone =>
    { s with world := (createZone ctx conf faults plan zone s.world).2 }
  | .importZone faults plan name ttl serial =>
    { s with world := (createZone ctx conf faults plan
        { name := name, tenantId := none, type := .PRIMARY, ttl := some ttl, serial := some serial
          viewId := none } s.world).2 }
  | .transfer client ttl serial faults =>
    match s.object client with
    | none => s
    | some object =>
      { s with world :=
          (updateZoneObject ctx conf faults (object.transferred ttl serial) false s.world).2 }

/-- What the service and its clients do next: a request of its own, or a step of a client. -/
inductive ServiceInput where
  | request (input : Input)
  | client (input : ClientInput)

/-- What becomes of everything in one step of either kind. -/
def Clients.serve (conf : Conf) (input : ServiceInput) (s : Clients) : Clients :=
  match input with
  | .request input => { s with world := Designate.serve conf input s.world }
  | .client input => s.next conf input

end Designate
