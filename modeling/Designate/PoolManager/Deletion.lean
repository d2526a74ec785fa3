import Designate.Central.Service
import Designate.Mdns.Notify
import Designate.PoolManager.Reports

/-!
# How a zone is removed

The pool manager deletes a zone on its targets and has the nameservers polled for it with the
expected serial 0, which stands for a zone that is gone. The mini DNS polls and reports, each
in its own time; the pool manager handles the reports and tells central; and central removes
the zone when a message says so. Polls and reports are on their way until they are carried
out, in any order, more than once or never.

What the nameservers have answered is kept, and with each removal of a zone by a message what
had been answered by then. Creations and updates go the same way, and are at the end.
-/

namespace Designate

namespace Deletion

open PoolManager Notify

section

variable {γ : Type}

/-- `_delete_zone_on_target`: one of the attempts gets through. -/
def deleteZoneOnTarget (maxRetries : Nat) (attempts : Nat → Bool) : Bool :=
  (List.range maxRetries).any attempts

/-- The loop of `delete_zone` over the nameservers. -/
def askAll (svc : Service γ) (pollForSerialNumber : ZoneView → Nameserver → Exec γ Fault Unit)
    (zone : ZoneView) : Exec (Manager γ) Fault Unit :=
  Exec.forEach
    (fun nameserver => do
      Exec.catching (· == .PoolManagerStatusNotFound)
        (do
          let _ ← call (svc.retrieve nameserver.id zone.id .DELETE)
          pure ())
        (do
          let _ ← call (svc.store (buildStatusObject nameserver zone .DELETE))
          pure ())
      call (pollForSerialNumber zone nameserver))
    svc.pool.nameservers

/-- `delete_zone`, with the attempts that each target lets through. -/
def deleteZone (svc : Service γ) (pollForSerialNumber : ZoneView → Nameserver → Exec γ Fault Unit)
    (maxRetries : Nat) (attempts : String → Nat → Bool) (zone : ZoneView) :
    Exec (Manager γ) Fault Unit := do
  let results := svc.pool.targets.map fun target => deleteZoneOnTarget maxRetries (attempts target)
  if exceedOrMeetThreshold svc (results.count true) (some maximumThreshold) then pure ()
  else tell svc ⟨zone.id, .ERROR, zone.serial⟩
  askAll svc pollForSerialNumber { zone with serial := 0 }

end

/-! ## The parties -/

/-- A response of a nameserver to a poll for a zone. -/
structure Heard where
  zoneId : String
  nameserverId : String
  response : Response
  deriving DecidableEq

/-- A zone is removed by a message, when so much had been heard. -/
structure Removal where
  message : Message
  zone : Zone
  heard : List Heard
  deriving DecidableEq

/-- What will come of polls of a nameserver: the sends of each, or that it gets lost. -/
abbrev Polls : Type := String → List (Option (List Sent))

/-- Everything around the pool manager and its cache. -/
structure Site where
  polls : Polls
  heard : List Heard
  central : World
  removals : List Removal
  asked : List (ZoneView × Nameserver)
  reports : List Report

/-- The configuration, with the row and the name that an identifier of a zone stands for. -/
structure Setup where
  pool : Pool
  threshold : Nat
  maxRetries : Nat
  ctx : Context
  conf : Conf
  rowOf : String → Nat
  nameOf : String → String

/-- The rows of a zone that were live before, and that nothing live is left of. -/
def removed (before after : Db) (id : Nat) : List Zone :=
  before.zones.filter fun z => z.id == id && !z.deleted &&
    !after.zones.any fun z' => z'.id == id && !z'.deleted

variable (S : Setup)

/-- The mini DNS polls a nameserver, of which this comes. -/
def poll (zone : ZoneView) (nameserver : Nameserver) (sends : List Sent) :
    Exec Site Fault (Status × Option Nat × Int) := fun site =>
  let (result, wire) := getSerialNumber (S.nameOf zone.id) zone S.maxRetries { sends }
  (result, { site with
    heard := site.heard ++ wire.received.map fun r => ⟨zone.id, nameserver.id, r⟩ })

/-- The mini DNS and central, as the pool manager calls them. -/
def parties : Parties Site where
  getSerialNumber zone nameserver := fun site =>
    match site.polls nameserver.id with
    | some sends :: polls =>
      let (result, site) := poll S zone nameserver sends
        { site with polls := Function.update site.polls nameserver.id polls }
      (result.map fun answer => (answer.1, answer.2.1), site)
    | polls =>
      (.error .MessagingException,
        { site with polls := Function.update site.polls nameserver.id polls.tail })
  updateStatus m := fun site =>
    let (result, central) :=
      Designate.updateStatus S.ctx S.conf ⟨m.status, m.serial⟩ (S.rowOf m.zoneId) site.central
    (result.mapError fun _ => .other "RemoteError",
      { site with
        central
        removals := site.removals ++
          (removed site.central.db central.db (S.rowOf m.zoneId)).map fun z =>
            ⟨m, z, site.heard⟩ })

/-- The pool manager, while it is busy with this zone. -/
def manager (zone : ZoneView) : Service (Outside Site) :=
  service S.pool S.threshold (parties S) zone

/-- `poll_for_serial_number`, which is only asked for. -/
def pollForSerialNumber (zone : ZoneView) (nameserver : Nameserver) :
    Exec (Outside Site) Fault Unit :=
  Exec.modify fun w =>
    { w with rest := { w.rest with asked := w.rest.asked ++ [(zone, nameserver)] } }

inductive Happening where
  /-- The pool manager deletes a zone. -/
  | delete (zone : ZoneView) (attempts : String → Nat → Bool)
  /-- The mini DNS carries out a poll it was asked for, and reports. -/
  | poll (n : Nat) (sends : List Sent)
  /-- The pool manager handles a report, and what it polls itself comes to this. -/
  | deliver (n : Nat) (polls : Polls)
  | expiry (key : Key)
  /-- Central is asked for something by someone else. -/
  | request (input : Input)

abbrev State : Type := Manager (Outside Site)

def State.site (m : State) : Site := m.outside.rest

def State.withSite (m : State) (site : Site) : State :=
  { m with outside := { m.outside with rest := site } }

/-- One thing happens. An exception ends what it happens in, and nothing else. -/
def happen : Happening → State → State
  | .delete zone attempts, m =>
    (deleteZone (manager S zone) pollForSerialNumber S.maxRetries attempts zone m).2
  | .poll n sends, m =>
    match m.site.asked[n]? with
    | none => m
    | some (zone, nameserver) =>
      match poll S zone nameserver sends m.site with
      | (.ok (status, actualSerial, _), site) =>
        m.withSite { site with
          reports := site.reports ++ [⟨zone, nameserver, status, actualSerial⟩] }
      | (.error _, site) => m.withSite site
  | .deliver n polls, m =>
    match m.site.reports[n]? with
    | none => m
    | some report =>
      (handle S.pool S.threshold (parties S) report (m.withSite { m.site with polls })).2
  | .expiry key, m => { m with outside := m.outside.without key }
  | .request input, m => m.withSite { m.site with central := serve S.conf input m.site.central }

end Deletion

/-! ## Creations and updates -/

namespace Publication

open PoolManager Notify Deletion

section

variable {γ : Type}

/-- `_create_zone_on_target`: one of the attempts gets through. -/
def createZoneOnTarget (maxRetries : Nat) (attempts : Nat → Bool) : Bool :=
  (List.range maxRetries).any attempts

/-- `create_zone`, with the attempts that each target lets through. -/
def createZone (svc : Service γ) (pollForSerialNumber : ZoneView → Nameserver → Exec γ Fault Unit)
    (maxRetries : Nat) (attempts : String → Nat → Bool) (zone : ZoneView) :
    Exec (Manager γ) Fault Unit :=
  let results := svc.pool.targets.map fun target => createZoneOnTarget maxRetries (attempts target)
  if exceedOrMeetThreshold svc (results.count true) none then
    Exec.forEach
      (fun nameserver => do
        let _ ← call (svc.store (buildStatusObject nameserver zone .CREATE))
        call (pollForSerialNumber zone nameserver))
      svc.pool.nameservers
  else tell svc ⟨zone.id, .ERROR, zone.serial⟩

/-- `update_zone`, with the targets that let it through: whether there are enough of them. -/
def updateZone (svc : Service γ) (pollForSerialNumber : ZoneView → Nameserver → Exec γ Fault Unit)
    (succeeds : String → Bool) (zone : ZoneView) : Exec (Manager γ) Fault Bool :=
  if exceedOrMeetThreshold svc (svc.pool.targets.countP succeeds) none then do
    Exec.forEach
      (fun nameserver => do
        Exec.catching (· == .PoolManagerStatusNotFound)
          (do
            let _ ← call (svc.retrieve nameserver.id zone.id .UPDATE)
            pure ())
          (do
            let _ ← call (svc.store (buildStatusObject nameserver zone .UPDATE))
            pure ())
        call (pollForSerialNumber zone nameserver))
      svc.pool.nameservers
    pure true
  else do
    tell svc ⟨zone.id, .ERROR, zone.serial⟩
    pure false

/-- A cycle of `periodic_sync`: the zones that are in error after it. -/
def syncCycle (update : ZoneView → Exec (Manager γ) Fault Bool) :
    List ZoneView → Exec (Manager γ) Fault (List ZoneView)
  | [] => pure []
  | zone :: zones => do
    let success ← Exec.catching (fun _ => true) (update zone) (pure false)
    let zonesInError ← syncCycle update zones
    pure (if success then zonesInError else zone :: zonesInError)

/--
`periodic_sync` of the leader, by the cycles that are left. Without any, `zones_in_error` is
read before it is assigned.
-/
def periodicSync (svc : ZoneView → Service γ)
    (update : Nat → ZoneView → Exec (Manager γ) Fault Bool) :
    Nat → List ZoneView → Exec (Manager γ) Fault Unit
  | 0, _ => Exec.raise (.other "UnboundLocalError")
  | cycles + 1, zones => do
    let zonesInError ← syncCycle (update cycles) zones
    if zonesInError = [] then pure ()
    else if cycles = 0 then
      Exec.forEach (fun zone => tell (svc zone) ⟨zone.id, .ERROR, zone.serial⟩) zonesInError
    else periodicSync svc update cycles zonesInError

end

inductive Happening where
  /-- A zone is deleted, or one of the other parties does something. -/
  | other (happening : Deletion.Happening)
  /-- The pool manager creates a zone, again where it recovers a failed one. -/
  | create (zone : ZoneView) (attempts : String → Nat → Bool)
  | update (zone : ZoneView) (succeeds : String → Bool)
  /-- The leader updates the zones that are not in error. -/
  | sync (cycles : Nat) (zones : List ZoneView) (succeeds : Nat → ZoneView → String → Bool)

variable (S : Setup)

/-- One thing happens. -/
def happen : Happening → State → State
  | .other happening, m => Deletion.happen S happening m
  | .create zone attempts, m =>
    (createZone (manager S zone) pollForSerialNumber S.maxRetries attempts zone m).2
  | .update zone succeeds, m =>
    (updateZone (manager S zone) pollForSerialNumber succeeds zone m).2
  | .sync cycles zones succeeds, m =>
    (periodicSync (manager S)
      (fun cycle zone =>
        updateZone (manager S zone) pollForSerialNumber (succeeds cycle zone) zone) cycles zones m).2

end Publication

end Designate
