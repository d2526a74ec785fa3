import Designate.Exec
import Designate.Objects
import Designate.Quorum
import Mathlib.Data.Rat.Defs
import Mathlib.Algebra.Order.Ring.Unbundled.Rat

/-!
# The pool manager's consensus

A pool manager keeps, for each zone and action, what every nameserver of its pool has last
been seen to serve. A nameserver of which nothing is kept is asked through the mini DNS;
one that cannot be asked is left out. The consensus serial is the highest that enough of
the nameservers have reached, and it is what central is told to have succeeded.
-/

namespace Designate

namespace PoolManager

/-- What ends a call to the cache, the mini DNS or central. -/
inductive Fault where
  | PoolManagerStatusNotFound
  | MessagingException
  | other (name : String)
  deriving DecidableEq, Repr

/-- A row of `pool_nameservers`. -/
structure Nameserver where
  id : String
  host : String
  port : Nat
  deriving DecidableEq, Repr

/-- The pool of a pool manager, which does not start as long as the pool has no targets. -/
structure Pool where
  targets : List String
  nameservers : List Nameserver
  targets_ne : targets ≠ []

/--
The fields of a zone the pool manager reads. The status is central's, and decides whether a
success is news.
-/
structure ZoneView where
  id : String
  serial : Nat
  action : Action
  status : Status
  deriving DecidableEq, Repr

/--
`PoolManagerStatus`; it has an identifier once a driver that gives one has stored it. A status of
`none` is one that has been built and has not been heard of.
-/
structure PoolManagerStatus where
  id : Option String := none
  nameserverId : String
  zoneId : String
  status : Option Status
  serialNumber : Nat
  action : Action
  deriving DecidableEq, Repr

/-- A call of central's `update_status`. -/
structure Message where
  zoneId : String
  status : Status
  serial : Nat
  deriving DecidableEq, Repr

/-- The world around a pool manager, and the messages it has sent to central. -/
structure Manager (γ : Type) where
  outside : γ
  told : List Message

/-- A pool manager: its pool, its threshold, and the parties it calls. -/
structure Service (γ : Type) where
  pool : Pool
  threshold : Nat
  retrieve : String → String → Action → Exec γ Fault PoolManagerStatus
  store : PoolManagerStatus → Exec γ Fault PoolManagerStatus
  clear : PoolManagerStatus → Exec γ Fault Unit
  getSerialNumber : ZoneView → Nameserver → Exec γ Fault (Status × Option Nat)
  updateStatus : Message → Exec γ Fault Unit

variable {γ α : Type}

/-- A call to one of the other parties. -/
def call (m : Exec γ Fault α) : Exec (Manager γ) Fault α := fun w =>
  ((m w.outside).1, { w with outside := (m w.outside).2 })

/--
`central_api.update_status`. The message counts as told even if the call that carries it gets
lost.
-/
def tell (svc : Service γ) (m : Message) : Exec (Manager γ) Fault Unit := do
  Exec.modify fun w => { w with told := w.told ++ [m] }
  call (svc.updateStatus m)

/-- `UPDATE_ACTION if zone.action == 'NONE' else zone.action`. -/
def actionOf (zone : ZoneView) : Action := if zone.action = .NONE then .UPDATE else zone.action

/-- `MAXIMUM_THRESHOLD`. -/
def maximumThreshold : Nat := 100

/--
`_percentage`. A `Decimal` has 28 digits: below 10^25 servers its quotient lies on the same
side of every whole percentage as the exact one.
-/
def percentage (count totalCount : Nat) : ℚ := (count : ℚ) / totalCount * 100

/--
A count is at least `threshold` percent of the total. The total is the number of targets of the
pool, not of its nameservers.
-/
def meets (threshold count totalCount : Nat) : Bool :=
  decide ((threshold : ℚ) ≤ percentage count totalCount)

/-- `_exceed_or_meet_threshold`: a threshold of zero stands for none, as `or` has it. -/
def exceedOrMeetThreshold (svc : Service γ) (count : Nat) (threshold : Option Nat) : Bool :=
  let threshold := match threshold with
    | some (n + 1) => n + 1
    | _ => svc.threshold
  meets threshold count svc.pool.targets.length

/--
`_build_status_object`. It stands for a nameserver of which nothing is known, at the serial 0.
-/
def buildStatusObject (nameserver : Nameserver) (zone : ZoneView) (action : Action) :
    PoolManagerStatus :=
  { nameserverId := nameserver.id, zoneId := zone.id, status := none, serialNumber := 0,
    action := action }

/--
The fields `_retrieve_from_mdns` sets from an answer. That there is no zone is an error for a
CREATE and a success for a DELETE; for an UPDATE the action becomes CREATE, so that it is kept
under another key than it was asked for.
-/
def answered (built : PoolManagerStatus) (status : Status) (actualSerial : Option Nat) :
    PoolManagerStatus :=
  let marked : PoolManagerStatus :=
    if status = .NO_ZONE then
      match built.action with
      | .CREATE => { built with status := some .ERROR }
      | .DELETE => { built with status := some .SUCCESS }
      | .UPDATE => { built with action := .CREATE, status := some .ERROR }
      | .NONE => built
    else { built with status := some status }
  { marked with serialNumber := actualSerial.getD 0 }

/-- `_retrieve_from_mdns`: a call that gets lost gives no status. -/
def retrieveFromMdns (svc : Service γ) (nameserver : Nameserver) (zone : ZoneView)
    (action : Action) : Exec (Manager γ) Fault (Option PoolManagerStatus) := do
  let answer ← Exec.catching (· == .MessagingException)
    (do
      let answer ← call (svc.getSerialNumber zone nameserver)
      pure (some answer))
    (pure none)
  match answer with
  | none => pure none
  | some (status, actualSerial) =>
    let stored ← call (svc.store
      (answered (buildStatusObject nameserver zone action) status actualSerial))
    pure (some stored)

/-- One round of `_retrieve_statuses`: what is kept, or else what the nameserver answers. -/
def retrieveStatus (svc : Service γ) (zone : ZoneView) (action : Action)
    (nameserver : Nameserver) : Exec (Manager γ) Fault (Option PoolManagerStatus) :=
  Exec.catching (· == .PoolManagerStatusNotFound)
    (do
      let kept ← call (svc.retrieve nameserver.id zone.id action)
      pure (some kept))
    (retrieveFromMdns svc nameserver zone action)

/--
The loop of `_retrieve_statuses`. A nameserver that gives no status is left out, and the total
stays as it is.
-/
def retrieveStatusesOf (svc : Service γ) (zone : ZoneView) (action : Action) :
    List Nameserver → Exec (Manager γ) Fault (List PoolManagerStatus)
  | [] => pure []
  | nameserver :: nameservers => do
    let status ← retrieveStatus svc zone action nameserver
    let statuses ← retrieveStatusesOf svc zone action nameservers
    pure (status.toList ++ statuses)

/-- `_retrieve_statuses`. -/
def retrieveStatuses (svc : Service γ) (zone : ZoneView) (action : Action) :
    Exec (Manager γ) Fault (List PoolManagerStatus) :=
  retrieveStatusesOf svc zone action svc.pool.nameservers

/-- The serial numbers of statuses. -/
def serials (statuses : List PoolManagerStatus) : List Nat := statuses.map (·.serialNumber)

/--
The search of `_get_consensus_serial` among the statuses. Zero, where no serial has enough behind
it.
-/
def consensusSerial (svc : Service γ) (statuses : List PoolManagerStatus) : Nat :=
  (Quorum.search (fun count => exceedOrMeetThreshold svc count (some svc.threshold))
    (serials statuses)).getD 0

/-- `_get_consensus_serial`. -/
def getConsensusSerial (svc : Service γ) (zone : ZoneView) : Exec (Manager γ) Fault Nat := do
  let statuses ← retrieveStatuses svc zone (actionOf zone)
  pure (consensusSerial svc statuses)

/-- `_is_consensus`. A threshold of its own is only given to ask for all of them. -/
def isConsensus (svc : Service γ) (zone : ZoneView) (action : Action) (status : Status)
    (threshold : Option Nat) : Exec (Manager γ) Fault Bool := do
  let statuses ← retrieveStatuses svc zone action
  let count := statuses.countP fun s => s.status == some status
  pure (exceedOrMeetThreshold svc count (some (threshold.getD svc.threshold)))

/-- `_get_error_serial`: the lowest serial above the consensus one, when `ERROR` is agreed on. -/
def getErrorSerial (svc : Service γ) (zone : ZoneView) (consensusSerial : Nat) :
    Exec (Manager γ) Fault Nat := do
  let agreed ← isConsensus svc zone (actionOf zone) .ERROR none
  if agreed then
    let statuses ← retrieveStatuses svc zone (actionOf zone)
    let ascending := (serials statuses).mergeSort fun a b => decide (a ≤ b)
    pure ((ascending.find? fun serial => decide (consensusSerial < serial)).getD 0)
  else pure 0

/-- `_clear_cache` with an action: what is not found is cleared already. -/
def clearCache (svc : Service γ) (zone : ZoneView) (action : Action) :
    Exec (Manager γ) Fault Unit :=
  Exec.forEach
    (fun nameserver => Exec.catching (· == .PoolManagerStatusNotFound)
      (call (svc.clear (buildStatusObject nameserver zone action))) (pure ()))
    svc.pool.nameservers

/--
The first half of `update_status`: keep the news, unless what is kept is of a later serial. A
serial of 0 or none is no news. What is answered is the serial that was kept before, which is
what the news is measured against.
-/
def recordStatus (svc : Service γ) (zone : ZoneView) (nameserver : Nameserver)
    (status : Status) (actualSerial : Option Nat) : Exec (Manager γ) Fault Nat := do
  let current ← Exec.catching (· == .PoolManagerStatusNotFound)
    (call (svc.retrieve nameserver.id zone.id (actionOf zone)))
    (call (svc.store (buildStatusObject nameserver zone (actionOf zone))))
  let cacheSerial := current.serialNumber
  match actualSerial with
  | some (n + 1) =>
    if cacheSerial ≤ n + 1 then
      let _ ← call (svc.store { current with status := some status, serialNumber := n + 1 })
      pure cacheSerial
    else pure cacheSerial
  | _ => pure cacheSerial

/--
The message of success of `update_status`. Told once the consensus has got at least as far as
what was kept, and not again for a zone that is active already.
-/
def tellSuccess (svc : Service γ) (zone : ZoneView) (cacheSerial consensusSerial : Nat) :
    Exec (Manager γ) Fault Unit :=
  if consensusSerial ≠ 0 ∧ cacheSerial ≤ consensusSerial ∧ zone.status ≠ .ACTIVE then
    tell svc ⟨zone.id, .SUCCESS, consensusSerial⟩
  else pure ()

/--
The messages of failure of `update_status`. What `getErrorSerial` answers is 0 or above the
consensus, so every error gets past the guard.
-/
def tellFailure (svc : Service γ) (zone : ZoneView) (status : Status) (consensusSerial : Nat) :
    Exec (Manager γ) Fault Unit :=
  match status with
  | .ERROR => do
    let errorSerial ← getErrorSerial svc zone consensusSerial
    if consensusSerial < errorSerial ∨ errorSerial = 0 then
      tell svc ⟨zone.id, .ERROR, errorSerial⟩
    else pure ()
  | .NO_ZONE => tell svc ⟨zone.id, .NO_ZONE, 0⟩
  | _ => pure ()

/-- The end of `update_status`: with every nameserver done, there is nothing left to keep. -/
def tidyUp (svc : Service γ) (zone : ZoneView) (consensusSerial : Nat) :
    Exec (Manager γ) Fault Unit :=
  if consensusSerial = zone.serial then do
    let done ← isConsensus svc zone (actionOf zone) .SUCCESS (some maximumThreshold)
    if done then clearCache svc zone (actionOf zone) else pure ()
  else pure ()

/-- `update_status`, called by the mini DNS with what a nameserver serves. -/
def updateStatus (svc : Service γ) (zone : ZoneView) (nameserver : Nameserver)
    (status : Status) (actualSerial : Option Nat) : Exec (Manager γ) Fault Unit := do
  let cacheSerial ← recordStatus svc zone nameserver status actualSerial
  let consensusSerial ← getConsensusSerial svc zone
  tellSuccess svc zone cacheSerial consensusSerial
  tellFailure svc zone status consensusSerial
  tidyUp svc zone consensusSerial

end PoolManager

end Designate
