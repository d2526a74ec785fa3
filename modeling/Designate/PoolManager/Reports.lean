import Designate.PoolManager.Consensus
import Designate.Run
import Mathlib.Logic.Function.Basic

/-!
# Reports to the pool manager

The mini DNS reports what a nameserver serves of a zone, and the pool manager handles the
reports of a zone one at a time: it keeps the news in its cache, asks the mini DNS about the
nameservers of which nothing is kept, and tells central what has succeeded. The cache gives
back what was last stored under a nameserver, a zone and an action, until that is cleared or
expires. The mini DNS and central may answer, or fail, as they like.

What the pool manager comes to know, what it clears and what it tells is written down in order.
-/

namespace Designate

namespace PoolManager

/-- What a status is kept under. -/
structure Key where
  nameserverId : String
  zoneId : String
  action : Action
  deriving DecidableEq, Repr

/-- What is kept of a status. -/
structure Entry where
  status : Option Status
  serialNumber : Nat
  deriving DecidableEq, Repr

abbrev Kept : Type := Key → Option Entry

def PoolManagerStatus.key (o : PoolManagerStatus) : Key := ⟨o.nameserverId, o.zoneId, o.action⟩

def PoolManagerStatus.entry (o : PoolManagerStatus) : Entry := ⟨o.status, o.serialNumber⟩

/-- The object the cache makes of an entry. -/
def Entry.load (e : Entry) (key : Key) : PoolManagerStatus :=
  { nameserverId := key.nameserverId, zoneId := key.zoneId, status := e.status,
    serialNumber := e.serialNumber, action := key.action }

/-- What a nameserver was seen to serve of a zone. -/
structure Report where
  zone : ZoneView
  nameserver : Nameserver
  status : Status
  actualSerial : Option Nat
  deriving DecidableEq, Repr

/-- Where a report is kept, and where an answer is looked for before it is asked for. -/
def Report.key (r : Report) : Key := ⟨r.nameserver.id, r.zone.id, actionOf r.zone⟩

/-- The status object of an answer, in which a zone that an update misses is one to create. -/
def Report.object (r : Report) : PoolManagerStatus :=
  answered (buildStatusObject r.nameserver r.zone (actionOf r.zone)) r.status r.actualSerial

/-- Where an answer is kept. -/
def Report.answerKey (r : Report) : Key := r.object.key

inductive Event where
  | reported (report : Report)
  | answered (answer : Report)
  | cleared (key : Key)
  | told (zone : ZoneView) (m : Message)
  deriving DecidableEq, Repr

/-- The mini DNS and central, with whatever there is behind them. -/
structure Parties (ε : Type) where
  getSerialNumber : ZoneView → Nameserver → Exec ε Fault (Status × Option Nat)
  updateStatus : Message → Exec ε Fault Unit

/-- What is outside of a pool manager. -/
structure Outside (ε : Type) where
  kept : Kept
  log : List Event
  rest : ε

variable {ε : Type}

namespace Outside

/-- `retrieve` of the cache. -/
def retrieve (nameserverId zoneId : String) (action : Action) :
    Exec (Outside ε) Fault PoolManagerStatus :=
  Exec.read fun w =>
    match w.kept ⟨nameserverId, zoneId, action⟩ with
    | some e => .ok (e.load ⟨nameserverId, zoneId, action⟩)
    | none => .error .PoolManagerStatusNotFound

/-- `store` of the cache, which leaves the object as it is. -/
def store (o : PoolManagerStatus) : Exec (Outside ε) Fault PoolManagerStatus := fun w =>
  (.ok o, { w with kept := Function.update w.kept o.key (some o.entry) })

/-- What is kept under a key goes. -/
def without (w : Outside ε) (key : Key) : Outside ε :=
  { w with kept := Function.update w.kept key none, log := w.log ++ [.cleared key] }

/-- `clear` of the cache. -/
def clear (o : PoolManagerStatus) : Exec (Outside ε) Fault Unit := Exec.modify (·.without o.key)

/-- A poll through the mini DNS, of which the answer is written down. -/
def poll (P : Parties ε) (zone : ZoneView) (nameserver : Nameserver) :
    Exec (Outside ε) Fault (Status × Option Nat) := fun w =>
  match P.getSerialNumber zone nameserver w.rest with
  | (.ok (status, actualSerial), rest) =>
    (.ok (status, actualSerial),
      { w with log := w.log ++ [.answered ⟨zone, nameserver, status, actualSerial⟩], rest })
  | (.error e, rest) => (.error e, { w with rest })

/-- A message to central, which is written down as it is sent. -/
def send (P : Parties ε) (zone : ZoneView) (m : Message) : Exec (Outside ε) Fault Unit := fun w =>
  ((P.updateStatus m w.rest).1,
    { w with log := w.log ++ [.told zone m], rest := (P.updateStatus m w.rest).2 })

end Outside

section

variable (pool : Pool) (threshold : Nat) (P : Parties ε)

/-- The pool manager while it handles a report of this zone. -/
def service (zone : ZoneView) : Service (Outside ε) where
  pool := pool
  threshold := threshold
  retrieve := Outside.retrieve
  store := Outside.store
  clear := Outside.clear
  getSerialNumber := Outside.poll P
  updateStatus := Outside.send P zone

/-- A report is handled. -/
def handle (r : Report) : Exec (Manager (Outside ε)) Fault Unit := do
  call (Exec.modify fun w => { w with log := w.log ++ [.reported r] })
  updateStatus (service pool threshold P r.zone) r.zone r.nameserver r.status r.actualSerial

/-- A report comes in, or an entry of the cache has grown too old. -/
inductive Arrival where
  | report (r : Report)
  | expiry (key : Key)
  deriving DecidableEq, Repr

/-- An exception ends the handling of its report, and nothing else. -/
def arrive : Arrival → Manager (Outside ε) → Manager (Outside ε)
  | .report r, w => (handle pool threshold P r w).2
  | .expiry key, w => { w with outside := w.outside.without key }

end

/-! ## What the log tells -/

/-- The serial that is kept under a key. -/
def Kept.serial (kept : Kept) (key : Key) : Option Nat := (kept key).map Entry.serialNumber

namespace Event

/-- The serial that an event has to tell for a key. -/
def serial (key : Key) : Event → Option Nat
  | .reported r => if r.key = key then some (r.actualSerial.getD 0) else none
  | .answered r => if r.answerKey = key then some (r.actualSerial.getD 0) else none
  | _ => none

/-- The entry is cleared, or made anew by an answer that was asked for under another key. -/
def restarts (key : Key) : Event → Bool
  | .cleared k => k == key
  | .answered r => r.answerKey == key && r.key != key
  | _ => false

/--
An entry of the zone and action starts anew, or an answer with a serial counts for them
without being kept.
-/
def breaks (zoneId : String) (action : Action) : Event → Bool
  | .cleared k => k.zoneId == zoneId && k.action == action
  | .answered r =>
    r.zone.id == zoneId && r.answerKey != r.key &&
      (r.answerKey.action == action || r.key.action == action && r.actualSerial.getD 0 != 0)
  | _ => false

/-- The serial of a message of success for the zone and action. -/
def success (zoneId : String) (action : Action) : Event → Option Nat
  | .told zone m =>
    if zone.id = zoneId ∧ actionOf zone = action ∧ m.status = .SUCCESS then some m.serial else none
  | _ => none

end Event

/-- The serials of the messages of success for a zone and action, up to the first break. -/
def successes (zoneId : String) (action : Action) (events : List Event) : List Nat :=
  (events.takeWhile fun e => !e.breaks zoneId action).filterMap (Event.success zoneId action)

end PoolManager

end Designate
