import Designate.Run
import Mathlib.Algebra.Order.Ring.Unbundled.Rat
import Mathlib.Logic.Function.Basic

/-!
# The rate limit on NOTIFYs

An agent takes a NOTIFY up when the lock of its zone is free, or has been taken longer than the
delay ago. The handler sleeps for the delay before it gives the lock back and hands the NOTIFY
on. It may sleep on for a while; meanwhile any number of further requests come in.

The NOTIFYs that were taken up are kept in order, and so are those that were handed on.
-/

namespace Designate

namespace LimitNotify

inductive Opcode where
  | NOTIFY
  | other (n : Nat)
  deriving DecidableEq, Repr

structure Request where
  opcode : Opcode
  zoneName : String
  deriving DecidableEq, Repr

structure ZoneLock where
  data : String → Option ℚ
  delay : ℚ

namespace ZoneLock

/-- `acquire`, at this time. -/
def acquire (lock : ZoneLock) (zone : String) (now : ℚ) : Bool × ZoneLock :=
  match lock.data zone with
  | none => (true, { lock with data := Function.update lock.data zone (some now) })
  | some locktime =>
    let period := now - locktime
    if lock.delay < period then
      (true, { lock with data := Function.update lock.data zone (some now) })
    else (false, lock)

/-- `release`, of whoever has the lock. -/
def release (lock : ZoneLock) (zone : String) : ZoneLock :=
  { lock with data := Function.update lock.data zone none }

end ZoneLock

/-- A handler that has got the lock of its zone. -/
structure Handler where
  zoneName : String
  acquired : ℚ
  deriving DecidableEq, Repr

structure State where
  clock : ℚ
  locker : ZoneLock
  asleep : List Handler
  /-- The NOTIFYs taken up so far. -/
  accepted : List Handler
  /-- The NOTIFYs handed on to the application so far. -/
  passedOn : List Handler
  /-- The requests answered without it. -/
  refused : List Request

def start (delay clock : ℚ) : State :=
  { clock, locker := ⟨fun _ => none, delay⟩, asleep := [], accepted := [], passedOn := [],
    refused := [] }

inductive Event where
  | arrive (request : Request) (now : ℚ)
  /-- A handler wakes up, if it has slept for as long as it has to. -/
  | wake (n : Nat) (now : ℚ)

/-- `process_request`, up to where it sleeps. -/
def processRequest (request : Request) (now : ℚ) (s : State) : State :=
  if request.opcode = .NOTIFY then
    match s.locker.acquire request.zoneName now with
    | (true, locker) =>
      { s with
        clock := now, locker
        asleep := s.asleep ++ [⟨request.zoneName, now⟩]
        accepted := s.accepted ++ [⟨request.zoneName, now⟩] }
    -- thrown away, with an authoritative answer
    | (false, locker) => { s with clock := now, locker, refused := s.refused ++ [request] }
  else { s with clock := now }

/-- One thing happens, unless it would have to happen earlier than it can. -/
def step : Event → State → State
  | .arrive request now, s => if s.clock ≤ now then processRequest request now s else s
  | .wake n now, s =>
    match s.asleep[n]? with
    | none => s
    | some handler =>
      if s.clock ≤ now ∧ handler.acquired + s.locker.delay ≤ now then
        { s with
          clock := now
          -- whoever has the lock by now, it is gone
          locker := s.locker.release handler.zoneName
          asleep := s.asleep.eraseIdx n
          passedOn := s.passedOn ++ [handler] }
      else s

end LimitNotify

end Designate
