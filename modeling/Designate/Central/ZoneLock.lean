import Mathlib.Data.Finset.Basic
import Mathlib.Data.List.Infix

/-!
# The zone lock

`synchronized_zone` lets a call for a zone run under the lock of that zone. The zones
a thread is at work on are in a set of its own, `ZONE_LOCKS.held`: a call for one of
them runs without the lock, since an outer call of the thread has it. A zone is put
into the set when its lock is taken, and is taken out again when the call returns. A
call that raises gives the lock back and leaves the set alone.
-/

namespace Designate

namespace ZoneLock

/--
The decorated calls a thread makes, in order: each with its zone, the decorated calls
its body makes, and whether it ends by raising. A body may go on after a nested call
has raised.
-/
inductive Calls (ζ : Type) where
  | nil
  | call (zone : ζ) (body : Calls ζ) (raises : Bool) (next : Calls ζ)

/-- What a thread does to the locks, and which bodies it is in. -/
inductive Event (ζ : Type) where
  | acquire (zone : ζ)
  | release (zone : ζ)
  | enter (zone : ζ)
  | leave (zone : ζ)
  deriving DecidableEq

variable {ζ : Type} [DecidableEq ζ]

/-- `sync_wrapper`: the events of the calls, and what is in the held set after them. -/
def Calls.run : Calls ζ → Finset ζ → List (Event ζ) × Finset ζ
  | .nil, held => ([], held)
  | .call zone body raises next, held =>
    if zone ∈ held then
      let (inner, held) := body.run held
      let (rest, held) := next.run held
      (.enter zone :: (inner ++ .leave zone :: rest), held)
    else
      let (inner, held) := body.run (insert zone held)
      -- the zone is only taken out again behind a call that returns
      let held := if raises then held else held.erase zone
      let (rest, held) := next.run held
      (.acquire zone :: .enter zone :: (inner ++ .leave zone :: .release zone :: rest), held)

/-- The thread has the lock of the zone. -/
def Holds (zone : ζ) (events : List (Event ζ)) : Prop :=
  events.count (.release zone) < events.count (.acquire zone)

/-- The thread is in the body of a call for the zone. -/
def Inside (zone : ζ) (events : List (Event ζ)) : Prop :=
  events.count (.leave zone) < events.count (.enter zone)

/-- No call that takes its lock raises. -/
def Calls.Clean : Calls ζ → Finset ζ → Prop
  | .nil, _ => True
  | .call zone body raises next, held =>
    (if zone ∈ held then body.Clean held else raises = false ∧ body.Clean (insert zone held)) ∧
      next.Clean held

/--
The discipline the lock is there for, for the calls of a thread that is at work on the
zones `held` already: the set is left as it was found; whoever is inside a body for
another zone has its lock; so two threads are never inside bodies for one zone, when a
lock has one holder at a time.
-/
structure Disciplined (calls : Calls ζ) (held : Finset ζ) : Prop where
  restored : (calls.run held).2 = held
  locked : ∀ p, p <+: (calls.run held).1 → ∀ zone ∉ held, Inside zone p → Holds zone p
  apart : ∀ other : Calls ζ, other.Clean ∅ →
    ∀ p q, p <+: (calls.run held).1 → q <+: (other.run ∅).1 →
      (∀ zone, ¬ (Holds zone p ∧ Holds zone q)) →
      ∀ zone ∉ held, ¬ (Inside zone p ∧ Inside zone q)

end ZoneLock

end Designate
