import Designate.Exec

/-!
# Notifications of the calls a thread makes

`notification` wraps a function of central. All calls of a thread share one buffer, a
counter of the calls under way and a queue: a call that returns puts what the plugin
makes of its result into the queue, and the call that finds no other under way when it
ends, however it ends, hands the queue to the notifier. A function that carries the
decorator twice is one decorated call inside another.
-/

namespace Designate

namespace Notification

/-- What the notifier is given: the context of a call, the type its decorator names, a payload. -/
structure Notice (κ π : Type) where
  context : Option κ
  type : String
  payload : π
  deriving DecidableEq, Repr

/-- `NOTIFICATION_BUFFER`, once it has its attributes; the head of the queue is its left end. -/
structure Buffer (κ π : Type) where
  stack : Nat
  queue : List (Notice κ π)
  deriving DecidableEq, Repr

/-- A thread: its buffer, if a call has made one, and all that the notifier has got from it. -/
structure Thread (κ π : Type) where
  buffer : Option (Buffer κ π) := none
  sent : List (Notice κ π) := []
  deriving DecidableEq, Repr

variable {κ π ε α : Type}

/-- `hasattr(NOTIFICATION_BUFFER, 'queue')`, and the attributes where there are none. -/
def Thread.loaded (s : Thread κ π) : Buffer κ π := s.buffer.getD ⟨0, []⟩

/-- A call begins. -/
def Thread.enter (s : Thread κ π) : Thread κ π :=
  { s with buffer := some { s.loaded with stack := s.loaded.stack + 1 } }

/-- The loop of `appendleft` over the payloads of a call. -/
def Thread.enqueue (context : Option κ) (type : String) (payloads : List π) (s : Thread κ π) :
    Thread κ π :=
  { s with buffer := some { s.loaded with
      queue := payloads.foldl (fun queue payload => ⟨context, type, payload⟩ :: queue) s.loaded.queue } }

/-- The `finally` block: the outermost call sends the queue from its left end on and clears it. -/
def Thread.leave (s : Thread κ π) : Thread κ π :=
  let stack := s.loaded.stack - 1
  if stack = 0 then { buffer := some ⟨stack, []⟩, sent := s.sent ++ s.loaded.queue }
  else { s with buffer := some { s.loaded with stack := stack } }

/--
`notification_wrapper` around the function `f`, which is called in the context
`context`; `emit` is the plugin. Neither the plugin nor the notifier raises.
-/
def notification (type : String) (context : Option κ) (emit : α → List π)
    (f : Exec (Thread κ π) ε α) : Exec (Thread κ π) ε α := fun s =>
  let attempt : Exec (Thread κ π) ε α := do
    Exec.modify Thread.enter
    let result ← f
    Exec.modify (Thread.enqueue context type (emit result))
    pure result
  ((attempt s).1, (attempt s).2.leave)

/-! ## Trees of calls -/

/--
The decorated calls a function makes, in order: each with the decorator's type and the
context, the decorated calls its own body makes, and how the body ends, by raising or with
a result of which the plugin makes payloads. A body may go on after a nested call has
raised, or raise in its turn.
-/
inductive Calls (κ π : Type) where
  | nil
  | call (type : String) (context : Option κ) (body : Calls κ π) (result : Option (List π))
    (next : Calls κ π)

/-- The body of a call behind the calls it makes. -/
def finish (result : Option (List π)) : Exec (Thread κ π) Unit (List π) :=
  match result with
  | some payloads => pure payloads
  | none => Exec.raise ()

/-- Make the calls. What one of them raises, the function around them has dealt with. -/
def Calls.run : Calls κ π → Thread κ π → Thread κ π
  | .nil, s => s
  | .call type context body result next, s =>
    let f : Exec (Thread κ π) Unit (List π) := do
      Exec.modify body.run
      finish result
    next.run (notification type context id f s).2

/-- The notices of the calls that return, in the order in which these calls are completed. -/
def Calls.completed : Calls κ π → List (Notice κ π)
  | .nil => []
  | .call type context body result next =>
    body.completed ++ ((result.getD []).map fun payload => ⟨context, type, payload⟩) ++
      next.completed

end Notification

end Designate
