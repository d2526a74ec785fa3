import Designate.Heap

/-!
# Retried transactions

A function of the storage or of the central service that is wrapped by `transaction` runs inside
a transaction, and the outermost such function of a thread is run anew when a deadlock ends it.
What it is given are copies of its arguments, made anew for each attempt. Functions that are
wrapped call each other; which attempt ends how is not up to the wrappers, so a function is a
tree of what its attempts do: things done to what they hold, and calls of other wrapped
functions.

The log is kept for what is said about a run.
-/

namespace Designate

namespace Retry

open Heap

/-- The default of `retry`, which `transaction` leaves as it is. -/
def defaultRetries : Nat := 50

/-- `copy.deepcopy`, of all arguments. A copy is in cells of its own. -/
structure Copier (γ ε : Type) where
  refs : γ → List Nat
  deepcopy : List γ → List Nat → Except ε (List γ × List Nat)
  grows : ∀ {h args h' given}, deepcopy h args = .ok (h', given) → h <+: h'
  fresh : ∀ {h args h' given}, deepcopy h args = .ok (h', given) → ∀ a ∈ given, h.length ≤ a
  closed : ∀ {h args h' given}, deepcopy h args = .ok (h', given) → Sealed refs h.length h'

/-- What happens, in its order. -/
inductive Event (γ : Type) where
  /-- A wrapped function is called, with arguments in a heap. -/
  | enter (args : List Nat) (heap : List γ)
  /-- It is run with copies, which are in this heap. -/
  | attempt (given : List Nat) (heap : List γ)
  | uncopied (deadlock : Bool)
  | failed (deadlock : Bool)
  | returned
  | leave
  | begin
  | commit
  | rollback

/-- The attributes of `RETRY_STATE`, once they are there, the heap, and the log. -/
structure Thread (γ : Type) where
  retryState : Option (Bool × Nat) := none
  heap : List γ := []
  log : List (Event γ) := []

/-- What the calls of the storage raise around one run of a function, if they do. -/
structure Storage (ε : Type) where
  begin : Option ε := none
  commit : Option ε := none
  rollback : Option ε := none

variable {γ ε : Type}

namespace Thread

def note (s : Thread γ) (event : Event γ) : Thread γ :=
  { s with log := s.log ++ [event] }

/-- The attributes, which a thread that has none yet creates. -/
def state (s : Thread γ) : Bool × Nat :=
  s.retryState.getD (false, 0)

def setState (s : Thread γ) (held : Bool) (retries : Nat) : Thread γ :=
  { s with retryState := some (held, retries) }

@[simp] theorem setState_state (s : Thread γ) (held : Bool) (retries : Nat) :
    (s.setState held retries).state = (held, retries) := rfl

@[simp] theorem setState_heap (s : Thread γ) (held : Bool) (retries : Nat) :
    (s.setState held retries).heap = s.heap := rfl

@[simp] theorem setState_log (s : Thread γ) (held : Bool) (retries : Nat) :
    (s.setState held retries).log = s.log := rfl

@[simp] theorem note_state (s : Thread γ) (event : Event γ) : (s.note event).state = s.state := rfl

@[simp] theorem note_heap (s : Thread γ) (event : Event γ) : (s.note event).heap = s.heap := rfl

@[simp] theorem note_log (s : Thread γ) (event : Event γ) :
    (s.note event).log = s.log ++ [event] := rfl

end Thread

/-- What a call comes to: the addresses it returns or what it raises. `none` is out of fuel. -/
abbrev Outcome (γ ε : Type) : Type := Option (Except ε (List Nat) × Thread γ)

/-- One run of a function with copies of its arguments. -/
def attempt (C : Copier γ ε) (retryOnDeadlock : ε → Bool)
    (f : List Nat → Thread γ → Outcome γ ε) (args : List Nat) (s : Thread γ) : Outcome γ ε :=
  match C.deepcopy s.heap args with
  | .error e => some (.error e, s.note (.uncopied (retryOnDeadlock e)))
  | .ok (heap, given) =>
    match f given { s.note (.attempt given heap) with heap } with
    | none => none
    | some (.ok returned, s) => some (.ok returned, s.note .returned)
    | some (.error e, s) => some (.error e, s.note (.failed (retryOnDeadlock e)))

/-- The loop of `retry_wrapper`. -/
def retryLoop (C : Copier γ ε) (retryOnDeadlock : ε → Bool) (retries : Nat)
    (f : Nat → List Nat → Thread γ → Outcome γ ε) (args : List Nat) :
    Nat → Nat → Thread γ → Outcome γ ε
  | 0, _, _ => none
  | fuel + 1, k, s =>
    match attempt C retryOnDeadlock (f k) args s with
    | none => none
    | some (.ok returned, s) => some (.ok returned, s)
    | some (.error e, s) =>
      let s := s.setState s.state.1 (s.state.2 + 1)
      if s.state.2 ≥ retries then some (.error e, s)
      else if retryOnDeadlock e = false then some (.error e, s)
      else retryLoop C retryOnDeadlock retries f args fuel (k + 1) s

/-- `retry_wrapper`. -/
def retryWrapper (C : Copier γ ε) (retryOnDeadlock : ε → Bool) (retries fuel : Nat)
    (f : Nat → List Nat → Thread γ → Outcome γ ε) (args : List Nat) (s : Thread γ) :
    Outcome γ ε :=
  let s := s.setState s.state.1 s.state.2
  if !s.state.1 then
    match retryLoop C retryOnDeadlock retries f args fuel 0 (s.setState true s.state.2) with
    | none => none
    | some (result, s) => some (result, s.setState false 0)
  else attempt C retryOnDeadlock (f 0) args s

/-- `transaction_wrapper`. -/
def transactionWrapper (storage : Storage ε) (f : List Nat → Thread γ → Outcome γ ε)
    (args : List Nat) (s : Thread γ) : Outcome γ ε :=
  match storage.begin with
  | some e => some (.error e, s)
  | none =>
    match f args (s.note .begin) with
    | none => none
    | some (.ok returned, s) =>
      match storage.commit with
      | none => some (.ok returned, s.note .commit)
      | some e => some (.error (storage.rollback.getD e), s.note .rollback)
    | some (.error e, s) => some (.error (storage.rollback.getD e), s.note .rollback)

/-- Something done to the heap by one who holds some addresses. -/
structure Act (refs : γ → List Nat) where
  run : Held γ → Held γ
  steps : ∀ s, Evolves refs s (run s)

/--
What the body of a function does. Arguments and results are positions in what it holds. A
wrapped function that it calls has a body for each attempt, and what its storage raises.
-/
inductive Body (refs : γ → List Nat) (ε : Type) where
  | done (result : Except ε (List Nat))
  | act (a : Act refs) (next : Held γ → Body refs ε)
  | call (args : List Nat) (storage : Nat → Storage ε) (body : Nat → Body refs ε)
      (next : Option ε → Body refs ε)

/-- The addresses at some positions. -/
def held (known positions : List Nat) : List Nat :=
  positions.filterMap (known[·]?)

/-- The function runs. -/
def Body.run (C : Copier γ ε) (retryOnDeadlock : ε → Bool) (fuel : Nat) :
    Body C.refs ε → List Nat → Thread γ → Outcome γ ε
  | .done result, known, s => some (result.map (held known), s)
  | .act a next, known, s =>
    let t := a.run (s.heap, known)
    (next t).run C retryOnDeadlock fuel t.2 { s with heap := t.1 }
  | .call args storage body next, known, s =>
    match retryWrapper C retryOnDeadlock defaultRetries fuel
        (fun k => transactionWrapper (storage k) ((body k).run C retryOnDeadlock fuel))
        (held known args) (s.note (.enter (held known args) s.heap)) with
    | none => none
    | some (.ok returned, s) =>
      (next none).run C retryOnDeadlock fuel (returned ++ known) (s.note .leave)
    | some (.error e, s) => (next (some e)).run C retryOnDeadlock fuel known (s.note .leave)

end Retry

end Designate
