import Designate.Run

/-!
# Programs that share a machine

A program is a tree of the calls it makes, each of which the machine answers; what the program does
next depends on the answer. Any number of programs may be under way on one machine, and one call is
made at a time. Nobody has to look into the programs for more than which calls they make: what the
machine keeps at every call they may make, it keeps all along every run, whichever is next.
-/

namespace Designate

/-- A program with calls `ι` that are answered by `ρ`; it raises an `ε` or returns an `α`. -/
inductive Calls (ι ρ ε α : Type) where
  | done (a : α)
  | raise (e : ε)
  | call (i : ι) (next : ρ → Calls ι ρ ε α)

namespace Calls

variable {ι ρ ε σ α β : Type}

/-- One program after the other, unless the first one raises. -/
def bind : Calls ι ρ ε α → (α → Calls ι ρ ε β) → Calls ι ρ ε β
  | .done a, f => f a
  | .raise e, _ => .raise e
  | .call i next, f => .call i fun r => (next r).bind f

instance : Monad (Calls ι ρ ε) where
  pure := .done
  bind := Calls.bind

/-- What an answer comes to, raised or returned. -/
def ofExcept : Except ε α → Calls ι ρ ε α
  | .ok a => .done a
  | .error e => .raise e

/-- The program runs on the machine with nobody in between. -/
def run (machine : ι → σ → ρ × σ) : Calls ι ρ ε α → σ → Except ε α × σ
  | .done a, s => (.ok a, s)
  | .raise e, s => (.error e, s)
  | .call i next, s => (next (machine i s).1).run machine (machine i s).2

/-! ## The calls a program may make -/

/-- Whatever it is answered, the program makes only calls of this kind. -/
def Makes (P : ι → Prop) : Calls ι ρ ε α → Prop
  | .done _ => True
  | .raise _ => True
  | .call i next => P i ∧ ∀ r, (next r).Makes P

section

variable {P : ι → Prop}

theorem Makes.pure (a : α) : (Pure.pure a : Calls ι ρ ε α).Makes P := trivial

theorem Makes.raise (e : ε) : (Calls.raise e : Calls ι ρ ε α).Makes P := trivial

theorem Makes.ofExcept (x : Except ε α) : (Calls.ofExcept x : Calls ι ρ ε α).Makes P := by
  cases x <;> trivial

theorem Makes.call {i : ι} {next : ρ → Calls ι ρ ε α} (hi : P i) (hnext : ∀ r, (next r).Makes P) :
    (Calls.call i next).Makes P := ⟨hi, hnext⟩

theorem Makes.bind {p : Calls ι ρ ε α} {f : α → Calls ι ρ ε β} (hp : p.Makes P)
    (hf : ∀ a, (f a).Makes P) : (p >>= f).Makes P := by
  induction p with
  | done a => exact hf a
  | raise e => trivial
  | call i next ih => exact ⟨hp.1, fun r => ih r (hp.2 r)⟩

end

end Calls

/-! ## Many programs at once -/

/-- What comes next: an operation is started, or the `n`th program makes its next call. -/
inductive Sessions.Move (ω : Type) where
  | start (op : ω)
  | go (n : Nat)

/-- The machine, and what is left of the programs that have been started. -/
structure Sessions (σ ι ρ ε α : Type) where
  state : σ
  underWay : List (Calls ι ρ ε α)

namespace Sessions

variable {σ ω ι ρ ε α : Type} (program : ω → Calls ι ρ ε α) (machine : ι → σ → ρ × σ)

/-- The call that is made in a move. -/
def callOf (s : Sessions σ ι ρ ε α) : Move ω → Option ι
  | .start _ => none
  | .go n =>
    match s.underWay[n]? with
    | some (.call i _) => some i
    | _ => none

/-- A move. A program that has ended makes no more calls. -/
def step : Move ω → Sessions σ ι ρ ε α → Sessions σ ι ρ ε α
  | .start op, s => { s with underWay := s.underWay ++ [program op] }
  | .go n, s =>
    match s.underWay[n]? with
    | some (.call i next) =>
      ⟨(machine i s.state).2, s.underWay.set n (next (machine i s.state).1)⟩
    | _ => s

/-- Nothing has been started yet. -/
def fresh (state : σ) : Sessions σ ι ρ ε α := ⟨state, []⟩

variable {program machine} {P : ι → Prop} {I : σ → Prop} {Bad : ι → σ → Prop}
  {s : Sessions σ ι ρ ε α} {move : Move ω}

/-- Every program under way makes only calls of this kind. -/
def Make (P : ι → Prop) (s : Sessions σ ι ρ ε α) : Prop := ∀ p ∈ s.underWay, p.Makes P

theorem Make.step (hprogram : ∀ op, (program op).Makes P) (h : s.Make P) (move : Move ω) :
    (step program machine move s).Make P := by
  cases move with
  | start op =>
    intro p hp
    rcases List.mem_append.mp hp with hp | hp
    · exact h p hp
    · rw [List.mem_singleton.mp hp]
      exact hprogram op
  | go n =>
    unfold Sessions.step
    dsimp only
    split
    · rename_i i next hn
      intro p hp
      rcases List.mem_or_eq_of_mem_set hp with hp | rfl
      · exact h p hp
      · exact (h _ (List.mem_of_getElem? hn)).2 _
    · exact h

theorem Make.call (h : s.Make P) {i : ι} (hi : s.callOf move = some i) : P i := by
  cases move with
  | start op => cases hi
  | go n =>
    unfold callOf at hi
    dsimp only at hi
    split at hi
    · rename_i j next hn
      obtain rfl := Option.some.inj hi
      exact (h _ (List.mem_of_getElem? hn)).1
    · cases hi

theorem step_call {i : ι} (hi : s.callOf move = some i) :
    (step program machine move s).state = (machine i s.state).2 := by
  cases move with
  | start op => cases hi
  | go n =>
    unfold callOf at hi
    unfold step
    dsimp only at hi ⊢
    split at hi
    · rename_i j next hn
      obtain rfl := Option.some.inj hi
      rfl
    · cases hi

theorem step_no_call (h : s.callOf move = none) :
    (step program machine move s).state = s.state := by
  cases move with
  | start op => rfl
  | go n =>
    unfold callOf at h
    unfold step
    dsimp only at h ⊢
    split at h
    · cases h
    · rfl

/-- The machine keeps `I` in a move exactly when the move makes no bad call. -/
theorem state_step_iff (hmachine : ∀ i s, P i → I s → (I (machine i s).2 ↔ ¬ Bad i s))
    (hmake : s.Make P) (hI : I s.state) :
    I (step program machine move s).state ↔ ∀ i, s.callOf move = some i → ¬ Bad i s.state := by
  cases hcall : s.callOf move with
  | none =>
    rw [step_no_call hcall]
    exact iff_of_true hI fun i hi => absurd hi (by simp)
  | some i =>
    rw [step_call hcall, hmachine i _ (hmake.call hcall) hI]
    constructor
    · rintro hgood j hj
      exact Option.some.inj hj ▸ hgood
    · exact fun h => h i rfl

/--
**The machine keeps `I` all along a run exactly when no move makes a bad call.** By induction on
the moves, as long as each call keeps `I` unless it is bad.
-/
theorem throughout_iff (hprogram : ∀ op, (program op).Makes P)
    (hmachine : ∀ i s, P i → I s → (I (machine i s).2 ↔ ¬ Bad i s)) (moves : List (Move ω))
    (hmake : s.Make P) (hI : I s.state) :
    (∀ t ∈ Run.transitions (step program machine) moves s, I t.after.state) ↔
      ∀ t ∈ Run.transitions (step program machine) moves s, ∀ i,
        t.before.callOf t.input = some i → ¬ Bad i t.before.state := by
  induction moves generalizing s with
  | nil => exact iff_of_true (fun t ht => absurd ht List.not_mem_nil) fun t ht =>
      absurd ht List.not_mem_nil
  | cons move moves ih =>
    have hfirst : I (step program machine move s).state ↔ _ := state_step_iff hmachine hmake hI
    have hmake' : (step program machine move s).Make P := hmake.step hprogram move
    unfold Run.transitions
    rw [List.forall_mem_cons, List.forall_mem_cons]
    dsimp only
    constructor
    · rintro ⟨hafter, hrest⟩
      exact ⟨hfirst.mp hafter, (ih hmake' hafter).mp hrest⟩
    · rintro ⟨hgood, hrest⟩
      have hafter := hfirst.mpr hgood
      exact ⟨hafter, (ih hmake' hafter).mpr hrest⟩

end Sessions

end Designate
