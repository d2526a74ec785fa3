import Designate.Exec
import Designate.Run

/-!
# Two programs at once

A program is a chain of atomic steps on a shared state. Two threads run one each: a
thread starts its program, which may first need a lock, and takes the steps of it one
by one, and the scheduler says which thread is next. Two programs that are never both
under way come out as if one had been run after the other, and a lock both of them
need keeps them from ever being both under way.
-/

namespace Designate

/-- A program in atomic steps, whose result is a `ρ`. -/
inductive Steps (σ ρ : Type) where
  | done (result : ρ)
  | step (act : σ → σ) (next : σ → Steps σ ρ)

namespace Steps

variable {σ ε ρ α β : Type}

/-- The program from its start to its end, with nobody in between. -/
def run : Steps σ ρ → σ → ρ × σ
  | .done r, s => (r, s)
  | .step act next, s => (next s).run (act s)

/-- A program that is one step. -/
def atom (m : Exec σ ε α) : Steps σ (Except ε α) :=
  .step (fun s => (m s).2) fun s => .done (m s).1

/-- One program after the other, unless the first one raises. -/
def bind : Steps σ (Except ε α) → (α → Steps σ (Except ε β)) → Steps σ (Except ε β)
  | .done (.ok a), f => f a
  | .done (.error e), _ => .done (.error e)
  | .step act next, f => .step act fun s => (next s).bind f

/-- The program as a call that nobody interrupts. -/
def call (p : Steps σ (Except ε α)) : Exec σ ε α := p.run

@[simp] theorem call_atom (m : Exec σ ε α) : (atom m).call = m := rfl

@[simp] theorem call_done (r : Except ε α) : (done r : Steps σ _).call = fun s => (r, s) := rfl

/-- Uninterrupted, the steps of a bind are the bind of the calls. -/
@[simp] theorem call_bind (p : Steps σ (Except ε α)) (f : α → Steps σ (Except ε β)) :
    (p.bind f).call = p.call >>= fun a => (f a).call := by
  funext s
  induction p generalizing s with
  | done r => cases r <;> rfl
  | step act next ih => exact ih s (act s)

end Steps

/-! ## Two threads -/

/-- What a thread is at. -/
inductive Phase (σ ρ : Type) where
  /-- It has yet to start its program. -/
  | waiting (program : Steps σ ρ)
  | running (rest : Steps σ ρ)
  | finished (result : ρ)

/-- The thread has started its program and not finished it. -/
def Phase.Running {σ ρ : Type} : Phase σ ρ → Prop
  | .running _ => True
  | _ => False

/-- The thread is done, and its call returned. -/
def Phase.returned {σ ε : Type} : Phase σ (Except ε Unit) → Bool
  | .finished (.ok _) => true
  | _ => false

theorem Phase.eq_of_returned {σ ε : Type} {p : Phase σ (Except ε Unit)}
    (h : p.returned = true) : p = .finished (.ok ()) := by
  cases p with
  | finished r => cases r with
    | ok u => rfl
    | error e => exact absurd h (by simp [Phase.returned])
  | _ => exact absurd h (by simp [Phase.returned])

/-- The shared state, and where the two threads are. -/
structure Threads (σ ρ : Type) where
  shared : σ
  phase : Bool → Phase σ ρ

namespace Threads

variable {σ ρ ζ : Type}

/-- Both threads are under way. -/
def Overlapping (m : Threads σ ρ) : Prop := ∀ t, (m.phase t).Running

/-- The thread has moved on to `p`. -/
def moved (m : Threads σ ρ) (t : Bool) (p : Phase σ ρ) : Threads σ ρ :=
  { m with phase := fun u => if u = t then p else m.phase u }

@[simp] theorem moved_self (m : Threads σ ρ) (t : Bool) (p : Phase σ ρ) :
    (m.moved t p).phase t = p := if_pos rfl

@[simp] theorem moved_other (m : Threads σ ρ) (t : Bool) (p : Phase σ ρ) :
    (m.moved t p).phase (!t) = m.phase !t := if_neg (by cases t <;> simp)

@[simp] theorem moved_not (m : Threads σ ρ) (t : Bool) (p : Phase σ ρ) :
    (m.moved (!t) p).phase t = m.phase t := if_neg (by cases t <;> simp)

@[simp] theorem moved_shared (m : Threads σ ρ) (t : Bool) (p : Phase σ ρ) :
    (m.moved t p).shared = m.shared := rfl

section

variable [DecidableEq ζ] (lock : Bool → Option ζ)

instance (p : Phase σ ρ) : Decidable p.Running := by
  cases p <;> unfold Phase.Running <;> infer_instance

/-- The lock the thread needs is in the hands of the other one. -/
def blocked (m : Threads σ ρ) (t : Bool) : Bool :=
  (lock t).isSome && decide (lock t = lock !t) && decide (m.phase !t).Running

/-- The next step of thread `t`; it may have to wait. -/
def next (t : Bool) (m : Threads σ ρ) : Threads σ ρ :=
  match m.phase t with
  | .waiting p => if m.blocked lock t then m else m.moved t (.running p)
  | .running (.done r) => m.moved t (.finished r)
  | .running (.step act rest) => { m.moved t (.running (rest m.shared)) with shared := act m.shared }
  | .finished _ => m

end

/-- Both threads have yet to start. -/
def start (s : σ) (program : Bool → Steps σ ρ) : Threads σ ρ :=
  ⟨s, fun t => .waiting (program t)⟩

/-! ## What can be said of a schedule -/

/-- One program was run, and then the other one. -/
def Serial (program : Bool → Steps σ ρ) (s : σ) (result : Bool → ρ) (s' : σ) : Prop :=
  ∃ t s₁, (program t).run s = (result t, s₁) ∧ (program !t).run s₁ = (result !t, s')

/-- What is left to do, thread by thread, if the two have not been under way together. -/
inductive OneByOne (program : Bool → Steps σ ρ) (s : σ) : Threads σ ρ → Prop
  | untouched {m} (h₀ : m.shared = s) (h : ∀ t, m.phase t = .waiting (program t)) :
      OneByOne program s m
  | first {m} (t : Bool) (rest : Steps σ ρ) (h : m.phase t = .running rest)
      (h' : m.phase (!t) = .waiting (program !t)) (hrun : rest.run m.shared = (program t).run s) :
      OneByOne program s m
  | between {m} (t : Bool) (r : ρ) (h : m.phase t = .finished r)
      (h' : m.phase (!t) = .waiting (program !t)) (hrun : (program t).run s = (r, m.shared)) :
      OneByOne program s m
  | second {m} (t : Bool) (r : ρ) (s₁ : σ) (rest : Steps σ ρ) (h : m.phase t = .finished r)
      (h' : m.phase (!t) = .running rest) (hrun : (program t).run s = (r, s₁))
      (hrest : rest.run m.shared = (program !t).run s₁) : OneByOne program s m
  | both {m} (t : Bool) (r r' : ρ) (s₁ : σ) (h : m.phase t = .finished r)
      (h' : m.phase (!t) = .finished r') (hrun : (program t).run s = (r, s₁))
      (hrest : (program !t).run s₁ = (r', m.shared)) : OneByOne program s m

section

variable [DecidableEq ζ] {lock : Bool → Option ζ} {program : Bool → Steps σ ρ} {s : σ}
  {m : Threads σ ρ}

theorem next_waiting (lock : Bool → Option ζ) {t : Bool} {p : Steps σ ρ} (h : m.phase t = .waiting p) :
    m.next lock t = m ∨ m.next lock t = m.moved t (.running p) := by
  unfold next
  rw [h]
  dsimp only
  split
  · exact Or.inl rfl
  · exact Or.inr rfl

theorem next_done {t : Bool} {r : ρ} (h : m.phase t = .running (.done r)) :
    m.next lock t = m.moved t (.finished r) := by
  unfold next
  rw [h]

theorem next_step {t : Bool} {act : σ → σ} {rest : σ → Steps σ ρ}
    (h : m.phase t = .running (.step act rest)) :
    m.next lock t = { m.moved t (.running (rest m.shared)) with shared := act m.shared } := by
  unfold next
  rw [h]

theorem next_finished {t : Bool} {r : ρ} (h : m.phase t = .finished r) : m.next lock t = m := by
  unfold next
  rw [h]

theorem eq_or_eq_not (t u : Bool) : t = u ∨ t = !u := by
  cases t <;> cases u <;> simp

/--
**What is left to do, after one more step.** Case by case on what was left before it:
a thread that starts while the other one is under way makes the two overlap.
-/
theorem oneByOne_next (t : Bool) (h : OneByOne program s m)
    (hapart : ¬ (m.next lock t).Overlapping) : OneByOne program s (m.next lock t) := by
  cases h with
  | untouched h₀ h =>
    rcases next_waiting lock (h t) with he | he
    · rw [he]; exact .untouched h₀ h
    · rw [he]
      refine .first t (program t) (by simp) (by rw [moved_other]; exact h _) ?_
      rw [moved_shared, h₀]
  | first u rest h h' hrun =>
    rcases eq_or_eq_not t u with rfl | rfl
    · cases rest with
      | done r =>
        rw [next_done h]
        exact .between t r (by simp) (by rw [moved_other]; exact h') hrun.symm
      | step act rest =>
        rw [next_step h]
        exact .first t (rest m.shared) (moved_self _ _ _) ((moved_other _ _ _).trans h') hrun
    · rcases next_waiting lock h' with he | he
      · rw [he]; exact .first u rest h h' hrun
      · rw [he] at hapart
        exfalso
        refine hapart fun v => ?_
        rcases eq_or_eq_not v u with rfl | rfl
        · rw [moved_not, h]; trivial
        · rw [moved_self]; trivial
  | between u r h h' hrun =>
    rcases eq_or_eq_not t u with rfl | rfl
    · rw [next_finished h]; exact .between t r h h' hrun
    · rcases next_waiting lock h' with he | he
      · rw [he]; exact .between u r h h' hrun
      · rw [he]
        exact .second u r m.shared (program !u) (by rw [moved_not]; exact h) (moved_self _ _ _)
          hrun rfl
  | second u r s₁ rest h h' hrun hrest =>
    rcases eq_or_eq_not t u with rfl | rfl
    · rw [next_finished h]; exact .second t r s₁ rest h h' hrun hrest
    · cases rest with
      | done r' =>
        rw [next_done h']
        exact .both u r r' s₁ (by rw [moved_not]; exact h) (moved_self _ _ _) hrun hrest.symm
      | step act rest =>
        rw [next_step h']
        exact .second u r s₁ (rest m.shared) ((moved_not _ _ _).trans h) (moved_self _ _ _) hrun
          hrest
  | both u r r' s₁ h h' hrun hrest =>
    have hm : m.next lock t = m := by
      rcases eq_or_eq_not t u with rfl | rfl
      · exact next_finished h
      · exact next_finished h'
    rw [hm]
    exact .both u r r' s₁ h h' hrun hrest

/-- The two programs are never both under way. -/
def Apart (lock : Bool → Option ζ) (schedule : List Bool) (m : Threads σ ρ) : Prop :=
  ∀ t ∈ Run.transitions (next lock) schedule m, ¬ t.after.Overlapping

/-- **Programs that are never both under way come out as if run one after the other.** -/
theorem serial_of_apart {schedule : List Bool} {result : Bool → ρ}
    (hapart : Apart lock schedule (start s program))
    (hend : ∀ t, (Run.final (next lock) schedule (start s program)).phase t = .finished (result t)) :
    Serial program s result (Run.final (next lock) schedule (start s program)).shared := by
  have hI : OneByOne program s (Run.final (next lock) schedule (start s program)) :=
    (Run.invariant (I := OneByOne program s) (G := fun t m => ¬ (next lock t m).Overlapping)
      (fun t m h hg => oneByOne_next t h hg) (.untouched rfl fun _ => rfl)
      fun t ht => by rw [← Run.transition_after ht]; exact hapart t ht).2
  cases hI with
  | untouched h₀ h => exact absurd (hend true) (by rw [h]; simp)
  | first t rest h h' hrun => exact absurd (hend t) (by rw [h]; simp)
  | between t r h h' hrun => exact absurd (hend !t) (by rw [h']; simp)
  | second t r s₁ rest h h' hrun hrest => exact absurd (hend !t) (by rw [h']; simp)
  | both t r r' s₁ h h' hrun hrest =>
    have hr : r = result t := by simpa using h.symm.trans (hend t)
    have hr' : r' = result !t := by simpa using h'.symm.trans (hend !t)
    exact ⟨t, s₁, hr ▸ hrun, hr' ▸ hrest⟩

/-- Two programs that need one lock do not come to be both under way. -/
theorem next_apart {k : ζ} (hlock : ∀ t, lock t = some k) (t : Bool) (h : ¬ m.Overlapping) :
    ¬ (m.next lock t).Overlapping := by
  cases hp : m.phase t with
  | waiting p =>
    unfold next blocked
    rw [hp]
    by_cases hother : (m.phase !t).Running
    · simpa [hlock, hother] using h
    · simp only [hlock, hother]
      exact fun ho => hother (by simpa using ho !t)
  | running rest =>
    have hother : ¬ (m.phase !t).Running := by
      refine fun hr => h fun u => ?_
      rcases eq_or_eq_not u t with rfl | rfl
      · rw [hp]; trivial
      · exact hr
    refine fun ho => hother ?_
    cases rest with
    | done r => rw [next_done hp] at ho; simpa using ho !t
    | step act rest =>
      rw [next_step hp] at ho
      exact (moved_other m t (.running (rest m.shared))) ▸ ho !t
  | finished r => rw [next_finished hp]; exact h

/-- **A lock both programs need keeps them apart.** -/
theorem apart_of_lock {k : ζ} (hlock : ∀ t, lock t = some k) (schedule : List Bool)
    (h : ¬ m.Overlapping) : Apart lock schedule m :=
  Run.forall_transitions (I := fun m : Threads σ ρ => ¬ m.Overlapping) (G := fun _ _ => True)
    (P := fun _ _ m' => ¬ Overlapping m') (fun t _ h _ => next_apart hlock t h)
    (fun t _ h _ => next_apart hlock t h) h fun _ _ => trivial

theorem start_not_overlapping : ¬ (start s program).Overlapping := fun h => h true

end

end Threads

end Designate
