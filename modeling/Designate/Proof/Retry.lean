import Designate.Proof.CopyApart

/-!
# The discipline of transactions

What the log of a run has to follow is said by a stack: a call that has been entered, with its
arguments and the heap they were in, and a transaction that has begun. An attempt is given
copies of the arguments while their heap is as it was; only the outermost call attempts more
than once, and only after a deadlock; a commit or a rollback ends the transaction that began
last.

A run inside a call leaves every cell alone that was there before it, because all it holds are
copies. From this it follows that the arguments of a call are never touched by its attempts.
-/

namespace Designate

namespace Retry

open Heap

variable {γ ε : Type}

/-- Where a call is: about to attempt, in an attempt, or done with attempts. -/
inductive Phase where
  | ready | running | over
  deriving DecidableEq

inductive Frame (γ : Type) where
  /-- Entered with these arguments in this heap, and so many attempts since. -/
  | call (args : List Nat) (heap : List γ) (attempts : Nat) (phase : Phase)
  | transaction

/-- No call has been entered. -/
def Outermost (stack : List (Frame γ)) : Prop :=
  ∀ frame ∈ stack, frame = .transaction

/-- After an exception, a call may attempt again if it was a deadlock. -/
def Phase.after (deadlock : Bool) : Phase :=
  if deadlock then .ready else .over

/-- What may happen next. -/
inductive Follows (C : Copier γ ε) : List (Frame γ) → Event γ → List (Frame γ) → Prop where
  | enter {args heap stack} :
      Follows C stack (.enter args heap) (.call args heap 0 .ready :: stack)
  /-- The copies are of the arguments, whose heap is untouched. -/
  | attempt {args heap n stack now given heap'} : SameBelow heap.length heap now →
      C.deepcopy now args = .ok (heap', given) →
      (Outermost stack ∧ n < defaultRetries ∨ n = 0) →
      Follows C (.call args heap n .ready :: stack) (.attempt given heap')
        (.call args heap (n + 1) .running :: stack)
  | uncopied {args heap n stack deadlock} :
      Follows C (.call args heap n .ready :: stack) (.uncopied deadlock)
        (.call args heap n (.after deadlock) :: stack)
  | failed {args heap n stack deadlock} :
      Follows C (.call args heap n .running :: stack) (.failed deadlock)
        (.call args heap n (.after deadlock) :: stack)
  | returned {args heap n stack} :
      Follows C (.call args heap n .running :: stack) .returned
        (.call args heap n .over :: stack)
  | leave {args heap n phase stack} : phase ≠ .running →
      Follows C (.call args heap n phase :: stack) .leave stack
  | begin {stack} : Follows C stack .begin (.transaction :: stack)
  | commit {stack} : Follows C (.transaction :: stack) .commit stack
  | rollback {stack} : Follows C (.transaction :: stack) .rollback stack

/-- Events one after another. -/
inductive Disciplined (C : Copier γ ε) : List (Frame γ) → List (Event γ) → List (Frame γ) → Prop
    where
  | nil {stack} : Disciplined C stack [] stack
  | cons {stack event middle events last} : Follows C stack event middle →
      Disciplined C middle events last → Disciplined C stack (event :: events) last

variable {C : Copier γ ε} (retryOnDeadlock : ε → Bool) {base : Nat}

theorem Disciplined.append {stack middle last : List (Frame γ)} {events more : List (Event γ)}
    (h : Disciplined C stack events middle) (hmore : Disciplined C middle more last) :
    Disciplined C stack (events ++ more) last := by
  induction h with
  | nil => exact hmore
  | cons hfirst _ ih => exact .cons hfirst (ih hmore)

theorem Disciplined.single {stack last : List (Frame γ)} {event : Event γ}
    (h : Follows C stack event last) : Disciplined C stack [event] last :=
  .cons h .nil

/-- The flag of the thread says whether a call has been entered. -/
def Marks (s : Thread γ) (stack : List (Frame γ)) : Prop :=
  s.state.1 = true ↔ ¬ Outermost stack

/-- The heap after a run is as before below `base`, and leads nowhere there from above. -/
structure Apart (C : Copier γ ε) (base : Nat) (s s' : Thread γ) : Prop where
  same : SameBelow base s.heap s'.heap
  closed : Sealed C.refs base s'.heap
  length : s.heap.length ≤ s'.heap.length

/-- What is returned is from `base` on. -/
def ReturnsAbove (base : Nat) (result : Except ε (List Nat)) : Prop :=
  ∀ returned, result = .ok returned → ∀ a ∈ returned, base ≤ a

/-- A run follows the discipline and ends where it began, with the state of the thread as it was. -/
structure Ran (C : Copier γ ε) (base : Nat) (s : Thread γ) (result : Except ε (List Nat))
    (s' : Thread γ) : Prop where
  log : ∃ events, s'.log = s.log ++ events ∧
    ∀ stack, Marks s stack → Disciplined C stack events stack
  state : s'.state = s.state
  apart : Apart C base s s'
  returns : ReturnsAbove base result

/-- A function that comes to an end, whatever it is given, when it is run inside a call. -/
def Behaves (C : Copier γ ε) (f : List Nat → Thread γ → Outcome γ ε) : Prop :=
  ∀ base given s, Above C.refs base (s.heap, given) → s.state.1 = true →
    ∃ result s', f given s = some (result, s') ∧ Ran C base s result s'

namespace Apart

theorem trans {s s' s'' : Thread γ} (h : Apart C base s s') (h' : Apart C base s' s'') :
    Apart C base s s'' :=
  ⟨h.same.trans h'.same, h'.closed, Nat.le_trans h.length h'.length⟩

end Apart

/-- A run above the end of the heap is one above any part of it that was sealed. -/
theorem Apart.lower {s s' : Thread γ} (h : Apart C s.heap.length s s')
    (hbase : base ≤ s.heap.length) (hclosed : Sealed C.refs base s.heap) : Apart C base s s' := by
  refine ⟨h.same.mono hbase, ?_, h.length⟩
  intro a c ha hc b hb
  by_cases hlt : a < s.heap.length
  · rw [h.same a hlt] at hc
    exact hclosed a c ha hc b hb
  · exact Nat.le_trans hbase (h.closed a c (by omega) hc b hb)

/-- A transaction around a function that behaves. -/
theorem transactionWrapper_behaves {f : List Nat → Thread γ → Outcome γ ε} (hf : Behaves C f)
    (storage : Storage ε) : Behaves C (transactionWrapper storage f) := by
  intro base given s habove hheld
  unfold transactionWrapper
  cases storage.begin with
  | some e =>
    refine ⟨_, _, rfl, ⟨[], by simp, fun _ _ => .nil⟩, rfl, ?_, ?_⟩
    · exact ⟨.refl _ _, habove.closed, Nat.le_refl _⟩
    · intro returned h
      exact absurd h (by simp)
  | none =>
    obtain ⟨result, s', hrun, hran⟩ := hf base given (s.note .begin) habove hheld
    obtain ⟨events, hlog, hdisciplined⟩ := hran.log
    have hinside : ∀ stack, Marks s stack →
        Disciplined C (.transaction :: stack) events (.transaction :: stack) := by
      intro stack hmarks
      refine hdisciplined _ ?_
      unfold Marks Outermost at hmarks ⊢
      simpa [Thread.note, Thread.state] using hmarks
    have hlog' : ∀ event, (s'.note event).log = s.log ++ (.begin :: events ++ [event]) := by
      intro event
      simp [Thread.note, hlog]
    -- what ends the transaction takes it off the stack
    have hends : ∀ event, (∀ stack, Follows C (.transaction :: stack) event stack) →
        ∃ events, (s'.note event).log = s.log ++ events ∧
          ∀ stack, Marks s stack → Disciplined C stack events stack := by
      intro event hevent
      refine ⟨_, hlog' event, fun stack hmarks => ?_⟩
      exact .cons .begin ((hinside stack hmarks).append (.single (hevent stack)))
    have hfails : ∀ e, ReturnsAbove base (.error e : Except ε (List Nat)) := by
      intro e returned h
      exact absurd h (by simp)
    rw [hrun]
    cases result with
    | ok returned =>
      cases storage.commit with
      | none =>
        exact ⟨_, _, rfl, hends .commit fun _ => .commit, hran.state,
          ⟨hran.apart.same, hran.apart.closed, hran.apart.length⟩, hran.returns⟩
      | some e =>
        exact ⟨_, _, rfl, hends .rollback fun _ => .rollback, hran.state,
          ⟨hran.apart.same, hran.apart.closed, hran.apart.length⟩, hfails _⟩
    | error e =>
      exact ⟨_, _, rfl, hends .rollback fun _ => .rollback, hran.state,
        ⟨hran.apart.same, hran.apart.closed, hran.apart.length⟩, hfails _⟩

/-! ## One attempt -/

/-- Where a call is after an attempt with this result. -/
def phaseAfter : Except ε (List Nat) → Phase
  | .ok _ => .over
  | .error e => .after (retryOnDeadlock e)

theorem phaseAfter_ne_running (result : Except ε (List Nat)) :
    phaseAfter retryOnDeadlock result ≠ .running := by
  cases result with
  | ok _ => simp [phaseAfter]
  | error e =>
    simp only [phaseAfter, Phase.after]
    cases retryOnDeadlock e <;> simp

/-- A run of the function with copies, in a call that may attempt. -/
structure Attempted (C : Copier γ ε) (retryOnDeadlock : ε → Bool) (base : Nat) (args : List Nat)
    (heap : List γ) (n : Nat) (s : Thread γ) (result : Except ε (List Nat)) (s' : Thread γ) :
    Prop where
  log : ∃ events m, s'.log = s.log ++ events ∧ m ≤ n + 1 ∧
    ∀ stack, (Outermost stack ∧ n < defaultRetries ∨ n = 0) →
      Disciplined C (.call args heap n .ready :: stack) events
        (.call args heap m (phaseAfter retryOnDeadlock result) :: stack)
  state : s'.state = s.state
  untouched : SameBelow s.heap.length s.heap s'.heap
  apart : Apart C base s s'
  returns : ReturnsAbove base result

theorem not_outermost (args : List Nat) (heap : List γ) (n : Nat) (phase : Phase)
    (stack : List (Frame γ)) : ¬ Outermost (.call args heap n phase :: stack) :=
  fun h => nomatch h _ List.mem_cons_self

/-- An attempt leaves all cells alone that were there, the arguments among them. -/
theorem attempt_attempted {f : List Nat → Thread γ → Outcome γ ε} (hf : Behaves C f)
    (args : List Nat) (heap : List γ) (n : Nat) {s : Thread γ} (hheld : s.state.1 = true)
    (hbase : base ≤ s.heap.length) (hclosed : Sealed C.refs base s.heap)
    (huntouched : SameBelow heap.length heap s.heap) :
    ∃ result s', attempt C retryOnDeadlock f args s = some (result, s') ∧
      Attempted C retryOnDeadlock base args heap n s result s' := by
  unfold attempt
  cases hcopy : C.deepcopy s.heap args with
  | error e =>
    refine ⟨_, _, rfl, ⟨[.uncopied (retryOnDeadlock e)], n, rfl, Nat.le_succ n, ?_⟩, rfl,
      .refl _ _, ⟨.refl _ _, hclosed, Nat.le_refl _⟩, ?_⟩
    · intro stack _
      exact .single .uncopied
    · intro returned h
      exact absurd h (by simp)
  | ok copied =>
    obtain ⟨heap', given⟩ := copied
    obtain ⟨more, rfl⟩ := C.grows hcopy
    have habove : Above C.refs s.heap.length (s.heap ++ more, given) :=
      ⟨C.closed hcopy, C.fresh hcopy, by simp⟩
    obtain ⟨result, s', hrun, hran⟩ := hf s.heap.length given
      { s.note (.attempt given (s.heap ++ more)) with heap := s.heap ++ more } habove hheld
    obtain ⟨events, hlog, hdisciplined⟩ := hran.log
    have hlog : s'.log = s.log ++ [.attempt given (s.heap ++ more)] ++ events := hlog
    have huntouched' : SameBelow s.heap.length s.heap s'.heap :=
      (SameBelow.append (Nat.le_refl _) more).trans hran.apart.same
    have hapart : Apart C base s s' :=
      Apart.lower ⟨huntouched', hran.apart.closed, Nat.le_trans (by simp) hran.apart.length⟩
        hbase hclosed
    have hreturns : ReturnsAbove base result := fun returned h a ha =>
      Nat.le_trans hbase (hran.returns returned h a ha)
    -- the attempt, what happens in it, and how it ends
    have hends : ∀ event phase, (∀ stack, Follows C (.call args heap (n + 1) .running :: stack)
        event (.call args heap (n + 1) phase :: stack)) →
        ∃ events m, (s'.note event).log = s.log ++ events ∧ m ≤ n + 1 ∧
          ∀ stack, (Outermost stack ∧ n < defaultRetries ∨ n = 0) →
            Disciplined C (.call args heap n .ready :: stack) events
              (.call args heap m phase :: stack) := by
      intro event phase hevent
      refine ⟨.attempt given (s.heap ++ more) :: (events ++ [event]), n + 1,
        by simp [Thread.note, hlog], Nat.le_refl _, fun stack hmay => ?_⟩
      refine .cons (.attempt huntouched hcopy hmay) ?_
      refine (hdisciplined _ ?_).append (.single (hevent stack))
      exact ⟨fun _ => not_outermost _ _ _ _ _, fun _ => hheld⟩
    simp only [hrun]
    cases result with
    | ok returned =>
      exact ⟨_, _, rfl, hends .returned .over fun _ => .returned, hran.state,
        huntouched', ⟨hapart.same, hapart.closed, hapart.length⟩, hreturns⟩
    | error e =>
      exact ⟨_, _, rfl, hends (.failed (retryOnDeadlock e)) _ fun _ => .failed, hran.state,
        huntouched', ⟨hapart.same, hapart.closed, hapart.length⟩, hreturns⟩

/-! ## A call -/

/--
A call up to where it may be left. The frame of the call is on top of the stack at both ends:
whatever was entered within it has been left.
-/
structure Called (C : Copier γ ε) (base : Nat) (args : List Nat) (heap : List γ) (n : Nat)
    (outer : Bool) (s : Thread γ) (result : Except ε (List Nat)) (s' : Thread γ) : Prop where
  log : ∃ events m phase, s'.log = s.log ++ events ∧ phase ≠ .running ∧
    ∀ stack, (outer = true ↔ Outermost stack) →
      Disciplined C (.call args heap n .ready :: stack) events (.call args heap m phase :: stack)
  apart : Apart C base s s'
  returns : ReturnsAbove base result

/-- The loop ends before the counter does, and counts at least the attempts. -/
theorem retryLoop_called {f : Nat → List Nat → Thread γ → Outcome γ ε}
    (hf : ∀ k, Behaves C (f k)) (args : List Nat) (heap : List γ) :
    ∀ (fuel k n : Nat) {s : Thread γ}, s.state.1 = true → n ≤ s.state.2 →
      s.state.2 < defaultRetries → defaultRetries ≤ s.state.2 + fuel →
      base ≤ s.heap.length → Sealed C.refs base s.heap → SameBelow heap.length heap s.heap →
      heap.length ≤ s.heap.length →
      ∃ result s', retryLoop C retryOnDeadlock defaultRetries f args fuel k s = some (result, s') ∧
        Called C base args heap n true s result s'
  | 0, _, _, _, _, _, hlt, hfuel, _, _, _, _ => by omega
  | fuel + 1, k, n, s, hheld, hn, hlt, hfuel, hbase, hclosed, huntouched, hlen => by
    rw [retryLoop]
    obtain ⟨result, s', hrun, hattempted⟩ := attempt_attempted
      retryOnDeadlock (hf k) args heap n hheld hbase hclosed huntouched
    obtain ⟨events, m, hlog, hm, hdisciplined⟩ := hattempted.log
    have hdisciplined : ∀ stack, (true = true ↔ Outermost stack) →
        Disciplined C (.call args heap n .ready :: stack) events
          (.call args heap m (phaseAfter retryOnDeadlock result) :: stack) :=
      fun stack houter => hdisciplined stack (.inl ⟨houter.mp rfl, by omega⟩)
    rw [hrun]
    cases result with
    | ok returned =>
      exact ⟨_, _, rfl, ⟨events, m, _, hlog, phaseAfter_ne_running _ _, hdisciplined⟩,
        hattempted.apart, hattempted.returns⟩
    | error e =>
      have hstate := hattempted.state
      have hstop : Called C base args heap n true s (.error e)
          (s'.setState s'.state.1 (s'.state.2 + 1)) :=
        ⟨⟨events, m, _, hlog, phaseAfter_ne_running retryOnDeadlock _, hdisciplined⟩,
          ⟨hattempted.apart.same, hattempted.apart.closed, hattempted.apart.length⟩,
          hattempted.returns⟩
      simp only
      by_cases hmax : (s'.setState s'.state.1 (s'.state.2 + 1)).state.2 ≥ defaultRetries
      · rw [if_pos hmax]
        exact ⟨_, _, rfl, hstop⟩
      · rw [if_neg hmax]
        cases hdeadlock : retryOnDeadlock e with
        | false => exact ⟨_, _, rfl, hstop⟩
        | true =>
          -- after a deadlock the call is ready again
          have hcount : s'.state.2 + 1 < defaultRetries := Nat.lt_of_not_le hmax
          rw [hstate] at hcount
          have hlength := hattempted.apart.length
          obtain ⟨result, s'', hrest, hcalled⟩ := retryLoop_called hf args heap fuel (k + 1) m
            (s := s'.setState s'.state.1 (s'.state.2 + 1)) (by simpa [hstate] using hheld)
            (by simp only [Thread.setState_state, hstate]; omega)
            (by simpa [hstate] using hcount)
            (by simp only [Thread.setState_state, hstate]; omega)
            (Nat.le_trans hbase hlength) hattempted.apart.closed
            (huntouched.trans (hattempted.untouched.mono hlen)) (Nat.le_trans hlen hlength)
          obtain ⟨more, m', phase, hmore, hphase, hgoes⟩ := hcalled.log
          refine ⟨_, _, hrest, ⟨events ++ more, m', phase, ?_, hphase, ?_⟩, ?_, hcalled.returns⟩
          · rw [hmore, Thread.setState_log, hlog, List.append_assoc]
          · intro stack houter
            have hfirst := hdisciplined stack houter
            rw [phaseAfter, hdeadlock] at hfirst
            exact hfirst.append (hgoes stack houter)
          · exact hattempted.apart.trans ⟨hcalled.apart.same, hcalled.apart.closed,
              hcalled.apart.length⟩

/-- A call of a wrapped function is left as it was entered, whichever level it is at. -/
theorem retryWrapper_called {f : Nat → List Nat → Thread γ → Outcome γ ε}
    (hf : ∀ k, Behaves C (f k)) {fuel : Nat} (hfuel : defaultRetries ≤ fuel) (args : List Nat)
    {s : Thread γ} (hsettled : s.state.1 = false → s.state.2 = 0)
    (hbase : base ≤ s.heap.length) (hclosed : Sealed C.refs base s.heap) :
    ∃ result s', retryWrapper C retryOnDeadlock defaultRetries fuel f args s =
        some (result, s') ∧
      Called C base args s.heap 0 (!s.state.1) s result s' ∧ s'.state = s.state := by
  unfold retryWrapper
  -- the outermost call runs the loop and resets the state; a call inside it is one attempt
  cases hheld : s.state.1 with
  | false =>
    have hzero := hsettled hheld
    obtain ⟨result, s', hrun, hcalled⟩ := retryLoop_called retryOnDeadlock hf
      args s.heap fuel 0 0
      (s := (s.setState s.state.1 s.state.2).setState true s.state.2) rfl (Nat.zero_le _)
      (by simp [hzero, defaultRetries]) (by simpa [hzero] using hfuel) hbase hclosed
      (.refl _ _) (Nat.le_refl _)
    refine ⟨result, s'.setState false 0, ?_, ⟨hcalled.log, ⟨hcalled.apart.same,
      hcalled.apart.closed, hcalled.apart.length⟩, hcalled.returns⟩, ?_⟩
    · simp only [Thread.setState_state, hheld, Bool.not_false, if_true] at hrun ⊢
      rw [hrun]
    · rw [Thread.setState_state, ← hheld, ← hzero]
  | true =>
    obtain ⟨result, s', hrun, hattempted⟩ := attempt_attempted
      retryOnDeadlock (hf 0) args s.heap 0
      (s := s.setState s.state.1 s.state.2) hheld hbase hclosed (.refl _ _)
    obtain ⟨events, m, hlog, _, hdisciplined⟩ := hattempted.log
    refine ⟨result, s', ?_, ⟨⟨events, m, _, hlog, phaseAfter_ne_running retryOnDeadlock result, ?_⟩,
      ⟨hattempted.apart.same, hattempted.apart.closed, hattempted.apart.length⟩,
      hattempted.returns⟩, hattempted.state⟩
    · simp only [Thread.setState_state, hheld, Bool.not_true, Bool.false_eq_true, if_false] at hrun ⊢
      exact hrun
    · intro stack _
      exact hdisciplined stack (.inr rfl)

/-! ## A run -/

namespace Ran

/-- Two runs, one after the other. -/
theorem trans {s s' s'' : Thread γ} {result result' : Except ε (List Nat)}
    (h : Ran C base s result s') (h' : Ran C base s' result' s'') : Ran C base s result' s'' := by
  obtain ⟨events, hlog, hdisciplined⟩ := h.log
  obtain ⟨more, hmore, hgoes⟩ := h'.log
  refine ⟨⟨events ++ more, ?_, ?_⟩, h'.state.trans h.state, h.apart.trans h'.apart, h'.returns⟩
  · rw [hmore, hlog, List.append_assoc]
  · intro stack hmarks
    refine (hdisciplined stack hmarks).append (hgoes stack ?_)
    unfold Marks at hmarks ⊢
    rw [h.state]
    exact hmarks

end Ran

/-- A call from entry to leave. -/
theorem call_ran {args : List Nat} {s s' : Thread γ} {result : Except ε (List Nat)}
    (hcalled : Called C base args s.heap 0 (!s.state.1) (s.note (.enter args s.heap)) result s')
    (hstate : s'.state = s.state) : Ran C base s result (s'.note .leave) := by
  obtain ⟨events, m, phase, hlog, hphase, hgoes⟩ := hcalled.log
  refine ⟨⟨.enter args s.heap :: (events ++ [.leave]), by simp [hlog], ?_⟩, hstate,
    ⟨hcalled.apart.same, hcalled.apart.closed, hcalled.apart.length⟩, hcalled.returns⟩
  intro stack hmarks
  refine .cons .enter ((hgoes stack ?_).append (.single (.leave hphase)))
  unfold Marks at hmarks
  by_cases houter : Outermost stack
  · simpa [houter] using hmarks
  · simpa [houter] using hmarks

/-- Every body behaves, inside a call and outside, and comes to an end. -/
theorem run_ran {fuel : Nat} (hfuel : defaultRetries ≤ fuel) (body : Body C.refs ε) :
    ∀ {base : Nat} {known : List Nat} {s : Thread γ}, Above C.refs base (s.heap, known) →
      (s.state.1 = false → s.state.2 = 0) →
      ∃ result s', body.run C retryOnDeadlock fuel known s = some (result, s') ∧
        Ran C base s result s' := by
  induction body with
  | done result =>
    intro base known s habove _
    refine ⟨_, s, rfl, ⟨[], by simp, fun _ _ => .nil⟩, rfl,
      ⟨.refl _ _, habove.closed, Nat.le_refl _⟩, ?_⟩
    intro returned h a ha
    cases result with
    | error e => exact absurd h (by simp [Except.map])
    | ok positions =>
      obtain rfl := Except.ok.inj h
      obtain ⟨i, _, hi⟩ := List.mem_filterMap.mp ha
      exact habove.known a (List.mem_of_getElem? hi)
  -- the body touches what it can reach, which is all above `base`
  | act a next ih =>
    intro base known s habove hsettled
    have hsteps := a.steps (s.heap, known)
    obtain ⟨habove', hsame⟩ := above_evolves habove hsteps
    obtain ⟨result, s', hrun, hran⟩ := ih (a.run (s.heap, known))
      (s := { s with heap := (a.run (s.heap, known)).1 }) habove' hsettled
    refine ⟨result, s', hrun, hran.log, hran.state,
      ⟨hsame.trans hran.apart.same, hran.apart.closed, ?_⟩, hran.returns⟩
    exact Nat.le_trans (length_le_evolves hsteps) hran.apart.length
  | call args storage body next ihbody ihnext =>
    intro base known s habove hsettled
    -- the induction of the called body holds in each attempt
    have hf : ∀ k, Behaves C
        (transactionWrapper (storage k) ((body k).run C retryOnDeadlock fuel)) := by
      intro k
      refine transactionWrapper_behaves (fun base given s habove hheld => ?_) (storage k)
      exact ihbody k habove fun h => absurd (hheld.symm.trans h) (by simp)
    obtain ⟨result, s', hcall, hcalled, hstate⟩ := retryWrapper_called
      retryOnDeadlock hf hfuel (held known args)
      (s := s.note (.enter (held known args) s.heap)) hsettled habove.size habove.closed
    have hran : Ran C base s result (s'.note .leave) := call_ran hcalled hstate
    have hsettled' : (s'.note .leave).state.1 = false → (s'.note .leave).state.2 = 0 := by
      rw [hran.state]
      exact hsettled
    have hsize := Nat.le_trans habove.size hran.apart.length
    rw [Body.run, hcall]
    cases result with
    | ok returned =>
      -- what the call returns may be touched from here on, and it is above `base` too
      have habove' : Above C.refs base ((s'.note .leave).heap, returned ++ known) := by
        refine ⟨hran.apart.closed, ?_, hsize⟩
        intro a ha
        obtain ha | ha := List.mem_append.mp ha
        · exact hran.returns returned rfl a ha
        · exact habove.known a ha
      obtain ⟨result, s'', hnext, hrest⟩ := ihnext none habove' hsettled'
      exact ⟨result, s'', hnext, hran.trans hrest⟩
    | error e =>
      have habove' : Above C.refs base ((s'.note .leave).heap, known) :=
        ⟨hran.apart.closed, habove.known, hsize⟩
      obtain ⟨result, s'', hnext, hrest⟩ := ihnext (some e) habove' hsettled'
      exact ⟨result, s'', hnext, hran.trans hrest⟩

/--
Whatever calls of wrapped functions a thread makes, and however the attempts end, the run comes
to an end, its log follows the discipline from an empty stack to an empty stack, and the state
of the thread is what it was.
-/
theorem transaction_disciplined (C : Copier γ ε) (retryOnDeadlock : ε → Bool)
    (body : Body C.refs ε) (known : List Nat) {fuel : Nat} (hfuel : defaultRetries ≤ fuel)
    {s : Thread γ} (hidle : s.state = (false, 0)) :
    ∃ result s' events, body.run C retryOnDeadlock fuel known s = some (result, s') ∧
      s'.log = s.log ++ events ∧ Disciplined C [] events [] ∧ s'.state = s.state := by
  have habove : Above C.refs 0 (s.heap, known) :=
    ⟨fun _ _ _ _ _ _ => Nat.zero_le _, fun _ _ => Nat.zero_le _, Nat.zero_le _⟩
  obtain ⟨result, s', hrun, hran⟩ := run_ran retryOnDeadlock hfuel body habove fun _ => by rw [hidle]
  obtain ⟨events, hlog, hdisciplined⟩ := hran.log
  refine ⟨result, s', events, hrun, hlog, hdisciplined [] ?_, hran.state⟩
  simp [Marks, hidle, Outermost]

/-- A call that is given a quota, loses its first attempt to a deadlock, and returns its copy. -/
theorem transaction_disciplined_deadlock :
    ∃ result s' events,
      Body.run (Objects.copier Nat 9 false) id defaultRetries
          (.call [0] (fun _ => {}) (fun k => if k = 0 then .done (.error true) else .done (.ok [0]))
            fun _ => .done (.ok [0]))
          [0] { heap := [Objects.quotaCell 10 ∅ []] } = some (result, s') ∧
        s'.log = events ∧ Disciplined (Objects.copier Nat 9 false) [] events [] ∧
        s'.state = (false, 0) :=
  transaction_disciplined (Objects.copier Nat 9 false) id _ [0] (Nat.le_refl _)
    (s := { heap := [Objects.quotaCell 10 ∅ []] }) rfl

end Retry

end Designate
