import Designate.LimitNotify
import Mathlib.Algebra.Order.Field.Rat
import Mathlib.Algebra.Order.Group.Abs
import Mathlib.Data.List.Perm.Basic
import Mathlib.Tactic.Linarith

/-!
# How far NOTIFYs are apart

The lock of a zone has the time at which the last NOTIFY for it was taken up, or there has been
none for as long as the delay. A handler that sleeps on after another one got the lock breaks
that when it wakes up: it takes the other's time away, and the next NOTIFY is taken up at once.
-/

namespace Designate

namespace LimitNotify

variable {s : State} {delay : ℚ}

/-- Of two NOTIFYs for one zone, one was taken up no earlier than the delay after the other. -/
def Apart (delay : ℚ) (handlers : List Handler) : Prop :=
  handlers.Pairwise fun h h' => h.zoneName = h'.zoneName → delay ≤ |h'.acquired - h.acquired|

/-- A handler that wakes up finds its own time in the lock, or none. -/
def Undisturbed : Event → State → Prop
  | .arrive _ _, _ => True
  | .wake n now, s => ∀ h, s.asleep[n]? = some h → s.clock ≤ now →
    h.acquired + s.locker.delay ≤ now →
      ∀ locktime, s.locker.data h.zoneName = some locktime → locktime = h.acquired

/-- What holds of every run: a time in the lock has its handler, which is still asleep. -/
structure Booked (delay : ℚ) (s : State) : Prop where
  delay : s.locker.delay = delay
  handlers : (s.passedOn ++ s.asleep).Perm s.accepted
  asleep : ∀ zone locktime, s.locker.data zone = some locktime → ⟨zone, locktime⟩ ∈ s.asleep

theorem Booked.accepted (h : Booked delay s) {zone : String} {locktime : ℚ}
    (hdata : s.locker.data zone = some locktime) : ⟨zone, locktime⟩ ∈ s.accepted :=
  h.handlers.subset (List.mem_append_right _ (h.asleep zone locktime hdata))

/-- The state in which a NOTIFY for the zone has just been taken up. -/
def State.taken (s : State) (zone : String) (now : ℚ) : State :=
  { s with
    clock := now
    locker := ⟨Function.update s.locker.data zone (some now), s.locker.delay⟩
    asleep := s.asleep ++ [⟨zone, now⟩]
    accepted := s.accepted ++ [⟨zone, now⟩] }

/-- The state in which the `n`-th of the handlers has just woken up. -/
def State.woken (s : State) (n : Nat) (h : Handler) (now : ℚ) : State :=
  { s with
    clock := now
    locker := s.locker.release h.zoneName
    asleep := s.asleep.eraseIdx n
    passedOn := s.passedOn ++ [h] }

theorem taken_data (s : State) {zone zone' : String} {now locktime : ℚ}
    (h : (s.taken zone now).locker.data zone' = some locktime) :
    zone' = zone ∧ locktime = now ∨ zone' ≠ zone ∧ s.locker.data zone' = some locktime := by
  unfold State.taken at h
  dsimp only at h
  by_cases hzone : zone' = zone
  · rw [hzone, Function.update_self] at h
    exact .inl ⟨hzone, (Option.some.inj h).symm⟩
  · rw [Function.update_of_ne hzone] at h
    exact .inr ⟨hzone, h⟩

theorem woken_data (s : State) {n : Nat} {handler : Handler} {now locktime : ℚ} {zone : String}
    (h : (s.woken n handler now).locker.data zone = some locktime) :
    zone ≠ handler.zoneName ∧ s.locker.data zone = some locktime := by
  unfold State.woken ZoneLock.release at h
  dsimp only at h
  by_cases hzone : zone = handler.zoneName
  · rw [hzone, Function.update_self] at h
    cases h
  · rw [Function.update_of_ne hzone] at h
    exact ⟨hzone, h⟩

/-- What a NOTIFY comes to. -/
theorem processRequest_cases (request : Request) (now : ℚ) (s : State) :
    ((∃ refused, processRequest request now s = { s with clock := now, refused }) ∧
      (request.opcode = .NOTIFY → ∃ locktime,
        s.locker.data request.zoneName = some locktime ∧ now - locktime ≤ s.locker.delay)) ∨
    (∀ locktime, s.locker.data request.zoneName = some locktime →
        s.locker.delay < now - locktime) ∧
      processRequest request now s = s.taken request.zoneName now := by
  unfold processRequest
  by_cases hop : request.opcode = .NOTIFY
  · rw [if_pos hop]
    unfold ZoneLock.acquire
    cases hdata : s.locker.data request.zoneName with
    | none => exact .inr ⟨fun _ h => absurd h (by simp), rfl⟩
    | some locktime =>
      by_cases hover : s.locker.delay < now - locktime
      · refine .inr ⟨fun locktime' h => ?_, by simp [hover, State.taken]⟩
        cases h
        exact hover
      · exact .inl ⟨⟨s.refused ++ [request], by simp [hover]⟩, fun _ => ⟨locktime, rfl, by linarith⟩⟩
  · rw [if_neg hop]
    exact .inl ⟨⟨s.refused, rfl⟩, fun h => absurd h hop⟩

/-- What a handler that wakes up does. -/
theorem wake_cases (n : Nat) (now : ℚ) (s : State) :
    step (.wake n now) s = s ∨ ∃ h, s.asleep[n]? = some h ∧ s.clock ≤ now ∧
      h.acquired + s.locker.delay ≤ now ∧
      step (.wake n now) s = s.woken n h now := by
  rw [step]
  split
  · exact .inl rfl
  · next h hn =>
    split
    · next hnow => exact .inr ⟨h, hn, hnow.1, hnow.2, rfl⟩
    · exact .inl rfl

/-- The books are kept by whatever happens. -/
theorem Booked.step (h : Booked delay s) (e : Event) : Booked delay (step e s) := by
  cases e with
  | arrive request now =>
    rw [LimitNotify.step]
    split
    · rcases processRequest_cases request now s with ⟨⟨refused, hrun⟩, _⟩ | ⟨_, hrun⟩
      · rw [hrun]
        exact ⟨h.delay, h.handlers, h.asleep⟩
      · rw [hrun]
        refine ⟨h.delay, ?_, ?_⟩
        · show (s.passedOn ++ (s.asleep ++ [_])).Perm (s.accepted ++ [_])
          rw [← List.append_assoc]
          exact h.handlers.append_right _
        · intro zone locktime hdata
          rcases taken_data s hdata with ⟨rfl, rfl⟩ | ⟨_, hdata⟩
          · exact List.mem_append_right _ List.mem_cons_self
          · exact List.mem_append_left _ (h.asleep zone locktime hdata)
    · exact h
  | wake n now =>
    rcases wake_cases n now s with hrun | ⟨handler, hn, _, _, hrun⟩
    · rw [hrun]
      exact h
    · rw [hrun]
      -- the handler that has woken up is the one that leaves the sleepers
      have hwoken : (handler :: s.asleep.eraseIdx n).Perm s.asleep := by
        obtain ⟨hlt, rfl⟩ := List.getElem?_eq_some_iff.mp hn
        exact List.getElem_cons_eraseIdx_perm hlt
      refine ⟨h.delay, ?_, ?_⟩
      · show (s.passedOn ++ [handler] ++ s.asleep.eraseIdx n).Perm s.accepted
        rw [List.append_assoc]
        exact (hwoken.append_left _).trans h.handlers
      · intro zone locktime hdata
        obtain ⟨hzone, hdata⟩ := woken_data s hdata
        -- the handler of another zone is not the one that has woken up
        rcases List.mem_cons.mp (hwoken.symm.subset (h.asleep zone locktime hdata)) with
          hsame | hmem
        · exact absurd (congrArg Handler.zoneName hsame) hzone
        · exact hmem

/-! ## The distance -/

/-- The lock has the time of the last NOTIFY, or none was taken up within the delay. -/
structure Spaced (delay : ℚ) (s : State) : Prop where
  booked : Booked delay s
  apart : Apart delay s.accepted
  past : ∀ h ∈ s.accepted, h.acquired ≤ s.clock
  last : ∀ h ∈ s.accepted, (∃ locktime, s.locker.data h.zoneName = some locktime ∧
    h.acquired ≤ locktime) ∨ h.acquired + delay ≤ s.clock

/-- Whoever was taken up before is so long ago, when the next one is. -/
theorem Spaced.long_ago (h : Spaced delay s) {zone : String} {now : ℚ} (hnow : s.clock ≤ now)
    (hover : ∀ locktime, s.locker.data zone = some locktime → s.locker.delay < now - locktime)
    {x : Handler} (hx : x ∈ s.accepted) (hzone : x.zoneName = zone) : x.acquired + delay ≤ now := by
  rcases h.last x hx with ⟨locktime, hdata, hle⟩ | hle
  · have hperiod := hover locktime (hzone ▸ hdata)
    rw [h.booked.delay] at hperiod
    linarith
  · exact le_trans hle hnow

theorem Spaced.taken (h : Spaced delay s) {zone : String} {now : ℚ} (hnow : s.clock ≤ now)
    (hover : ∀ locktime, s.locker.data zone = some locktime → s.locker.delay < now - locktime)
    (hbooked : Booked delay (s.taken zone now)) : Spaced delay (s.taken zone now) := by
  have hnew : ∀ x ∈ (s.taken zone now).accepted, x ∈ s.accepted ∨ x = ⟨zone, now⟩ := fun x hx =>
    (List.mem_append.mp hx).imp_right List.mem_singleton.mp
  refine ⟨hbooked, ?_, ?_, ?_⟩
  · refine List.pairwise_append.mpr ⟨h.apart, List.pairwise_singleton _ _, ?_⟩
    intro x hx y hy hzone
    obtain rfl := List.mem_singleton.mp hy
    have := h.long_ago hnow hover hx hzone
    exact le_trans (by linarith) (le_abs_self _)
  · intro x hx
    rcases hnew x hx with hx | rfl
    · exact le_trans (h.past x hx) hnow
    · exact le_refl _
  · intro x hx
    rcases hnew x hx with hx | rfl
    · -- of this zone the last one was long ago, of the others nothing changes
      by_cases hzone : x.zoneName = zone
      · exact .inr (h.long_ago hnow hover hx hzone)
      · rcases h.last x hx with ⟨locktime, hdata, hle⟩ | hle
        · exact .inl ⟨locktime, (Function.update_of_ne hzone _ _).trans hdata, hle⟩
        · exact .inr (le_trans hle hnow)
    · exact .inl ⟨now, Function.update_self _ _ _, le_refl _⟩

/-- **Unless a handler takes the time of another away, NOTIFYs stay apart.** -/
theorem Spaced.step (h : Spaced delay s) {e : Event} (hundisturbed : Undisturbed e s) :
    Spaced delay (step e s) := by
  have hbooked := h.booked.step e
  cases e with
  | arrive request now =>
    rw [LimitNotify.step] at hbooked ⊢
    by_cases hnow : s.clock ≤ now
    · rw [if_pos hnow] at hbooked ⊢
      rcases processRequest_cases request now s with ⟨⟨refused, hrun⟩, _⟩ | ⟨hover, hrun⟩
      · rw [hrun] at hbooked ⊢
        refine ⟨hbooked, h.apart, fun x hx => le_trans (h.past x hx) hnow, fun x hx => ?_⟩
        exact (h.last x hx).imp_right fun hle => le_trans hle hnow
      · rw [hrun] at hbooked ⊢
        exact h.taken hnow hover hbooked
    · rw [if_neg hnow]
      exact h
  | wake n now =>
    rcases wake_cases n now s with hrun | ⟨handler, hn, hnow, hslept, hrun⟩
    · rw [hrun]
      exact h
    · have hown := hundisturbed handler hn hnow hslept
      rw [hrun] at hbooked ⊢
      rw [h.booked.delay] at hslept
      refine ⟨hbooked, h.apart, fun x hx => le_trans (h.past x hx) hnow, fun x hx => ?_⟩
      rcases h.last x hx with ⟨locktime, hdata, hle⟩ | hle
      · by_cases hzone : x.zoneName = handler.zoneName
        · -- the time that goes is that of the handler, which has slept for the delay
          rw [hown locktime (hzone ▸ hdata)] at hle
          exact .inr (show x.acquired + delay ≤ now by linarith)
        · exact .inl ⟨locktime, (Function.update_of_ne hzone _ _).trans hdata, hle⟩
      · exact .inr (le_trans hle hnow)

/-! ## Runs -/

theorem spaced_start (delay clock : ℚ) : Spaced delay (start delay clock) where
  booked := ⟨rfl, List.Perm.refl _, fun _ _ h => absurd h (by simp [start])⟩
  apart := List.Pairwise.nil
  past _ h := absurd h List.not_mem_nil
  last _ h := absurd h List.not_mem_nil

/-- How far two are apart does not depend on which of them is asked for. -/
theorem Apart.of_perm {handlers handlers' : List Handler} (h : Apart delay handlers)
    (hperm : handlers'.Perm handlers) : Apart delay handlers' := by
  refine (hperm.pairwise_iff ?_).mpr h
  intro x y hxy hzone
  rw [abs_sub_comm]
  exact hxy hzone.symm

/-- A NOTIFY is taken up if none for its zone was within the delay. -/
theorem Booked.takes (h : Booked delay s) {request : Request} {now : ℚ}
    (hop : request.opcode = .NOTIFY) (hnow : s.clock ≤ now)
    (hlong : ∀ x ∈ s.accepted, x.zoneName = request.zoneName → delay < now - x.acquired) :
    ⟨request.zoneName, now⟩ ∈ (LimitNotify.step (.arrive request now) s).asleep := by
  rw [LimitNotify.step, if_pos hnow]
  rcases processRequest_cases request now s with ⟨_, hrefused⟩ | ⟨_, hrun⟩
  · obtain ⟨locktime, hdata, hle⟩ := hrefused hop
    -- a refusal is for a time in the lock, and that is the time of a NOTIFY that was taken up
    have hperiod := hlong _ (h.accepted hdata) rfl
    rw [h.delay] at hle
    exact absurd hperiod (not_lt.mpr hle)
  · rw [hrun]
    exact List.mem_append_right _ List.mem_cons_self

/--
**In a run in which no handler takes the time of another away**, the NOTIFYs that are handed on
are apart. In any case one is taken up if none for its zone was within the delay, every one
that is taken up is handed on once its handler wakes up, and then no lock is left.
-/
theorem notifies_limited (delay clock : ℚ) (events : List Event)
    (hundisturbed : ∀ t ∈ Run.transitions step events (start delay clock),
      Undisturbed t.input t.before) {s : State}
    (hs : s = Run.final step events (start delay clock)) :
    Apart delay s.passedOn ∧
      (∀ request now, request.opcode = .NOTIFY → s.clock ≤ now →
        (∀ x ∈ s.accepted, x.zoneName = request.zoneName → delay < now - x.acquired) →
        ⟨request.zoneName, now⟩ ∈ (step (.arrive request now) s).asleep) ∧
      (s.passedOn ++ s.asleep).Perm s.accepted ∧
      (s.asleep = [] → ∀ zone, s.locker.data zone = none) := by
  subst hs
  have hspaced := (Run.invariant (I := Spaced delay) (G := Undisturbed)
    (fun e s hs he => hs.step he) (spaced_start delay clock) hundisturbed).2
  have hbooked := hspaced.booked
  refine ⟨?_, fun request now hop hnow hlong => hbooked.takes hop hnow hlong, hbooked.handlers, ?_⟩
  · exact ((hspaced.apart.of_perm hbooked.handlers).sublist (List.sublist_append_left _ _))
  · intro hasleep zone
    cases hdata : (Run.final step events (start delay clock)).locker.data zone with
    | none => rfl
    | some locktime =>
      -- a time in the lock would have its handler asleep
      have hmem := hbooked.asleep zone locktime hdata
      rw [hasleep] at hmem
      cases hmem

def sampleNotify : Request := ⟨.NOTIFY, "example.org."⟩

/-- A NOTIFY, one that comes too early after it, and one that does not. -/
def inTime : List Event :=
  [.arrive sampleNotify 0, .arrive sampleNotify 3, .wake 0 5, .arrive sampleNotify 6, .wake 0 11]

/-- Both handlers that wake up find their own time in the lock. -/
theorem inTime_undisturbed : ∀ t ∈ Run.transitions step inTime (start 5 0),
    Undisturbed t.input t.before := by
  have hfirst : ∀ h ∈ (Run.final step (inTime.take 2) (start 5 0)).asleep[0]?,
      ∀ locktime ∈ (Run.final step (inTime.take 2) (start 5 0)).locker.data h.zoneName,
        locktime = h.acquired := by decide +kernel
  have hsecond : ∀ h ∈ (Run.final step (inTime.take 4) (start 5 0)).asleep[0]?,
      ∀ locktime ∈ (Run.final step (inTime.take 4) (start 5 0)).locker.data h.zoneName,
        locktime = h.acquired := by decide +kernel
  simp only [inTime, Run.transitions, List.forall_mem_cons]
  refine ⟨trivial, trivial, ?_, trivial, ?_, by simp⟩
  · intro h hh _ _ locktime hdata
    exact hfirst h hh locktime hdata
  · intro h hh _ _ locktime hdata
    exact hsecond h hh locktime hdata

/-- The first and the last are handed on, and they are apart. -/
theorem notifies_limited_sample :
    (Run.final step inTime (start 5 0)).passedOn = [⟨"example.org.", 0⟩, ⟨"example.org.", 6⟩] ∧
      Apart 5 (Run.final step inTime (start 5 0)).passedOn :=
  ⟨by decide +kernel, (notifies_limited 5 0 inTime inTime_undisturbed rfl).1⟩

/--
The first of three handlers sleeps on. It takes the time of the second away, and the third
NOTIFY is handed on although it comes two seconds after the second.
-/
theorem overslept :
    (Run.final step [.arrive sampleNotify 0, .arrive sampleNotify 6, .wake 0 7,
      .arrive sampleNotify 8, .wake 0 11, .wake 0 13] (start 5 0)).passedOn =
      [⟨"example.org.", 0⟩, ⟨"example.org.", 6⟩, ⟨"example.org.", 8⟩] ∧
    ¬ Apart 5 [⟨"example.org.", 0⟩, ⟨"example.org.", 6⟩, ⟨"example.org.", 8⟩] := by
  refine ⟨by decide +kernel, ?_⟩
  intro h
  have := List.rel_of_pairwise_cons (List.Pairwise.of_cons h) List.mem_cons_self rfl
  norm_num at this

end LimitNotify

end Designate
