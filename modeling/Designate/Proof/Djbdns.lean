import Designate.Agent.Djbdns

/-!
# What the djbdns agent serves

For each zone whose last call has returned there is a read from which on every snapshot has the
zone as its datafile is, and the `data.cdb` in place was read no earlier than that. A call keeps
this for the other zones whatever it does, since it only ever adds a snapshot of the datafiles as
they are; for its own zone it begins with its own read.
-/

namespace Designate

namespace Djbdns

variable {a : Agent} {zoneName : String} {n i : Nat} {call : Call} {s : Snapshot} {phase : Phase}

/-- From a read on, all snapshots have a zone as its datafile is. -/
def Fresh (a : Agent) (zoneName : String) (n : Nat) : Prop :=
  ∀ s, a.Has s → n ≤ s.number → s.data zoneName = a.datafiles zoneName

/-- The zone is fresh from a read on that is not after that of the `data.cdb` in place. -/
def Served (a : Agent) (zoneName : String) : Prop :=
  ∃ n, n ≤ a.dataCdb.number ∧ Fresh a zoneName n

/-- What is known of a zone by where its last call is. -/
def Known (a : Agent) (zoneName : String) : Phase → Prop
  | .reading => True
  | .building s => Fresh a zoneName s.number
  | .moving s => Fresh a zoneName s.number
  | .returned => Served a zoneName
  | .raised => True

/-- The invariant. -/
structure Inv (a : Agent) : Prop where
  /-- No snapshot is of a read to come. -/
  numbers : ∀ s, a.Has s → s.number ≤ a.reads
  untouched : ∀ zoneName, (∀ call ∈ a.calls, call.zoneName ≠ zoneName) → Served a zoneName
  last : ∀ i call, a.IsLast i call → Known a call.zoneName call.phase

theorem inv_start (datafiles : Datafiles) : Inv (start datafiles) := by
  have hhas : ∀ s, (start datafiles).Has s → s = ⟨datafiles, 0⟩ := by
    intro s hs
    rcases hs with rfl | ⟨call, hcall, -⟩
    · rfl
    · exact absurd hcall List.not_mem_nil
  refine ⟨?_, ?_, ?_⟩
  · intro s hs
    rw [hhas s hs]
    exact Nat.le_refl 0
  · intro zoneName _
    refine ⟨0, Nat.le_refl 0, ?_⟩
    intro s hs _
    rw [hhas s hs]
    rfl
  · intro i call hlast
    exact absurd hlast.1 (by simp [start])

/-- What the invariant is for. -/
theorem Inv.settled (h : Inv a) (hsettled : a.Settled zoneName) :
    a.dataCdb.data zoneName = a.datafiles zoneName := by
  have hserved : Served a zoneName := by
    rcases hsettled with hnone | ⟨i, call, hlast, rfl, hphase⟩
    · exact h.untouched zoneName hnone
    · have hknown := h.last i call hlast
      rw [hphase] at hknown
      exact hknown
  obtain ⟨n, hn, hfresh⟩ := hserved
  exact hfresh a.dataCdb (.inl rfl) hn

/-! ## A call begins -/

theorem has_enter {datafiles : Datafiles} (hphase : phase.snapshot = none) :
    (a.enter zoneName datafiles phase).Has s ↔ a.Has s := by
  unfold Agent.Has Agent.enter
  refine or_congr_right ?_
  constructor
  · intro h
    obtain ⟨call, hcall, hs⟩ := h
    rcases List.mem_append.mp hcall with hcall | hcall
    · exact ⟨call, hcall, hs⟩
    · rw [List.mem_singleton.mp hcall] at hs
      rw [hphase] at hs
      exact absurd hs.symm (Option.some_ne_none s)
  · intro h
    obtain ⟨call, hcall, hs⟩ := h
    exact ⟨call, List.mem_append_left _ hcall, hs⟩

/-- A zone whose datafile stays keeps what is known of it. -/
theorem known_enter {datafiles : Datafiles} {other : String} {p : Phase}
    (hphase : phase.snapshot = none) (hkept : datafiles other = a.datafiles other)
    (h : Known a other p) : Known (a.enter zoneName datafiles phase) other p := by
  have hfresh : ∀ n, Fresh a other n → Fresh (a.enter zoneName datafiles phase) other n := by
    intro n hn s hs hle
    exact (hn s ((has_enter hphase).mp hs) hle).trans hkept.symm
  cases p with
  | reading => trivial
  | building s => exact hfresh _ h
  | moving s => exact hfresh _ h
  | returned =>
    obtain ⟨n, hn, hf⟩ := h
    exact ⟨n, hn, hfresh n hf⟩
  | raised => trivial

theorem getElem?_enter {datafiles : Datafiles} :
    (a.enter zoneName datafiles phase).calls[i]? = some call →
      a.calls[i]? = some call ∨ i = a.calls.length ∧ call = ⟨zoneName, phase⟩ := by
  intro h
  have hcalls : (a.enter zoneName datafiles phase).calls = a.calls ++ [⟨zoneName, phase⟩] := rfl
  rw [hcalls] at h
  rcases Nat.lt_trichotomy i a.calls.length with hlt | heq | hgt
  · rw [List.getElem?_append_left hlt] at h
    exact .inl h
  · subst heq
    rw [List.getElem?_append_right (Nat.le_refl _), Nat.sub_self] at h
    exact .inr ⟨rfl, (Option.some.inj h).symm⟩
  · have hlen : (a.calls ++ [(⟨zoneName, phase⟩ : Call)]).length ≤ i := by
      rw [List.length_append, List.length_singleton]
      omega
    rw [List.getElem?_eq_none hlen] at h
    exact absurd h.symm (Option.some_ne_none call)

/-- **A call begins**: for its own zone, all that has to be known is what its phase says. -/
theorem Inv.enter {datafiles : Datafiles} (h : Inv a) (hphase : phase.snapshot = none)
    (hkept : ∀ other, other ≠ zoneName → datafiles other = a.datafiles other)
    (hknown : Known (a.enter zoneName datafiles phase) zoneName phase) :
    Inv (a.enter zoneName datafiles phase) where
  numbers := by
    intro s hs
    exact h.numbers s ((has_enter hphase).mp hs)
  untouched := by
    intro other hnone
    -- another zone is left alone; of its calls nothing has changed
    have hne : other ≠ zoneName := by
      intro he
      exact hnone ⟨zoneName, phase⟩ (List.mem_append_right _ (List.mem_singleton_self _)) he.symm
    have hserved := h.untouched other fun call hcall => hnone call (List.mem_append_left _ hcall)
    exact known_enter (p := .returned) hphase (hkept other hne) hserved
  last := by
    intro i call hlast
    rcases getElem?_enter hlast.1 with hold | ⟨-, rfl⟩
    · -- an older call is the last of its zone only if the new one is of another zone
      have hlt : i < a.calls.length := (List.getElem?_eq_some_iff.mp hold).1
      have hnew : (a.enter zoneName datafiles phase).calls[a.calls.length]? =
          some ⟨zoneName, phase⟩ := List.getElem?_concat_length
      have hne : zoneName ≠ call.zoneName := hlast.2 _ _ hlt hnew
      refine known_enter hphase (hkept _ hne.symm) (h.last i call ⟨hold, ?_⟩)
      intro j other hij hj
      have hjlt : j < a.calls.length := (List.getElem?_eq_some_iff.mp hj).1
      exact hlast.2 j other hij ((List.getElem?_append_left hjlt).trans hj)
    · exact hknown

theorem inv_performAxfr {axfr : Option String} (h : Inv a) :
    Inv (a.performAxfrFromMinidns zoneName axfr) := by
  unfold Agent.performAxfrFromMinidns
  split
  · refine h.enter rfl ?_ trivial
    intro other hne
    exact Function.update_of_ne hne _ _
  · exact h.enter rfl (fun _ _ => rfl) trivial

theorem inv_deleteZone {ok : Bool} (h : Inv a) (hordered : Ordered (.delete zoneName ok) a) :
    Inv (a.deleteZone zoneName ok) := by
  unfold Agent.deleteZone
  cases ok with
  | false => exact h.enter rfl (fun _ _ => rfl) trivial
  | true =>
    rw [if_pos rfl]
    split
    · refine h.enter rfl ?_ trivial
      intro other hne
      exact Function.update_of_ne hne _ _
    · -- nothing is rebuilt, but no snapshot has the zone either
      rename_i hnone
      refine h.enter rfl (fun _ _ => rfl) ⟨0, Nat.zero_le _, ?_⟩
      intro s hs _
      exact (hordered hnone s ((has_enter rfl).mp hs)).trans hnone.symm

/-! ## A call goes on -/

/-- What a step of a call may do: the datafiles stay, what is there has been there or is a snapshot
of the datafiles with a new number, and what is in place is not older than before. -/
structure Advances (a b : Agent) (i : Nat) (call : Call) (phase : Phase) : Prop where
  calls : b.calls = a.calls.set i { call with phase := phase }
  datafiles : b.datafiles = a.datafiles
  snapshots : ∀ s, b.Has s → a.Has s ∨ s.data = a.datafiles
  dataCdb : a.dataCdb.number ≤ b.dataCdb.number

theorem Advances.known {b : Agent} (hstep : Advances a b i call phase) {other : String} {p : Phase}
    (h : Known a other p) : Known b other p := by
  have hfresh : ∀ n, Fresh a other n → Fresh b other n := by
    intro n hn s hs hle
    rw [hstep.datafiles]
    rcases hstep.snapshots s hs with hold | hnew
    · exact hn s hold hle
    · rw [hnew]
  cases p with
  | reading => trivial
  | building s => exact hfresh _ h
  | moving s => exact hfresh _ h
  | returned =>
    obtain ⟨n, hn, hf⟩ := h
    exact ⟨n, Nat.le_trans hn hstep.dataCdb, hfresh n hf⟩
  | raised => trivial

theorem Advances.getElem? {b : Agent} (hstep : Advances a b i call phase)
    (hcall : a.calls[i]? = some call) (j : Nat) :
    b.calls[j]? = if j = i then some { call with phase := phase } else a.calls[j]? := by
  have hlt : i < a.calls.length := (List.getElem?_eq_some_iff.mp hcall).1
  rw [hstep.calls]
  by_cases hji : j = i
  · rw [if_pos hji, hji, List.getElem?_set_self hlt]
  · rw [if_neg hji, List.getElem?_set_ne (Ne.symm hji)]

/-- **A call goes on**: what is left to know is its own zone, if no other call of it has begun. -/
theorem Inv.advance {b : Agent} {p : Phase} (h : Inv a) (hcall : a.calls[i]? = some call)
    (hstep : Advances a b i call p) (hnumbers : ∀ s, b.Has s → s.number ≤ b.reads)
    (hknown : a.IsLast i call → Known b call.zoneName p) : Inv b where
  numbers := hnumbers
  untouched := by
    intro zoneName hnone
    refine hstep.known (p := .returned) (h.untouched zoneName fun old hold he => ?_)
    obtain ⟨j, hj⟩ := List.mem_iff_getElem?.mp hold
    have hget := hstep.getElem? hcall j
    by_cases hji : j = i
    · subst hji
      obtain rfl := Option.some.inj (hcall.symm.trans hj)
      rw [if_pos rfl] at hget
      exact hnone _ (List.mem_of_getElem? hget) he
    · rw [if_neg hji, hj] at hget
      exact hnone old (List.mem_of_getElem? hget) he
  last := by
    intro j new hlast
    have hget := hlast.1
    rw [hstep.getElem? hcall j] at hget
    -- the zones of the calls that have begun later are the same
    have hlater : ∀ k other, j < k → a.calls[k]? = some other → other.zoneName ≠ new.zoneName := by
      intro k other hjk hk
      have hnew := hstep.getElem? hcall k
      by_cases hki : k = i
      · subst hki
        obtain rfl := Option.some.inj (hcall.symm.trans hk)
        rw [if_pos rfl] at hnew
        have hne := hlast.2 k _ hjk hnew
        exact hne
      · rw [if_neg hki, hk] at hnew
        exact hlast.2 k other hjk hnew
    by_cases hji : j = i
    · subst hji
      rw [if_pos rfl] at hget
      obtain rfl := Option.some.inj hget
      exact hknown ⟨hcall, hlater⟩
    · rw [if_neg hji] at hget
      exact hstep.known (h.last j new ⟨hget, hlater⟩)

/-- The snapshots after a call has gone on: that of its new phase, and those of the others. -/
theorem has_set {calls : List Call} {call' : Call}
    (h : ∃ c ∈ calls.set i call', c.phase.snapshot = some s) :
    call'.phase.snapshot = some s ∨ ∃ c ∈ calls, c.phase.snapshot = some s := by
  obtain ⟨c, hc, hs⟩ := h
  rcases List.mem_or_eq_of_mem_set hc with hmem | rfl
  · exact .inr ⟨c, hmem, hs⟩
  · exact .inl hs

/-- A call goes on with the snapshot it has, or without one. -/
theorem advances_goTo (hcall : a.calls[i]? = some call)
    (hphase : ∀ s, phase.snapshot = some s → call.phase.snapshot = some s) :
    Advances a (a.goTo i call phase) i call phase where
  calls := rfl
  datafiles := rfl
  snapshots := by
    intro s hs
    rcases hs with rfl | hs
    · exact .inl (.inl rfl)
    · rcases has_set hs with hnew | hold
      · exact .inl (.inr ⟨call, List.mem_of_getElem? hcall, hphase s hnew⟩)
      · exact .inl (.inr hold)
  dataCdb := Nat.le_refl _

theorem Inv.goTo (h : Inv a) (hcall : a.calls[i]? = some call)
    (hphase : ∀ s, phase.snapshot = some s → call.phase.snapshot = some s)
    (hknown : Known a call.zoneName call.phase → Known a call.zoneName phase) :
    Inv (a.goTo i call phase) := by
  have hstep := advances_goTo hcall hphase
  refine h.advance hcall hstep ?_ ?_
  · intro s hs
    rcases hs with rfl | hs
    · exact h.numbers _ (.inl rfl)
    · rcases has_set hs with hnew | hold
      · exact h.numbers s (.inr ⟨call, List.mem_of_getElem? hcall, hphase s hnew⟩)
      · exact h.numbers s (.inr hold)
  · intro hlast
    exact hstep.known (hknown (h.last i call hlast))

/-- **Reading the datafiles**: all that is older has a smaller number. -/
theorem Inv.read (h : Inv a) (hcall : a.calls[i]? = some call) :
    Inv ({ a with reads := a.reads + 1 }.goTo i call (.building ⟨a.datafiles, a.reads + 1⟩)) := by
  -- the only snapshot more is the one just taken, with the next number
  have hhas : ∀ s, ({ a with reads := a.reads + 1 }.goTo i call
      (.building ⟨a.datafiles, a.reads + 1⟩)).Has s → a.Has s ∨ s = ⟨a.datafiles, a.reads + 1⟩ := by
    intro s hs
    rcases hs with rfl | hs
    · exact .inl (.inl rfl)
    · rcases has_set hs with hnew | hold
      · exact .inr (Option.some.inj hnew).symm
      · exact .inl (.inr hold)
  refine h.advance (p := .building ⟨a.datafiles, a.reads + 1⟩) hcall ⟨rfl, rfl, ?_, ?_⟩ ?_ ?_
  · intro s hs
    rcases hhas s hs with hold | rfl
    · exact .inl hold
    · exact .inr rfl
  · exact Nat.le_refl _
  · intro s hs
    rcases hhas s hs with hold | rfl
    · have hle := h.numbers s hold
      exact Nat.le_succ_of_le hle
    · exact Nat.le_refl _
  · intro _ s hs hle
    rcases hhas s hs with hold | rfl
    · have hnumber := h.numbers s hold
      have hnew : a.reads + 1 ≤ s.number := hle
      omega
    · rfl

/-- **Renaming a `data.cdb` into place** that was read after the one there. -/
theorem Inv.move (h : Inv a) (hcall : a.calls[i]? = some call) (hphase : call.phase = .moving s)
    (hnewer : a.dataCdb.number < s.number) :
    Inv ({ a with dataCdb := s }.goTo i call .returned) := by
  have hmoved : a.Has s := .inr ⟨call, List.mem_of_getElem? hcall, by rw [hphase]; rfl⟩
  have hhas : ∀ s', ({ a with dataCdb := s }.goTo i call .returned).Has s' → a.Has s' := by
    intro s' hs
    rcases hs with rfl | hs
    · exact hmoved
    · rcases has_set hs with hnew | hold
      · exact absurd hnew.symm (Option.some_ne_none s')
      · exact .inr hold
  refine h.advance (p := .returned) hcall ⟨rfl, rfl, ?_, ?_⟩ ?_ ?_
  · intro s' hs
    exact .inl (hhas s' hs)
  · exact Nat.le_of_lt hnewer
  · intro s' hs
    exact h.numbers s' (hhas s' hs)
  · intro hlast
    have hknown := h.last i call hlast
    rw [hphase] at hknown
    exact ⟨s.number, Nat.le_refl _, fun s' hs hle => hknown s' (hhas s' hs) hle⟩

theorem inv_rebuild {ok : Bool} (h : Inv a) (hordered : Ordered (.rebuild i ok) a) :
    Inv (a.rebuildDataCdb i ok) := by
  unfold Agent.rebuildDataCdb
  split
  · exact h
  · rename_i call hcall
    -- a call that raises holds no snapshot
    have hraised : Inv (a.goTo i call .raised) :=
      h.goTo hcall (fun s hs => absurd hs.symm (Option.some_ne_none s)) fun _ => trivial
    split
    · cases ok with
      | true => exact h.read hcall
      | false => exact hraised
    · rename_i s hphase
      cases ok with
      | true =>
        refine h.goTo hcall ?_ ?_
        · intro s' hs
          rw [hphase]
          exact hs
        · intro hknown
          rw [hphase] at hknown
          exact hknown
      | false => exact hraised
    · rename_i s hphase
      cases ok with
      | true => exact h.move hcall hphase (hordered call s hcall hphase)
      | false => exact hraised
    · exact h
    · exact h

/-! ## Every run -/

/-- **Every ordered step keeps the invariant.** -/
theorem inv_step {event : Event} (h : Inv a) (hordered : Ordered event a) : Inv (step event a) := by
  cases event with
  | create zoneName axfr => exact inv_performAxfr h
  | update zoneName axfr => exact inv_performAxfr h
  | delete zoneName ok => exact inv_deleteZone h hordered
  | rebuild i ok => exact inv_rebuild h hordered

/-- **The agent serves what it stores, in every run of ordered steps**: no `data.cdb` is replaced by
one that was read before it, and no deletion finds its datafile gone while a `data.cdb` still has
the zone. Each zone whose last call has returned is served as its datafile is, and with no call
under way and all zones settled that is all there is. -/
theorem served_of_ordered (datafiles : Datafiles) (events : List Event)
    (hordered : ∀ tr ∈ Run.transitions step events (start datafiles), Ordered tr.input tr.before) :
    (∀ zoneName, (Run.final step events (start datafiles)).Settled zoneName →
      (Run.final step events (start datafiles)).dataCdb.data zoneName =
        (Run.final step events (start datafiles)).datafiles zoneName) ∧
    ((Run.final step events (start datafiles)).Quiet →
      (∀ zoneName, (Run.final step events (start datafiles)).Settled zoneName) →
      (Run.final step events (start datafiles)).dataCdb.data =
        (Run.final step events (start datafiles)).datafiles) := by
  have hinv : Inv (Run.final step events (start datafiles)) :=
    (Run.invariant (fun _ _ h hguard => inv_step h hguard) (inv_start datafiles) hordered).2
  refine ⟨fun _ => hinv.settled, ?_⟩
  intro _ hsettled
  funext zoneName
  exact hinv.settled (hsettled zoneName)

/-- A zone is deleted while the call that created it is still building its `data.cdb`. -/
def withdrawn : List Event :=
  [.create "a" (some "1"), .rebuild 0 true, .delete "a" true, .rebuild 0 true, .rebuild 0 true,
    .rebuild 1 true, .rebuild 1 true, .rebuild 1 true]

/-- Every `data.cdb` in place is older than the next: that of the deletion is read last. -/
theorem withdrawn_ordered :
    ∀ tr ∈ Run.transitions step withdrawn (start fun _ => none), Ordered tr.input tr.before := by
  simp only [withdrawn, Run.transitions, List.forall_mem_cons]
  refine ⟨trivial, ?_, ?_, ?_, ?_, ?_, ?_, ?_, ?_⟩
  · intro call s hcall hphase
    obtain rfl : ⟨"a", .reading⟩ = call := Option.some.inj hcall
    cases hphase
  · -- the deletion finds the datafile
    intro hnone
    exact absurd hnone (by decide)
  · intro call s hcall hphase
    obtain ⟨s', rfl⟩ : ∃ s', ⟨"a", .building s'⟩ = call := ⟨_, Option.some.inj hcall⟩
    cases hphase
  · intro call s hcall hphase
    obtain rfl := Option.some.inj hcall
    obtain rfl := Phase.moving.inj hphase
    exact Nat.zero_lt_one
  · intro call s hcall hphase
    obtain rfl : ⟨"a", .reading⟩ = call := Option.some.inj hcall
    cases hphase
  · intro call s hcall hphase
    obtain ⟨s', rfl⟩ : ∃ s', ⟨"a", .building s'⟩ = call := ⟨_, Option.some.inj hcall⟩
    cases hphase
  · intro call s hcall hphase
    obtain rfl := Option.some.inj hcall
    obtain rfl := Phase.moving.inj hphase
    exact Nat.one_lt_two
  · intro tr htr
    exact absurd htr List.not_mem_nil

/-- In between the zone was served, and at the end it is not. -/
theorem served_of_ordered_sample :
    (Run.final step (withdrawn.take 5) (start fun _ => none)).dataCdb.data "a" = some "1" ∧
      (Run.final step withdrawn (start fun _ => none)).dataCdb.data "a" =
        (Run.final step withdrawn (start fun _ => none)).datafiles "a" := by
  refine ⟨by decide, (served_of_ordered (fun _ => none) withdrawn withdrawn_ordered).1 "a" ?_⟩
  refine .inr ⟨1, ⟨"a", .returned⟩, ⟨rfl, ?_⟩, rfl, rfl⟩
  intro j other hj hother
  have hlen := (List.getElem?_eq_some_iff.mp hother).1
  have htwo : j < 2 := hlen
  omega

/-- The second of two calls reads the datafiles after the first one and is done before it. -/
def overtaken : List Event :=
  [.create "a" (some "1"), .rebuild 0 true, .create "b" (some "2"), .rebuild 1 true,
    .rebuild 1 true, .rebuild 1 true, .rebuild 0 true, .rebuild 0 true]

theorem overtaken_calls : (Run.final step overtaken (start fun _ => none)).calls =
    [⟨"a", .returned⟩, ⟨"b", .returned⟩] := rfl

/-- Both calls return, and no other zone has had one. -/
theorem overtaken_settled (zoneName : String) :
    (Run.final step overtaken (start fun _ => none)).Settled zoneName := by
  unfold Agent.Settled Agent.IsLast
  rw [overtaken_calls]
  -- each of the two zones has one call, which is its last
  by_cases ha : zoneName = "a"
  · subst ha
    refine .inr ⟨0, _, ⟨rfl, ?_⟩, rfl, rfl⟩
    intro j other hj hother
    have hlen := (List.getElem?_eq_some_iff.mp hother).1
    have hone : j = 1 := by
      simp only [List.length_cons, List.length_nil] at hlen
      omega
    subst hone
    obtain rfl := Option.some.inj hother
    decide
  · by_cases hb : zoneName = "b"
    · subst hb
      refine .inr ⟨1, _, ⟨rfl, ?_⟩, rfl, rfl⟩
      intro j other hj hother
      have hlen := (List.getElem?_eq_some_iff.mp hother).1
      simp only [List.length_cons, List.length_nil] at hlen
      omega
    · left
      simp only [List.forall_mem_cons]
      exact ⟨Ne.symm ha, Ne.symm hb, by simp⟩

/-- The zone `b` was created and is not served: the other `data.cdb` has come over it. -/
theorem zone_missing :
    ¬ ∀ (datafiles : Datafiles) (events : List Event),
      (Run.final step events (start datafiles)).Quiet →
      (∀ zoneName, (Run.final step events (start datafiles)).Settled zoneName) →
      (Run.final step events (start datafiles)).dataCdb.data =
        (Run.final step events (start datafiles)).datafiles := by
  intro h
  have hserved := h (fun _ => none) overtaken ?_ overtaken_settled
  · exact absurd (congrFun hserved "b") (by decide)
  · intro call hcall
    rw [overtaken_calls] at hcall
    rcases List.mem_cons.mp hcall with rfl | hcall
    · exact id
    · obtain rfl := List.mem_singleton.mp hcall
      exact id

/-- A zone whose deletion failed to build is still served after another deletion has returned. -/
example :
    let a := Run.final step [.create "a" (some "1"), .rebuild 0 true, .rebuild 0 true,
      .rebuild 0 true, .delete "a" true, .rebuild 1 true, .rebuild 1 false, .delete "a" true]
      (start fun _ => none)
    (a.dataCdb.data "a", a.datafiles "a") = (some "1", none) := by decide

end Djbdns

end Designate
