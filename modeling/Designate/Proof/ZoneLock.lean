import Designate.Central.ZoneLock
import Mathlib.Algebra.Order.Ring.Int

/-!
# When the zone lock does its work

The held set outlives the calls. It never loses a zone that a call has not put into it,
so one call that raises under its lock makes the thread walk past that lock for good.
Along the events of a thread, the lock and the bodies of a zone are counted: calls that
leave the set as they found it enter no body without its lock.
-/

namespace Designate

namespace ZoneLock

variable {ζ : Type} [DecidableEq ζ]

/-! ## The held set -/

/-- Nothing that is held gets lost. By induction on the calls. -/
theorem run_mono (calls : Calls ζ) (held : Finset ζ) : held ⊆ (calls.run held).2 := by
  induction calls generalizing held with
  | nil => exact Finset.Subset.refl held
  | call zone body raises next ihb ihn =>
    unfold Calls.run
    by_cases hz : zone ∈ held
    · rw [if_pos hz]
      exact (ihb held).trans (ihn _)
    · rw [if_neg hz]
      refine Finset.Subset.trans ?_ (ihn _)
      have hb : held ⊆ (body.run (insert zone held)).2 :=
        (Finset.subset_insert zone held).trans (ihb _)
      cases raises with
      | true => exact hb
      | false => exact fun x hx => Finset.mem_erase.mpr ⟨fun h => hz (h ▸ hx), hb hx⟩

/-- The set is left as it was found exactly if no call that takes its lock raises. -/
theorem run_restores_iff (calls : Calls ζ) (held : Finset ζ) :
    (calls.run held).2 = held ↔ calls.Clean held := by
  induction calls generalizing held with
  | nil => exact iff_of_true rfl trivial
  | call zone body raises next ihb ihn =>
    unfold Calls.run Calls.Clean
    by_cases hz : zone ∈ held
    · rw [if_pos hz, if_pos hz, ← ihb held]
      dsimp only
      constructor
      · intro h
        have hb : (body.run held).2 = held :=
          Finset.Subset.antisymm ((run_mono next _).trans h.subset) (run_mono body held)
        rw [hb] at h
        exact ⟨hb, (ihn held).mp h⟩
      · rintro ⟨hb, hn⟩
        rw [hb]
        exact (ihn held).mpr hn
    · rw [if_neg hz, if_neg hz, ← ihb (insert zone held)]
      dsimp only
      have hbody := run_mono body (insert zone held)
      constructor
      · intro h
        cases raises with
        | true =>
          -- the zone of a call that raised stays in the set for good
          have hmem : zone ∈ (next.run (body.run (insert zone held)).2).2 :=
            run_mono next _ (hbody (Finset.mem_insert_self zone held))
          exact absurd (h ▸ hmem) hz
        | false =>
          have he : ((body.run (insert zone held)).2.erase zone) = held := by
            refine Finset.Subset.antisymm ((run_mono next _).trans h.subset) fun x hx => ?_
            exact Finset.mem_erase.mpr
              ⟨fun e => hz (e ▸ hx), hbody (Finset.mem_insert_of_mem hx)⟩
          have hb : (body.run (insert zone held)).2 = insert zone held := by
            have := Finset.insert_erase (hbody (Finset.mem_insert_self zone held))
            rw [he] at this
            exact this.symm
          have hn : (next.run held).2 = held := by
            simpa only [Bool.false_eq_true, if_false, he] using h
          exact ⟨⟨rfl, hb⟩, (ihn held).mp hn⟩
      · rintro ⟨⟨rfl, hb⟩, hn⟩
        simp only [Bool.false_eq_true, if_false, hb, Finset.erase_insert hz]
        exact (ihn held).mpr hn

/-! ## Locks and bodies along the events -/

/-- How often the lock is taken more than given back. -/
def locks (zone : ζ) (events : List (Event ζ)) : ℤ :=
  events.count (.acquire zone) - events.count (.release zone)

/-- How many bodies for the zone the thread is in. -/
def depth (zone : ζ) (events : List (Event ζ)) : ℤ :=
  events.count (.enter zone) - events.count (.leave zone)

theorem holds_iff {zone : ζ} {events : List (Event ζ)} :
    Holds zone events ↔ 0 < locks zone events := by
  unfold Holds locks
  omega

theorem inside_iff {zone : ζ} {events : List (Event ζ)} :
    Inside zone events ↔ 0 < depth zone events := by
  unfold Inside depth
  omega

@[simp] theorem locks_append (zone : ζ) (es es' : List (Event ζ)) :
    locks zone (es ++ es') = locks zone es + locks zone es' := by
  simp only [locks, List.count_append]
  omega

@[simp] theorem depth_append (zone : ζ) (es es' : List (Event ζ)) :
    depth zone (es ++ es') = depth zone es + depth zone es' := by
  simp only [depth, List.count_append]
  omega

/-- Nothing is given back that was not taken; under `g`, bodies are only entered under the lock. -/
structure Sound (zone : ζ) (g : Prop) (events : List (Event ζ)) : Prop where
  settled : locks zone events = 0 ∧ depth zone events = 0
  sane : ∀ p, p <+: events → 0 ≤ locks zone p ∧ 0 ≤ depth zone p ∧
    (g → 0 < depth zone p → 0 < locks zone p)

section

variable {zone : ζ} {g : Prop} {es es' : List (Event ζ)}

theorem Sound.nil : Sound zone g ([] : List (Event ζ)) := by
  refine ⟨⟨rfl, rfl⟩, fun p hp => ?_⟩
  rw [List.prefix_nil.mp hp]
  exact ⟨Int.le_refl 0, Int.le_refl 0, fun _ h => absurd h (by simp [depth])⟩

theorem Sound.append (h : Sound zone g es) (h' : Sound zone g es') : Sound zone g (es ++ es') := by
  refine ⟨⟨?_, ?_⟩, fun p hp => ?_⟩
  · rw [locks_append, h.settled.1, h'.settled.1]; rfl
  · rw [depth_append, h.settled.2, h'.settled.2]; rfl
  · rcases List.prefix_or_prefix_of_prefix hp (List.prefix_append es es') with hp' | hp'
    · exact h.sane p hp'
    · obtain ⟨q, rfl⟩ := hp'
      rw [locks_append, depth_append, h.settled.1, h.settled.2, Int.zero_add, Int.zero_add]
      exact h'.sane q ((List.prefix_append_right_inj es).mp hp)

/-- A prefix ends before, in, or after the middle. -/
theorem prefix_around {α : Type} {p pre mid post : List α} (h : p <+: pre ++ (mid ++ post)) :
    p <+: pre ∨ (∃ q, q <+: mid ∧ p = pre ++ q) ∨ ∃ q, q <+: post ∧ p = pre ++ (mid ++ q) := by
  rcases List.prefix_or_prefix_of_prefix h (List.prefix_append pre _) with hp | ⟨q, rfl⟩
  · exact Or.inl hp
  · have hq : q <+: mid ++ post := (List.prefix_append_right_inj pre).mp h
    rcases List.prefix_or_prefix_of_prefix hq (List.prefix_append mid _) with hq' | ⟨q', rfl⟩
    · exact Or.inr (Or.inl ⟨q, hq', rfl⟩)
    · exact Or.inr (Or.inr ⟨q', (List.prefix_append_right_inj mid).mp hq, rfl⟩)

/-- Events around a body: what they do to the counts at every point. -/
theorem Sound.around {g' : Prop} {pre post : List (Event ζ)} (h : Sound zone g' es)
    (hend : locks zone pre + locks zone post = 0 ∧ depth zone pre + depth zone post = 0)
    (hpre : ∀ p, p <+: pre → 0 ≤ locks zone p ∧ 0 ≤ depth zone p ∧
      (g → 0 < depth zone p → 0 < locks zone p))
    (hpost : ∀ p, p <+: post → 0 ≤ locks zone pre + locks zone p ∧
      0 ≤ depth zone pre + depth zone p ∧
      (g → 0 < depth zone pre + depth zone p → 0 < locks zone pre + locks zone p))
    (hmid : g → 0 < locks zone pre ∨ g' ∧ depth zone pre = 0) :
    Sound zone g (pre ++ (es ++ post)) := by
  obtain ⟨hl, hd⟩ := h.settled
  refine ⟨⟨?_, ?_⟩, fun p hp => ?_⟩
  · rw [locks_append, locks_append, hl]; omega
  · rw [depth_append, depth_append, hd]; omega
  · -- a prefix ends before the body, in it, or behind it
    rcases prefix_around hp with hp | ⟨q, hq, rfl⟩ | ⟨q, hq, rfl⟩
    · exact hpre p hp
    · obtain ⟨hlq, hdq, hgq⟩ := h.sane q hq
      obtain ⟨hlp, hdp, -⟩ := hpre pre (List.prefix_refl pre)
      rw [locks_append, depth_append]
      refine ⟨by omega, by omega, fun hg hpos => ?_⟩
      rcases hmid hg with hlock | ⟨hg', hzero⟩
      · omega
      · have := hgq hg' (by omega)
        omega
    · have := hpost q hq
      simpa [hl, hd] using this

end

theorem prefix_pair {α : Type} {p : List α} {a b : α} (h : p <+: [a, b]) :
    p = [] ∨ p = [a] ∨ p = [a, b] := by
  rw [← List.mem_inits] at h
  simpa using h

/-- A body that runs without taking the lock. -/
theorem Sound.nested {zone z : ζ} {g : Prop} {es : List (Event ζ)} (h : Sound zone g es)
    (hg : g → z ≠ zone) : Sound zone g ([.enter z] ++ (es ++ [.leave z])) := by
  -- inside a call for its own zone nothing is claimed; a call for another zone is not counted
  by_cases hz : z = zone
  · subst hz
    have hg' : ¬ g := fun h => hg h rfl
    refine h.around ?_ ?_ ?_ fun h => absurd h hg'
    · simp [locks, depth]
    · intro p hp
      rw [← List.mem_inits] at hp
      rcases (by simpa using hp : p = [] ∨ p = [.enter z]) with rfl | rfl <;>
        simp [locks, depth, hg']
    · intro p hp
      rw [← List.mem_inits] at hp
      rcases (by simpa using hp : p = [] ∨ p = [.leave z]) with rfl | rfl <;>
        simp [locks, depth, hg']
  · refine h.around ?_ ?_ ?_ fun hg' => Or.inr ⟨hg', ?_⟩
    · simp [locks, depth, hz]
    · intro p hp
      rw [← List.mem_inits] at hp
      rcases (by simpa using hp : p = [] ∨ p = [.enter z]) with rfl | rfl <;>
        simp [locks, depth, hz]
    · intro p hp
      rw [← List.mem_inits] at hp
      rcases (by simpa using hp : p = [] ∨ p = [.leave z]) with rfl | rfl <;>
        simp [locks, depth, hz]
    · simp [depth, hz]

/-- A body that runs under its lock. -/
theorem Sound.outermost {zone z : ζ} {g g' : Prop} {es : List (Event ζ)} (h : Sound zone g' es)
    (hg : g → z = zone ∨ g') :
    Sound zone g ([.acquire z, .enter z] ++ (es ++ [.leave z, .release z])) := by
  by_cases hz : z = zone
  · subst hz
    refine h.around ?_ ?_ ?_ fun _ => Or.inl ?_
    · simp [locks, depth]
    · intro p hp
      rcases prefix_pair hp with rfl | rfl | rfl <;> simp [locks, depth]
    · intro p hp
      rcases prefix_pair hp with rfl | rfl | rfl <;> simp [locks, depth]
    · simp [locks]
  · refine h.around ?_ ?_ ?_ fun hg' => Or.inr ⟨(hg hg').resolve_left hz, ?_⟩
    · simp [locks, depth, hz]
    · intro p hp
      rcases prefix_pair hp with rfl | rfl | rfl <;> simp [locks, depth, hz]
    · intro p hp
      rcases prefix_pair hp with rfl | rfl | rfl <;> simp [locks, depth, hz]
    · simp [depth, hz]

/-- **Clean calls enter no body without its lock.** By induction on the calls. -/
theorem run_sound (calls : Calls ζ) (held : Finset ζ) (zone : ζ) :
    Sound zone (zone ∉ held ∧ calls.Clean held) (calls.run held).1 := by
  induction calls generalizing held with
  | nil => exact Sound.nil
  | call z body raises next ihb ihn =>
    by_cases hz : z ∈ held
    · -- the zone is marked as held, so the body is entered as it is
      have hinner : Sound zone (zone ∉ held ∧ (Calls.call z body raises next).Clean held)
          ([.enter z] ++ ((body.run held).1 ++ [.leave z])) := by
        refine Sound.nested ⟨(ihb held).settled, fun p hp => ?_⟩ fun hg he => hg.1 (he ▸ hz)
        obtain ⟨hl, hd, hg⟩ := (ihb held).sane p hp
        refine ⟨hl, hd, fun h => hg ⟨h.1, ?_⟩⟩
        have := h.2.1
        rwa [if_pos hz] at this
      have hrest : Sound zone (zone ∉ held ∧ (Calls.call z body raises next).Clean held)
          (next.run (body.run held).2).1 := by
        refine ⟨(ihn _).settled, fun p hp => ?_⟩
        obtain ⟨hl, hd, hg⟩ := (ihn _).sane p hp
        refine ⟨hl, hd, fun h => hg ?_⟩
        have hbody := h.2.1
        rw [if_pos hz, ← run_restores_iff] at hbody
        rw [hbody]
        exact ⟨h.1, h.2.2⟩
      have := hinner.append hrest
      rw [Calls.run, if_pos hz]
      simpa using this
    · -- the lock is taken, and given back even if the body raises; what may stay is the mark
      set held' := if raises then (body.run (insert z held)).2
        else (body.run (insert z held)).2.erase z with hheld'
      have hinner : Sound zone (zone ∉ held ∧ (Calls.call z body raises next).Clean held)
          ([.acquire z, .enter z] ++ ((body.run (insert z held)).1 ++ [.leave z, .release z])) := by
        refine Sound.outermost (ihb (insert z held)) fun hg => ?_
        by_cases he : z = zone
        · exact Or.inl he
        · refine Or.inr ⟨fun hm => ?_, ?_⟩
          · rcases Finset.mem_insert.mp hm with rfl | hm
            · exact he rfl
            · exact hg.1 hm
          · have := hg.2.1
            rw [if_neg hz] at this
            exact this.2
      have hrest : Sound zone (zone ∉ held ∧ (Calls.call z body raises next).Clean held)
          (next.run held').1 := by
        refine ⟨(ihn _).settled, fun p hp => ?_⟩
        obtain ⟨hl, hd, hg⟩ := (ihn _).sane p hp
        refine ⟨hl, hd, fun h => hg ?_⟩
        have hbody := h.2.1
        rw [if_neg hz, ← run_restores_iff] at hbody
        -- clean calls restore the marks, so the rest runs as if nothing had been called
        have he : held' = held := by
          rw [hheld', hbody.1, hbody.2, if_neg (by simp), Finset.erase_insert hz]
        rw [he]
        exact ⟨h.1, h.2.2⟩
      have := hinner.append hrest
      rw [Calls.run, if_neg hz]
      simpa using this

/-! ## The discipline -/

/--
**The discipline of the zone lock is kept exactly if no call that takes its lock
raises.** A call for a zone the thread is at work on already may raise.
-/
theorem disciplined_iff (calls : Calls ζ) (held : Finset ζ) :
    Disciplined calls held ↔ calls.Clean held := by
  constructor
  · exact fun h => (run_restores_iff calls held).mp h.restored
  · intro h
    have hlocked : ∀ (calls : Calls ζ) (held : Finset ζ), calls.Clean held →
        ∀ p, p <+: (calls.run held).1 → ∀ zone ∉ held, Inside zone p → Holds zone p := by
      intro calls held h p hp zone hz hin
      rw [holds_iff]
      exact ((run_sound calls held zone).sane p hp).2.2 ⟨hz, h⟩ (inside_iff.mp hin)
    refine ⟨(run_restores_iff calls held).mpr h, hlocked calls held h, ?_⟩
    rintro other hother p q hp hq hexcl zone hz ⟨hin, hin'⟩
    exact hexcl zone ⟨hlocked calls held h p hp zone hz hin,
      hlocked other ∅ hother q hq zone (Finset.notMem_empty zone) hin'⟩

/-- A call that raises leaves its zone behind, and the next call for it takes no lock. -/
theorem raising_call_undisciplined :
    ¬ Disciplined (Calls.call 2 .nil true (.call 2 .nil false .nil)) (∅ : Finset Nat) ∧
      (Calls.call 2 .nil true (.call 2 .nil false .nil)).run (∅ : Finset Nat) =
        ([.acquire 2, .enter 2, .leave 2, .release 2, .enter 2, .leave 2], {2}) := by
  exact ⟨fun h => absurd h.restored (by decide), by decide⟩

end ZoneLock

end Designate
