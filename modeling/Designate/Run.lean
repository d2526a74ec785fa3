import Mathlib.Data.List.Basic
import Mathlib.Order.Basic

/-!
# Runs

A service is driven by inputs, one after the other, each of which takes the state
to the next. A run is a list of inputs; its transitions are the inputs with the
states around them. What every step keeps, under a guard on the input and the state
before it, holds all along every run whose transitions pass the guard.
-/

namespace Designate

namespace Run

/-- One step of a run. -/
structure Transition (σ ι : Type) where
  before : σ
  input : ι
  after : σ

variable {σ ι : Type} (step : ι → σ → σ)

/-- The state at the end of a run. -/
def final : List ι → σ → σ
  | [], s => s
  | i :: is, s => final is (step i s)

/-- The transitions of a run, in order. -/
def transitions : List ι → σ → List (Transition σ ι)
  | [], _ => []
  | i :: is, s => ⟨s, i, step i s⟩ :: transitions is (step i s)

variable {step} {I : σ → Prop} {G : ι → σ → Prop} {is : List ι} {s : σ}

theorem transition_after {t : Transition σ ι} (ht : t ∈ transitions step is s) :
    t.after = step t.input t.before := by
  induction is generalizing s with
  | nil => exact absurd ht List.not_mem_nil
  | cons i is ih =>
    rcases List.mem_cons.mp ht with rfl | ht
    · rfl
    · exact ih ht

/-- Every input has its transition. -/
theorem transitions_input (is : List ι) (s : σ) :
    (transitions step is s).map Transition.input = is := by
  induction is generalizing s with
  | nil => rfl
  | cons i is ih => exact congrArg (i :: ·) (ih (step i s))

theorem input_mem {t : Transition σ ι} (ht : t ∈ transitions step is s) : t.input ∈ is := by
  rw [← @transitions_input _ _ step is s]
  exact List.mem_map_of_mem ht

theorem exists_transition {i : ι} (hi : i ∈ is) : ∃ t ∈ transitions step is s, t.input = i := by
  rw [← @transitions_input _ _ step is s] at hi
  exact List.mem_map.mp hi

theorem final_append (is js : List ι) (s : σ) :
    final step (is ++ js) s = final step js (final step is s) := by
  induction is generalizing s with
  | nil => rfl
  | cons i is ih => exact ih (step i s)

theorem transitions_append (is js : List ι) (s : σ) :
    transitions step (is ++ js) s =
      transitions step is s ++ transitions step js (final step is s) := by
  induction is generalizing s with
  | nil => rfl
  | cons i is ih => exact congrArg (_ :: ·) (ih (step i s))

/-- The transitions of the second half of a run. -/
theorem mem_transitions_append {is js : List ι} {t : Transition σ ι}
    (ht : t ∈ transitions step js (final step is s)) : t ∈ transitions step (is ++ js) s := by
  rw [transitions_append]
  exact List.mem_append_right _ ht

/-- The transitions of the first half of a run. -/
theorem mem_transitions_left {is js : List ι} {t : Transition σ ι}
    (ht : t ∈ transitions step is s) : t ∈ transitions step (is ++ js) s := by
  rw [transitions_append]
  exact List.mem_append_left _ ht

/-- **The invariant holds before every transition and at the end.** By induction on the inputs. -/
theorem invariant (hstep : ∀ i s, I s → G i s → I (step i s)) (init : I s)
    (guard : ∀ t ∈ transitions step is s, G t.input t.before) :
    (∀ t ∈ transitions step is s, I t.before) ∧ I (final step is s) := by
  induction is generalizing s with
  | nil => exact ⟨fun t ht => absurd ht List.not_mem_nil, init⟩
  | cons i is ih =>
    have hI : I (step i s) := hstep i s init (guard _ List.mem_cons_self)
    obtain ⟨hbefore, hfinal⟩ := ih hI fun t ht => guard t (List.mem_cons_of_mem _ ht)
    refine ⟨fun t ht => ?_, hfinal⟩
    rcases List.mem_cons.mp ht with rfl | ht
    · exact init
    · exact hbefore t ht

/-- What a guarded step guarantees from the invariant, it guarantees at every transition. -/
theorem forall_transitions {P : σ → ι → σ → Prop}
    (hstep : ∀ i s, I s → G i s → I (step i s))
    (hP : ∀ i s, I s → G i s → P s i (step i s)) (init : I s)
    (guard : ∀ t ∈ transitions step is s, G t.input t.before) :
    ∀ t ∈ transitions step is s, P t.before t.input t.after := by
  intro t ht
  rw [transition_after ht]
  exact hP _ _ ((invariant hstep init guard).1 t ht) (guard t ht)

/--
**What a transition leaves behind for good, every later one starts from.** By induction
on the inputs: `J t` is left by the transition `t` and kept by every guarded step.
-/
theorem pairwise_lasting {J : Transition σ ι → σ → Prop}
    (hstep : ∀ i s, I s → G i s → I (step i s))
    (leaves : ∀ i s, I s → G i s → J ⟨s, i, step i s⟩ (step i s))
    (keeps : ∀ t i s, I s → G i s → J t s → J t (step i s)) (init : I s)
    (guard : ∀ t ∈ transitions step is s, G t.input t.before) :
    (transitions step is s).Pairwise fun t t' => J t t'.before := by
  induction is generalizing s with
  | nil => exact List.Pairwise.nil
  | cons i is ih =>
    have hG : G i s := guard _ List.mem_cons_self
    have hguard : ∀ t ∈ transitions step is (step i s), G t.input t.before :=
      fun t ht => guard t (List.mem_cons_of_mem _ ht)
    have hI : I (step i s) := hstep i s init hG
    refine List.Pairwise.cons (fun t' ht' => ?_) (ih hI hguard)
    have hlast := (invariant (I := fun s' => I s' ∧ J ⟨s, i, step i s⟩ s')
      (fun i' s' hs hg => ⟨hstep i' s' hs.1 hg, keeps _ i' s' hs.1 hg hs.2⟩)
      ⟨hI, leaves i s init hG⟩ hguard).1 t' ht'
    exact hlast.2

/-! ## What only grows -/

section Grows

variable {α : Type} [Preorder α] {m : σ → α}

/-- What no transition makes smaller, none has made smaller by its end. -/
theorem le_before (hm : ∀ t ∈ transitions step is s, m t.before ≤ m t.after)
    {t : Transition σ ι} (ht : t ∈ transitions step is s) : m s ≤ m t.before := by
  induction is generalizing s with
  | nil => exact absurd ht List.not_mem_nil
  | cons i is ih =>
    rcases List.mem_cons.mp ht with rfl | ht
    · exact le_refl _
    · have h : m s ≤ m (step i s) := hm _ List.mem_cons_self
      exact le_trans h (ih (fun t ht => hm t (List.mem_cons_of_mem _ ht)) ht)

/-- **A transition that makes it bigger leaves more than any before it.** By induction on the inputs. -/
theorem pairwise_lt {P : Transition σ ι → Prop}
    (hm : ∀ t ∈ transitions step is s, m t.before ≤ m t.after)
    (hP : ∀ t ∈ transitions step is s, P t → m t.before < m t.after) :
    (transitions step is s).Pairwise fun t t' => P t' → m t.after < m t'.after := by
  induction is generalizing s with
  | nil => exact List.Pairwise.nil
  | cons i is ih =>
    have htail : ∀ t ∈ transitions step is (step i s), m t.before ≤ m t.after :=
      fun t ht => hm t (List.mem_cons_of_mem _ ht)
    refine List.Pairwise.cons (fun t' ht' hp => ?_)
      (ih htail fun t ht => hP t (List.mem_cons_of_mem _ ht))
    have hle : m (step i s) ≤ m t'.before := le_before htail ht'
    exact lt_of_le_of_lt hle (hP t' (List.mem_cons_of_mem _ ht') hp)

end Grows

end Run

end Designate
