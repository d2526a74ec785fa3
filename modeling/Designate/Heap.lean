import Mathlib.Data.List.Basic
import Mathlib.Logic.Relation

/-!
# Heaps, and what a holder of addresses can do

A heap is a list of cells, and an address is a position in it. A cell refers to other cells.
Who holds some addresses can follow what the cells there refer to, write these cells, and
allocate new ones, each time with references to what is held already.

So if nothing from an address on refers to anything before it, one who holds only addresses
from there on never comes to the cells before it. That is how a copy keeps its changes to
itself: it is all in new cells.
-/

namespace Designate

namespace Heap

variable {γ : Type}

/-- Nothing from `base` on refers to anything before it. -/
def Sealed (refs : γ → List Nat) (base : Nat) (h : List γ) : Prop :=
  ∀ a c, base ≤ a → h[a]? = some c → ∀ b ∈ refs c, base ≤ b

/-- A heap, and the addresses that are held. -/
abbrev Held (γ : Type) : Type := List γ × List Nat

/-- One thing the holder can do. -/
inductive Step (refs : γ → List Nat) : Held γ → Held γ → Prop where
  /-- Follow a reference. -/
  | follow {h known a c b} : a ∈ known → h[a]? = some c → b ∈ refs c →
      Step refs (h, known) (h, b :: known)
  /-- Write a cell. -/
  | write {h known a} (c : γ) : a ∈ known → (∀ b ∈ refs c, b ∈ known) →
      Step refs (h, known) (h.set a c, known)
  /-- Allocate a cell. -/
  | alloc {h known} (c : γ) : (∀ b ∈ refs c, b ∈ known) →
      Step refs (h, known) (h ++ [c], h.length :: known)
  /-- Forget some of it. -/
  | forget {h known known'} : (∀ a ∈ known', a ∈ known) → Step refs (h, known) (h, known')

/-- What the holder can do in any number of steps. -/
abbrev Evolves (refs : γ → List Nat) : Held γ → Held γ → Prop :=
  Relation.ReflTransGen (Step refs)

/-- All that is held is from `base` on, and leads nowhere before it. -/
structure Above (refs : γ → List Nat) (base : Nat) (s : Held γ) : Prop where
  closed : Sealed refs base s.1
  known : ∀ a ∈ s.2, base ≤ a
  size : base ≤ s.1.length

/-- Two heaps that agree before `base`. -/
def SameBelow (base : Nat) (h h' : List γ) : Prop :=
  ∀ a, a < base → h'[a]? = h[a]?

variable {refs : γ → List Nat} {base : Nat} {s t : Held γ} {h h' h'' : List γ}

namespace SameBelow

theorem refl (base : Nat) (h : List γ) : SameBelow base h h :=
  fun _ _ => rfl

theorem trans (h₁ : SameBelow base h h') (h₂ : SameBelow base h' h'') : SameBelow base h h'' :=
  fun a ha => (h₂ a ha).trans (h₁ a ha)

theorem mono {base' : Nat} (hle : base' ≤ base) (h₁ : SameBelow base h h') :
    SameBelow base' h h' :=
  fun a ha => h₁ a (Nat.lt_of_lt_of_le ha hle)

/-- More cells at the end change nothing before. -/
theorem append (hle : base ≤ h.length) (more : List γ) : SameBelow base h (h ++ more) :=
  fun _ ha => List.getElem?_append_left (Nat.lt_of_lt_of_le ha hle)

end SameBelow

/-- A cell put after others keeps the heap sealed if it refers to no cell before `base`. -/
theorem Sealed.append (hsealed : Sealed refs base h) {c : γ} (hc : ∀ b ∈ refs c, base ≤ b) :
    Sealed refs base (h ++ [c]) := by
  intro a d ha hd b hb
  by_cases hlt : a < h.length
  · rw [List.getElem?_append_left hlt] at hd
    exact hsealed a d ha hd b hb
  · rw [List.getElem?_append_right (by omega)] at hd
    obtain rfl : d = c := by
      have hmem := List.mem_of_getElem? hd
      exact List.mem_singleton.mp hmem
    exact hc b hb

/-- Nothing is from the end on. -/
theorem sealed_length (refs : γ → List Nat) (h : List γ) : Sealed refs h.length h := by
  intro a c ha hc
  rw [List.getElem?_eq_none ha] at hc
  exact absurd hc (by simp)

/-- Whatever is done stays above. -/
theorem above_step (hs : Above refs base s) (hstep : Step refs s t) : Above refs base t := by
  cases hstep with
  | follow ha hc hb =>
    refine ⟨hs.closed, ?_, hs.size⟩
    intro b hmem
    obtain rfl | hmem := List.mem_cons.mp hmem
    · exact hs.closed _ _ (hs.known _ ha) hc _ hb
    · exact hs.known b hmem
  | @write h known a c ha hc =>
    refine ⟨?_, hs.known, by simpa using hs.size⟩
    intro a' d ha' hd b hb
    by_cases heq : a = a'
    · subst heq
      obtain rfl : c = d := by
        rw [List.getElem?_set] at hd
        by_cases hlt : a < h.length <;> simp [hlt] at hd
        exact hd
      exact hs.known b (hc b hb)
    · rw [List.getElem?_set_ne heq] at hd
      exact hs.closed a' d ha' hd b hb
  | alloc c hc =>
    refine ⟨hs.closed.append fun b hb => hs.known b (hc b hb), ?_, ?_⟩
    · intro b hmem
      obtain rfl | hmem := List.mem_cons.mp hmem
      · exact hs.size
      · exact hs.known b hmem
    · exact Nat.le_trans hs.size (by simp)
  | forget hsub => exact ⟨hs.closed, fun a ha => hs.known a (hsub a ha), hs.size⟩

/-- And leaves the cells below as they are. -/
theorem sameBelow_step (hs : Above refs base s) (hstep : Step refs s t) :
    SameBelow base s.1 t.1 := by
  cases hstep with
  | follow _ _ _ => exact SameBelow.refl _ _
  | write c ha _ =>
    intro a hlt
    have hle := hs.known _ ha
    exact List.getElem?_set_ne (by omega)
  | alloc c _ => exact SameBelow.append hs.size _
  | forget _ => exact SameBelow.refl _ _

/-- So it is with any number of steps. -/
theorem above_evolves (hs : Above refs base s) (hsteps : Evolves refs s t) :
    Above refs base t ∧ SameBelow base s.1 t.1 := by
  induction hsteps with
  | refl => exact ⟨hs, SameBelow.refl _ _⟩
  | tail _ hstep ih => exact ⟨above_step ih.1 hstep, ih.2.trans (sameBelow_step ih.1 hstep)⟩

/-- A heap never gets shorter. -/
theorem length_le_evolves (hsteps : Evolves refs s t) : s.1.length ≤ t.1.length := by
  induction hsteps with
  | refl => exact Nat.le_refl _
  | tail _ hstep ih =>
    refine Nat.le_trans ih ?_
    cases hstep <;> simp

end Heap

end Designate
