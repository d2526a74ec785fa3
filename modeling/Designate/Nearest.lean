import Mathlib.Data.Set.Defs

/-!
# The closest element above

`above x y` says that `y` is somewhere above `x`, as the ancestors of a node are in a
tree. The closest element above `x` in a set is its parent in the tree the set spans,
and a parent pointer is right when it points there. The rules say what becomes of the
closest element when the set has fewer.
-/

namespace Designate

variable {α : Type*} {above : α → α → Prop} {s t : Set α} {x n : α} {o : Option α}

/-- `o` is the element of `s` closest above `x`, or nothing if there is none. -/
structure Nearest (above : α → α → Prop) (s : Set α) (x : α) (o : Option α) : Prop where
  mem : ∀ y ∈ o, y ∈ s ∧ above x y
  closest : ∀ z ∈ s, above x z → ∃ y ∈ o, z = y ∨ above y z

namespace Nearest

/-! ## Fewer elements -/

/-- The closest element stays so if it stays. -/
theorem subset (h : Nearest above s x o) (hts : t ⊆ s) (ho : ∀ y ∈ o, y ∈ t) :
    Nearest above t x o where
  mem y hy := ⟨ho y hy, (h.mem y hy).2⟩
  closest z hz hxz := h.closest z (hts hz) hxz

/-- **If the closest element goes, the one closest above that takes its place.** -/
theorem through (htrans : ∀ {x y z}, above x y → above y z → above x z)
    (h : Nearest above s x (some n)) (hts : t ⊆ s) (hn : n ∉ t) (h' : Nearest above t n o) :
    Nearest above t x o where
  mem y hy := ⟨(h'.mem y hy).1, htrans (h.mem n rfl).2 (h'.mem y hy).2⟩
  closest z hz hxz := by
    obtain ⟨y, hy, hle⟩ := h.closest z (hts hz) hxz
    obtain rfl : n = y := Option.some.inj hy
    rcases hle with rfl | hnz
    · exact absurd hz hn
    · exact h'.closest z hz hnz

end Nearest

end Designate
