import Mathlib.Data.List.Basic

/-!
# Lists that carry their own ranks

Every element of a list knows its place, counted from one. A new first element pushes the
others one place down; an element that goes lets those behind it move one place up. Both
keep the ranks without a gap and without a duplicate.
-/

namespace Ranks

variable {α : Type} {rank : α → Nat}

/-- Every element has its place in the list as its rank. -/
def Ranked (rank : α → Nat) (l : List α) : Prop :=
  ∀ (k : Nat) (hk : k < l.length), rank l[k] = k + 1

theorem ranked_nil : Ranked rank [] := by
  intro k hk
  exact absurd hk (by simp)

/-- The ranks are `1`, `2`, … up to the length of the list. -/
theorem Ranked.map_eq {l : List α} (h : Ranked rank l) : l.map rank = List.range' 1 l.length := by
  refine List.ext_getElem (by simp) ?_
  intro k hk _
  rw [List.length_map] at hk
  rw [List.getElem_map, List.getElem_range', h k hk]
  omega

/-- A new first element, and the others one place down. -/
theorem Ranked.push {l : List α} (h : Ranked rank l) {a : α} (ha : rank a = 1) {raise : α → α}
    (hraise : ∀ b ∈ l, rank (raise b) = rank b + 1) : Ranked rank (a :: l.map raise) := by
  intro k hk
  cases k with
  | zero => exact ha
  | succ k =>
    rw [List.length_cons, List.length_map] at hk
    have hk' : k < l.length := by omega
    rw [List.getElem_cons_succ, List.getElem_map, hraise _ (List.getElem_mem hk'), h k hk']

/-- An element goes, and those behind it move one place up. -/
theorem Ranked.remove {l₁ l₂ : List α} {a : α} (h : Ranked rank (l₁ ++ a :: l₂)) {lower : α → α}
    (hlower : ∀ b, rank (lower b) = if rank a < rank b then rank b - 1 else rank b) :
    Ranked rank ((l₁ ++ l₂).map lower) := by
  have ha : rank a = l₁.length + 1 := by
    have := h l₁.length (by simp)
    simpa using this
  intro k hk
  rw [List.length_map, List.length_append] at hk
  rw [List.getElem_map, hlower, ha]
  by_cases hfront : k < l₁.length
  · -- in front of `a` nothing moves
    have hrank := h k (by rw [List.length_append]; omega)
    rw [List.getElem_append_left hfront] at hrank
    rw [List.getElem_append_left hfront, hrank, if_neg (by omega)]
  · have hrank := h (k + 1) (by rw [List.length_append, List.length_cons]; omega)
    rw [List.getElem_append_right (by omega)] at hrank
    have hplace : k + 1 - l₁.length = (k - l₁.length) + 1 := by omega
    simp only [hplace, List.getElem_cons_succ] at hrank
    rw [List.getElem_append_right (by omega), hrank, if_pos (by omega)]
    omega

end Ranks
