import Mathlib.Data.List.Basic

/-!
# Removing from a list that a loop goes through

A loop over a list goes on at the next index, also when its body has removed something from the
list. Whatever moves to the index of what was removed is then passed over. As long as there is
one element at most to be removed, no other one can be missed.
-/

namespace Designate

namespace Removal

variable {α : Type} [DecidableEq α] (p : α → Bool)

/-- The loop from an index on: what `p` holds of is removed, which finds the first like it. -/
def removeFrom : Nat → Nat → List α → List α
  | 0, _, l => l
  | fuel + 1, i, l =>
    match l[i]? with
    | none => l
    | some a => removeFrom fuel (i + 1) (if p a then l.erase a else l)

/-- `for a in l: if p(a): l.remove(a)`. -/
def removing (l : List α) : List α :=
  removeFrom p l.length 0 l

variable {p} {l : List α}

/-- A loop that finds nothing to remove leaves the list as it is. -/
theorem removeFrom_none (h : ∀ a ∈ l, p a = false) (fuel i : Nat) : removeFrom p fuel i l = l := by
  induction fuel generalizing i with
  | zero => rfl
  | succ fuel ih =>
    rw [removeFrom]
    cases hget : l[i]? with
    | none => rfl
    | some a =>
      simp only [h a (List.mem_of_getElem? hget), Bool.false_eq_true, if_false]
      exact ih (i + 1)

omit [DecidableEq α] in
theorem filter_not_none (h : ∀ a ∈ l, p a = false) : l.filter (fun a => !p a) = l :=
  List.filter_eq_self.mpr fun a ha => by rw [h a ha]; rfl

theorem removeFrom_eq_filter {fuel i : Nat} (hfuel : l.length ≤ fuel + i)
    (hbefore : ∀ a ∈ l.take i, p a = false) (hone : (l.filter p).length ≤ 1) :
    removeFrom p fuel i l = l.filter fun a => !p a := by
  induction fuel generalizing i with
  | zero =>
    have hall : l.take i = l := List.take_of_length_le (by omega)
    rw [hall] at hbefore
    rw [removeFrom, filter_not_none hbefore]
  | succ fuel ih =>
    rw [removeFrom]
    cases hget : l[i]? with
    | none =>
      have hall : l.take i = l := List.take_of_length_le (List.getElem?_eq_none_iff.mp hget)
      rw [hall] at hbefore
      exact (filter_not_none hbefore).symm
    | some a =>
      obtain ⟨hlt, ha⟩ := List.getElem?_eq_some_iff.mp hget
      have hsplit : l = l.take i ++ a :: l.drop (i + 1) := by
        rw [← ha, List.getElem_cons_drop, List.take_append_drop]
      cases hp : p a with
      | false =>
        simp only [hp, Bool.false_eq_true, if_false]
        have hlength : l.length ≤ fuel + (i + 1) := by omega
        refine ih hlength ?_
        intro b hb
        rw [List.take_add_one, hget, Option.toList_some, List.mem_append, List.mem_singleton] at hb
        obtain hb | rfl := hb
        · exact hbefore b hb
        · exact hp
      | true =>
        -- this is the one, and there is none after it
        have hafter : ∀ b ∈ l.drop (i + 1), p b = false := by
          rw [hsplit, List.filter_append, List.filter_cons_of_pos hp, List.length_append,
            List.length_cons] at hone
          have hnil : (l.drop (i + 1)).filter p = [] :=
            List.eq_nil_of_length_eq_zero (by omega)
          intro b hb
          have hnot := List.filter_eq_nil_iff.mp hnil b hb
          simpa using hnot
        have hnot : a ∉ l.take i := fun hmem => by
          have hfalse := hbefore a hmem
          rw [hp] at hfalse
          exact absurd hfalse (by simp)
        have herase : l.erase a = l.take i ++ l.drop (i + 1) := by
          conv_lhs => rw [hsplit]
          rw [List.erase_append_right _ hnot, List.erase_cons_head]
        have hrest : ∀ b ∈ l.take i ++ l.drop (i + 1), p b = false := by
          intro b hb
          obtain hb | hb := List.mem_append.mp hb
          · exact hbefore b hb
          · exact hafter b hb
        simp only [hp, if_true, herase]
        rw [removeFrom_none hrest]
        conv_rhs => rw [hsplit]
        rw [List.filter_append, List.filter_cons_of_neg (by simp [hp]), ← List.filter_append,
          filter_not_none hrest]

/-- With one element at most to be removed, the loop removes it. -/
theorem removing_eq_filter (hone : (l.filter p).length ≤ 1) :
    removing p l = l.filter fun a => !p a :=
  removeFrom_eq_filter (Nat.le_refl _) (fun _ ha => absurd ha (by simp)) hone

/-- Of two next to each other the second is missed. -/
example : removing (fun n : Nat => n == 2) [1, 2, 2, 3] = [1, 2, 3] := by decide

end Removal

end Designate
