import Mathlib.Data.List.Sort
import Mathlib.Order.Basic

/-!
# The greatest value that enough voters reach

Every voter names a value, and supports it with every smaller one. The greatest of the
named values that has at least `k` supporters is found from the top down, and it is the
one in the `k`-th place of the values, greatest first.
-/

namespace Designate

namespace Quorum

variable {α : Type} [LinearOrder α]

/-- How many of the values are at least `a`. -/
def support (l : List α) (a : α) : Nat := l.countP fun b => decide (a ≤ b)

/-- The values, greatest first. -/
def descending (l : List α) : List α := l.mergeSort fun a b => decide (b ≤ a)

/-- The first value from the top whose support is enough. -/
def search (enough : Nat → Bool) (l : List α) : Option α :=
  (descending l).find? fun a => enough (support l a)

/-- The value in the `k`-th place from the top; nobody asked for means the first place. -/
def place (l : List α) (k : Nat) : Option α := (descending l)[k - 1]?

/-- The greatest of the values with at least `k` supporters, if there is one. -/
def IsGreatest (l : List α) (k : Nat) : Option α → Prop
  | some a => a ∈ l ∧ k ≤ support l a ∧ ∀ b ∈ l, k ≤ support l b → b ≤ a
  | none => ∀ b ∈ l, ¬ k ≤ support l b

instance (l : List α) (k : Nat) : ∀ o, Decidable (IsGreatest l k o)
  | some a => inferInstanceAs (Decidable (a ∈ l ∧ k ≤ support l a ∧ ∀ b ∈ l, k ≤ support l b → b ≤ a))
  | none => inferInstanceAs (Decidable (∀ b ∈ l, ¬ k ≤ support l b))

variable {l : List α} {k : Nat}

theorem descending_perm (l : List α) : (descending l).Perm l := List.mergeSort_perm l _

theorem descending_sorted (l : List α) : (descending l).Pairwise fun a b => b ≤ a := by
  have h : (descending l).Pairwise fun a b => decide (b ≤ a) = true := by
    refine List.pairwise_mergeSort ?_ ?_ l
    · intro a b c hab hbc
      exact decide_eq_true (le_trans (of_decide_eq_true hbc) (of_decide_eq_true hab))
    · intro a b
      simpa using le_total b a
  exact h.imp of_decide_eq_true

theorem support_descending (l : List α) (a : α) : support (descending l) a = support l a :=
  (descending_perm l).countP_eq _

theorem support_le_length (l : List α) (a : α) : support l a ≤ l.length := List.countP_le_length

/-- A value of the list supports itself. -/
theorem support_pos {a : α} (ha : a ∈ l) : 0 < support l a :=
  List.countP_pos_iff.mpr ⟨a, ha, decide_eq_true (le_refl a)⟩

/-- The values up to a place support the value there. -/
theorem lt_support {i : Nat} (hi : i < (descending l).length) :
    i < support l (descending l)[i] := by
  rw [← support_descending]
  have htake : ∀ b ∈ (descending l).take (i + 1),
      decide ((descending l)[i] ≤ b) = true := by
    intro b hb
    obtain ⟨j, hj, rfl⟩ := List.mem_take_iff_getElem.mp hb
    rw [decide_eq_true_iff]
    rcases Nat.lt_or_ge j i with h | h
    · exact List.pairwise_iff_getElem.mp (descending_sorted l) j i (by omega) hi h
    · obtain rfl : j = i := by omega
      exact le_refl _
  have hcount : ((descending l).take (i + 1)).countP (fun b => decide ((descending l)[i] ≤ b)) =
      ((descending l).take (i + 1)).length := List.countP_eq_length.mpr htake
  have hle := (List.take_sublist (i + 1) (descending l)).countP_le
    (p := fun b => decide ((descending l)[i] ≤ b))
  rw [hcount, List.length_take] at hle
  unfold support
  omega

/-- A value above the one in a place is supported from before that place only. -/
theorem support_le {i : Nat} (hi : i < (descending l).length) {b : α}
    (hb : (descending l)[i] < b) : support l b ≤ i := by
  rw [← support_descending]
  have hdrop : ((descending l).drop i).countP (fun c => decide (b ≤ c)) = 0 := by
    rw [List.countP_eq_zero]
    intro c hc
    obtain ⟨j, hj, rfl⟩ := List.mem_drop_iff_getElem.mp hc
    have hj' : i + j < (descending l).length := by omega
    rw [decide_eq_true_iff, not_le]
    refine lt_of_le_of_lt ?_ hb
    rcases Nat.eq_zero_or_pos j with h | h
    · simp [h]
    · exact List.pairwise_iff_getElem.mp (descending_sorted l) i (i + j) hi hj' (by omega)
  have hsplit : support (descending l) b =
      ((descending l).take i).countP (fun c => decide (b ≤ c)) +
        ((descending l).drop i).countP (fun c => decide (b ≤ c)) := by
    unfold support
    rw [← List.countP_append, List.take_append_drop]
  have hle : ((descending l).take i).countP (fun c => decide (b ≤ c)) ≤ i :=
    le_trans List.countP_le_length (List.length_take_le i _)
  omega

/-- **The value in the `k`-th place is the greatest with `k` supporters.** -/
theorem place_isGreatest (l : List α) (k : Nat) : IsGreatest l k (place l k) := by
  unfold place
  have hlen : (descending l).length = l.length := (descending_perm l).length_eq
  cases hk : (descending l)[k - 1]? with
  | none =>
    rw [List.getElem?_eq_none_iff] at hk
    intro b hb hsupport
    have hpos := support_pos hb
    have hle := support_le_length l b
    omega
  | some a =>
    obtain ⟨hi, rfl⟩ := List.getElem?_eq_some_iff.mp hk
    refine ⟨(descending_perm l).mem_iff.mp (List.getElem_mem hi), ?_, ?_⟩
    · have := lt_support hi
      omega
    · intro b hb hsupport
      by_contra hlt
      have hle := support_le hi (not_le.mp hlt)
      have hpos := support_pos hb
      omega

theorem isGreatest_unique {o o' : Option α} (h : IsGreatest l k o) (h' : IsGreatest l k o') :
    o = o' := by
  cases o with
  | none =>
    cases o' with
    | none => rfl
    | some b => exact absurd h'.2.1 (h b h'.1)
  | some a =>
    cases o' with
    | none => exact absurd h.2.1 (h' a h.1)
    | some b => exact congrArg some (le_antisymm (h'.2.2 a h.1 h.2.1) (h.2.2 b h'.1 h'.2.1))

theorem isGreatest_iff {o : Option α} : IsGreatest l k o ↔ o = place l k := by
  constructor
  · intro h
    exact isGreatest_unique h (place_isGreatest l k)
  · intro h
    exact h ▸ place_isGreatest l k

/-- A smaller value has the supporters of a greater one. -/
theorem support_antitone {a b : α} (h : a ≤ b) : support l b ≤ support l a := by
  unfold support
  refine List.countP_mono_left ?_
  intro c _ hc
  exact decide_eq_true (le_trans h (of_decide_eq_true hc))

/-- A value with enough supporters is at most the one in their place. -/
theorem le_place_of_support {b : α} (hpos : 0 < support l b) (h : k ≤ support l b) :
    ∃ a, place l k = some a ∧ b ≤ a := by
  have hlen : (descending l).length = l.length := (descending_perm l).length_eq
  have hle := support_le_length l b
  have hi : k - 1 < (descending l).length := by omega
  refine ⟨(descending l)[k - 1], List.getElem?_eq_getElem hi, ?_⟩
  by_contra hlt
  have := support_le hi (not_le.mp hlt)
  omega

/-- A value of the list with enough supporters is at most the one in their place. -/
theorem le_place {b : α} (hb : b ∈ l) (h : k ≤ support l b) : ∃ a, place l k = some a ∧ b ≤ a :=
  le_place_of_support (support_pos hb) h

/-- **The search from the top finds the greatest value with `k` supporters.** -/
theorem search_eq_place {enough : Nat → Bool} (h : ∀ n, enough n = true ↔ k ≤ n) :
    search enough l = place l k := by
  refine isGreatest_iff.mp ?_
  unfold search
  cases hf : (descending l).find? fun a => enough (support l a) with
  | none =>
    intro b hb hsupport
    have := List.find?_eq_none.mp hf b ((descending_perm l).mem_iff.mpr hb)
    exact this ((h _).mpr hsupport)
  | some a =>
    obtain ⟨ha, before, behind, hsplit, hbefore⟩ := List.find?_eq_some_iff_append.mp hf
    have hmem : a ∈ descending l := hsplit ▸ List.mem_append_right _ List.mem_cons_self
    refine ⟨(descending_perm l).mem_iff.mp hmem, (h _).mp ha, ?_⟩
    intro b hb hsupport
    have hb' : b ∈ before ++ a :: behind := hsplit ▸ (descending_perm l).mem_iff.mpr hb
    have hsorted := hsplit ▸ descending_sorted l
    rw [List.pairwise_append, List.pairwise_cons] at hsorted
    rcases List.mem_append.mp hb' with hb' | hb'
    · -- what comes before has not got enough supporters
      have hno := hbefore b hb'
      rw [(h _).mpr hsupport] at hno
      exact absurd hno (by simp)
    · rcases List.mem_cons.mp hb' with rfl | hb'
      · exact le_refl _
      · exact hsorted.2.1.1 b hb'

end Quorum

end Designate
