import Mathlib.Algebra.BigOperators.Group.List.Basic
import Mathlib.Algebra.GroupWithZero.Nat
import Mathlib.Data.List.Basic

/-!
# Pages of a list in which elements stand several times

Every element of a list is written down as often as it counts, and a page is cut off the
result after a number of entries: it reaches some of the elements of the list. A reader
goes on as long as a page reaches as many elements as it has entries.
-/

namespace Designate

namespace Pages

variable {α : Type} (mult : α → Nat)

/-- Each element as often as it counts. -/
def spread (l : List α) : List α := l.flatMap fun a => List.replicate (mult a) a

/-- How many elements the first `n` entries reach. -/
def reached : Nat → List α → Nat
  | _, [] => 0
  | 0, _ :: _ => 0
  | n + 1, a :: l => reached (n + 1 - mult a) l + 1

/-- What a reader gets who goes on behind every page that reaches `limit` elements. -/
def walk (limit : Nat) : Nat → List α → Option (List α)
  | 0, _ => none
  | pages + 1, l =>
    if reached mult limit l = limit then
      (walk limit pages (l.drop limit)).map (l.take limit ++ ·)
    else some (l.take (reached mult limit l))

/--
Cut into pages of `limit` elements, in each full page all elements but the last count once,
and what is left makes fewer than `limit` entries before its last element.
-/
def Fits (limit : Nat) (l : List α) : Prop :=
  (∀ p, (p + 1) * limit ≤ l.length → ∀ a ∈ (l.drop (p * limit)).take (limit - 1), mult a = 1) ∧
    ((l.drop (l.length / limit * limit)).dropLast.map mult).sum < limit

variable {mult} {l : List α} {limit : Nat}

@[simp] theorem reached_zero (l : List α) : reached mult 0 l = 0 := by cases l <;> rfl

@[simp] theorem reached_nil (n : Nat) : reached mult n [] = 0 := by cases n <;> rfl

variable (mult) in
theorem reached_le_length (l : List α) : ∀ n, reached mult n l ≤ l.length := by
  induction l with
  | nil => simp
  | cons a l ih =>
    intro n
    cases n with
    | zero => simp
    | succ n =>
      have := ih (n + 1 - mult a)
      rw [reached, List.length_cons]
      omega

theorem reached_le (hpos : ∀ a ∈ l, 0 < mult a) : ∀ n, reached mult n l ≤ n := by
  induction l with
  | nil => simp
  | cons a l ih =>
    intro n
    cases n with
    | zero => simp
    | succ n =>
      have := ih (fun b hb => hpos b (List.mem_cons_of_mem _ hb)) (n + 1 - mult a)
      have := hpos a List.mem_cons_self
      rw [reached]
      omega

/-- **The elements among the first entries are the ones these reach.** -/
theorem mem_take_spread (hpos : ∀ a ∈ l, 0 < mult a) {x : α} :
    ∀ n, x ∈ (spread mult l).take n ↔ x ∈ l.take (reached mult n l) := by
  induction l with
  | nil => simp [spread]
  | cons a l ih =>
    intro n
    cases n with
    | zero => simp
    | succ n =>
      have ih := ih (fun b hb => hpos b (List.mem_cons_of_mem _ hb)) (n + 1 - mult a)
      have hone := hpos a List.mem_cons_self
      have hspread : spread mult (a :: l) = List.replicate (mult a) a ++ spread mult l := rfl
      rw [hspread, List.take_append, List.mem_append, List.length_replicate, ih, reached,
        List.take_succ_cons, List.mem_cons, List.take_replicate, List.mem_replicate]
      -- every element is there at least once, so the first entry reaches the first one
      constructor
      · intro h
        rcases h with ⟨-, h⟩ | h
        · exact .inl h
        · exact .inr h
      · intro h
        rcases h with h | h
        · exact .inl ⟨by omega, h⟩
        · exact .inr h

/-- A page reaches `limit` elements when all of them but the last count once. -/
theorem reached_eq_limit_iff (hpos : ∀ a ∈ l, 0 < mult a) :
    ∀ limit, reached mult limit l = limit ↔
      limit ≤ l.length ∧ ∀ a ∈ l.take (limit - 1), mult a = 1 := by
  induction l with
  | nil =>
    intro limit
    simp only [reached_nil, List.length_nil, List.take_nil, List.not_mem_nil, false_imp_iff,
      implies_true, and_true]
    omega
  | cons a l ih =>
    intro limit
    have hpos' := fun b (hb : b ∈ l) => hpos b (List.mem_cons_of_mem _ hb)
    have hone := hpos a List.mem_cons_self
    rcases limit with - | - | n
    · simp
    · -- one entry reaches one element, however often it counts
      have : 0 + 1 - mult a = 0 := by omega
      simp [reached, this]
    · rw [reached, Nat.add_left_inj]
      by_cases ha : mult a = 1
      · rw [ha, Nat.add_sub_cancel, ih hpos' (n + 1)]
        simp [ha]
      · have hle := reached_le hpos' (n + 1 + 1 - mult a)
        constructor
        · intro h
          omega
        · intro h
          exact absurd (h.2 a (by simp)) ha

/-- A page reaches all elements when the entries before the last one leave it room. -/
theorem reached_eq_length_iff (hpos : ∀ a ∈ l, 0 < mult a) :
    ∀ limit, 0 < limit → (reached mult limit l = l.length ↔ (l.dropLast.map mult).sum < limit) := by
  induction l with
  | nil => simp
  | cons a l ih =>
    intro limit hlimit
    have hpos' := fun b (hb : b ∈ l) => hpos b (List.mem_cons_of_mem _ hb)
    obtain ⟨n, rfl⟩ := Nat.exists_eq_succ_of_ne_zero (by omega : limit ≠ 0)
    rw [Nat.succ_eq_add_one, reached, List.length_cons, Nat.add_left_inj]
    cases l with
    | nil => simp
    | cons b l =>
      rw [List.dropLast_cons_cons, List.map_cons, List.sum_cons]
      by_cases h : mult a < n + 1
      · rw [ih hpos' (n + 1 - mult a) (by omega)]
        omega
      · have hzero : n + 1 - mult a = 0 := by omega
        rw [hzero, reached_zero, List.length_cons]
        omega

/-! ## Walking -/

theorem fits_of_lt (h : l.length < limit) :
    Fits mult limit l ↔ (l.dropLast.map mult).sum < limit := by
  unfold Fits
  rw [Nat.div_eq_of_lt h, Nat.zero_mul, List.drop_zero]
  refine and_iff_right ?_
  intro p hp
  have : limit ≤ (p + 1) * limit := Nat.le_mul_of_pos_left _ (Nat.succ_pos p)
  omega

theorem fits_of_le (hlimit : 0 < limit) (h : limit ≤ l.length) :
    Fits mult limit l ↔ (∀ a ∈ l.take (limit - 1), mult a = 1) ∧ Fits mult limit (l.drop limit) := by
  -- one whole page is taken off the front
  have hdiv : l.length / limit * limit = limit + (l.length - limit) / limit * limit := by
    rw [Nat.div_eq_sub_div hlimit h, Nat.add_mul, Nat.one_mul, Nat.add_comm]
  unfold Fits
  rw [hdiv, ← List.drop_drop, List.length_drop]
  constructor
  · intro hfits
    refine ⟨?_, ?_, hfits.2⟩
    · simpa using hfits.1 0 (by omega)
    · intro p hp
      have hp' := hfits.1 (p + 1) (by rw [Nat.add_mul, Nat.one_mul]; omega)
      rwa [Nat.add_mul, Nat.one_mul, Nat.add_comm (p * limit), ← List.drop_drop] at hp'
  · intro hfits
    obtain ⟨hfirst, hrest, hlast⟩ := hfits
    refine ⟨?_, hlast⟩
    intro p hp
    cases p with
    | zero => simpa using hfirst
    | succ p =>
      have hp' := hrest p (by rw [Nat.add_mul, Nat.one_mul] at hp; omega)
      rwa [List.drop_drop, Nat.add_comm limit, ← Nat.succ_mul] at hp'

/-- A reader gets the list from its beginning on. -/
theorem prefix_of_walk (pages : Nat) :
    ∀ {l r : List α}, walk mult limit pages l = some r → r <+: l := by
  induction pages with
  | zero =>
    intro l r h
    exact absurd h (by simp [walk])
  | succ pages ih =>
    intro l r h
    rw [walk] at h
    split at h
    · obtain ⟨rest, hrest, rfl⟩ := Option.map_eq_some_iff.mp h
      conv_rhs => rw [← List.take_append_drop limit l]
      exact (List.prefix_append_right_inj _).mpr (ih hrest)
    · rw [Option.some.injEq] at h
      exact h ▸ List.take_prefix _ _

/-- **A reader gets the whole list exactly when it fits the pages.** -/
theorem walk_eq_self_iff (hlimit : 0 < limit) (n : Nat) :
    ∀ {l : List α}, l.length ≤ n → (∀ a ∈ l, 0 < mult a) →
      ((∃ pages, walk mult limit pages l = some l) ↔ Fits mult limit l) := by
  induction n with
  | zero =>
    intro l hn _
    have hl : l = [] := List.length_eq_zero_iff.mp (by omega)
    subst hl
    have hfits : Fits mult limit ([] : List α) := by
      rw [fits_of_lt hlimit]
      simpa using hlimit
    have hne : ¬ reached mult limit ([] : List α) = limit := by
      rw [reached_nil]
      omega
    exact iff_of_true ⟨1, by rw [walk, if_neg hne]; simp⟩ hfits
  | succ n ih =>
    intro l hn hpos
    have hle := reached_le hpos limit
    by_cases hreached : reached mult limit l = limit
    · -- a page that leads on to the next
      obtain ⟨hlen, hones⟩ := (reached_eq_limit_iff hpos limit).mp hreached
      have hpos' : ∀ a ∈ l.drop limit, 0 < mult a := fun a ha => hpos a (List.mem_of_mem_drop ha)
      rw [fits_of_le hlimit hlen, ← ih (l := l.drop limit) (by rw [List.length_drop]; omega) hpos']
      constructor
      · intro h
        obtain ⟨pages, h⟩ := h
        cases pages with
        | zero => exact absurd h (by simp [walk])
        | succ pages =>
          rw [walk, if_pos hreached, Option.map_eq_some_iff] at h
          obtain ⟨rest, hrest, hall⟩ := h
          have : rest = l.drop limit :=
            List.append_cancel_left (hall.trans (List.take_append_drop limit l).symm)
          exact ⟨hones, pages, this ▸ hrest⟩
      · intro h
        obtain ⟨-, pages, h⟩ := h
        refine ⟨pages + 1, ?_⟩
        rw [walk, if_pos hreached, h, Option.map_some, List.take_append_drop]
    · -- the page the reader stops at
      have hstop : (∃ pages, walk mult limit pages l = some l) ↔
          reached mult limit l = l.length := by
        have hlength := reached_le_length mult l limit
        constructor
        · intro h
          obtain ⟨pages, h⟩ := h
          cases pages with
          | zero => exact absurd h (by simp [walk])
          | succ pages =>
            rw [walk, if_neg hreached, Option.some.injEq] at h
            have := congrArg List.length h
            rw [List.length_take] at this
            omega
        · intro h
          exact ⟨1, by rw [walk, if_neg hreached, h, List.take_length]⟩
      rw [hstop]
      rcases Nat.lt_or_ge l.length limit with hlen | hlen
      · rw [fits_of_lt hlen]
        exact reached_eq_length_iff hpos limit hlimit
      · rw [fits_of_le hlimit hlen]
        constructor
        · intro h
          omega
        · intro h
          exact absurd ((reached_eq_limit_iff hpos limit).mpr ⟨hlen, h.1⟩) hreached

end Pages

end Designate
