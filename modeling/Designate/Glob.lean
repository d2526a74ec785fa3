import Mathlib.Data.List.Basic
import Mathlib.Data.List.Count
import Mathlib.Data.List.Infix

/-!
# Patterns with wildcards

A pattern is a list of parts: a letter stands for itself, a blank for any one letter, and
a gap for any sequence of letters. A pattern whose gaps are closed and whose blanks are
filled with one fixed letter is a text it accepts, and a text it accepts has every letter at
least as often as the pattern. So a pattern that accepts all that another one does has no
letter more often than that other one.

Where some letters are taken for one, a pattern accepts more than it did, unless none of its own
is among them.
-/

namespace Designate

namespace Glob

variable {α : Type}

/-- A part of a pattern. -/
inductive Part (α : Type) where
  | letter (a : α)
  /-- Any one letter. -/
  | blank
  /-- Any sequence of letters. -/
  | gap
  deriving DecidableEq, Repr

/-- The same pattern of other letters. -/
def Part.map {β : Type} (f : α → β) : Part α → Part β
  | .letter a => .letter (f a)
  | .blank => .blank
  | .gap => .gap

/-- The texts that fill a pattern. -/
def accepts [DecidableEq α] : List (Part α) → List α → Bool
  | [], s => s.isEmpty
  | .letter a :: p, s =>
    match s with
    | [] => false
    | b :: s => decide (a = b) && accepts p s
  | .blank :: p, s =>
    match s with
    | [] => false
    | _ :: s => accepts p s
  | .gap :: p, s => s.tails.any (accepts p)

/-- The text with the gaps closed and `d` in the blanks. -/
def filled (d : α) : List (Part α) → List α
  | [] => []
  | .letter a :: p => a :: filled d p
  | .blank :: p => d :: filled d p
  | .gap :: p => filled d p

variable [DecidableEq α]

theorem accepts_letters (l s : List α) : accepts (l.map .letter) s = true ↔ s = l := by
  induction l generalizing s with
  | nil => simp [accepts]
  | cons a l ih =>
    cases s with
    | nil => simp [accepts]
    | cons b s =>
      simp only [List.map_cons, accepts, Bool.and_eq_true, decide_eq_true_eq, ih, List.cons.injEq]
      exact ⟨fun h => ⟨h.1.symm, h.2⟩, fun h => ⟨h.1.symm, h.2⟩⟩

theorem accepts_filled (d : α) (p : List (Part α)) : accepts p (filled d p) = true := by
  induction p with
  | nil => rfl
  | cons x p ih =>
    cases x with
    | letter a => simp [filled, accepts, ih]
    | blank => simpa [filled, accepts] using ih
    | gap =>
      have hself : filled d p ∈ (filled d p).tails := (List.mem_tails _ _).mpr (List.suffix_refl _)
      exact List.any_eq_true.mpr ⟨_, hself, ih⟩

/-- An accepted text has every letter of the pattern. -/
theorem count_le_of_accepts {p : List (Part α)} {s : List α} (h : accepts p s = true) (a : α) :
    p.count (.letter a) ≤ s.count a := by
  induction p generalizing s with
  | nil => simp
  | cons x p ih =>
    cases x with
    | letter b =>
      cases s with
      | nil => exact absurd h (by simp [accepts])
      | cons c s =>
        rw [accepts, Bool.and_eq_true, decide_eq_true_eq] at h
        obtain ⟨rfl, h⟩ := h
        have := ih h
        by_cases hab : b = a
        · subst hab
          rw [List.count_cons_self, List.count_cons_self]
          omega
        · rw [List.count_cons_of_ne (by simpa using hab), List.count_cons_of_ne hab]
          exact this
    | blank =>
      cases s with
      | nil => exact absurd h (by simp [accepts])
      | cons c s =>
        rw [List.count_cons_of_ne (by simp)]
        exact Nat.le_trans (ih h) (List.Sublist.count_le _ (List.sublist_cons_self c s))
    | gap =>
      obtain ⟨t, ht, hacc⟩ := List.any_eq_true.mp h
      rw [List.count_cons_of_ne (by simp)]
      exact Nat.le_trans (ih hacc) (List.Sublist.count_le _ ((List.mem_tails _ _).mp ht).sublist)

theorem count_filled {a d : α} (h : d ≠ a) (p : List (Part α)) :
    (filled d p).count a = p.count (.letter a) := by
  induction p with
  | nil => rfl
  | cons x p ih =>
    cases x with
    | letter b =>
      by_cases hab : b = a
      · subst hab
        rw [filled, List.count_cons_self, List.count_cons_self, ih]
      · rw [filled, List.count_cons_of_ne hab, List.count_cons_of_ne (by simpa using hab), ih]
    | blank => rw [filled, List.count_cons_of_ne h, List.count_cons_of_ne (by simp), ih]
    | gap => rw [filled, List.count_cons_of_ne (by simp), ih]

/-- **A pattern that accepts what another one accepts asks for no letter more often.** -/
theorem count_le_of_forall {p q : List (Part α)}
    (h : ∀ s, accepts p s = true → accepts q s = true) {a d : α} (hd : d ≠ a) :
    q.count (.letter a) ≤ p.count (.letter a) := by
  rw [← count_filled hd p]
  exact count_le_of_accepts (h _ (accepts_filled d p)) a

/-! ## Letters that are taken for one -/

section

variable {β : Type} [DecidableEq β] {f : α → β} {p : List (Part α)}

omit [DecidableEq α] in
theorem accepts_gap_map (p : List (Part β)) (s : List α) :
    accepts (.gap :: p) (s.map f) = s.tails.any fun t => accepts p (t.map f) := by
  rw [accepts, Bool.eq_iff_iff, List.any_eq_true, List.any_eq_true]
  constructor
  · intro ⟨u, hu, h⟩
    obtain ⟨t, ht, rfl⟩ := List.suffix_map_iff.mp ((List.mem_tails _ _).mp hu)
    exact ⟨t, (List.mem_tails _ _).mpr ht, h⟩
  · intro ⟨t, ht, h⟩
    exact ⟨t.map f, (List.mem_tails _ _).mpr (((List.mem_tails _ _).mp ht).map f), h⟩

/-- What a pattern accepts it accepts all the more where letters are taken for one. -/
theorem accepts_map {s : List α} (h : accepts p s = true) :
    accepts (p.map (Part.map f)) (s.map f) = true := by
  induction p generalizing s with
  | nil =>
    cases s with
    | nil => rfl
    | cons b s => exact absurd h (by simp [accepts])
  | cons x p ih =>
    cases x with
    | letter a =>
      cases s with
      | nil => exact absurd h (by simp [accepts])
      | cons b s =>
        rw [accepts, Bool.and_eq_true, decide_eq_true_eq] at h
        obtain ⟨rfl, h⟩ := h
        simp [Part.map, accepts, ih h]
    | blank =>
      cases s with
      | nil => exact absurd h (by simp [accepts])
      | cons b s => exact ih (s := s) h
    | gap =>
      obtain ⟨t, ht, h⟩ := List.any_eq_true.mp h
      rw [List.map_cons, Part.map, accepts_gap_map]
      exact List.any_eq_true.mpr ⟨t, ht, ih h⟩

/-- **It makes no difference to a pattern if none of its own letters is taken for another.** -/
theorem accepts_map_eq (hf : ∀ a, .letter a ∈ p → ∀ b, f b = f a → b = a) (s : List α) :
    accepts (p.map (Part.map f)) (s.map f) = accepts p s := by
  induction p generalizing s with
  | nil => cases s <;> rfl
  | cons x p ih =>
    have hrest := ih fun a ha => hf a (List.mem_cons_of_mem _ ha)
    cases x with
    | letter a =>
      cases s with
      | nil => rfl
      | cons b s =>
        have hiff : f a = f b ↔ a = b :=
          ⟨fun h => (hf a List.mem_cons_self b h.symm).symm, fun h => h ▸ rfl⟩
        rw [List.map_cons, List.map_cons, Part.map, accepts, accepts, hrest,
          decide_eq_decide.mpr hiff]
    | blank =>
      cases s with
      | nil => rfl
      | cons b s => exact hrest s
    | gap =>
      rw [List.map_cons, Part.map, accepts_gap_map, accepts]
      exact congrArg (s.tails.any ·) (funext hrest)

end

end Glob

end Designate
