import Mathlib.Data.List.Basic
import Mathlib.Data.List.Infix

/-!
# Codes without prefixes

A code gives each letter a word. Where no word begins the word of another letter, words that
stand one behind the other without anything in between can be told apart. A decimal number begins
another one only if that one is ten times as big.
-/

namespace Designate

namespace PrefixCode

variable {α β : Type}

/-- Among the letters with `p`, no word begins another one, and none is empty. -/
structure PrefixFree (p : α → Prop) (code : α → List β) : Prop where
  eq_of_prefix : ∀ {a b}, p a → p b → code a <+: code b → a = b
  ne_nil : ∀ {a}, p a → code a ≠ []

variable {p : α → Prop} {code : α → List β}

/-- **A text can be read back from its words.** By induction on the texts. -/
theorem PrefixFree.flatMap_inj (h : PrefixFree p code) {l m : List α} (hl : ∀ a ∈ l, p a)
    (hm : ∀ a ∈ m, p a) (he : l.flatMap code = m.flatMap code) : l = m := by
  induction l generalizing m with
  | nil =>
    cases m with
    | nil => rfl
    | cons b m =>
      rw [List.flatMap_nil, List.flatMap_cons] at he
      exact absurd (List.append_eq_nil_iff.mp he.symm).1 (h.ne_nil (hm b List.mem_cons_self))
  | cons a l ih =>
    have ha := hl a List.mem_cons_self
    cases m with
    | nil =>
      rw [List.flatMap_nil, List.flatMap_cons] at he
      exact absurd (List.append_eq_nil_iff.mp he).1 (h.ne_nil ha)
    | cons b m =>
      have hb := hm b List.mem_cons_self
      rw [List.flatMap_cons, List.flatMap_cons] at he
      have hfirst : code a <+: code b ++ m.flatMap code := he ▸ List.prefix_append _ _
      have hab : a = b := by
        -- of two beginnings of one text, the shorter one begins the other
        rcases List.prefix_or_prefix_of_prefix hfirst (List.prefix_append _ _) with hp | hp
        · exact h.eq_of_prefix ha hb hp
        · exact (h.eq_of_prefix hb ha hp).symm
      subst hab
      rw [ih (fun c hc => hl c (List.mem_cons_of_mem _ hc))
        (fun c hc => hm c (List.mem_cons_of_mem _ hc)) (List.append_cancel_left he)]

/-! ## Decimal numbers -/

theorem toDigits_inj {m n : Nat} (h : Nat.toDigits 10 m = Nat.toDigits 10 n) : m = n := by
  rw [← Nat.ofDigitChars_ten_toDigits (n := m), h, Nat.ofDigitChars_ten_toDigits]

/-- A decimal number that begins another one has fewer digits, or is that one. -/
theorem eq_or_le_of_toDigits_prefix {m n : Nat} (h : Nat.toDigits 10 m <+: Nat.toDigits 10 n) :
    m = n ∨ m ≤ n / 10 := by
  induction n using Nat.strongRecOn with
  | ind n ih =>
    rcases Nat.lt_or_ge n 10 with hn | hn
    · have hdigit := Nat.toDigits_of_lt_base hn
      rw [hdigit, List.prefix_cons_iff] at h
      rcases h with h | ⟨rest, h, hrest⟩
      · exact absurd h Nat.toDigits_ne_nil
      · rw [List.prefix_nil.mp hrest] at h
        exact Or.inl (toDigits_inj (h.trans hdigit.symm))
    · have hdigits := Nat.toDigits_of_base_le (by omega) hn
      rw [hdigits, List.prefix_concat_iff] at h
      rcases h with h | h
      · exact Or.inl (toDigits_inj (h.trans hdigits.symm))
      · have := ih (n / 10) (by omega) h
        omega

end PrefixCode

end Designate
