import Mathlib.Data.List.Nodup
import Mathlib.Data.List.Perm.Basic

/-!
# Entries put over rows

Rows and entries have keys of one kind. An entry is put over the row of its key, if
there is one. Where no two entries have a key in common, going through the entries one
after the other puts over each row the one entry it has, or leaves it alone.
-/

namespace Designate

namespace Upsert

variable {α β κ : Type} [DecidableEq κ] {key : α → κ} {keyOf : β → κ} {put : β → α → α}
  {entries : List β} {entry : β} {row : α}

/-- The row with the entry of its key put over it. -/
def upsert (key : α → κ) (keyOf : β → κ) (put : β → α → α) (entries : List β) (row : α) : α :=
  match entries.find? (fun e => decide (keyOf e = key row)) with
  | some entry => put entry row
  | none => row

@[simp] theorem upsert_nil : upsert key keyOf put [] row = row := rfl

theorem upsert_cons_self (h : keyOf entry = key row) :
    upsert key keyOf put (entry :: entries) row = put entry row := by
  unfold upsert
  rw [List.find?_cons_of_pos (by simpa using h)]

theorem upsert_cons_ne (h : keyOf entry ≠ key row) :
    upsert key keyOf put (entry :: entries) row = upsert key keyOf put entries row := by
  unfold upsert
  rw [List.find?_cons_of_neg (by simpa using h)]

/-- No entry has the row's key. -/
theorem upsert_of_ne (h : ∀ e ∈ entries, keyOf e ≠ key row) :
    upsert key keyOf put entries row = row := by
  induction entries with
  | nil => rfl
  | cons e entries ih =>
    rw [upsert_cons_ne (h e List.mem_cons_self)]
    exact ih fun e he => h e (List.mem_cons_of_mem _ he)

/-- The one entry of the row's key. -/
theorem upsert_of_mem (hd : (entries.map keyOf).Nodup) (he : entry ∈ entries)
    (h : keyOf entry = key row) : upsert key keyOf put entries row = put entry row := by
  induction entries with
  | nil => exact absurd he List.not_mem_nil
  | cons e entries ih =>
    rw [List.map_cons, List.nodup_cons] at hd
    rcases List.mem_cons.mp he with rfl | he
    · exact upsert_cons_self h
    · have hne : keyOf e ≠ key row := fun hk =>
        hd.1 ((hk.trans h.symm) ▸ List.mem_map_of_mem he)
      rw [upsert_cons_ne hne]
      exact ih hd.2 he

theorem upsert_key (hput : ∀ e a, key (put e a) = key a) :
    key (upsert key keyOf put entries row) = key row := by
  unfold upsert
  split
  · exact hput _ _
  · rfl

/-- **One entry after the other**: the rest of the entries find the row as the first has left it. -/
theorem upsert_cons (hput : ∀ e a, key (put e a) = key a)
    (hd : ((entry :: entries).map keyOf).Nodup) :
    upsert key keyOf put (entry :: entries) row =
      upsert key keyOf put entries (if keyOf entry = key row then put entry row else row) := by
  by_cases h : keyOf entry = key row
  · rw [List.map_cons, List.nodup_cons] at hd
    rw [if_pos h, upsert_cons_self h, upsert_of_ne fun e he hk => ?_]
    rw [hput, ← h] at hk
    exact hd.1 (hk ▸ List.mem_map_of_mem he)
  · rw [if_neg h, upsert_cons_ne h]

/-- What an entry says has come over a row, or the row was left alone. -/
theorem upsert_cases : (∃ e ∈ entries, keyOf e = key row ∧ upsert key keyOf put entries row = put e row) ∨
    ((∀ e ∈ entries, keyOf e ≠ key row) ∧ upsert key keyOf put entries row = row) := by
  by_cases h : ∀ e ∈ entries, keyOf e ≠ key row
  · exact Or.inr ⟨h, upsert_of_ne h⟩
  · refine Or.inl ?_
    unfold upsert
    cases hf : entries.find? (fun e => decide (keyOf e = key row)) with
    | none =>
      refine absurd (fun e he hk => ?_) h
      exact absurd (List.find?_eq_none.mp hf e he) (by simp [hk])
    | some e =>
      exact ⟨e, List.mem_of_find?_eq_some hf, by simpa using List.find?_some hf, rfl⟩

end Upsert

end Designate
