import Designate.Nearest
import Designate.Proof.Cuts
import Mathlib.Data.List.Infix

/-!
# The zones above a name, and those below

The label walk of `create_zone` goes through all the names above a zone, the longest
one first, so that it stops at the closest zone above. The search for zones below is by
a pattern: it finds all of them, and what else the pattern fits.
-/

namespace Designate

open Exec

namespace Text

/-- What stands behind each separator, put together from the parts. -/
def tailsBehind (sep : Char) (cs : List Char) : List (List Char) :=
  ((splitChars sep cs).tails.tail.filter fun parts => !parts.isEmpty).map (List.intercalate [sep])

/-- The parts put together again. -/
theorem intercalate_splitChars (sep : Char) (cs : List Char) :
    List.intercalate [sep] (splitChars sep cs) = cs := by
  induction cs with
  | nil => rfl
  | cons c cs ih =>
    rw [splitChars]
    cases hs : splitChars sep cs with
    | nil => exact absurd hs (splitChars_ne_nil sep cs)
    | cons p ps =>
      rw [hs] at ih
      by_cases h : c = sep
      · rw [if_pos h, List.intercalate_cons_cons, ih, h]
        rfl
      · rw [if_neg h]
        cases ps with
        | nil => simpa using ih
        | cons q ps =>
          rw [List.intercalate_cons_cons] at ih ⊢
          rw [← ih]
          rfl

theorem tailsBehind_sep (sep : Char) (cs : List Char) :
    tailsBehind sep (sep :: cs) = cs :: tailsBehind sep cs := by
  unfold tailsBehind
  rw [splitChars, if_pos rfl, List.tails_cons, List.tail_cons]
  cases hs : splitChars sep cs with
  | nil => exact absurd hs (splitChars_ne_nil sep cs)
  | cons p ps =>
    rw [← intercalate_splitChars sep cs, hs]
    simp

theorem tailsBehind_of_ne {sep c : Char} (h : c ≠ sep) (cs : List Char) :
    tailsBehind sep (c :: cs) = tailsBehind sep cs := by
  unfold tailsBehind
  rw [splitChars, if_neg h]
  cases hs : splitChars sep cs with
  | nil => exact absurd hs (splitChars_ne_nil sep cs)
  | cons p ps => simp only [List.tails_cons, List.tail_cons]

theorem mem_tailsBehind {sep : Char} {cs y : List Char} :
    y ∈ tailsBehind sep cs ↔ sep :: y <:+ cs := by
  induction cs with
  | nil => simp [tailsBehind, splitChars]
  | cons c cs ih =>
    by_cases h : c = sep
    · subst h
      rw [tailsBehind_sep, List.mem_cons, ih, List.suffix_cons_iff, List.cons.injEq]
      simp
    · rw [tailsBehind_of_ne h, ih, List.suffix_cons_iff, List.cons.injEq]
      simp [Ne.symm h]

end Text

/-! ## Names above a name -/

theorem below_iff {name above : String} : Below name above ↔ '.' :: above.toList <:+ name.toList := by
  unfold Below Text.endsWith
  rw [List.isSuffixOf_iff_suffix, String.toList_append]
  rfl

theorem toList_parentNames (name : String) :
    (parentNames name).map String.toList = Text.tailsBehind '.' name.toList := by
  unfold parentNames Text.tailsBehind Text.split
  rw [List.map_tails, ← List.map_tail, List.filter_map, List.map_map, List.map_map]
  have hempty : ((fun labels : List String => !labels.isEmpty) ∘ List.map String.ofList) =
      fun parts => !parts.isEmpty := by
    funext parts
    cases parts <;> rfl
  rw [hempty]
  refine List.map_congr_left fun parts _ => ?_
  simp [Function.comp_def]

/-- The names the walk tries are those above. -/
theorem mem_parentNames {name above : String} : above ∈ parentNames name ↔ Below name above := by
  rw [below_iff, ← Text.mem_tailsBehind, ← toList_parentNames, List.mem_map]
  constructor
  · exact fun h => ⟨above, h, rfl⟩
  · rintro ⟨y, hy, he⟩
    exact String.toList_injective he ▸ hy

end Designate
