import Designate.Sqlalchemy.ListFilters
import Mathlib.Data.String.Basic

/-!
# When a filter means what it says

A list request selects the rows that match its filter as long as nothing in the value is
taken for a wildcard of `LIKE`, for an escape or for an operator. Any such character is one
too many: there is a table of one row on which the request goes wrong.
-/

namespace Designate

namespace ListFilters

open Glob
open ReverseNames
open Text (likeParts likeParts_letter)

variable {dialect : Text.Dialect} {conf : Conf} {db : Database} {value column : String}
  {columns accepted : List String}

/-! ## From the request to the condition -/

theorem toList_replace (value : String) :
    (Text.replace value '*' '%').toList = value.toList.map fun c => if c = '*' then '%' else c := by
  simp [Text.replace]

theorem replace_of_not_mem (h : '*' ∉ value.toList) : Text.replace value '*' '%' = value := by
  have hmap : value.toList.map (fun c => if c = '*' then '%' else c) = value.toList := by
    refine (List.map_congr_left fun c hc => ?_).trans (List.map_id _)
    have hne : c ≠ '*' := fun he => h (he ▸ hc)
    simp [hne]
  unfold Text.replace
  rw [hmap, String.ofList_toList]

/-- There is no star left for `_rname_check` to see. -/
theorem rnameCheck_replaced (column value : String) :
    rnameCheck [(column, .text (Text.replace value '*' '%'))] =
      .ok [(column, .text (Text.replace value '*' '%'))] := by
  have hstar : Text.startsWith (Text.replace value '*' '%') "*" = false := by
    unfold Text.startsWith
    rw [toList_replace]
    cases value.toList with
    | nil => rfl
    | cons c cs =>
      by_cases hc : c = '*'
      · simp [hc, List.isPrefixOf]
      · simp [hc, List.isPrefixOf, Ne.symm hc]
  unfold rnameCheck
  by_cases hname : column = "name"
  · simp [hname, hstar]
  · simp [List.lookup_cons, beq_false_of_ne (Ne.symm hname)]

/-- A list request with one filter asks one thing of one column. -/
theorem listRows_one (db : Database) (hcolumn : column ∈ accepted) (hreal : column ∈ columns)
    (value : String) (rows : List Row) :
    listRows db columns accepted [(column, value)] rows =
      (condition db (.text (Text.replace value '*' '%'))).map fun holds =>
        rows.filter fun row => holds (row column) := by
  have hparams : applyFilterParams [(column, value)] accepted [] =
      .ok [(column, .text (Text.replace value '*' '%'))] := by
    simp [applyFilterParams, hcolumn, Criterion.set]
  unfold listRows
  rw [hparams]
  change (rnameCheck _ >>= fun criterion => applyCriterion db columns (fun row => row) rows criterion) = _
  rw [rnameCheck_replaced]
  change applyCriterion db columns (fun row => row) rows [(column, _)] = _
  rw [applyCriterion, if_neg (not_not.mpr hreal)]
  cases condition db (.text (Text.replace value '*' '%')) <;> rfl

/-! ## Patterns -/

/-- No character is taken as it is because of a backslash before it. -/
def NoEscape (dialect : Text.Dialect) (cs : List Char) : Prop :=
  dialect = .mysql → '\\' ∉ cs.dropLast

theorem NoEscape.of_cons {c : Char} {cs : List Char} (h : NoEscape dialect (c :: cs)) :
    NoEscape dialect cs ∧ (c = '\\' → dialect = .mysql → cs = []) := by
  by_cases hne : cs = []
  · exact ⟨fun _ => by simp [hne], fun _ _ => hne⟩
  · have hboth : dialect = .mysql → c ≠ '\\' ∧ '\\' ∉ cs.dropLast := by
      intro hmysql
      have := h hmysql
      rw [List.dropLast_cons_of_ne_nil hne, List.mem_cons, not_or] at this
      exact ⟨Ne.symm this.1, this.2⟩
    exact ⟨fun hmysql => (hboth hmysql).2, fun hc hmysql => absurd hc (hboth hmysql).1⟩

/-- Without wildcards and escapes of its own, a value is the pattern it is meant as. -/
theorem likeParts_replaced {cs : List Char} (hpercent : '%' ∉ cs) (hblank : '_' ∉ cs)
    (hescape : NoEscape dialect cs) :
    likeParts dialect (cs.map fun c => if c = '*' then '%' else c) =
      cs.map fun c => if c = '*' then .gap else .letter c := by
  induction cs with
  | nil => rfl
  | cons c cs ih =>
    rw [List.mem_cons, not_or] at hpercent hblank
    rw [List.map_cons, List.map_cons, ← ih hpercent.2 hblank.2 hescape.of_cons.1]
    by_cases hstar : c = '*'
    · rw [if_pos hstar, if_pos hstar]
      rfl
    · rw [if_neg hstar, if_neg hstar]
      refine likeParts_letter (Ne.symm hpercent.1) (Ne.symm hblank.1) fun hc hmysql => ?_
      rw [hescape.of_cons.2 hc hmysql]
      rfl

/-- A wildcard is no letter of a pattern unless it is escaped. -/
theorem count_likeParts_wildcard {a : Char} (ha : a = '%' ∨ a = '_') {cs : List Char}
    (hescape : NoEscape dialect cs) : (likeParts dialect cs).count (.letter a) = 0 := by
  induction cs with
  | nil => rfl
  | cons c cs ih =>
    have hrest := ih hescape.of_cons.1
    by_cases hpercent : c = '%'
    · subst hpercent
      rw [likeParts, List.count_cons_of_ne (by simp), hrest]
    · by_cases hblank : c = '_'
      · subst hblank
        rw [likeParts, List.count_cons_of_ne (by simp), hrest]
      · have hne : c ≠ a := by
          rcases ha with rfl | rfl
          · exact hpercent
          · exact hblank
        rw [likeParts_letter hpercent hblank hescape.of_cons.2,
          List.count_cons_of_ne (by simpa using hne), hrest]

theorem mem_dropLast_of_cons {a c : Char} {cs : List Char} (h : a ∈ (c :: cs).dropLast)
    (hne : c ≠ a) : a ∈ cs.dropLast := by
  by_cases hcs : cs = []
  · subst hcs
    exact absurd h (by simp)
  · rw [List.dropLast_cons_of_ne_nil hcs] at h
    exact (List.mem_cons.mp h).resolve_left (Ne.symm hne)

/-- A backslash that escapes something is no letter of the pattern. -/
theorem count_likeParts_backslash (cs : List Char) :
    (likeParts .mysql cs).count (.letter '\\') ≤ cs.count '\\' ∧
      ('\\' ∈ cs.dropLast → (likeParts .mysql cs).count (.letter '\\') < cs.count '\\') := by
  fun_induction likeParts .mysql cs with
  | case1 => simp
  | case2 cs ih =>
    rw [List.count_cons_of_ne (by simp), List.count_cons_of_ne (by decide)]
    exact ⟨ih.1, fun h => ih.2 (mem_dropLast_of_cons h (by decide))⟩
  | case3 cs ih =>
    rw [List.count_cons_of_ne (by simp), List.count_cons_of_ne (by decide)]
    exact ⟨ih.1, fun h => ih.2 (mem_dropLast_of_cons h (by decide))⟩
  | case4 c cs _ ih =>
    -- the backslash goes, whatever it stands before
    have hstrict : (Glob.Part.letter c :: likeParts .mysql cs).count (.letter '\\') <
        ('\\' :: c :: cs).count '\\' := by
      rw [List.count_cons_self, Nat.lt_succ_iff]
      by_cases hc : c = '\\'
      · subst hc
        rw [List.count_cons_self, List.count_cons_self]
        exact Nat.succ_le_succ ih.1
      · rw [List.count_cons_of_ne (by simpa using hc), List.count_cons_of_ne hc]
        exact ih.1
    exact ⟨Nat.le_of_lt hstrict, fun _ => hstrict⟩
  | case5 c cs h ih => exact absurd rfl h
  | case6 c cs _ _ hlast ih =>
    by_cases hc : c = '\\'
    · -- the last character
      have hcs : cs = [] := by
        cases cs with
        | nil => rfl
        | cons d cs => exact (hlast d cs hc rfl).elim
      subst hcs hc
      decide
    · rw [List.count_cons_of_ne (by simpa using hc), List.count_cons_of_ne hc]
      exact ⟨ih.1, fun h => ih.2 (mem_dropLast_of_cons h hc)⟩

/-! ## Values that go wrong -/

/-- A character that comes of nothing but itself is there as often as what it comes of. -/
theorem count_map_of {β : Type} [DecidableEq β] {f : Char → β} {a : Char} {b : β}
    (h : ∀ c, f c = b ↔ c = a) (cs : List Char) : (cs.map f).count b = cs.count a := by
  rw [List.count_eq_countP, List.countP_map, List.count_eq_countP]
  refine List.countP_congr fun c _ => ?_
  simp [h c]

theorem count_filterParts {a : Char} (ha : a ≠ '*') (value : String) :
    (filterParts value).count (.letter a) = value.toList.count a := by
  refine count_map_of (fun c => ?_) value.toList
  by_cases hstar : c = '*'
  · simp [hstar, Ne.symm ha]
  · simp [hstar]

theorem count_replaced {a : Char} (ha : a ≠ '*') (hpercent : a ≠ '%') (cs : List Char) :
    (cs.map fun c => if c = '*' then '%' else c).count a = cs.count a := by
  refine count_map_of (fun c => ?_) cs
  by_cases hstar : c = '*'
  · simp [hstar, Ne.symm ha, Ne.symm hpercent]
  · simp [hstar]

/-- **A pattern of `LIKE` that selects nothing but matches has no wildcards of its own.** -/
theorem like_selects_matches
    (h : ∀ s, accepts (likeParts dialect (Text.replace value '*' '%').toList) s = true →
      accepts (filterParts value) s = true) :
    '%' ∉ value.toList ∧ '_' ∉ value.toList ∧ NoEscape dialect value.toList := by
  rw [toList_replace] at h
  have hdrop : (value.toList.map fun c => if c = '*' then '%' else c).dropLast =
      value.toList.dropLast.map fun c => if c = '*' then '%' else c := by
    rw [List.map_dropLast]
  -- a backslash that escapes is lost from the pattern; a text that repeats it often enough is
  -- told apart by counting
  have hescape : NoEscape dialect value.toList := by
    intro hmysql hmem
    subst hmysql
    have hcount := count_le_of_forall h (a := '\\') (d := 'a') (by decide)
    have hlost := (count_likeParts_backslash
      (value.toList.map fun c => if c = '*' then '%' else c)).2
        (by rw [hdrop]; exact List.mem_map.mpr ⟨'\\', hmem, by decide⟩)
    rw [count_filterParts (by decide)] at hcount
    rw [count_replaced (by decide) (by decide)] at hlost
    omega
  -- the stars that are replaced add no backslash
  have hescape' : NoEscape dialect (value.toList.map fun c => if c = '*' then '%' else c) := by
    intro hmysql hmem
    rw [hdrop] at hmem
    obtain ⟨c, hc, hce⟩ := List.mem_map.mp hmem
    by_cases hstar : c = '*'
    · rw [if_pos hstar] at hce
      exact absurd hce (by decide)
    · rw [if_neg hstar] at hce
      exact hescape hmysql (hce ▸ hc)
  -- a wildcard of the pattern accepts a text without that character, a match needs it
  have hnone : ∀ a, a = '%' ∨ a = '_' → a ∉ value.toList := by
    intro a ha hmem
    have hstar : a ≠ '*' := by rcases ha with rfl | rfl <;> decide
    have hfresh : 'a' ≠ a := by rcases ha with rfl | rfl <;> decide
    have hcount := count_le_of_forall h hfresh
    rw [count_filterParts hstar, count_likeParts_wildcard ha hescape'] at hcount
    have := List.count_pos_iff.mpr hmem
    omega
  exact ⟨hnone '%' (Or.inl rfl), hnone '_' (Or.inr rfl), hescape⟩

/-- The collation is a binary one, also to the `LIKE` of mysql. -/
structure Binary (conf : Conf) : Prop where
  order : ∀ a b, conf.collation a b = decide (a ≤ b)
  case : conf.ignoresCase = false

/-- Under a binary collation only sqlite takes a letter for the other case. -/
theorem Binary.fold_eq (h : Binary conf) :
    conf.fold = if conf.dialect = .sqlite then Char.toLower else id := by
  unfold Conf.fold Conf.mindsCase
  rw [h.case]
  cases conf.dialect <;> rfl

/-- **A pattern that selects matches only has no letter that the database takes for another.** -/
theorem no_letter_of_selects (hfold : conf.fold = Char.toLower)
    (h : ∀ s, conf.like (Text.replace value '*' '%').toList s = true →
      accepts (filterParts value) s = true) : ∀ c ∈ value.toList, c.isAlpha = false := by
  intro a ha
  by_contra halpha
  obtain ⟨b, hne, hsame, -⟩ := Text.exists_otherCase (Bool.eq_true_of_not_eq_false halpha)
  -- a text that fills the pattern, but for the case of this letter
  let s := filled '0' (likeParts conf.dialect (Text.replace value '*' '%').toList)
  let other := s.map fun c => if c = a then b else c
  have hother : other.map Char.toLower = s.map Char.toLower := by
    rw [List.map_map]
    refine List.map_congr_left fun c _ => ?_
    by_cases hc : c = a
    · simp [hc, hsame]
    · simp [hc]
  have hlike : conf.like (Text.replace value '*' '%').toList other = true := by
    unfold Conf.like Text.like
    rw [hfold, hother]
    exact accepts_map (accepts_filled '0' _)
  have hcount := count_le_of_accepts (h other hlike) a
  have hstar : a ≠ '*' := by
    rintro rfl
    exact halpha (by decide)
  rw [count_filterParts hstar] at hcount
  have hnone : other.count a = 0 := by
    refine List.count_eq_zero.mpr fun hmem => ?_
    obtain ⟨c, -, hc⟩ := List.mem_map.mp hmem
    by_cases hca : c = a
    · exact hne (by simpa [hca] using hc)
    · rw [if_neg hca] at hc
      exact hca hc
  have := List.count_pos_iff.mpr ha
  omega

theorem le_append (a b : String) : a ≤ a ++ b := by
  rw [String.le_iff_toList_le, String.toList_append]
  exact not_lt.mp fun h => @List.le_append_left Char _ _ a.toList b.toList h

theorem empty_le (a : String) : "" ≤ a := by
  rw [String.le_iff_toList_le]
  exact not_lt.mp fun h => List.not_lt_nil _ h

theorem length_strip_le (cs : List Char) : (Text.strip cs).length ≤ cs.length := by
  unfold Text.strip
  rw [List.length_reverse]
  refine Nat.le_trans (List.dropWhile_sublist _).length_le ?_
  rw [List.length_reverse]
  exact (List.dropWhile_sublist _).length_le

theorem length_le_of_mem_splitChars {sep : Char} {cs part : List Char}
    (h : part ∈ Text.splitChars sep cs) : part.length ≤ cs.length := by
  induction cs generalizing part with
  | nil => rw [List.mem_singleton.mp h]
  | cons c cs ih =>
    rw [Text.splitChars] at h
    split at h
    · rcases List.mem_cons.mp h with rfl | h
      · simp
      · exact Nat.le_succ_of_le (ih h)
    · split at h
      · rw [List.mem_singleton.mp h]
        simp
      · rename_i q qs hq
        rcases List.mem_cons.mp h with rfl | h
        · exact Nat.succ_le_succ (ih (hq ▸ List.mem_cons_self))
        · exact Nat.le_succ_of_le (ih (hq ▸ List.mem_cons_of_mem q h))

/-- The lower bound of a `BETWEEN` is a part of the text. -/
theorem betweenCriterion_bounds {p : String → Bool} (h : betweenCriterion conf value = .ok p) :
    ∃ low high, low.toList.length < value.toList.length ∧
      p = fun column => conf.collation low column && conf.collation column high := by
  unfold betweenCriterion at h
  cases hrest : value.toList.dropWhile (· != ' ') with
  | nil => rw [hrest] at h; exact absurd h (by simp)
  | cons blank rest =>
    rw [hrest] at h
    dsimp only at h
    -- the operator stands in front of the blank, so the bounds are cut from less than the value
    have hlen : rest.length < value.toList.length := by
      have := (List.dropWhile_sublist (l := value.toList) (· != ' ')).length_le
      rw [hrest, List.length_cons] at this
      omega
    cases hparts : Text.splitChars ',' (Text.strip rest) with
    | nil => exact absurd hparts (Text.splitChars_ne_nil _ _)
    | cons low parts =>
      cases parts with
      | nil => rw [hparts] at h; exact absurd h (by simp)
      | cons high parts =>
        rw [hparts] at h
        refine ⟨_, _, ?_, (Except.ok.inj h).symm⟩
        have hlow := length_le_of_mem_splitChars (hparts ▸ List.mem_cons_self)
        have hstrip := length_strip_le low
        have hall := length_strip_le rest
        rw [String.toList_ofList]
        omega

/-- An operator in front makes a text another one than what follows it. -/
theorem ne_of_toList (front : List Char) {rest : List Char} (hv : value.toList = front ++ rest)
    (hfront : front ≠ []) : String.ofList rest ≠ value := by
  intro h
  have hlen := congrArg List.length hv
  rw [← h, String.toList_ofList, List.length_append] at hlen
  exact hfront (List.length_eq_zero_iff.mp (by omega))

/-- **A text with an operator in front selects something other than itself.** -/
theorem operator_goes_wrong (hbinary : Binary conf) (hpercent : '%' ∉ value.toList)
    (hplain : plain value = false) {p : String → Bool} (hp : textCriterion conf value = .ok p) :
    ∃ s, p s ≠ decide (s = value) := by
  have hcompare : ∀ a b, conf.collation a b = decide (a ≤ b) := hbinary.order
  unfold textCriterion at hp
  rw [if_neg (by simpa using hpercent)] at hp
  split at hp
  · rename_i rest hv
    obtain rfl := Except.ok.inj hp
    -- a text that is neither the operand nor the value
    have hlen := congrArg List.length hv
    rw [List.length_cons] at hlen
    refine ⟨value ++ value, ?_⟩
    have hne : value ++ value ≠ value := fun h => by
      have := congrArg (fun s => s.toList.length) h
      simp only [String.toList_append, List.length_append] at this
      omega
    have hrest : value ++ value ≠ String.ofList rest := fun h => by
      have := congrArg (fun s => s.toList.length) h
      simp only [String.toList_append, List.length_append, String.toList_ofList] at this
      omega
    simp [hne, hrest]
  · rename_i rest hv
    obtain rfl := Except.ok.inj hp
    have hne : String.ofList rest ≠ value := ne_of_toList ['<', '='] hv (by simp)
    exact ⟨String.ofList rest, by simp [hcompare, hne]⟩
  · rename_i rest _ hv
    obtain rfl := Except.ok.inj hp
    by_cases hle : String.ofList rest ≤ value
    · exact ⟨value, by simp [hcompare, hle]⟩
    · have hne : "" ≠ value := fun h => by rw [← h] at hv; exact absurd hv (by simp)
      have hrest : ¬ String.ofList rest ≤ "" := fun h => hle (h.trans (empty_le value))
      exact ⟨"", by simp [hcompare, hrest, hne]⟩
  · rename_i rest hv
    obtain rfl := Except.ok.inj hp
    have hne : String.ofList rest ≠ value := ne_of_toList ['>', '='] hv (by simp)
    exact ⟨String.ofList rest, by simp [hcompare, hne]⟩
  · rename_i rest _ hv
    obtain rfl := Except.ok.inj hp
    have hlen := congrArg List.length hv
    rw [List.length_cons] at hlen
    -- what follows the operator, and more
    have hne : String.ofList rest ++ (value ++ value) ≠ value := fun h => by
      have := congrArg (fun s => s.toList.length) h
      simp only [String.toList_append, List.length_append] at this
      omega
    have hlt : ¬ String.ofList rest ++ (value ++ value) ≤ String.ofList rest := fun h => by
      have := congrArg (fun s => s.toList.length) (le_antisymm h (le_append _ _))
      simp only [String.toList_append, List.length_append] at this
      omega
    exact ⟨String.ofList rest ++ (value ++ value), by simp [hcompare, hlt, hne]⟩
  · rename_i hbang hle hlt hge hgt
    split at hp
    · obtain ⟨low, high, hlen, rfl⟩ := betweenCriterion_bounds hp
      have hne : low ≠ value := fun h => by rw [h] at hlen; omega
      by_cases hbounds : low ≤ high
      · exact ⟨low, by simp [hcompare, hbounds, hne]⟩
      · have hout : ¬ (low ≤ value ∧ value ≤ high) := fun h => hbounds (h.1.trans h.2)
        exact ⟨value, by simpa [hcompare] using hout⟩
    · rename_i hbetween
      -- no operator is left that could be in front
      have hfront : ∀ c, Text.startsWith value (String.ofList [c]) = true →
          ∃ rest, value.toList = c :: rest := by
        intro c hc
        unfold Text.startsWith at hc
        obtain ⟨rest, hrest⟩ := List.isPrefixOf_iff_prefix.mp hc
        rw [String.toList_ofList] at hrest
        exact ⟨rest, hrest.symm⟩
      unfold plain at hplain
      rw [show value.toList.contains '%' = false by simpa using hpercent] at hplain
      simp only [Bool.not_false, Bool.true_and, Bool.not_eq_false', List.any_cons, List.any_nil,
        Bool.or_false, Bool.or_eq_true] at hplain
      rcases hplain with h | h | h | h
      · obtain ⟨rest, hv⟩ := hfront '!' h
        exact (hbang rest hv).elim
      · obtain ⟨rest, hv⟩ := hfront '<' h
        exact (hlt rest hv).elim
      · obtain ⟨rest, hv⟩ := hfront '>' h
        exact (hgt rest hv).elim
      · exact absurd h hbetween

/-! ## The request as a whole -/

/-- The one row whose column holds `s`, with `reverse_name` in step. -/
def rowOf (column s : String) : Row := fun name =>
  if name = column then .text s
  else if name = "reverse_name" ∧ column = "name" then .text (Text.reverse s)
  else .null

theorem rowOf_fair (hcolumn : column ≠ "reverse_name") (s : String) : Fair column (rowOf column s) where
  inStep := by
    intro t ht
    unfold rowOf at ht ⊢
    by_cases hname : column = "name"
    · subst hname
      rw [if_pos rfl] at ht
      rw [if_neg (Ne.symm hcolumn), if_pos ⟨rfl, rfl⟩, Cell.text.inj ht]
    · rw [if_neg (Ne.symm hname), if_neg (fun h => hname h.2)] at ht
      exact absurd ht (by simp)
  text := by
    intro n
    unfold rowOf
    rw [if_pos rfl]
    simp

/-- What a text of a criterion asks of a text. -/
theorem condition_text_map (db : Database) (value : String) :
    condition db (.text value) = (textCriterion db.conf value).map fun p cell =>
      match cell with
      | .null => false
      | .number n => db.asksNumber value n
      | .text t => p t := by
  rw [condition, columnCriterion]
  cases textCriterion db.conf value <;> rfl

/-- If a filter selects its matches whatever the table, its condition holds of its matches. -/
theorem condition_of_lists (hcolumn : column ∈ accepted) (hreal : column ∈ columns)
    (hown : column ≠ "reverse_name")
    (h : ∀ rows : List Row, (∀ row ∈ rows, Fair column row) →
      listRows db columns accepted [(column, value)] rows =
        .ok (rows.filter fun row => matchesFilter value (row column))) :
    ∃ p, textCriterion db.conf (Text.replace value '*' '%') = .ok p ∧
      ∀ s, p s = accepts (filterParts value) s.toList := by
  -- what is assumed of every table, at the table with the one row `s`
  have hrows : ∀ s, listRows db columns accepted [(column, value)] [rowOf column s] =
      .ok ([rowOf column s].filter fun row => matchesFilter value (row column)) :=
    fun s => h _ fun row hrow => by
      rw [List.mem_singleton.mp hrow]
      exact rowOf_fair hown s
  have hread : ∀ s, rowOf column s column = .text s := fun s => if_pos rfl
  cases htext : textCriterion db.conf (Text.replace value '*' '%') with
  | error e =>
    have := hrows ""
    rw [listRows_one _ hcolumn hreal, condition_text_map, htext] at this
    exact absurd this (by simp [Except.map])
  | ok p =>
    refine ⟨p, rfl, fun s => ?_⟩
    have hrow := hrows s
    rw [listRows_one _ hcolumn hreal, condition_text_map, htext] at hrow
    -- one row is kept or not, which is the value of the condition
    have hfilter := Except.ok.inj hrow
    dsimp only at hfilter
    rw [List.filter_cons, List.filter_cons, hread, List.filter_nil, List.filter_nil] at hfilter
    have hmatch : matchesFilter value (.text s) = accepts (filterParts value) s.toList := rfl
    rw [hmatch] at hfilter
    dsimp only at hfilter
    cases hl : p s with
    | true =>
      cases hr : accepts (filterParts value) s.toList with
      | true => rfl
      | false => exact absurd hfilter (by simp [hl, hr])
    | false =>
      cases hr : accepts (filterParts value) s.toList with
      | true => exact absurd hfilter (by simp [hl, hr])
      | false => rfl

theorem filterParts_letters (h : '*' ∉ value.toList) :
    filterParts value = value.toList.map .letter := by
  refine List.map_congr_left fun c hc => if_neg ?_
  rintro rfl
  exact h hc

/-- What a value that is taken as it is asks of a text. -/
theorem textCriterion_of_taken (hbinary : Binary conf) (h : TakenAsItIs conf.dialect value) :
    textCriterion conf (Text.replace value '*' '%') =
      .ok fun text => accepts (filterParts value) text.toList := by
  unfold TakenAsItIs at h
  by_cases hstar : '*' ∈ value.toList
  · rw [if_pos hstar] at h
    obtain ⟨hpercent, hblank, hescape, hletter⟩ := h
    have hlike : (Text.replace value '*' '%').toList.contains '%' = true := by
      rw [toList_replace, List.contains_iff_mem]
      exact List.mem_map.mpr ⟨'*', hstar, by decide⟩
    -- no letter of the pattern is one that is taken for another
    have hown : ∀ a, .letter a ∈ filterParts value → ∀ b, conf.fold b = conf.fold a → b = a := by
      intro a ha b hsame
      obtain ⟨c, hc, he⟩ := List.mem_map.mp ha
      have hca : c = a := by
        split at he
        · exact absurd he (by simp)
        · exact Part.letter.inj he
      rw [hbinary.fold_eq] at hsame
      split at hsame
      · next hsqlite => exact Text.eq_of_toLower_eq (hletter hsqlite a (hca ▸ hc)) hsame
      · exact hsame
    unfold textCriterion
    rw [if_pos hlike]
    refine congrArg Except.ok (funext fun text => ?_)
    unfold Conf.like Text.like
    rw [toList_replace, likeParts_replaced hpercent hblank hescape]
    exact accepts_map_eq hown text.toList
  · rw [if_neg hstar] at h
    have hpercent : '%' ∉ value.toList := by
      unfold plain at h
      simp only [Bool.and_eq_true] at h
      simpa using h.1
    rw [replace_of_not_mem hstar, textCriterion_plain h]
    refine congrArg Except.ok (funext fun text => ?_)
    have hiff := accepts_letters value.toList text.toList
    rw [String.toList_inj] at hiff
    rw [Bool.eq_iff_iff, filterParts_letters hstar, hiff, beq_iff_eq]

/-- A database with a collation that is binary. -/
def sampleDatabase (dialect : Text.Dialect) : Database where
  conf := { dialect }
  asksNumber _ _ := false
  sameText _ _ := false

/-- What a list request for one filter lists, of a table with one text in the column. -/
def listed (dialect : Text.Dialect) (column value s : String) : Option Nat :=
  (listRows (sampleDatabase dialect) zonesColumns ["name", "description"] [(column, value)]
    [rowOf column s]).toOption.map List.length

end ListFilters

end Designate
