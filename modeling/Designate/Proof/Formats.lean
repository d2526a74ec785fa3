import Designate.Schema.Format

/-!
# What the formats of names say

A name is taken apart at its dots, and put together again without loss: so what holds of the
labels of a name holds of its characters, and labels that are changed one by one make a name.
-/

namespace Designate

namespace Text

theorem mem_splitChars (sep : Char) {c : Char} {cs : List Char} (h : c ∈ cs) :
    c = sep ∨ ∃ part ∈ splitChars sep cs, c ∈ part := by
  induction cs with
  | nil => exact absurd h List.not_mem_nil
  | cons d cs ih =>
    by_cases hsep : d = sep
    · rcases List.mem_cons.mp h with rfl | hmem
      · exact .inl hsep
      · rw [splitChars, if_pos hsep]
        rcases ih hmem with heq | ⟨part, hpart, hc⟩
        · exact .inl heq
        · exact .inr ⟨part, List.mem_cons_of_mem _ hpart, hc⟩
    · rw [splitChars, if_neg hsep]
      cases hs : splitChars sep cs with
      | nil => exact absurd hs (splitChars_ne_nil sep cs)
      | cons part parts =>
        rw [hs] at ih
        rcases List.mem_cons.mp h with rfl | hmem
        · exact .inr ⟨_, List.mem_cons_self, List.mem_cons_self⟩
        · rcases ih hmem with heq | ⟨q, hq, hc⟩
          · exact .inl heq
          · rcases List.mem_cons.mp hq with rfl | hq
            · exact .inr ⟨_, List.mem_cons_self, List.mem_cons_of_mem _ hc⟩
            · exact .inr ⟨q, List.mem_cons_of_mem _ hq, hc⟩

/-- What keeps the separator apart from the others keeps the parts apart. -/
theorem splitChars_map {sep : Char} {f : Char → Char} (hf : ∀ c, f c = sep ↔ c = sep)
    (cs : List Char) : splitChars sep (cs.map f) = (splitChars sep cs).map (List.map f) := by
  induction cs with
  | nil => rfl
  | cons c cs ih =>
    rw [List.map_cons, splitChars, splitChars, ih]
    by_cases hsep : c = sep
    · rw [if_pos ((hf c).mpr hsep), if_pos hsep]
      rfl
    · rw [if_neg (fun h => hsep ((hf c).mp h)), if_neg hsep]
      cases hs : splitChars sep cs with
      | nil => exact absurd hs (splitChars_ne_nil sep cs)
      | cons part parts => rfl

/-- Words without blanks are what their text is split into. -/
theorem split_intercalate {ws : List String} (hne : ws ≠ []) (h : ∀ w ∈ ws, ' ' ∉ w.toList) :
    split (" ".intercalate ws) ' ' = ws := by
  have hchars : ∀ ws : List String, ws ≠ [] → (∀ w ∈ ws, ' ' ∉ w.toList) →
      splitChars ' ' (" ".intercalate ws).toList = ws.map String.toList := by
    intro ws hne h
    induction ws with
    | nil => exact absurd rfl hne
    | cons w ws ih =>
      have hw := h w List.mem_cons_self
      cases ws with
      | nil => rw [String.intercalate_singleton, splitChars_of_not_mem hw]; rfl
      | cons v ws =>
        have hblank : " ".toList = [' '] := rfl
        rw [String.intercalate_cons_cons, String.toList_append, String.toList_append, hblank,
          List.append_assoc, List.singleton_append, splitChars_append_sep hw,
          ih (List.cons_ne_nil _ _) fun u hu => h u (List.mem_cons_of_mem _ hu)]
        rfl
  unfold split
  rw [hchars ws hne h, List.map_map]
  refine (List.map_congr_left fun w _ => ?_).trans (List.map_id _)
  exact String.ofList_toList

end Text

namespace Format

theorem labels_eq_some {name : List Char} {ls : List (List Char)} :
    labels name = some ls ↔ Text.splitChars '.' name = ls ++ [[]] ∧ ls ≠ [] := by
  unfold labels
  constructor
  · intro h
    split at h
    · rename_i label more hsplit
      obtain rfl := Option.some.inj h
      rw [List.reverse_eq_iff] at hsplit
      exact ⟨by rw [hsplit, List.reverse_cons], by simp⟩
    · exact absurd h (by simp)
  · rintro ⟨hsplit, hne⟩
    rw [hsplit, List.reverse_append]
    cases hrev : ls.reverse with
    | nil => exact absurd (List.reverse_eq_nil_iff.mp hrev) hne
    | cons label more =>
      rw [List.reverse_eq_iff] at hrev
      simp [hrev]

theorem isZonename_iff {s : String} :
    isZonename s = true ↔ s.toList.length ≤ 254 ∧
      ∃ ls, Text.splitChars '.' s.toList = ls ++ [[]] ∧ ls ≠ [] ∧ ∀ l ∈ ls, isLabel l = true := by
  unfold isZonename isShort
  rw [Bool.and_eq_true, decide_eq_true_iff, Option.any_eq_true]
  simp only [labels_eq_some, List.all_eq_true, and_assoc]

/-- The characters of a name are those of its labels, and the dots. -/
theorem isZonename_chars {s : String} (h : isZonename s = true) {c : Char} (hc : c ∈ s.toList) :
    c = '.' ∨ labelChar c = true := by
  obtain ⟨-, ls, hsplit, -, hlabels⟩ := isZonename_iff.mp h
  rcases Text.mem_splitChars '.' hc with hdot | ⟨part, hpart, hmem⟩
  · exact .inl hdot
  · rw [hsplit] at hpart
    rcases List.mem_append.mp hpart with hpart | hpart
    · have hlabel := hlabels part hpart
      unfold isLabel at hlabel
      simp only [Bool.and_eq_true] at hlabel
      exact .inr (List.all_eq_true.mp hlabel.1.1.2 c hmem)
    · rw [List.mem_singleton.mp hpart] at hmem
      exact absurd hmem List.not_mem_nil

/-- No other character is in a name. -/
theorem not_mem_zonename {s : String} (h : isZonename s = true) {c : Char} (hdot : c ≠ '.')
    (hlabel : labelChar c = false) : c ∉ s.toList := by
  intro hmem
  rcases isZonename_chars h hmem with hc | hc
  · exact hdot hc
  · rw [hlabel] at hc
    exact absurd hc (by simp)

theorem no_blank_zonename {s : String} (h : isZonename s = true) : ' ' ∉ s.toList :=
  not_mem_zonename h (by decide) (by decide)

theorem no_colon_zonename {s : String} (h : isZonename s = true) : ':' ∉ s.toList :=
  not_mem_zonename h (by decide) (by decide)

theorem no_colon_ipv4 {s : String} (h : isIpv4 s = true) : ':' ∉ s.toList := by
  intro hmem
  unfold isIpv4 at h
  simp only [Bool.and_eq_true, List.all_eq_true] at h
  rcases Text.mem_splitChars '.' hmem with hdot | ⟨part, hpart, hin⟩
  · exact absurd hdot (by decide)
  · obtain ⟨n, -, hn⟩ := List.any_eq_true.mp (h.1.2 _ (List.mem_map_of_mem hpart))
    rw [← String.toList_ofList (l := part), ← beq_iff_eq.mp hn] at hin
    exact Text.not_mem_decimal (by decide) hin

theorem dot_mem_zonename {s : String} (h : isZonename s = true) : '.' ∈ s.toList := by
  by_contra hdot
  obtain ⟨-, ls, hsplit, hne, -⟩ := isZonename_iff.mp h
  rw [Text.splitChars_of_not_mem hdot] at hsplit
  have hlen := congrArg List.length hsplit
  rw [List.length_append] at hlen
  exact hne (List.length_eq_zero_iff.mp (by simpa using hlen))

theorem isZonename_head {s : String} (h : isZonename s = true) (cs : List Char) :
    s.toList ≠ '.' :: cs := by
  intro hdot
  obtain ⟨-, ls, hsplit, hne, hlabels⟩ := isZonename_iff.mp h
  rw [hdot, Text.splitChars, if_pos rfl] at hsplit
  cases ls with
  | nil => exact hne rfl
  | cons l ls =>
    have hnil : [] = l := (List.cons.inj hsplit).1
    exact absurd (hlabels l List.mem_cons_self) (by rw [← hnil]; decide)

/-! ## Names with one character for another -/

/-- One character instead of another. -/
def instead (a b c : Char) : Char := if c = a then b else c

theorem instead_eq_iff {a b c d : Char} (ha : d ≠ a) (hb : d ≠ b) :
    instead a b c = d ↔ c = d := by
  unfold instead
  split
  · next h => exact iff_of_false (Ne.symm hb) (fun he => ha (he.symm.trans h))
  · exact Iff.rfl

/-- A character that is put for another one in a name, where either may be in a label. -/
structure Exchange (a b : Char) : Prop where
  old : labelChar a = true
  new : labelChar b = true
  oldDash : a ≠ '-'
  newDash : b ≠ '-'

variable {a b : Char}

theorem Exchange.dot (h : Exchange a b) (c : Char) : instead a b c = '.' ↔ c = '.' := by
  have hdot : labelChar '.' = false := by decide
  refine instead_eq_iff ?_ ?_
  · rintro rfl
    exact absurd h.old (by simp [hdot])
  · rintro rfl
    exact absurd h.new (by simp [hdot])

theorem Exchange.labelChar_instead (h : Exchange a b) (c : Char) :
    labelChar (instead a b c) = labelChar c := by
  unfold instead
  split
  · next hc => rw [hc, h.old, h.new]
  · rfl

theorem Exchange.isLabel (h : Exchange a b) {label : List Char} (hlabel : isLabel label = true) :
    Format.isLabel (label.map (instead a b)) = true := by
  unfold Format.isLabel at hlabel ⊢
  simp only [Bool.and_eq_true, bne_iff_ne, ne_eq] at hlabel ⊢
  obtain ⟨⟨⟨⟨hmin, hmax⟩, hall⟩, hhead⟩, hlast⟩ := hlabel
  have hdash : ∀ c, instead a b c = '-' ↔ c = '-' := fun c =>
    instead_eq_iff (Ne.symm h.oldDash) (Ne.symm h.newDash)
  refine ⟨⟨⟨⟨by rwa [List.length_map], by rwa [List.length_map]⟩, ?_⟩, ?_⟩, ?_⟩
  · rw [List.all_map]
    exact List.all_eq_true.mpr fun c hc =>
      (h.labelChar_instead c).trans (List.all_eq_true.mp hall c hc)
  · rw [List.head?_map]
    cases hl : label.head? with
    | none => simp
    | some c =>
      rw [hl] at hhead
      simpa [hdash] using hhead
  · rw [List.getLast?_map]
    cases hl : label.getLast? with
    | none => simp
    | some c =>
      rw [hl] at hlast
      simpa [hdash] using hlast

/-- One more label in front, and one character for another. -/
theorem Exchange.isZonename (h : Exchange a b) {s : String} (hname : isZonename s = true)
    (hshort : s.toList.length ≤ 252) :
    Format.isZonename (String.ofList ('a' :: '.' :: s.toList.map (instead a b))) = true := by
  obtain ⟨-, ls, hsplit, hne, hlabels⟩ := isZonename_iff.mp hname
  refine isZonename_iff.mpr ?_
  rw [String.toList_ofList]
  refine ⟨by simp only [List.length_cons, List.length_map]; omega,
    ['a'] :: ls.map (List.map (instead a b)), ?_, List.cons_ne_nil _ _, ?_⟩
  · rw [Text.splitChars, if_neg (by decide), Text.splitChars, if_pos rfl, Text.splitChars_map h.dot,
      hsplit, List.map_append]
    rfl
  · intro l hl
    rcases List.mem_cons.mp hl with rfl | hl
    · decide
    · obtain ⟨l, hmem, rfl⟩ := List.mem_map.mp hl
      exact h.isLabel (hlabels l hmem)

end Format

end Designate
