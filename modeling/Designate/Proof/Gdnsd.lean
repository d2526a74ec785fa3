import Designate.Agent.Gdnsd
import Designate.PrefixCode

/-!
# Every zone has a file of its own

A file name can be read back character by character: what stands for a character that is not
valid begins with a character that stands nowhere else, and none of the codes of printable
characters begins another one. Two characters have the same translation, the slash and the
at-sign, but only the at-sign stands behind a backslash, so the reader of names tells them apart.
-/

namespace Designate

namespace Gdnsd

open PrefixCode

/-! ## Letters -/

/-- A letter in the other case may do the same. -/
theorem kind_toLower (c : Char) : kind c.toLower = kind c := by
  cases hupper : c.isUpper with
  | false => rw [Text.toLower_of_not_upper hupper]
  | true =>
    have hletters : ∀ n < 26, kind (Char.ofNat (65 + n)).toLower = kind (Char.ofNat (65 + n)) := by
      decide
    exact Text.forall_letter (P := fun c => kind c.toLower = kind c) hletters
      (Text.upper_range hupper)

/-- What becomes of a character before it is translated. -/
def squash (c : Char) : Char := (if c = '/' then '@' else c).toLower

theorem toList_squashed (s : String) : (lower (Text.replace s '/' '@')).toList = s.toList.map squash := by
  unfold lower Text.replace
  rw [String.toList_ofList, String.toList_ofList, List.map_map]
  rfl

theorem kind_squash {c : Char} (h : kind c ≠ .other) : kind (squash c) ≠ .other := by
  unfold squash
  rw [kind_toLower]
  split
  · decide
  · exact h

theorem printable {c : Char} (h : kind c ≠ .other) : 0x20 < c.toNat ∧ c.toNat < 0x7f := by
  by_cases hdot : c = '.'
  · rw [hdot]; decide
  by_cases hbackslash : c = '\\'
  · rw [hbackslash]; decide
  by_cases hspecial : c ∈ ['"', '(', ')', ';', '@', '$']
  · simp only [List.mem_cons, List.not_mem_nil, or_false] at hspecial
    rcases hspecial with rfl | rfl | rfl | rfl | rfl | rfl <;> decide
  cases hdigit : c.isDigit with
  | true =>
    have hrange : 48 ≤ c.toNat ∧ c.toNat ≤ 57 := by
      simpa [Char.isDigit, UInt32.le_iff_toNat_le] using hdigit
    omega
  | false =>
    by_contra hrange
    refine h ?_
    unfold kind
    rw [if_neg hdot, if_neg hbackslash, if_neg hspecial, if_neg (by simp [hdigit]), if_neg hrange]

/-! ## File names -/

theorem three_not_valid : Char.ofNat 3 ∉ validChars := by decide

/-- No translation of a printable character begins another one. -/
theorem prefixFree_translate : PrefixFree (fun c => kind c ≠ .other) translate where
  ne_nil := by
    intro c _
    unfold translate
    split <;> exact List.cons_ne_nil _ _
  eq_of_prefix := by
    intro a b ha hb h
    unfold translate at h
    by_cases hvalid : a ∈ validChars
    · rw [if_pos hvalid] at h
      by_cases hvalid' : b ∈ validChars
      · rw [if_pos hvalid'] at h
        exact (List.cons_prefix_cons.mp h).1
      · rw [if_neg hvalid'] at h
        exact absurd ((List.cons_prefix_cons.mp h).1 ▸ hvalid) three_not_valid
    · rw [if_neg hvalid] at h
      by_cases hvalid' : b ∈ validChars
      · rw [if_pos hvalid'] at h
        exact absurd ((List.cons_prefix_cons.mp h).1.symm ▸ hvalid') three_not_valid
      · rw [if_neg hvalid'] at h
        have hdigits : Nat.toDigits 10 a.toNat <+: Nat.toDigits 10 b.toNat := by
          simpa using (List.cons_prefix_cons.mp h).2
        -- the codes of printable characters are not ten times as big as one another
        have hlow := (printable ha).1
        have hhigh := (printable hb).2
        have hcode : a.toNat = b.toNat := by
          rcases eq_or_le_of_toDigits_prefix hdigits with hcode | hle
          · exact hcode
          · omega
        rw [← Char.ofNat_toNat a, hcode, Char.ofNat_toNat]

theorem slash_not_mem_filename (s : String) : '/' ∉ (generateZoneFilename s).toList := by
  unfold generateZoneFilename
  rw [String.toList_ofList, List.mem_flatMap]
  rintro ⟨c, -, hmem⟩
  unfold translate at hmem
  split at hmem
  · rename_i hvalid
    rw [← List.mem_singleton.mp hmem] at hvalid
    exact absurd hvalid (by decide)
  · rcases List.mem_cons.mp hmem with h | h
    · exact absurd h (by decide)
    · exact Text.not_mem_decimal (by decide) h

/-! ## Reading names -/

variable {r s t : Reading} {n m : String}

theorem read_append (r : Reading) (l l' : List Char) :
    r.read (l ++ l') = (r.read l).bind fun r => r.read l' := by
  induction l generalizing r with
  | nil => rfl
  | cons c l ih =>
    rw [List.cons_append, Reading.read, Reading.read, Option.bind_assoc]
    exact congrArg _ (funext ih)

theorem step_other (r : Reading) : r.step .other = none := by
  cases r <;> rfl

theorem kind_of_read {l : List Char} (h : r.read l = some s) : ∀ c ∈ l, kind c ≠ .other := by
  induction l generalizing r with
  | nil => exact fun c hc => absurd hc List.not_mem_nil
  | cons d l ih =>
    rw [Reading.read] at h
    obtain ⟨r', hstep, hread⟩ := Option.bind_eq_some_iff.mp h
    intro c hc
    rcases List.mem_cons.mp hc with rfl | hc
    · intro hother
      rw [hother, step_other] at hstep
      cases hstep
    · exact ih hread c hc

/-- A plain character stands where a special one does not. -/
theorem not_plain_special (hplain : r.step .plain = some s) (hspecial : r.step .special = some t) :
    False := by
  cases r <;> simp [Reading.step] at hplain hspecial

theorem kind_of_at {c : Char} (h : squash c = squash '/') (hne : c ≠ '/') : kind c = .special := by
  unfold squash at h
  rw [if_neg hne, if_pos rfl] at h
  rw [← kind_toLower c, h]
  decide

/-- **The slash is told from the at-sign by where the reader is.** -/
theorem step_squash {a b : Char} (ha : r.step (kind a) = some s) (hb : r.step (kind b) = some t)
    (h : squash a = squash b) : a.toLower = b.toLower ∧ s = t := by
  by_cases hslash : a = '/'
  · subst hslash
    by_cases hslash' : b = '/'
    · subst hslash'
      exact ⟨rfl, Option.some.inj (ha.symm.trans hb)⟩
    · rw [kind_of_at h.symm hslash'] at hb
      exact (not_plain_special ha hb).elim
  · by_cases hslash' : b = '/'
    · subst hslash'
      rw [kind_of_at h hslash] at ha
      exact (not_plain_special hb ha).elim
    · unfold squash at h
      rw [if_neg hslash, if_neg hslash'] at h
      have hkind : kind a = kind b := by rw [← kind_toLower a, h, kind_toLower]
      rw [hkind] at ha
      exact ⟨h, Option.some.inj (ha.symm.trans hb)⟩

/-- By induction on the texts: the readers stay together. -/
theorem read_squash {l l' : List Char} (hl : r.read l = some s) (hl' : r.read l' = some t)
    (h : l.map squash = l'.map squash) :
    l.map Char.toLower = l'.map Char.toLower ∧ s = t := by
  induction l generalizing l' r with
  | nil =>
    rw [List.map_nil, eq_comm, List.map_eq_nil_iff] at h
    subst h
    exact ⟨rfl, Option.some.inj (hl.symm.trans hl')⟩
  | cons a l ih =>
    cases l' with
    | nil => exact absurd h (by simp)
    | cons b l' =>
      rw [List.map_cons, List.map_cons, List.cons.injEq] at h
      rw [Reading.read] at hl hl'
      obtain ⟨u, hstep, hread⟩ := Option.bind_eq_some_iff.mp hl
      obtain ⟨v, hstep', hread'⟩ := Option.bind_eq_some_iff.mp hl'
      obtain ⟨hlower, rfl⟩ := step_squash hstep hstep' h.1
      obtain ⟨hrest, hst⟩ := ih hread hread' h.2
      exact ⟨by rw [List.map_cons, List.map_cons, hlower, hrest], hst⟩

/-- **A file name tells the name up to the case of its letters, and how far it was read.** -/
theorem filename_inj (hn : Reading.read .begin n.toList = some s)
    (hm : Reading.read .begin m.toList = some t)
    (h : generateZoneFilename n = generateZoneFilename m) : lower n = lower m ∧ s = t := by
  have htranslated : (n.toList.map squash).flatMap translate = (m.toList.map squash).flatMap translate := by
    have := congrArg String.toList h
    unfold generateZoneFilename at this
    rwa [String.toList_ofList, String.toList_ofList, toList_squashed, toList_squashed] at this
  have hkinds : ∀ {l : List Char} {u : Reading}, Reading.read .begin l = some u →
      ∀ c ∈ l.map squash, kind c ≠ .other := by
    intro l u hl
    rw [List.forall_mem_map]
    exact fun c hc => kind_squash (kind_of_read hl c hc)
  have hsquashed := prefixFree_translate.flatMap_inj (hkinds hn) (hkinds hm) htranslated
  obtain ⟨hlower, hst⟩ := read_squash hn hm hsquashed
  exact ⟨congrArg String.ofList hlower, hst⟩

/-! ## The final dot -/

/-- The reader is at the beginning only there. -/
theorem eq_nil_of_begin {l : List Char} (h : Reading.read .begin l = some .begin) : l = [] := by
  rcases List.eq_nil_or_concat l with rfl | ⟨l', c, rfl⟩
  · rfl
  · rw [List.concat_eq_append, read_append] at h
    obtain ⟨r, -, hstep⟩ := Option.bind_eq_some_iff.mp h
    rw [Reading.read] at hstep
    obtain ⟨r', hstep, hread⟩ := Option.bind_eq_some_iff.mp hstep
    obtain rfl := Option.some.inj hread
    cases r <;> cases hkind : kind c <;> rw [hkind] at hstep <;> cases hstep

/-- The reader expects an escaped character only behind a backslash. -/
theorem last_of_escape {l : List Char} (h : Reading.read .begin l = some .escape) :
    ∃ l' c, l = l' ++ [c] ∧ c ≠ '.' := by
  rcases List.eq_nil_or_concat l with rfl | ⟨l', c, rfl⟩
  · cases h
  · refine ⟨l', c, List.concat_eq_append, ?_⟩
    rintro rfl
    rw [List.concat_eq_append, read_append] at h
    obtain ⟨r, -, hstep⟩ := Option.bind_eq_some_iff.mp h
    rw [Reading.read] at hstep
    obtain ⟨r', hstep, hread⟩ := Option.bind_eq_some_iff.mp hstep
    obtain rfl := Option.some.inj hread
    cases r <;> cases hstep

theorem rstripDots_of_last {l : List Char} {c : Char} (hc : c ≠ '.') (k : Nat) :
    rstripDots (String.ofList (l ++ [c] ++ List.replicate k '.')) = String.ofList (l ++ [c]) := by
  have hdots : ∀ k, (List.replicate k '.' ++ c :: l.reverse).dropWhile (· = '.') = c :: l.reverse := by
    intro k
    induction k with
    | zero => simp [hc]
    | succ k ih => rw [List.replicate_succ, List.cons_append, List.dropWhile_cons_of_pos (by simp), ih]
  unfold rstripDots
  rw [String.toList_ofList, List.reverse_append, List.reverse_replicate, List.reverse_append,
    List.reverse_singleton, List.singleton_append, hdots]
  simp

/--
Of the text of a name only the final dot is stripped, or else what is left is the text of no
name: one that ends in an escaped dot loses that one too.
-/
theorem rstripDots_absolute (hn : IsNameText n) :
    rstripDots (absolute n) = n ∨
      ∃ r, Reading.read .begin (rstripDots (absolute n)).toList = some r ∧ ¬ r.Done := by
  obtain ⟨r, hread, hdone⟩ := hn
  have hn : n = String.ofList n.toList := String.ofList_toList.symm
  rcases List.eq_nil_or_concat n.toList with hnil | ⟨l, c, hlast⟩
  · rw [hnil] at hread
    obtain rfl := Option.some.inj hread
    exact absurd hdone (by decide)
  · rw [List.concat_eq_append] at hlast
    rw [hlast] at hn hread
    -- a name that ends in a dot is the root, or ends in an escaped one
    by_cases hc : c = '.'
    · subst hc
      rw [read_append] at hread
      obtain ⟨r', hbefore, hdot⟩ := Option.bind_eq_some_iff.mp hread
      right
      by_cases hroot : n = "."
      · rw [hroot]
        exact ⟨.begin, rfl, by decide⟩
      · -- of what may stand before a final dot, only a backslash leaves a name that is complete
        have hescape : r' = .escape := by
          cases r' with
          | begin =>
            rw [eq_nil_of_begin hbefore] at hn
            exact absurd hn hroot
          | escape => rfl
          | label =>
            obtain rfl := Option.some.inj hdot
            exact absurd hdone (by decide)
          | root => cases hdot
          | next => cases hdot
          | two => cases hdot
          | one => cases hdot
        subst hescape
        obtain ⟨l', d, rfl, hd⟩ := last_of_escape hbefore
        have habsolute : absolute n = String.ofList (l' ++ [d] ++ List.replicate 2 '.') := by
          unfold absolute
          rw [if_neg hroot, hn, ← String.ofList_append]
          simp
        rw [habsolute, rstripDots_of_last hd, String.toList_ofList]
        exact ⟨_, hbefore, by decide⟩
    · left
      have hroot : n ≠ "." := by
        intro h
        have hend := congrArg List.getLast? hlast
        rw [h, List.getLast?_concat] at hend
        exact hc (Option.some.inj hend).symm
      have habsolute : absolute n = String.ofList (l ++ [c] ++ List.replicate 1 '.') := by
        unfold absolute
        rw [if_neg hroot, hn, ← String.ofList_append]
        simp
      rw [habsolute, rstripDots_of_last hc, ← hn]

/-! ## Files -/

variable {files : Files}

/-- Writing a zone changes no file but its own. -/
theorem writeZoneFile_other {name zoneName suffix : String} {text : Option String} {renames : Bool}
    (h : name ≠ generateZoneFilename zoneName) :
    writeZoneFile zoneName suffix text renames files name = files name := by
  unfold writeZoneFile
  dsimp only
  split
  · rfl
  · rename_i hfresh
    rw [Bool.not_eq_true, Option.isSome_eq_false_iff, Option.isNone_iff_eq_none] at hfresh
    by_cases htmp : name = "." ++ generateZoneFilename zoneName ++ suffix
    · rw [htmp, hfresh]
      cases text <;> exact Function.update_self ..
    · cases text with
      | none => simp [Function.update_of_ne htmp]
      | some text => cases renames <;> simp [Function.update_of_ne htmp, Function.update_of_ne h]

theorem deleteZone_other {name zoneName : String} {removes : Bool}
    (h : name ≠ generateZoneFilename (rstripDots zoneName)) :
    deleteZone zoneName removes files name = files name := by
  unfold deleteZone
  split
  · exact Function.update_of_ne h _ _
  · rfl

/-- A call for one zone leaves the file of another one. -/
theorem step_other_zone (hm : IsNameText m) {e : Event} (he : IsNameText e.zoneName)
    (hne : lower e.zoneName ≠ lower m) :
    step e files (generateZoneFilename m) = files (generateZoneFilename m) := by
  obtain ⟨t, hread, hdone⟩ := hm
  have hwritten : generateZoneFilename m ≠ generateZoneFilename e.zoneName := by
    intro h
    obtain ⟨s, hread', -⟩ := he
    exact hne (filename_inj hread' hread h.symm).1
  cases e with
  | write zoneName suffix text renames => exact writeZoneFile_other hwritten
  | delete zoneName removes =>
    change IsNameText zoneName at he
    refine deleteZone_other ?_
    rcases rstripDots_absolute he with h | ⟨s, hread', hnot⟩
    · rw [h]
      exact hwritten
    · intro h
      exact hnot ((filename_inj hread' hread h.symm).2 ▸ hdone)

/--
**Zones have files of their own.** Two names have one file name only if they are equal but for the
case of their letters; the name is that of a file in the directory; and whatever is written and
deleted of other zones, the file of a zone is as it was.
-/
theorem zone_files_apart {m : String} (hm : IsNameText m) :
    (∀ n, IsNameText n → generateZoneFilename n = generateZoneFilename m → lower n = lower m) ∧
      '/' ∉ (generateZoneFilename m).toList ∧
      ∀ (events : List Event) (files : Files),
        (∀ e ∈ events, IsNameText e.zoneName ∧ lower e.zoneName ≠ lower m) →
        Run.final step events files (generateZoneFilename m) = files (generateZoneFilename m) := by
  refine ⟨?_, slash_not_mem_filename m, ?_⟩
  · intro n hn h
    obtain ⟨s, hread, -⟩ := hn
    obtain ⟨t, hread', -⟩ := hm
    exact (filename_inj hread hread' h).1
  · intro events files hothers
    -- one event of another zone writes another file
    have hstep : ∀ (e : Event) (f : Files),
        f (generateZoneFilename m) = files (generateZoneFilename m) →
        IsNameText e.zoneName ∧ lower e.zoneName ≠ lower m →
        step e f (generateZoneFilename m) = files (generateZoneFilename m) :=
      fun e f hf he => (step_other_zone hm he.1 he.2).trans hf
    exact (Run.invariant (I := fun f : Files => f (generateZoneFilename m) = files (generateZoneFilename m))
      (G := fun e _ => IsNameText e.zoneName ∧ lower e.zoneName ≠ lower m) hstep rfl
      fun t ht => hothers t.input (Run.input_mem ht)).2

/-- The slash of one zone and the at-sign of another one. -/
theorem zone_files_apart_sample :
    generateZoneFilename "0\\@25.arpa" ≠ generateZoneFilename "0/25.arpa" ∧
      '/' ∉ (generateZoneFilename "0/25.arpa").toList ∧
      Run.final step [.write "Example.org" "x" (some "text") true, .delete "0\\@25.arpa" true]
        (fun name => if name = "0@25.arpa" then some "text" else none)
        (generateZoneFilename "0/25.arpa") = some "text" := by
  have hname : ∀ zoneName ∈ ["Example.org", "0\\@25.arpa", "0/25.arpa"], IsNameText zoneName := by
    simp only [List.forall_mem_cons]
    exact ⟨⟨.label, by decide, by decide⟩, ⟨.label, by decide, by decide⟩,
      ⟨.label, by decide, by decide⟩, by simp⟩
  obtain ⟨hinj, hslash, hfiles⟩ := zone_files_apart (hname "0/25.arpa" (by simp))
  refine ⟨?_, hslash, (hfiles _ _ ?_).trans (by decide)⟩
  · intro h
    exact absurd (hinj _ (hname _ (by simp)) h) (by decide)
  · simp only [List.forall_mem_cons]
    exact ⟨⟨hname _ (by simp [Event.zoneName]), by decide⟩,
      ⟨hname _ (by simp [Event.zoneName]), by decide⟩, by simp⟩

end Gdnsd

end Designate
