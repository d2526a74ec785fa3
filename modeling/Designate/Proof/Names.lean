import Designate.Schema.Expressions
import Designate.Proof.Formats

/-!
# What the expressions for names accept

The expression for a label takes labels, wherever it stands, and nothing else; so the one for
names takes labels one after the other. The look for too many characters comes first, and sees
all of a name, unless something has been taken before: in the name of a service it sees only
what comes after the labels of the service.
-/

namespace Designate

namespace Format

open Regex

variable {P : List Char → Prop} {r : Regex Char} {L : List Char → Prop}

theorem labelChar_iff (c : Char) : labelChar c = true ↔ LabelChar c := by
  unfold labelChar LabelChar
  simp only [Bool.or_eq_true, beq_iff_eq]
  tauto

theorem not_labelChar_dot : ¬ LabelChar '.' := by
  unfold LabelChar
  decide

theorem not_labelChar_newline : ¬ LabelChar '\n' := by
  unfold LabelChar
  decide

/-! ## Labels put together and taken apart -/

theorem joined_cons (l : List Char) (ls : List (List Char)) :
    joined (l :: ls) = l ++ '.' :: joined ls := by
  unfold joined
  rw [List.flatMap_cons, List.append_assoc]
  rfl

/-- Labels without dots are what a name is split into. -/
theorem splitChars_joined {ls : List (List Char)} (h : ∀ l ∈ ls, '.' ∉ l) :
    Text.splitChars '.' (joined ls) = ls ++ [[]] := by
  induction ls with
  | nil => rfl
  | cons l ls ih =>
    rw [joined_cons, Text.splitChars_append_sep (h l List.mem_cons_self),
      ih fun l hl => h l (List.mem_cons_of_mem _ hl)]
    rfl

/-- And what it is split into gives the name. -/
theorem eq_joined {cs : List Char} {ls : List (List Char)}
    (h : Text.splitChars '.' cs = ls ++ [[]]) : cs = joined ls := by
  induction cs generalizing ls with
  | nil =>
    have hls : ls = [] := by
      cases ls with
      | nil => rfl
      | cons l ls => exact absurd (congrArg List.length h) (by simp [Text.splitChars])
    rw [hls]
    rfl
  | cons c cs ih =>
    rw [Text.splitChars] at h
    -- a dot ends the first label, another character belongs to it
    by_cases hc : c = '.'
    · rw [if_pos hc] at h
      cases ls with
      | nil =>
        have htail := (List.cons.inj h).2
        exact absurd htail (Text.splitChars_ne_nil _ _)
      | cons l ls =>
        obtain ⟨rfl, htail⟩ := List.cons.inj h
        rw [joined_cons, hc, ih htail]
        rfl
    · rw [if_neg hc] at h
      cases hs : Text.splitChars '.' cs with
      | nil => exact absurd hs (Text.splitChars_ne_nil _ _)
      | cons p ps =>
        rw [hs] at h
        have hcons : (c :: p) :: ps = ls ++ [[]] := h
        cases ls with
        | nil => exact absurd (List.cons.inj hcons).1 (List.cons_ne_nil _ _)
        | cons l ls =>
          obtain ⟨rfl, htail⟩ := List.cons.inj hcons
          have hp : cs = joined (p :: ls) := ih (by rw [hs, htail]; rfl)
          rw [joined_cons] at hp ⊢
          rw [hp]
          rfl

theorem IsLabel.no_dot {l : List Char} (h : IsLabel l) : '.' ∉ l :=
  fun hmem => not_labelChar_dot (h.chars _ hmem)

theorem IsServiceLabel.no_dot {l : List Char} (h : IsServiceLabel l) : '.' ∉ l :=
  fun hmem => not_labelChar_dot (h.chars _ hmem)

theorem isLabel_iff (l : List Char) : isLabel l = true ↔ IsLabel l := by
  have hall : l.all labelChar = true ↔ ∀ c ∈ l, LabelChar c := by
    rw [List.all_eq_true]
    exact forall₂_congr fun c _ => labelChar_iff c
  unfold isLabel
  simp only [Bool.and_eq_true, decide_eq_true_eq, bne_iff_ne, ne_eq, hall]
  exact ⟨fun ⟨⟨⟨⟨h₁, h₂⟩, h₃⟩, h₄⟩, h₅⟩ => ⟨h₁, h₂, h₃, h₄, h₅⟩,
    fun h => ⟨⟨⟨⟨h.min, h.max⟩, h.chars⟩, h.head⟩, h.last⟩⟩

/-! ## What the expressions take -/

theorem reads_char (c : Char) : Reads P (char c) fun w => w = [c] := by
  refine (reads_one _).congr fun w => ⟨?_, ?_⟩
  · rintro ⟨a, rfl, ha⟩
    rw [eq_of_beq ha]
  · rintro rfl
    exact ⟨c, rfl, beq_self_eq_true c⟩

theorem reads_labelChars :
    Reads P labelChars fun w => (∀ c ∈ w, LabelChar c) ∧ 1 ≤ w.length ∧ w.length ≤ 63 := by
  refine (reads_class _ _ _).congr fun w => ?_
  rw [List.all_eq_true, forall₂_congr fun c _ => labelChar_iff c]
  simp

theorem reads_labelStart :
    Reads P labelStart fun w => ((∀ c ∈ w, LabelChar c) ∧ 1 ≤ w.length ∧ w.length ≤ 63) ∧
      w.head? ≠ some '-' := by
  refine (reads_labelChars.notAhead (fun w hw he => ?_) _).congr fun w => ?_
  · rw [he] at hw
    exact absurd hw.2.1 (by simp)
  · refine and_congr_right fun _ => ⟨fun h he => ?_, fun h a ha => ?_⟩
    · exact absurd (h _ he) (by simp)
    · rw [beq_eq_false_iff_ne]
      rintro rfl
      exact h ha

/-- What ends a label takes the last character into account, and the dot. -/
theorem reads_labelEnd (hr : Reads P r L) (hne : ∀ w, L w → w ≠ []) :
    Reads P (labelEnd r) fun w => ∃ l, w = l ++ ['.'] ∧ L l ∧ l.getLast? ≠ some '-' := by
  refine ((hr.notBehind hne _).seq (Q := Anywhere) (reads_char '.')
    fun _ _ _ _ => trivial).congr fun w => ⟨?_, ?_⟩
  · rintro ⟨l, v, rfl, ⟨hl, hlast⟩, rfl⟩
    refine ⟨l, rfl, hl, fun he => ?_⟩
    exact absurd (hlast _ he) (by simp)
  · rintro ⟨l, rfl, hl, hlast⟩
    refine ⟨l, ['.'], rfl, ⟨hl, fun a ha => ?_⟩, rfl⟩
    rw [beq_eq_false_iff_ne]
    rintro rfl
    exact hlast ha

/-- A label with its dot. -/
def Dotted (L : List Char → Prop) (w : List Char) : Prop := ∃ l, w = l ++ ['.'] ∧ L l

theorem reads_label : Reads P (labelEnd labelStart) (Dotted IsLabel) := by
  refine (reads_labelEnd reads_labelStart fun w hw he => ?_).congr fun w => ?_
  · rw [he] at hw
    exact absurd hw.1.2.1 (by simp)
  · refine exists_congr fun l => and_congr_right fun _ => ⟨?_, fun h => ?_⟩
    · rintro ⟨⟨⟨hchars, hmin, hmax⟩, hhead⟩, hlast⟩
      exact ⟨hmin, hmax, hchars, hhead, hlast⟩
    · exact ⟨⟨⟨h.chars, h.min, h.max⟩, h.head⟩, h.last⟩

/-- Dotted labels one after the other are labels put together. -/
theorem flatten_dotted (w : List Char) (n : Nat) (L : List Char → Prop) :
    (∃ ws : List (List Char), w = ws.flatten ∧ (∀ v ∈ ws, Dotted L v) ∧ ws.length = n) ↔
      ∃ ls, w = joined ls ∧ (∀ l ∈ ls, L l) ∧ ls.length = n := by
  constructor
  · rintro ⟨ws, rfl, hall, hlen⟩
    induction ws generalizing n with
    | nil => exact ⟨[], rfl, fun l hl => absurd hl List.not_mem_nil, hlen⟩
    | cons v ws ih =>
      obtain ⟨ls, hw, hls, hlen'⟩ := ih ws.length (fun v hv => hall v (List.mem_cons_of_mem _ hv)) rfl
      obtain ⟨l, rfl, hl⟩ := hall v List.mem_cons_self
      refine ⟨l :: ls, ?_, ?_, by rw [List.length_cons, hlen', ← hlen, List.length_cons]⟩
      · rw [joined_cons, List.flatten_cons, hw, List.append_assoc]
        rfl
      · intro k hk
        rcases List.mem_cons.mp hk with rfl | hk
        · exact hl
        · exact hls k hk
  · rintro ⟨ls, rfl, hall, hlen⟩
    refine ⟨ls.map (· ++ ['.']), by rw [← List.flatMap_def]; rfl, ?_, by rwa [List.length_map]⟩
    intro v hv
    obtain ⟨l, hl, rfl⟩ := List.mem_map.mp hv
    exact ⟨l, rfl, hall l hl⟩

/-- Labels, one or more. -/
theorem reads_labels :
    Reads P (.rep (labelEnd labelStart) 1 none) fun w =>
      ∃ ls, w = joined ls ∧ ls ≠ [] ∧ ∀ l ∈ ls, IsLabel l := by
  refine Reads.mono (Q := Anywhere) ((reads_label.rep (fun _ _ _ _ => trivial) 1 none).congr
    fun w => ⟨?_, ?_⟩) fun _ _ => trivial
  · rintro ⟨ws, hw, hall, hmin, -⟩
    obtain ⟨ls, rfl, hls, hlen⟩ := (flatten_dotted w ws.length IsLabel).mp ⟨ws, hw, hall, rfl⟩
    refine ⟨ls, rfl, fun he => ?_, hls⟩
    rw [he] at hlen
    rw [← hlen] at hmin
    exact absurd hmin (by simp)
  · rintro ⟨ls, hw, hne, hall⟩
    obtain ⟨ws, rfl, hws, hlen⟩ := (flatten_dotted w ls.length IsLabel).mpr ⟨ls, hw, hall, rfl⟩
    refine ⟨ws, rfl, hws, ?_, nofun⟩
    rw [hlen]
    exact List.length_pos_iff.mpr hne

/-- At the beginning, a star is taken as well as a label. -/
theorem reads_hostLabel :
    Reads (· = []) (labelEnd (.alt (start ++ char '*') labelStart))
      (Dotted fun l => l = ['*'] ∨ IsLabel l) := by
  have hstar : Reads (· = []) (start ++ char '*') (fun w => w = ['*']) :=
    (reads_char '*').start fun _ h => h
  refine (reads_labelEnd (hstar.alt reads_labelStart) fun w hw he => ?_).congr fun w => ?_
  · rw [he] at hw
    exact absurd hw (by simp)
  · refine exists_congr fun l => and_congr_right fun _ => ⟨?_, ?_⟩
    · rintro ⟨rfl | ⟨⟨hchars, hmin, hmax⟩, hhead⟩, hlast⟩
      · exact Or.inl rfl
      · exact Or.inr ⟨hmin, hmax, hchars, hhead, hlast⟩
    · rintro (rfl | h)
      · exact ⟨Or.inl rfl, by decide⟩
      · exact ⟨Or.inr ⟨⟨h.chars, h.min, h.max⟩, h.head⟩, h.last⟩

/-- Elsewhere the star is not. -/
theorem reads_laterLabel :
    Reads (· ≠ []) (labelEnd (.alt (start ++ char '*') labelStart)) (Dotted IsLabel) := by
  have hnone : Reads (· ≠ []) (start ++ char '*') (fun _ => False) :=
    reads_start_none fun _ h => h
  refine (reads_labelEnd (hnone.alt reads_labelStart) fun w hw he => ?_).congr fun w => ?_
  · rw [he] at hw
    exact absurd hw (by simp)
  · refine exists_congr fun l => and_congr_right fun _ => ⟨?_, fun h => ?_⟩
    · rintro ⟨hfalse | ⟨⟨hchars, hmin, hmax⟩, hhead⟩, hlast⟩
      · exact hfalse.elim
      · exact ⟨hmin, hmax, hchars, hhead, hlast⟩
    · exact ⟨Or.inr ⟨⟨h.chars, h.min, h.max⟩, h.head⟩, h.last⟩

theorem reads_hostLabels :
    Reads (· = []) (.rep (labelEnd (.alt (start ++ char '*') labelStart)) 1 none) fun w =>
      ∃ first labels, w = joined (first :: labels) ∧ (first = ['*'] ∨ IsLabel first) ∧
        ∀ l ∈ labels, IsLabel l := by
  have hne : ∀ {L : List Char → Prop} (b w : List Char), Dotted L w → w.reverse ++ b ≠ [] := by
    rintro L b w ⟨l, rfl, -⟩
    simp
  refine (reads_hostLabel.rep_head reads_laterLabel (fun b w _ hw => hne b w hw)
    fun b w _ hw => hne b w hw).congr fun w => ⟨?_, ?_⟩
  · rintro ⟨u, ws, rfl, ⟨first, rfl, hfirst⟩, hall⟩
    obtain ⟨ls, hw, hls, -⟩ := (flatten_dotted _ ws.length IsLabel).mp ⟨ws, rfl, hall, rfl⟩
    refine ⟨first, ls, ?_, hfirst, hls⟩
    rw [joined_cons, hw, List.append_assoc]
    rfl
  · rintro ⟨first, ls, rfl, hfirst, hls⟩
    obtain ⟨ws, hw, hall, -⟩ := (flatten_dotted _ ls.length IsLabel).mpr ⟨ls, rfl, hls, rfl⟩
    refine ⟨first ++ ['.'], ws, ?_, ⟨first, rfl, hfirst⟩, hall⟩
    rw [joined_cons, ← hw, List.append_assoc]
    rfl

/-! ## The look for too many characters -/

/-- It sees no more than 254 characters that are left, if none of them ends a line. -/
theorem notLong_iff {i : Place Char} (h : '\n' ∉ i.ahead) :
    (∀ k, ¬ (Regex.rep anyChar 255 none).Matches i k) ↔ i.ahead.length ≤ 254 := by
  have hall : i.ahead.all (fun c => c != '\n') = true := by
    refine List.all_eq_true.mpr fun c hc => bne_iff_ne.mpr ?_
    rintro rfl
    exact h hc
  exact (notAhead_class hall).trans Nat.lt_succ_iff

/-- A whole text after the look. -/
theorem match_iff (hr : Reads (· = []) r L) (hL : ∀ w, L w → '\n' ∉ w) (s : String) :
    Match (start ++ notLong ++ r ++ stop) s ↔ s.toList.length ≤ 254 ∧ L s.toList := by
  constructor
  · rintro ⟨j, k, ⟨k₁, ⟨k₂, ⟨-, rfl⟩, hlong, rfl⟩, hk⟩, hend⟩
    have hs : L s.toList := (hr.stop (i := ⟨[], s.toList⟩) rfl).mp ⟨j, k, hk, hend⟩
    exact ⟨(notLong_iff (i := ⟨[], s.toList⟩) (hL _ hs)).mp hlong, hs⟩
  · rintro ⟨hshort, hs⟩
    obtain ⟨j, k, hk, hend⟩ := (hr.stop (i := ⟨[], s.toList⟩) rfl).mpr hs
    have hlong := (notLong_iff (i := ⟨[], s.toList⟩) (hL _ hs)).mpr hshort
    exact ⟨j, k, ⟨_, ⟨_, ⟨rfl, rfl⟩, hlong, rfl⟩, hk⟩, hend⟩

theorem no_newline_joined {ls : List (List Char)} (h : ∀ l ∈ ls, '\n' ∉ l) :
    '\n' ∉ joined ls := by
  unfold joined
  rw [List.mem_flatMap]
  rintro ⟨l, hl, hmem⟩
  rcases List.mem_append.mp hmem with hmem | hmem
  · exact h l hl hmem
  · exact absurd hmem (by decide)

theorem IsLabel.no_newline {l : List Char} (h : IsLabel l) : '\n' ∉ l :=
  fun hmem => not_labelChar_newline (h.chars _ hmem)

theorem match_zonename (s : String) : Match reZonename s ↔ IsZonename s := by
  refine match_iff reads_labels ?_ s
  rintro w ⟨ls, rfl, -, hall⟩
  exact no_newline_joined fun l hl => (hall l hl).no_newline

theorem match_hostname (s : String) : Match reHostname s ↔ IsHostname s := by
  refine match_iff reads_hostLabels ?_ s
  rintro w ⟨first, ls, rfl, hfirst, hall⟩
  refine no_newline_joined fun l hl => ?_
  rcases List.mem_cons.mp hl with rfl | hl
  · rcases hfirst with rfl | hlabel
    · decide
    · exact hlabel.no_newline
  · exact (hall l hl).no_newline

/-- A name begins with a label. -/
theorem IsZonename.isHostname {s : String} (h : IsZonename s) : IsHostname s := by
  obtain ⟨hshort, ls, hs, hne, hall⟩ := h
  cases ls with
  | nil => exact absurd rfl hne
  | cons first ls =>
    exact ⟨hshort, first, ls, hs, Or.inr (hall _ List.mem_cons_self),
      fun l hl => hall l (List.mem_cons_of_mem _ hl)⟩

/--
**The expressions accept the names of their grammar and no other text, and every zone name is a
host name.**
-/
theorem names_exact (s : String) :
    (Match reZonename s ↔ IsZonename s) ∧ (Match reHostname s ↔ IsHostname s) ∧
      (Match reZonename s → Match reHostname s) := by
  refine ⟨match_zonename s, match_hostname s, fun h => ?_⟩
  exact (match_hostname s).mpr ((match_zonename s).mp h).isHostname

/-! ## The checkers decide the expressions -/

theorem isZonename_iff_match (s : String) : isZonename s = true ↔ Match reZonename s := by
  rw [match_zonename, isZonename_iff]
  refine and_congr_right fun _ => exists_congr fun ls => ?_
  constructor
  · rintro ⟨hsplit, hne, hall⟩
    exact ⟨eq_joined hsplit, hne, fun l hl => (isLabel_iff l).mp (hall l hl)⟩
  · rintro ⟨hs, hne, hall⟩
    rw [hs]
    exact ⟨splitChars_joined fun l hl => (hall l hl).no_dot, hne,
      fun l hl => (isLabel_iff l).mpr (hall l hl)⟩

theorem isHostname_iff_match (s : String) : isHostname s = true ↔ Match reHostname s := by
  have hfirst : ∀ first : List Char, (first == ['*'] || isLabel first) = true ↔
      first = ['*'] ∨ IsLabel first := by
    intro first
    rw [Bool.or_eq_true, beq_iff_eq, isLabel_iff]
  have hmore : ∀ more : List (List Char), more.all isLabel = true ↔ ∀ l ∈ more, IsLabel l := by
    intro more
    rw [List.all_eq_true]
    exact forall₂_congr fun l _ => isLabel_iff l
  rw [match_hostname]
  unfold isHostname isShort IsHostname
  rw [Bool.and_eq_true, decide_eq_true_iff]
  refine and_congr_right fun _ => ?_
  constructor
  · intro h
    split at h
    · rename_i first more hlabels
      rw [Bool.and_eq_true, hfirst, hmore] at h
      exact ⟨first, more, eq_joined (labels_eq_some.mp hlabels).1, h⟩
    · exact absurd h Bool.false_ne_true
  · rintro ⟨first, more, hs, hf, hm⟩
    -- no label has a dot in it, so splitting finds the labels again
    have hdot : ∀ l ∈ first :: more, '.' ∉ l := by
      intro l hl
      rcases List.mem_cons.mp hl with rfl | hl
      · rcases hf with rfl | hlabel
        · decide
        · exact hlabel.no_dot
      · exact (hm l hl).no_dot
    have hlabels : labels s.toList = some (first :: more) :=
      labels_eq_some.mpr ⟨by rw [hs, splitChars_joined hdot], List.cons_ne_nil _ _⟩
    rw [hlabels]
    exact Bool.and_eq_true_iff.mpr ⟨(hfirst first).mpr hf, (hmore more).mpr hm⟩

/-! ## Names of services -/

/-- What the expression takes for the label of a service, which may be too long for a label. -/
def ServiceText (l : List Char) : Prop :=
  ∃ cs, l = '_' :: cs ∧ (∀ c ∈ cs, LabelChar c) ∧ 1 ≤ cs.length ∧ cs.length ≤ 63

theorem ServiceText.chars {l : List Char} (h : ServiceText l) : ∀ c ∈ l, LabelChar c := by
  obtain ⟨cs, rfl, hall, -⟩ := h
  intro c hc
  rcases List.mem_cons.mp hc with rfl | hc
  · exact Or.inr (Or.inr rfl)
  · exact hall c hc

theorem ServiceText.no_dot {l : List Char} (h : ServiceText l) : '.' ∉ l :=
  fun hmem => not_labelChar_dot (h.chars _ hmem)

theorem reads_serviceLabel : Reads P serviceLabel (Dotted ServiceText) := by
  refine (((reads_char '_').seq (Q := Anywhere) reads_labelChars fun _ _ _ _ => trivial).seq
    (Q := Anywhere) (reads_char '.') fun _ _ _ _ => trivial).congr fun w => ⟨?_, ?_⟩
  · rintro ⟨l, v, rfl, ⟨u, cs, rfl, rfl, hcs⟩, rfl⟩
    exact ⟨'_' :: cs, rfl, cs, rfl, hcs⟩
  · rintro ⟨l, rfl, cs, rfl, hcs⟩
    exact ⟨'_' :: cs, ['.'], rfl, ⟨['_'], cs, rfl, rfl, hcs⟩, rfl⟩

/-- The two labels in front. -/
theorem reads_services :
    Reads P (.notAhead (char '-') ++ .rep serviceLabel 2 (some 2)) fun w =>
      ∃ service proto, w = joined [service, proto] ∧ ServiceText service ∧ ServiceText proto := by
  have htwo : Reads P (.rep serviceLabel 2 (some 2)) fun w =>
      ∃ service proto, w = joined [service, proto] ∧ ServiceText service ∧ ServiceText proto := by
    refine Reads.mono (Q := Anywhere) ((reads_serviceLabel.rep (fun _ _ _ _ => trivial) 2
      (some 2)).congr fun w => ⟨?_, ?_⟩) fun _ _ => trivial
    · rintro ⟨ws, hw, hall, hmin, hmax⟩
      -- exactly two are read
      have hlen : ws.length = 2 := Nat.le_antisymm (hmax 2 rfl) hmin
      obtain ⟨ls, rfl, hls, hlen⟩ := (flatten_dotted w 2 ServiceText).mp ⟨ws, hw, hall, hlen⟩
      obtain ⟨service, proto, rfl⟩ := List.length_eq_two.mp hlen
      exact ⟨service, proto, rfl, hls _ (by simp), hls _ (by simp)⟩
    · rintro ⟨service, proto, hw, hservice, hproto⟩
      have hboth : ∀ l ∈ [service, proto], ServiceText l := by
        intro l hl
        rcases List.mem_pair.mp hl with rfl | rfl
        · exact hservice
        · exact hproto
      obtain ⟨ws, hws, hall, hlen⟩ :=
        (flatten_dotted w 2 ServiceText).mpr ⟨[service, proto], hw, hboth, rfl⟩
      exact ⟨ws, hws, hall, Nat.le_of_eq hlen.symm,
        fun m hm => Option.some.inj hm ▸ Nat.le_of_eq hlen⟩
  refine (htwo.notAhead (fun w hw => ?_) _).congr fun w => and_iff_left_of_imp ?_
  · obtain ⟨service, proto, rfl, -⟩ := hw
    simp [joined]
  · rintro ⟨service, proto, rfl, ⟨cs, rfl, -⟩, -⟩ a ha
    rw [← Option.some.inj ha]
    rfl

/-- The look for too many characters comes after the two labels. -/
theorem match_srv_iff (s : String) :
    Match reSrvHostName s ↔
      ∃ service proto labels, s.toList = joined (service :: proto :: labels) ∧
        ServiceText service ∧ ServiceText proto ∧ labels ≠ [] ∧ (∀ l ∈ labels, IsLabel l) ∧
        (joined labels).length ≤ 254 := by
  have hjoin : ∀ (l k : List Char) (ls : List (List Char)),
      joined [l, k] ++ joined ls = joined (l :: k :: ls) := by
    intro l k ls
    unfold joined
    rw [← List.flatMap_append]
    rfl
  constructor
  · rintro ⟨j, k, ⟨k₁, ⟨k₂, ⟨k₃, ⟨-, rfl⟩, hpre⟩, hlong, rfl⟩, hk⟩, hend⟩
    obtain ⟨w, rest, ⟨service, proto, rfl, hservice, hproto⟩, hahead, rfl⟩ :=
      (reads_services (P := Anywhere) _ _ trivial).mp hpre
    -- what the look for too many characters is made at is what the two labels leave
    obtain ⟨labels, hrest, hne, hall⟩ := (reads_labels.stop (P := Anywhere) trivial).mp ⟨j, k, hk, hend⟩
    have hrest : rest = joined labels := hrest
    refine ⟨service, proto, labels, ?_, hservice, hproto, hne, hall, ?_⟩
    · rw [← hjoin, ← hrest]
      exact hahead
    · refine hrest ▸ (notLong_iff ?_).mp hlong
      exact hrest ▸ no_newline_joined fun l hl => (hall l hl).no_newline
  · rintro ⟨service, proto, labels, hs, hservice, hproto, hne, hall, hshort⟩
    have hpre := (reads_services (P := Anywhere) ⟨[], s.toList⟩ _ trivial).mpr
      ⟨_, joined labels, ⟨service, proto, rfl, hservice, hproto⟩, by rw [hjoin, hs], rfl⟩
    have hlong : ∀ k, ¬ (Regex.rep anyChar 255 none).Matches
        ((⟨[], s.toList⟩ : Place Char).after (joined [service, proto]) (joined labels)) k :=
      (notLong_iff (no_newline_joined fun l hl => (hall l hl).no_newline)).mpr hshort
    obtain ⟨j, k, hk, hend⟩ := (reads_labels.stop (P := Anywhere)
      (i := (⟨[], s.toList⟩ : Place Char).after (joined [service, proto]) (joined labels))
      trivial).mpr ⟨labels, rfl, hne, hall⟩
    exact ⟨j, k, ⟨_, ⟨_, ⟨_, ⟨rfl, rfl⟩, hpre⟩, hlong, rfl⟩, hk⟩, hend⟩

theorem services_no_dot {service proto : List Char} {labels : List (List Char)}
    (hservice : '.' ∉ service) (hproto : '.' ∉ proto) (hall : ∀ l ∈ labels, IsLabel l) :
    ∀ l ∈ service :: proto :: labels, '.' ∉ l := by
  intro l hl
  rcases List.mem_cons.mp hl with rfl | hl
  · exact hservice
  · rcases List.mem_cons.mp hl with rfl | hl
    · exact hproto
    · exact (hall l hl).no_dot

theorem isServiceLabel_iff (l : List Char) : isServiceLabel l = true ↔ ServiceText l := by
  have hall : ∀ cs : List Char, cs.all labelChar = true ↔ ∀ c ∈ cs, LabelChar c := by
    intro cs
    rw [List.all_eq_true]
    exact forall₂_congr fun c _ => labelChar_iff c
  unfold isServiceLabel
  constructor
  · intro h
    split at h
    · rename_i cs
      simp only [Bool.and_eq_true, decide_eq_true_eq, hall] at h
      exact ⟨cs, rfl, h.2, h.1⟩
    · exact absurd h Bool.false_ne_true
  · rintro ⟨cs, rfl, hchars, hlen⟩
    simp only [Bool.and_eq_true, decide_eq_true_eq, hall]
    exact ⟨hlen, hchars⟩

theorem isSrvHostname_iff_match (s : String) :
    isSrvHostname s = true ↔ Match reSrvHostName s := by
  rw [match_srv_iff]
  -- what is left of the text behind the two labels is the rest of the name
  have hdrop : ∀ (service proto : List Char) (more : List (List Char)),
      (joined (service :: proto :: more)).drop (service.length + proto.length + 2) =
        joined more := by
    intro service proto more
    have hlen : (service ++ '.' :: (proto ++ ['.'])).length =
        service.length + proto.length + 2 := by
      simp only [List.length_append, List.length_cons, List.length_nil]
      omega
    have happ : joined (service :: proto :: more) =
        (service ++ '.' :: (proto ++ ['.'])) ++ joined more := by
      rw [joined_cons, joined_cons]
      simp
    rw [happ, ← hlen, List.drop_left]
  unfold isSrvHostname isShort
  constructor
  · intro h
    split at h
    · rename_i service proto label more hlabels
      have hs := eq_joined (labels_eq_some.mp hlabels).1
      rw [hs, hdrop] at h
      simp only [Bool.and_eq_true, decide_eq_true_eq, isServiceLabel_iff, List.all_eq_true,
        isLabel_iff] at h
      exact ⟨service, proto, label :: more, hs, h.1.1.1, h.1.1.2, List.cons_ne_nil _ _, h.1.2, h.2⟩
    · exact absurd h Bool.false_ne_true
  · rintro ⟨service, proto, labels, hs, hservice, hproto, hne, hall, hshort⟩
    have hdot := services_no_dot hservice.no_dot hproto.no_dot hall
    have hlabels : Format.labels s.toList = some (service :: proto :: labels) :=
      labels_eq_some.mpr ⟨by rw [hs, splitChars_joined hdot], List.cons_ne_nil _ _⟩
    obtain ⟨label, more, rfl⟩ := List.exists_cons_of_ne_nil hne
    rw [hlabels, hs]
    dsimp only
    rw [hdrop]
    simp only [Bool.and_eq_true, decide_eq_true_eq, isServiceLabel_iff, List.all_eq_true,
      isLabel_iff]
    exact ⟨⟨⟨hservice, hproto⟩, hall⟩, hshort⟩

/-- The labels in front are as short as labels, and all of it is as short as a name. -/
def ShortService (s : String) : Prop :=
  s.toList.length ≤ 254 ∧ ∀ l ∈ (Text.splitChars '.' s.toList).take 2, l.length ≤ 63

instance (s : String) : Decidable (ShortService s) :=
  inferInstanceAs (Decidable (_ ∧ _))

theorem IsSrvName.short {s : String} (h : IsSrvName s) : ShortService s := by
  obtain ⟨hshort, service, proto, labels, hs, hservice, hproto, -, hall⟩ := h
  refine ⟨hshort, ?_⟩
  have hdot := services_no_dot hservice.no_dot hproto.no_dot hall
  rw [hs, splitChars_joined hdot]
  intro l hl
  rcases List.mem_pair.mp hl with rfl | rfl
  · exact hservice.max
  · exact hproto.max

theorem ServiceText.isServiceLabel {l : List Char} (h : ServiceText l) (hmax : l.length ≤ 63) :
    IsServiceLabel l := by
  have hchars := h.chars
  obtain ⟨cs, rfl, -⟩ := h
  exact ⟨Nat.succ_le_succ (Nat.zero_le _), hmax, hchars, rfl⟩

/--
**A name the expression for services accepts is a legal one exactly if its first two labels have
no more than 63 characters, and it has no more than 254.**
-/
theorem srvName_legal_iff (s : String) :
    (Match reSrvHostName s → IsSrvName s) ↔ (Match reSrvHostName s → ShortService s) := by
  refine imp_congr_right fun hmatch => ⟨IsSrvName.short, fun hshort => ?_⟩
  obtain ⟨service, proto, labels, hs, hservice, hproto, hne, hall, -⟩ := (match_srv_iff s).mp hmatch
  have hdot := services_no_dot hservice.no_dot hproto.no_dot hall
  have hmax : ∀ l ∈ [service, proto], l.length ≤ 63 := by
    have htwo := hshort.2
    rwa [hs, splitChars_joined hdot] at htwo
  exact ⟨hshort.1, service, proto, labels, hs, hservice.isServiceLabel (hmax _ (by simp)),
    hproto.isServiceLabel (hmax _ (by simp)), hne, hall⟩

/-- The label of a service with an underscore and 63 more characters. -/
theorem srvName_too_long : ¬ ∀ s : String, Match reSrvHostName s → IsSrvName s := by
  intro h
  have hmatch : Match reSrvHostName ("_" ++ String.ofList (List.replicate 63 'a') ++ "._tcp.a.") :=
    (isSrvHostname_iff_match _).mp (by decide)
  exact absurd (h _ hmatch).short (by decide)

end Format

end Designate
