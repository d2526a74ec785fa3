import Designate.Glob

/-!
# Python text operations

The string methods the service relies on, on character lists underneath so that
they compute: `split`, `count`, `startswith`, `endswith`, `replace` of one
character, and the reading of a UUID. What the database makes of a pattern is here too.
-/

namespace Designate

namespace Text

/-- `s.split(sep)` for a one-character separator: always at least one part. -/
def splitChars (sep : Char) : List Char → List (List Char)
  | [] => [[]]
  | c :: cs =>
    if c = sep then [] :: splitChars sep cs
    else
      match splitChars sep cs with
      | [] => [[c]]
      | p :: ps => (c :: p) :: ps

/-- `s.split(sep)`. -/
def split (s : String) (sep : Char) : List String :=
  (splitChars sep s.toList).map String.ofList

/-- `s.count(c)`. -/
def count (s : String) (c : Char) : Nat := s.toList.count c

/-- `s.startswith(p)`. -/
def startsWith (s p : String) : Bool := p.toList.isPrefixOf s.toList

/-- `s.endswith(p)`. -/
def endsWith (s p : String) : Bool := p.toList.isSuffixOf s.toList

/-- `len(s)`. -/
def len (s : String) : Nat := s.toList.length

/-- The value of a hexadecimal digit. -/
def hexDigit (c : Char) : Option Nat :=
  if '0' ≤ c ∧ c ≤ '9' then some (c.toNat - '0'.toNat)
  else if 'a' ≤ c ∧ c ≤ 'f' then some (c.toNat - 'a'.toNat + 10)
  else if 'A' ≤ c ∧ c ≤ 'F' then some (c.toNat - 'A'.toNat + 10)
  else none

/-- The number a list of hexadecimal digits writes, most significant first. -/
def hexValue (acc : Nat) : List Char → Option Nat
  | [] => some acc
  | c :: cs => (hexDigit c).bind fun d => hexValue (acc * 16 + d) cs

/--
The identifier a text denotes: 32 hexadecimal digits once the dashes are gone.
Both the UUID columns and the association table read identifiers this way.
-/
def uuidOfText (s : String) : Option Nat :=
  let digits := s.toList.filter (· ≠ '-')
  if digits.length = 32 then hexValue 0 digits else none

/-- The canonical text of an identifier: 32 lower-case digits in five dashed groups. -/
def uuidText (n : Nat) : String :=
  let digits := (Nat.toDigits 16 n).leftpad 32 '0'
  String.ofList (digits.take 8 ++ '-' :: ((digits.drop 8).take 4 ++ '-' :: ((digits.drop 12).take 4
    ++ '-' :: ((digits.drop 16).take 4 ++ '-' :: digits.drop 20))))

/-- The database, as far as it reads the patterns of `LIKE`. -/
inductive Dialect where
  | mysql | sqlite
  deriving DecidableEq, Repr

/--
The parts of a pattern of `LIKE`. The queries name no escape character; mysql has one of its
own, a backslash, which stands for itself at the end of a pattern.
-/
def likeParts (dialect : Dialect) : List Char → List (Glob.Part Char)
  | [] => []
  | '%' :: cs => .gap :: likeParts dialect cs
  | '_' :: cs => .blank :: likeParts dialect cs
  | '\\' :: c :: cs =>
    if dialect = .mysql then .letter c :: likeParts dialect cs
    else .letter '\\' :: likeParts dialect (c :: cs)
  | c :: cs => .letter c :: likeParts dialect cs

/-- SQL `LIKE`, which compares what `fold` makes of the characters. -/
def like (dialect : Dialect) (fold : Char → Char) (pattern s : List Char) : Bool :=
  Glob.accepts ((likeParts dialect pattern).map (Glob.Part.map fold)) (s.map fold)

/-- `str.strip` of blanks. -/
def strip (cs : List Char) : List Char :=
  ((cs.dropWhile (· == ' ')).reverse.dropWhile (· == ' ')).reverse

/-- `str.replace` of one character. -/
def replace (s : String) (c d : Char) : String :=
  String.ofList (s.toList.map fun x => if x = c then d else x)

def reverse (s : String) : String := String.ofList s.toList.reverse

/-- `re.split('::|:', s)`: two colons in a row are one separator. -/
def splitColons : List Char → List (List Char)
  | [] => [[]]
  | [c] => if c = ':' then [[], []] else [[c]]
  | c :: d :: cs =>
    if c = ':' then
      if d = ':' then [] :: splitColons cs else [] :: splitColons (d :: cs)
    else
      match splitColons (d :: cs) with
      | [] => [[c]]
      | p :: ps => (c :: p) :: ps

example : splitColons "2001:db8::1".toList = ["2001".toList, "db8".toList, "1".toList] := by decide

/-- The digit of a six-bit number in base 64. -/
def base64Digit (n : Nat) : Char :=
  "ABCDEFGHIJKLMNOPQRSTUVWXYZabcdefghijklmnopqrstuvwxyz0123456789+/".toList.getD n '='

/-- `base64.b64encode` of a list of bytes. -/
def base64 : List Nat → List Char
  | [] => []
  | [a] => [base64Digit (a / 4), base64Digit (a % 4 * 16), '=', '=']
  | [a, b] =>
    [base64Digit (a / 4), base64Digit (a % 4 * 16 + b / 16), base64Digit (b % 16 * 4), '=']
  | a :: b :: c :: rest =>
    base64Digit (a / 4) :: base64Digit (a % 4 * 16 + b / 16)
      :: base64Digit (b % 16 * 4 + c / 64) :: base64Digit (c % 64) :: base64 rest

example : String.ofList (base64 ("3600".toList.map Char.toNat)) = "MzYwMA==" := by decide

/-! ## Letters of either case -/

theorem toLower_of_not_upper {c : Char} (h : c.isUpper = false) : c.toLower = c := by
  change decide (c.val ≥ 'A'.val ∧ c.val ≤ 'Z'.val) = false at h
  unfold Char.toLower
  rw [dif_neg (of_decide_eq_false h)]

/-- A property of the letters, by going through them. -/
theorem forall_letter {P : Char → Prop} {base : Nat} (hP : ∀ n < 26, P (Char.ofNat (base + n)))
    {c : Char} (hrange : base ≤ c.toNat ∧ c.toNat < base + 26) : P c := by
  have := hP (c.toNat - base) (by omega)
  rwa [Nat.add_sub_cancel' hrange.1, Char.ofNat_toNat] at this

theorem upper_range {c : Char} (h : c.isUpper = true) : 65 ≤ c.toNat ∧ c.toNat < 65 + 26 := by
  change decide (c.val ≥ 'A'.val ∧ c.val ≤ 'Z'.val) = true at h
  have hrange : 65 ≤ c.toNat ∧ c.toNat ≤ 90 := by simpa [UInt32.le_iff_toNat_le] using h
  omega

theorem lower_range {c : Char} (h : c.isLower = true) : 97 ≤ c.toNat ∧ c.toNat < 97 + 26 := by
  change (decide (c.val ≥ 'a'.val) && decide (c.val ≤ 'z'.val)) = true at h
  have hrange : 97 ≤ c.toNat ∧ c.toNat ≤ 122 := by simpa [UInt32.le_iff_toNat_le] using h
  omega

/-- What is no letter is the only character of its lower case. -/
theorem eq_of_toLower_eq {a b : Char} (ha : a.isAlpha = false) (h : b.toLower = a.toLower) :
    b = a := by
  have hnot : a.isUpper = false ∧ a.isLower = false := by
    unfold Char.isAlpha at ha
    simpa using ha
  rw [toLower_of_not_upper hnot.1] at h
  cases hb : b.isUpper with
  | false => rwa [toLower_of_not_upper hb] at h
  | true =>
    -- the lower case of a letter is one
    have hlower : b.toLower.isLower = true :=
      forall_letter (P := fun c => c.toLower.isLower = true) (by decide) (upper_range hb)
    rw [h, hnot.2] at hlower
    exact absurd hlower (by simp)

/-- A letter has another case. -/
theorem exists_otherCase {a : Char} (ha : a.isAlpha = true) :
    ∃ b : Char, b ≠ a ∧ b.toLower = a.toLower ∧ b.isAlpha = true := by
  unfold Char.isAlpha at ha
  rcases Bool.or_eq_true_iff.mp ha with h | h
  · exact ⟨a.toLower, forall_letter (P := fun c => c.toLower ≠ c ∧ c.toLower.toLower = c.toLower ∧
      c.toLower.isAlpha = true) (by decide) (upper_range h)⟩
  · exact ⟨a.toUpper, forall_letter (P := fun c => c.toUpper ≠ c ∧ c.toUpper.toLower = c.toLower ∧
      c.toUpper.isAlpha = true) (by decide) (lower_range h)⟩
/-! ## Patterns -/

/-- A character that is no wildcard stands for itself, as does a backslash that escapes nothing. -/
theorem likeParts_letter {dialect : Dialect} {c : Char} {cs : List Char} (hpercent : c ≠ '%')
    (hblank : c ≠ '_') (hescape : c = '\\' → dialect = .mysql → cs = []) :
    likeParts dialect (c :: cs) = .letter c :: likeParts dialect cs := by
  by_cases hc : c = '\\'
  · subst hc
    cases cs with
    | nil => rfl
    | cons d cs =>
      have hsqlite : dialect ≠ .mysql := fun h => List.cons_ne_nil _ _ (hescape rfl h)
      rw [likeParts, if_neg hsqlite]
  · rw [likeParts]
    · exact hpercent
    · exact hblank
    · exact fun _ _ h _ => hc h

/-- A character of a pattern that has no escape. -/
def likePart (c : Char) : Glob.Part Char :=
  if c = '%' then .gap else if c = '_' then .blank else .letter c

/-- Without an escape a pattern is read character by character. -/
theorem likeParts_eq_map {dialect : Dialect} {cs : List Char} (h : dialect = .mysql → '\\' ∉ cs) :
    likeParts dialect cs = cs.map likePart := by
  induction cs with
  | nil => rfl
  | cons c cs ih =>
    have hrest := ih fun hmysql => List.not_mem_of_not_mem_cons (h hmysql)
    by_cases hpercent : c = '%'
    · subst hpercent
      rw [likeParts, hrest]
      rfl
    by_cases hblank : c = '_'
    · subst hblank
      rw [likeParts, hrest]
      rfl
    · rw [likeParts_letter hpercent hblank ?_, hrest]
      · simp [likePart, hpercent, hblank]
      · exact fun hc hmysql => absurd (hc ▸ List.mem_cons_self) (h hmysql)

/-! ## Splitting -/

theorem splitChars_ne_nil (sep : Char) (cs : List Char) : splitChars sep cs ≠ [] := by
  cases cs with
  | nil => simp [splitChars]
  | cons c cs =>
    rw [splitChars]
    split
    · simp
    · split <;> simp

/-- A text with `n` separators has `n + 1` parts. -/
theorem length_splitChars (sep : Char) (cs : List Char) :
    (splitChars sep cs).length = cs.count sep + 1 := by
  induction cs with
  | nil => rfl
  | cons c cs ih =>
    rw [splitChars]
    by_cases h : c = sep
    · simp [h, ih]
    · rw [if_neg h]
      cases hs : splitChars sep cs with
      | nil => exact absurd hs (splitChars_ne_nil sep cs)
      | cons p ps =>
        rw [hs] at ih
        simpa [List.count_cons, h] using ih

/-- `s.split(sep)` has one part more than `s.count(sep)`. -/
theorem length_split (s : String) (sep : Char) : (split s sep).length = count s sep + 1 := by
  simp [split, count, length_splitChars]

/-- No part has the separator in it. -/
theorem not_mem_splitChars {sep : Char} {cs p : List Char} (h : p ∈ splitChars sep cs) :
    sep ∉ p := by
  induction cs generalizing p with
  | nil => rw [List.mem_singleton.mp h]; exact List.not_mem_nil
  | cons c cs ih =>
    rw [splitChars] at h
    split at h
    · rcases List.mem_cons.mp h with rfl | h
      · exact List.not_mem_nil
      · exact ih h
    · rename_i hc
      split at h
      · rw [List.mem_singleton.mp h, List.mem_singleton]
        exact fun e => hc e.symm
      · rename_i q qs hq
        rcases List.mem_cons.mp h with rfl | h
        · have := ih (hq ▸ List.mem_cons_self)
          rw [List.mem_cons, not_or]
          exact ⟨fun e => hc e.symm, this⟩
        · exact ih (hq ▸ List.mem_cons_of_mem q h)

theorem not_mem_split {s p : String} {sep : Char} (h : p ∈ split s sep) : sep ∉ p.toList := by
  obtain ⟨q, hq, rfl⟩ := List.mem_map.mp h
  rw [String.toList_ofList]
  exact not_mem_splitChars hq

/-- A text without the separator is one part. -/
theorem splitChars_of_not_mem {sep : Char} {cs : List Char} (h : sep ∉ cs) :
    splitChars sep cs = [cs] := by
  induction cs with
  | nil => rfl
  | cons c cs ih =>
    rw [List.mem_cons, not_or] at h
    rw [splitChars, if_neg fun e => h.1 e.symm, ih h.2]

/-- What stands before a separator is a part of its own. -/
theorem splitChars_append_sep {sep : Char} {cs ds : List Char} (h : sep ∉ cs) :
    splitChars sep (cs ++ sep :: ds) = cs :: splitChars sep ds := by
  induction cs with
  | nil => exact if_pos rfl
  | cons c cs ih =>
    rw [List.mem_cons, not_or] at h
    rw [List.cons_append, splitChars, if_neg fun e => h.1 e.symm, ih h.2]

/-! ## Identifiers as texts -/

theorem hexDigit_digitChar {d : Nat} (h : d < 16) : hexDigit d.digitChar = some d := by
  have : ∀ d < 16, hexDigit (Nat.digitChar d) = some d := by decide
  exact this d h

theorem digitChar_ne {d : Nat} (h : d < 16) : d.digitChar ≠ '-' ∧ d.digitChar ≠ ':' := by
  have : ∀ d < 16, Nat.digitChar d ≠ '-' ∧ Nat.digitChar d ≠ ':' := by decide
  exact this d h

theorem hexValue_append (cs ds : List Char) (acc : Nat) :
    hexValue acc (cs ++ ds) = (hexValue acc cs).bind fun v => hexValue v ds := by
  induction cs generalizing acc with
  | nil => rfl
  | cons c cs ih =>
    simp only [List.cons_append, hexValue]
    cases hexDigit c with
    | none => rfl
    | some d => simp [ih]

/-- Reading the digits of a number gives the number back. -/
theorem hexValue_toDigits (n : Nat) : hexValue 0 (Nat.toDigits 16 n) = some n := by
  induction n using Nat.strongRecOn with
  | ind n ih =>
    rcases Nat.lt_or_ge n 16 with h | h
    · rw [Nat.toDigits_of_lt_base h]
      simp [hexValue, hexDigit_digitChar h]
    · rw [Nat.toDigits_of_base_le (by omega) h, hexValue_append, ih (n / 16) (by omega)]
      have hd : n % 16 < 16 := Nat.mod_lt _ (by omega)
      simp only [Option.bind_some, hexValue, hexDigit_digitChar hd]
      exact congrArg some (by omega)

theorem mem_toDigits {n : Nat} {c : Char} (h : c ∈ Nat.toDigits 16 n) : c ≠ '-' ∧ c ≠ ':' := by
  induction n using Nat.strongRecOn with
  | ind n ih =>
    rcases Nat.lt_or_ge n 16 with hn | hn
    · rw [Nat.toDigits_of_lt_base hn, List.mem_singleton] at h
      exact h ▸ digitChar_ne hn
    · rw [Nat.toDigits_of_base_le (by omega) hn, List.mem_append, List.mem_singleton] at h
      rcases h with h | h
      · exact ih (n / 16) (by omega) h
      · exact h ▸ digitChar_ne (Nat.mod_lt _ (by omega))

theorem hexValue_zeros (k : Nat) (cs : List Char) :
    hexValue 0 (List.replicate k '0' ++ cs) = hexValue 0 cs := by
  induction k with
  | zero => rfl
  | succ k ih =>
    have h0 : hexDigit '0' = some 0 := by decide
    simp [List.replicate_succ, hexValue, h0, ih]

/-- The digits of a text, the dashes taken out again. -/
theorem filter_uuidText (n : Nat) :
    (uuidText n).toList.filter (· ≠ '-') = (Nat.toDigits 16 n).leftpad 32 '0' := by
  have hkeep : ∀ c ∈ (Nat.toDigits 16 n).leftpad 32 '0', decide (c ≠ '-') = true := by
    intro c hc
    rw [List.leftpad, List.mem_append, List.mem_replicate] at hc
    rcases hc with ⟨-, rfl⟩ | hc
    · decide
    · exact decide_eq_true (mem_toDigits hc).1
  have hsub : ∀ l : List Char, l.Sublist ((Nat.toDigits 16 n).leftpad 32 '0') →
      l.filter (· ≠ '-') = l := by
    intro l hl
    rw [List.filter_eq_self]
    exact fun c hc => hkeep c (hl.subset hc)
  -- the groups are pieces of the padded digits, and no digit is a dash
  have htake : ∀ i k, ((((Nat.toDigits 16 n).leftpad 32 '0').drop i).take k).filter (· ≠ '-')
      = (((Nat.toDigits 16 n).leftpad 32 '0').drop i).take k := fun i k =>
    hsub _ ((List.take_sublist _ _).trans (List.drop_sublist _ _))
  have hdash : decide ('-' ≠ '-') = false := by decide
  simp only [uuidText, String.toList_ofList, List.filter_append, List.filter_cons, hdash,
    htake, hsub _ (List.take_sublist _ _), hsub _ (List.drop_sublist _ _)]
  generalize (Nat.toDigits 16 n).leftpad 32 '0' = l
  -- put together again, the pieces are the whole
  have h₁ : l.drop 12 = (l.drop 8).drop 4 := by simp
  have h₂ : l.drop 16 = (l.drop 12).drop 4 := by simp
  have h₃ : l.drop 20 = (l.drop 16).drop 4 := by simp
  simp only [Bool.false_eq_true, if_false]
  rw [h₃, List.take_append_drop, h₂, List.take_append_drop, h₁, List.take_append_drop,
    List.take_append_drop]

/-- Different identifiers have different texts. -/
theorem uuidText_injective : Function.Injective uuidText := by
  intro m n h
  have hd : (Nat.toDigits 16 m).leftpad 32 '0' = (Nat.toDigits 16 n).leftpad 32 '0' := by
    rw [← filter_uuidText, ← filter_uuidText, h]
  have hv := congrArg (hexValue 0) hd
  simp only [List.leftpad, hexValue_zeros, hexValue_toDigits] at hv
  exact Option.some.inj hv

/-- The text of an identifier has no colon. -/
theorem colon_not_mem_uuidText (n : Nat) : ':' ∉ (uuidText n).toList := by
  intro h
  have hf : ':' ∈ (uuidText n).toList.filter (· ≠ '-') :=
    List.mem_filter.mpr ⟨h, by decide⟩
  rw [filter_uuidText, List.leftpad, List.mem_append, List.mem_replicate] at hf
  rcases hf with ⟨-, hc⟩ | hc
  · exact absurd hc (by decide)
  · exact (mem_toDigits hc).2 rfl

/-- What stands before the first separator, and what stands behind it. -/
theorem append_sep_inj {sep : Char} {l m x y : List Char} (hl : sep ∉ l) (hm : sep ∉ m)
    (h : l ++ sep :: x = m ++ sep :: y) : l = m ∧ x = y := by
  induction l generalizing m with
  | nil =>
    cases m with
    | nil => exact ⟨rfl, (List.cons.inj h).2⟩
    | cons c m =>
      obtain rfl : sep = c := (List.cons.inj h).1
      exact absurd List.mem_cons_self hm
  | cons c l ih =>
    cases m with
    | nil =>
      obtain rfl : c = sep := (List.cons.inj h).1
      exact absurd List.mem_cons_self hl
    | cons d m =>
      obtain ⟨rfl, htail⟩ := List.cons.inj h
      obtain ⟨rfl, hxy⟩ := ih (List.not_mem_of_not_mem_cons hl) (List.not_mem_of_not_mem_cons hm) htail
      exact ⟨rfl, hxy⟩

/-- An identifier and what follows it behind a colon can be told from the text. -/
theorem uuidText_append_inj {m n : Nat} {s t : String}
    (h : uuidText m ++ ":" ++ s = uuidText n ++ ":" ++ t) : m = n ∧ s = t := by
  have hl := congrArg String.toList h
  have hcolon : ":".toList = [':'] := rfl
  rw [String.toList_append, String.toList_append, String.toList_append, String.toList_append,
    hcolon, List.append_assoc, List.append_assoc] at hl
  obtain ⟨hid, hs⟩ := append_sep_inj (colon_not_mem_uuidText m) (colon_not_mem_uuidText n) hl
  exact ⟨uuidText_injective (String.toList_injective hid), String.toList_injective hs⟩

/-- A decimal number has none of the characters a criterion is taken apart at. -/
theorem not_mem_decimal {n : Nat} {c : Char} (hc : c.isDigit = false) : c ∉ (toString n).toList := by
  have hlist : (toString n).toList = Nat.toDigits 10 n := Nat.toList_repr
  rw [hlist]
  intro h
  rw [Nat.isDigit_of_mem_toDigits (by omega) (by omega) h] at hc
  exact absurd hc (by simp)

end Text

end Designate
