import Designate.Regex
import Designate.Schema.Format

/-!
# The expressions of the formats

The regular expressions for names, as they are compiled, and the names they are meant for: labels
that each end in a dot, of letters, digits, hyphens and underscores, with no hyphen at either end,
and not too many characters in all.
-/

namespace Designate

namespace Format

open Regex

/-- `.`, which does not match the end of a line. -/
def anyChar : Regex Char := one fun c => c != '\n'

/-- A character for itself. -/
def char (c : Char) : Regex Char := one fun d => d == c

/-- `(?!.{255,})`. -/
def notLong : Regex Char := .notAhead (.rep anyChar 255 none)

/-- `[A-Za-z0-9_\-]{1,63}`. -/
def labelChars : Regex Char := .rep (one labelChar) 1 (some 63)

/-- `(?!\-)[A-Za-z0-9_\-]{1,63}`. -/
def labelStart : Regex Char := .notAhead (char '-') ++ labelChars

/-- What a label ends in, and the dot after it: `(?<!\-)\.`. -/
def labelEnd (label : Regex Char) : Regex Char :=
  label ++ .notBehind (fun d => d == '-') ++ char '.'

/-- `RE_ZONENAME`. -/
def reZonename : Regex Char := start ++ notLong ++ .rep (labelEnd labelStart) 1 none ++ stop

/-- `RE_HOSTNAME`. -/
def reHostname : Regex Char :=
  start ++ notLong ++ .rep (labelEnd (.alt (start ++ char '*') labelStart)) 1 none ++ stop

/-- `\_[A-Za-z0-9_\-]{1,63}\.`. -/
def serviceLabel : Regex Char := char '_' ++ labelChars ++ char '.'

/-- `RE_SRV_HOST_NAME`. -/
def reSrvHostName : Regex Char :=
  start ++ (.notAhead (char '-') ++ .rep serviceLabel 2 (some 2)) ++ notLong ++
    .rep (labelEnd labelStart) 1 none ++ stop

/-- `re.match(expression, instance)`. -/
def Match (expression : Regex Char) (s : String) : Prop := Accepts expression s.toList

/-! ## The names -/

/-- Labels with a dot after each of them. -/
def joined (labels : List (List Char)) : List Char := labels.flatMap (· ++ ['.'])

/-- What labels are made of. -/
def LabelChar (c : Char) : Prop := c.isAlphanum = true ∨ c = '-' ∨ c = '_'

/-- A label, which has no hyphen at either end. -/
structure IsLabel (label : List Char) : Prop where
  min : 1 ≤ label.length
  max : label.length ≤ 63
  chars : ∀ c ∈ label, LabelChar c
  head : label.head? ≠ some '-'
  last : label.getLast? ≠ some '-'

/-- A label with an underscore in front. -/
structure IsServiceLabel (label : List Char) : Prop where
  min : 1 ≤ label.length
  max : label.length ≤ 63
  chars : ∀ c ∈ label, LabelChar c
  head : label.head? = some '_'

/-- A name: labels, and at most 254 characters. -/
def IsZonename (s : String) : Prop :=
  s.toList.length ≤ 254 ∧
    ∃ labels, s.toList = joined labels ∧ labels ≠ [] ∧ ∀ l ∈ labels, IsLabel l

/-- A name whose first label may be a star. -/
def IsHostname (s : String) : Prop :=
  s.toList.length ≤ 254 ∧
    ∃ first labels, s.toList = joined (first :: labels) ∧ (first = ['*'] ∨ IsLabel first) ∧
      ∀ l ∈ labels, IsLabel l

/-- The labels of a service and a protocol before the labels of a name. -/
def IsSrvName (s : String) : Prop :=
  s.toList.length ≤ 254 ∧
    ∃ service proto labels, s.toList = joined (service :: proto :: labels) ∧
      IsServiceLabel service ∧ IsServiceLabel proto ∧ labels ≠ [] ∧ ∀ l ∈ labels, IsLabel l

end Format

end Designate
