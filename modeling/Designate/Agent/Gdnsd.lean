import Designate.Run
import Designate.Text
import Mathlib.Logic.Function.Basic

/-!
# The gdnsd agent

The agent keeps a file for each zone, under a name made from the zone's. A file is written under
a name of its own first and then renamed.

The names of zones come as texts: labels of printable characters with a dot between two of them,
where a backslash stands in front of a character that means something else, or in front of the
three digits of one that cannot be printed.
-/

namespace Designate

namespace Gdnsd

/-! ## The texts of names -/

/-- What a character may do in the text of a name. -/
inductive Kind where
  | dot | backslash | special | digit | plain | other
  deriving DecidableEq, Repr

/-- The specials, the dot and the backslash stand for themselves only behind a backslash. -/
def kind (c : Char) : Kind :=
  if c = '.' then .dot
  else if c = '\\' then .backslash
  else if c ∈ ['"', '(', ')', ';', '@', '$'] then .special
  else if c.isDigit then .digit
  else if 0x20 < c.toNat ∧ c.toNat < 0x7f then .plain
  else .other

/-- Where the reader of a text is. -/
inductive Reading where
  | begin
  /-- Behind the dot that is all of the name of the root. -/
  | root
  /-- Behind a dot between labels. -/
  | next
  /-- In a label that has a character already. -/
  | label
  | escape
  /-- So many digits are still to come. -/
  | two | one
  deriving DecidableEq, Repr

def Reading.step : Reading → Kind → Option Reading
  | .begin, .dot => some .root
  | .label, .dot => some .next
  | .escape, .dot | .escape, .backslash | .escape, .special => some .label
  | .escape, .digit => some .two
  | .two, .digit => some .one
  | .one, .digit => some .label
  | .begin, .backslash | .next, .backslash | .label, .backslash => some .escape
  | .begin, .digit | .next, .digit | .label, .digit => some .label
  | .begin, .plain | .next, .plain | .label, .plain => some .label
  | _, _ => none

def Reading.read : Reading → List Char → Option Reading
  | r, [] => some r
  | r, c :: cs => (r.step (kind c)).bind fun r => r.read cs

/-- The reader may stop. -/
def Reading.Done (r : Reading) : Prop := r = .label ∨ r = .root

instance : DecidablePred Reading.Done := fun r => inferInstanceAs (Decidable (r = .label ∨ r = .root))

/-- The text of a name, its final dot left out, as `to_text` gives it. -/
def IsNameText (zoneName : String) : Prop :=
  ∃ r, Reading.read .begin zoneName.toList = some r ∧ r.Done

/-- The text of the same name with its final dot. -/
def absolute (zoneName : String) : String := if zoneName = "." then "." else zoneName ++ "."

/-- `s.lower()`, of a text in ASCII. -/
def lower (s : String) : String := String.ofList (s.toList.map Char.toLower)

/-! ## The files -/

def validChars : List Char :=
  "-_.@abcdefghijklmnopqrstuvwxyzABCDEFGHIJKLMNOPQRSTUVWXYZ0123456789".toList

/-- The code of a character that is not valid follows the character with the code 3. -/
def translate (c : Char) : List Char :=
  if c ∈ validChars then [c] else Char.ofNat 3 :: (toString c.toNat).toList

/-- `_generate_zone_filename`. -/
def generateZoneFilename (zoneName : String) : String :=
  String.ofList ((lower (Text.replace zoneName '/' '@')).toList.flatMap translate)

/-- What is in the files of the directory, by their names. -/
abbrev Files := String → Option String

/--
`_write_zone_file`. `mkstemp` puts a suffix behind the prefix that makes a new name; the zone may
fail to be written, and the file to be renamed. The file that was written is removed in any case.
-/
def writeZoneFile (zoneName suffix : String) (text : Option String) (renames : Bool)
    (files : Files) : Files :=
  let zoneBaseFname := generateZoneFilename zoneName
  let tmpZoneFname := "." ++ zoneBaseFname ++ suffix
  if (files tmpZoneFname).isSome then files
  else
    let opened := Function.update files tmpZoneFname (some "")
    match text with
    | none => Function.update opened tmpZoneFname none
    | some text =>
      let written := Function.update opened tmpZoneFname (some text)
      let renamed :=
        if renames then
          Function.update (Function.update written zoneBaseFname (some text)) tmpZoneFname none
        else written
      Function.update renamed tmpZoneFname none

/-- `zone_name.rstrip('.')`. -/
def rstripDots (s : String) : String :=
  String.ofList (s.toList.reverse.dropWhile (· = '.')).reverse

/-- `delete_zone`. A file that is not there makes it return; removing one may fail. -/
def deleteZone (zoneName : String) (removes : Bool) (files : Files) : Files :=
  if removes then Function.update files (generateZoneFilename (rstripDots zoneName)) none else files

/-- A call for a zone. A deletion gets the name with its final dot. -/
inductive Event where
  | write (zoneName suffix : String) (text : Option String) (renames : Bool)
  | delete (zoneName : String) (removes : Bool)

def Event.zoneName : Event → String
  | .write zoneName _ _ _ => zoneName
  | .delete zoneName _ => zoneName

def step : Event → Files → Files
  | .write zoneName suffix text renames, files => writeZoneFile zoneName suffix text renames files
  | .delete zoneName removes, files => deleteZone (absolute zoneName) removes files

end Gdnsd

end Designate
