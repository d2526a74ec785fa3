import Designate.Text

/-!
# The formats of texts

The format checkers of the schemas. The expressions for names take a name apart at its dots: no
label has a dot in it, so there is one way only to match.

What libraries decide is a parameter: which texts `netaddr` reads as IPv6 addresses, which ones
are times, and what Python takes for digits and blanks.
-/

namespace Designate

/-- What libraries, and Python itself, make of texts. -/
structure Lib where
  /-- `netaddr.IPAddress(instance, version=6)` does not raise. -/
  ipv6 : String → Bool := fun s => s.toList.contains ':'
  dateTime : String → Bool := fun _ => true
  /-- The digit a character stands for. -/
  decimal : Char → Option Nat := fun c => if c.isDigit then some (c.toNat - '0'.toNat) else none
  isSpace : Char → Bool := Char.isWhitespace

/-- The formats the schemas of recordsets and records name. -/
inductive Format where
  | hostname | nsHostname | srvHostname | domainname
  | ipv4 | ipv6 | txtData | sshfp | uuid | dateTime
  deriving DecidableEq, Repr

namespace Format

/-- `[A-Za-z0-9_\-]`. -/
def labelChar (c : Char) : Bool := c.isAlphanum || c == '_' || c == '-'

/-- `(?!\-)[A-Za-z0-9_\-]{1,63}(?<!\-)`. -/
def isLabel (label : List Char) : Bool :=
  decide (1 ≤ label.length) && decide (label.length ≤ 63) && label.all labelChar &&
    label.head? != some '-' && label.getLast? != some '-'

/-- The labels of a name that ends in a dot. -/
def labels (name : List Char) : Option (List (List Char)) :=
  match (Text.splitChars '.' name).reverse with
  | [] :: label :: more => some (label :: more).reverse
  | _ => none

/-- No more than 254 characters are left: `(?!.{255,})`. -/
def isShort (name : List Char) : Bool := decide (name.length ≤ 254)

/-- `RE_ZONENAME`. -/
def isZonename (s : String) : Bool :=
  isShort s.toList && (labels s.toList).any fun labels => labels.all isLabel

/-- `RE_HOSTNAME`: the first label may be a star. -/
def isHostname (s : String) : Bool :=
  isShort s.toList &&
    match labels s.toList with
    | some (first :: more) => (first == ['*'] || isLabel first) && more.all isLabel
    | _ => false

/-- `\_[A-Za-z0-9_\-]{1,63}`. -/
def isServiceLabel : List Char → Bool
  | '_' :: cs => decide (1 ≤ cs.length) && decide (cs.length ≤ 63) && cs.all labelChar
  | _ => false

/-- `RE_SRV_HOST_NAME`: two labels of a service, and a name that is short enough by itself. -/
def isSrvHostname (s : String) : Bool :=
  match labels s.toList with
  | some (service :: proto :: label :: more) =>
    isServiceLabel service && isServiceLabel proto && (label :: more).all isLabel &&
      isShort (s.toList.drop (service.length + proto.length + 2))
  | _ => false

/-- `is_ipv4`: `netaddr` writes every address in one way. -/
def isIpv4 (s : String) : Bool :=
  let octet := fun part : String => (List.range 256).any fun n => toString n == part
  (Text.split s '.').length == 4 && (Text.split s '.').all octet && s != "0.0.0.0"

/-- `is_ip_or_host`. -/
def isIpOrHost (lib : Lib) (s : String) : Bool := isZonename s || isIpv4 s || lib.ipv6 s

/-- `is_txt_data`. -/
def isTxtData (s : String) : Bool := !Text.endsWith s "\\"

def isHex (c : Char) : Bool := (Text.hexDigit c).isSome

/-- `RE_SSHFP_FINGERPRINT`. -/
def isSshfp (s : String) : Bool :=
  s.toList.all isHex &&
    (decide (10 ≤ Text.len s ∧ Text.len s ≤ 40) || decide (Text.len s = 64))

/-- `RE_UUID`. -/
def isUuid (s : String) : Bool :=
  (Text.split s '-').map Text.len == [8, 4, 4, 4, 12] &&
    (Text.split s '-').all fun part => part.toList.all isHex

/-- The checker of a format. -/
def check (lib : Lib) : Format → String → Bool
  | .hostname => isHostname
  | .nsHostname => isZonename
  | .srvHostname => isSrvHostname
  | .domainname => isZonename
  | .ipv4 => isIpv4
  | .ipv6 => lib.ipv6
  | .txtData => isTxtData
  | .sshfp => isSshfp
  | .uuid => isUuid
  | .dateTime => lib.dateTime

example : (isZonename "a_b.example.com.", isZonename "-a.com.", isZonename "a..com.") =
    (true, false, false) := by decide

end Format

end Designate
