import Designate.Objects
import Designate.Schema.Fields

/-!
# The classes of records

Each type of a recordset has a class of records: how the text of a record is taken apart, and the
schemas of its parts. What a record has besides is not set on an object that comes from a text.
-/

namespace Designate

open Adapters (Json Plain)

/-- `int(s)`: blanks around it, a sign and digits. -/
def Lib.int (lib : Lib) (s : String) : Option Int :=
  let digit := fun (n : Option Nat) (c : Char) =>
    n.bind fun n => (lib.decimal c).map fun d => n * 10 + d
  let digits := fun cs : List Char => if cs.isEmpty then none else cs.foldl digit (some 0)
  let blanks := fun cs : List Char => cs.dropWhile lib.isSpace
  match (blanks (blanks s.toList).reverse).reverse with
  | '-' :: cs => (digits cs).map fun n => -(n : Int)
  | '+' :: cs => (digits cs).map fun n => (n : Int)
  | cs => (digits cs).map fun n => (n : Int)

/-- `int(s)` of a text that is written as the number is. -/
def Lib.plainInt (lib : Lib) (s : String) : Option Int :=
  (lib.int s).filter fun n => toString n == s

/-- What `_from_string` raises. -/
inductive Unparsed where
  | ValueError | TypeError | AttributeError
  deriving DecidableEq, Repr

/-- The fields of a record object, as `_from_string` sets them. -/
abbrev Parts := List (String × Json)

/-- A class of records. -/
structure RdataClass where
  name : String
  fields : List FieldDef
  /-- `_from_string`. -/
  fromString : Lib → Json → Except Unparsed Parts
  /-- The format that `get_recordset_schema_changes` gives the name of the recordset. -/
  nameFormat : Option Format := none

namespace RdataClass

/-- The value goes into the one field there is, whatever it is. -/
def oneField (name field : String) (schema : FieldSchema) : RdataClass where
  name := name
  fields := [{ name := field, schema := schema, required := true }]
  fromString := fun _ value => .ok [(field, value)]

/-- `value.split(' ')`, of which only a text has the method. -/
def parts (value : Json) : Except Unparsed (List String) :=
  match value with
  | .str s => .ok (Text.split s ' ')
  | _ => .error .AttributeError

/-- A number, or a `ValueError`. -/
def number (n : Option Int) : Except Unparsed Json :=
  match n with
  | some n => .ok (.int n)
  | none => .error .ValueError

def domainname : FieldSchema := [.type [.string], .format .domainname, .maxLength 255]

def integer (minimum maximum : Int) : FieldSchema :=
  [.type [.integer], .minimum minimum, .maximum maximum]

def A : RdataClass := oneField "A" "address" [.type [.string], .format .ipv4]

def AAAA : RdataClass := oneField "AAAA" "address" [.type [.string], .format .ipv6]

def CNAME : RdataClass := oneField "CNAME" "cname" domainname

def NS : RdataClass := { oneField "NS" "nsdname" domainname with nameFormat := some .nsHostname }

def PTR : RdataClass := oneField "PTR" "ptrdname" domainname

def SPF : RdataClass := oneField "SPF" "txt_data" [.type [.string]]

def TXT : RdataClass :=
  oneField "TXT" "txt_data" [.type [.string], .format .txtData, .maxLength 255]

def MX : RdataClass where
  name := "MX"
  fields :=
    [{ name := "priority", schema := integer 0 65535, required := true },
     { name := "exchange", schema := domainname, required := true }]
  fromString := fun lib value => do
    match ← parts value with
    | [priority, exchange] => do
      let priority ← number (lib.plainInt priority)
      pure [("priority", priority), ("exchange", .str exchange)]
    | _ => .error .ValueError

def SOA : RdataClass where
  name := "SOA"
  fields :=
    [{ name := "mname", schema := domainname, required := true },
     { name := "rname", schema := domainname, required := true },
     { name := "serial", schema := integer 1 4294967295, required := true },
     { name := "refresh", schema := integer 0 2147483647, required := true },
     { name := "retry", schema := integer 0 2147483647, required := true },
     { name := "expire", schema := integer 0 2147483647, required := true },
     { name := "minimum", schema := integer 0 2147483647, required := true }]
  fromString := fun lib value => do
    match ← parts value with
    | [mname, rname, serial, refresh, retry, expire, minimum] => do
      let serial ← number (lib.int serial)
      let refresh ← number (lib.int refresh)
      let retry ← number (lib.int retry)
      let expire ← number (lib.int expire)
      let minimum ← number (lib.int minimum)
      pure [("mname", .str mname), ("rname", .str rname), ("serial", serial),
        ("refresh", refresh), ("retry", retry), ("expire", expire), ("minimum", minimum)]
    | _ => .error .ValueError

def SRV : RdataClass where
  name := "SRV"
  fields :=
    [{ name := "priority", schema := integer 0 65535, required := true },
     { name := "weight", schema := integer 0 65535, required := true },
     { name := "port", schema := integer 0 65535, required := true },
     { name := "target", schema := domainname, required := true }]
  fromString := fun lib value => do
    match ← parts value with
    | [priority, weight, port, target] => do
      let priority ← number (lib.int priority)
      let weight ← number (lib.int weight)
      let port ← number (lib.int port)
      pure [("priority", priority), ("weight", weight), ("port", port), ("target", .str target)]
    | _ => .error .ValueError
  nameFormat := some .srvHostname

def SSHFP : RdataClass where
  name := "SSHFP"
  fields :=
    [{ name := "algorithm", schema := integer 0 4, required := true },
     { name := "fp_type", schema := integer 0 2, required := true },
     { name := "fingerprint", schema := [.type [.string], .format .sshfp], required := true }]
  fromString := fun lib value => do
    match ← parts value with
    | [algorithm, fpType, fingerprint] => do
      let algorithm ← number (lib.plainInt algorithm)
      let fpType ← number (lib.plainInt fpType)
      pure [("algorithm", algorithm), ("fp_type", fpType), ("fingerprint", .str fingerprint)]
    | _ => .error .ValueError

end RdataClass

/-- The class of a type. -/
def RRType.rdata : RRType → RdataClass
  | .A => RdataClass.A
  | .AAAA => RdataClass.AAAA
  | .CNAME => RdataClass.CNAME
  | .MX => RdataClass.MX
  | .SRV => RdataClass.SRV
  | .TXT => RdataClass.TXT
  | .SPF => RdataClass.SPF
  | .NS => RdataClass.NS
  | .PTR => RdataClass.PTR
  | .SSHFP => RdataClass.SSHFP
  | .SOA => RdataClass.SOA

end Designate
