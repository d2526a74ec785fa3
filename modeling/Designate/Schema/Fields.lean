import Designate.Objects.Adapters
import Designate.Schema.Format

/-!
# The schemas of fields

The part of JSON Schema that the fields of recordsets and records use: a schema is a list of
keywords, in the order in which it is written, and each keyword that an instance fails is an
error. A keyword about numbers or about texts says nothing of other instances.
-/

namespace Designate

open Adapters (Json Plain)

/-- The checker's name of a format. -/
def Format.text : Format → String
  | .hostname => "hostname"
  | .nsHostname => "ns-hostname"
  | .srvHostname => "srv-hostname"
  | .domainname => "domainname"
  | .ipv4 => "ipv4"
  | .ipv6 => "ipv6"
  | .txtData => "txt-data"
  | .sshfp => "sshfp"
  | .uuid => "uuid"
  | .dateTime => "date-time"

/-- The types a schema names. -/
inductive JsonType where
  | string | integer | null
  deriving DecidableEq, Repr

def JsonType.text : JsonType → String
  | .string => "string"
  | .integer => "integer"
  | .null => "null"

/-- `is_type`: a boolean is no integer, and neither is a float. -/
def JsonType.holds : JsonType → Json → Bool
  | .string, .str _ => true
  | .integer, .int _ => true
  | .null, .null => true
  | _, _ => false

/-- A keyword with its value. -/
inductive Keyword where
  | type (types : List JsonType)
  | format (f : Format)
  | minimum (n : Int)
  | maximum (n : Int)
  | maxLength (n : Nat)

namespace Keyword

/-- The keyword, and the value it has in the schema. -/
def keyword : Keyword → String × Json
  | .type [t] => ("type", .str t.text)
  | .type ts => ("type", .list (ts.map fun t => .str t.text))
  | .format f => ("format", .str f.text)
  | .minimum n => ("minimum", .int n)
  | .maximum n => ("maximum", .int n)
  | .maxLength n => ("maxLength", .int n)

/-- `instance < n`, for a finite number or another. -/
def below (x : Adapters.Flt) (n : Int) : Bool :=
  match x with
  | .finite q => decide (q < n)
  | .infinite negative => negative
  | .nan => false

/-- `instance > n`. -/
def above (x : Adapters.Flt) (n : Int) : Bool :=
  match x with
  | .finite q => decide ((n : ℚ) < q)
  | .infinite negative => !negative
  | .nan => false

/-- A number, which a boolean is not. -/
def number : Json → Option Adapters.Flt
  | .int n => some (.finite n)
  | .float x => some x
  | _ => none

/-- Whether a JSON value satisfies a keyword. -/
def passes (lib : Lib) : Keyword → Json → Bool
  | .type ts, v => ts.any (·.holds v)
  | .format f, .str s => f.check lib s
  | .minimum n, v => !(number v).any (below · n)
  | .maximum n, v => !(number v).any (above · n)
  | .maxLength n, .str s => decide (Text.len s ≤ n)
  | _, _ => true

end Keyword

/-- A schema of a field. -/
abbrev FieldSchema := List Keyword

/-- What a JSON value fails of a schema. -/
def FieldSchema.failed (lib : Lib) (schema : FieldSchema) (v : Json) : List Keyword :=
  schema.filter fun c => !c.passes lib v

/-- A time is no text, and valid as a `date-time`; any other type it has not. -/
def FieldSchema.failedTime (schema : FieldSchema) : List Keyword :=
  schema.filter fun
    | .type _ => !schema.any fun
      | .format .dateTime => true
      | _ => false
    | _ => false

/-- What the value of a field fails of its schema. -/
def FieldSchema.fails {τ : Type} (lib : Lib) (schema : FieldSchema) : Plain τ → List Keyword
  | .json v => schema.failed lib v
  | .datetime _ => schema.failedTime

/-- A field of a class, as far as validation goes. -/
structure FieldDef where
  name : String
  schema : FieldSchema := []
  required : Bool := false
  relation : Bool := false

/-! ## Errors -/

/-- A step of the path of an error. -/
inductive PathItem where
  | key (name : String)
  | index (i : Nat)
  deriving DecidableEq, Repr

structure ValidationError where
  path : List PathItem
  message : String
  validator : String
  validatorValue : Json

/-- What libraries say: `str` of a value or of a time, and the messages of JSON Schema. -/
structure Messages (τ : Type) where
  str : Json → String
  time : τ → String
  /-- The message of a value that fails a keyword. -/
  failed : Keyword → Plain τ → String
  /-- The message of a required field that is not there. -/
  missing : String → String

/-- `ValidationError.from_js_error`. -/
def Keyword.error {τ : Type} (messages : Messages τ) (path : List PathItem) (v : Plain τ)
    (c : Keyword) : ValidationError :=
  ⟨path, messages.failed c v, c.keyword.1, c.keyword.2⟩

/-- The fields of an object that are required and not set. -/
def missingErrors {τ : Type} (messages : Messages τ) (fields : List FieldDef)
    (isSet : String → Bool) (path : List PathItem) : List ValidationError :=
  let required := (fields.filter FieldDef.required).map FieldDef.name
  (required.filter fun name => !isSet name).map fun name =>
    ⟨path, messages.missing name, "required", .list (required.map .str)⟩

/-- What the values of an object fail, field by field. A relation has a schema of its own. -/
def valueErrors {τ : Type} (lib : Lib) (messages : Messages τ) (fields : List FieldDef)
    (values : List (String × Plain τ)) (path : List PathItem) : List ValidationError :=
  (fields.filter fun f => !f.relation).flatMap fun f =>
    match values.lookup f.name with
    | none => []
    | some v => (f.schema.fails lib v).map (·.error messages (path ++ [.key f.name]) v)

/-- `error.path[1]`, where it is an index. -/
def ValidationError.index (e : ValidationError) : Option Nat :=
  match e.path with
  | _ :: .index i :: _ => some i
  | _ => none

/-- The error with another index in its path. -/
def ValidationError.setIndex (e : ValidationError) (i : Nat) : ValidationError :=
  match e.path with
  | first :: .index _ :: rest => { e with path := first :: .index i :: rest }
  | _ => e

theorem ValidationError.index_setIndex {e : ValidationError} {i j : Nat} (h : e.index = some j) :
    (e.setIndex i).index = some i := by
  unfold ValidationError.index at h
  split at h
  · rename_i first k rest hpath
    unfold ValidationError.setIndex ValidationError.index
    rw [hpath]
  · exact absurd h nofun

end Designate
