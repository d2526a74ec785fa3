import Designate.Objects.Base
import Mathlib.Data.Rat.Defs

/-!
# Adapters

An adapter says which keys of a document stand for which fields of an object, and what a
document may do to them. A field is read only unless its adapter says `'read_only': False`; an
immutable one may be given a value as long as it has none, or a value that is not true. Parsing
puts the values of a document into an object, key by key, until one is refused.

Two values are compared as Python compares them, so `true`, `1` and `1.0` are one value to it,
and the one that was sent takes the place of the one that was there.
-/

namespace Designate

namespace Adapters

open Objects

/-! ## Documents -/

/-- A float. A finite one is the rational it stands for. -/
inductive Flt where
  | finite (q : ℚ)
  | infinite (negative : Bool)
  | nan
  deriving DecidableEq

def Flt.same : Flt → Flt → Bool
  | .nan, _ => false
  | x, y => x == y

/-- What `json.load` and `yaml.safe_load` read. -/
inductive Json where
  | null
  | bool (b : Bool)
  | int (n : Int)
  | float (x : Flt)
  | str (s : String)
  | list (items : List Json)
  | dict (entries : List (String × Json))

namespace Json

def number : Json → Option Flt
  | .bool b => some (.finite (if b then 1 else 0))
  | .int n => some (.finite n)
  | .float x => some x
  | _ => none

/-- `bool()`. -/
def truthy : Json → Bool
  | .null => false
  | .bool b => b
  | .int n => n != 0
  | .float x => x != .finite 0
  | .str s => s != ""
  | .list items => !items.isEmpty
  | .dict entries => !entries.isEmpty

/-- The keys of a dict. -/
def keys : Json → List String
  | .dict entries => entries.map Prod.fst
  | _ => []

end Json

mutual

/-- `==`. -/
def Json.same : Json → Json → Bool
  | .null, .null => true
  | .str s, .str t => s == t
  | .list vs, .list ws => sameAll vs ws
  | .dict vs, .dict ws => vs.length == ws.length && sameFields vs ws
  | v, w =>
    match v.number, w.number with
    | some x, some y => x.same y
    | _, _ => false

def sameAll : List Json → List Json → Bool
  | [], [] => true
  | v :: vs, w :: ws => v.same w && sameAll vs ws
  | _, _ => false

def sameFields : List (String × Json) → List (String × Json) → Bool
  | [], _ => true
  | (key, v) :: vs, ws =>
    (match ws.lookup key with
      | none => false
      | some w => v.same w) && sameFields vs ws

end

/-- A document that was read. The keys of a dict are distinct. -/
structure Body where
  json : Json
  distinct : json.keys.Nodup

/-! ## Objects -/

/-- A class of objects, with its `FIELDS`. -/
structure Model where
  name : String
  /-- The fields that are no relations. -/
  fields : List String
  /-- The relations, each with its `relation_cls`. -/
  relations : List (String × String) := []

/-- What a field that is no relation holds. -/
inductive Plain (τ : Type) where
  | json (v : Json)
  | datetime (t : τ)

section

variable {τ ω : Type}

def Plain.same [DecidableEq τ] : Plain τ → Plain τ → Bool
  | .json v, .json w => v.same w
  | .datetime t, .datetime u => t == u
  | _, _ => false

def Plain.truthy : Plain τ → Bool
  | .json v => v.truthy
  | .datetime _ => true

/-- What a relation holds is an object, which can be compared and may be true or not. -/
class Related (ω : Type) where
  same : ω → ω → Bool
  truthy : ω → Bool

/-- An object: the fields that are no relations, and its relations. -/
structure Obj (τ ω : Type) where
  plain : Attrs (Plain τ) := {}
  relations : Attrs ω := {}

inductive Held (τ ω : Type) where
  | plain (v : Plain τ)
  | related (o : ω)

variable [DecidableEq τ] [Related ω]

def Held.same : Held τ ω → Held τ ω → Bool
  | .plain v, .plain w => v.same w
  | .related o, .related p => Related.same o p
  | _, _ => false

def Held.truthy : Held τ ω → Bool
  | .plain v => v.truthy
  | .related o => Related.truthy o

/-- `==` of something an object holds and a value of a document. No object is such a value. -/
def Held.equals (v : Held τ ω) (value : Json) : Bool :=
  v.same (.plain (.json value))

/-! ## Errors -/

/-- What an `InvalidObject` says. -/
inductive Invalid where
  /-- 'Provided object does not match schema.  Keys {0} are not valid for {1}'. -/
  | keys (keys : List String) (resource : String)
  /-- 'Provided object is not valid. Got' an error of this class, 'with message' and its text. -/
  | got (error : String)
  deriving DecidableEq

inductive Raised where
  | InvalidObject (what : Invalid)
  | TypeError
  | AttributeError
  | KeyError
  | RelationNotLoaded
  deriving DecidableEq

/-- The `except` clauses of `parse`. -/
def Raised.invalid : Raised → Invalid
  | .InvalidObject what => what
  | .TypeError => .got "a TypeError"
  | .AttributeError => .got "an AttributeError"
  | .KeyError => .got "a KeyError error"
  | .RelationNotLoaded => .got "a RelationNotLoaded error"

def wrapped {α : Type} : Except Raised α → Except Invalid α
  | .ok a => .ok a
  | .error e => .error e.invalid

/-! ## Attributes -/

/-- `getattr`. -/
def Obj.getattr (model : Model) (o : Obj τ ω) (name : String) : Except Raised (Held τ ω) :=
  if (model.relations.lookup name).isSome then
    match o.relations.fields.lookup name with
    | none => .error .RelationNotLoaded
    | some r => .ok (.related r)
  else if name ∈ model.fields then
    .ok (.plain ((o.plain.fields.lookup name).getD (.json .null)))
  else .error .AttributeError

/-- `setattr` of a field that is no relation. -/
def Obj.setPlain (o : Obj τ ω) (name : String) (v : Plain τ) : Obj τ ω :=
  { o with plain := o.plain.setter Plain.same name v }

/-- `setattr` of a relation. -/
def Obj.setRelation (o : Obj τ ω) (name : String) (r : ω) : Obj τ ω :=
  { o with relations := o.relations.setter Related.same name r }

/-- `obj_what_changed`. -/
def Obj.whatChanged (o : Obj τ ω) : Finset String :=
  o.plain.changes ∪ o.relations.changes

end

/-! ## Modifications -/

/-- An entry of `MODIFICATIONS['fields']`, with the defaults of the lookups in it. -/
structure Field where
  key : String
  rename : Option String := none
  readOnly : Bool := true
  immutable : Bool := false

/-- The field of the object. -/
def Field.objKey (field : Field) : String :=
  field.rename.getD field.key

structure Adapter where
  fields : List Field
  resourceName : String
  distinct : (fields.map Field.key).Nodup
  /-- No two keys stand for one field. -/
  apart : (fields.map Field.objKey).Nodup

/-- `MODIFICATIONS['fields'][key]`. -/
def Adapter.field (adapter : Adapter) (key : String) : Option Field :=
  adapter.fields.find? (·.key = key)

/-! ## Parsing -/

section

variable {τ ω : Type} [DecidableEq τ] [Related ω] (model : Model)
  (nested : String → Json → Except Invalid ω)

/-- The checks of a field that may not change, or not any more. -/
def Field.refuses (field : Field) (o : Obj τ ω) (value : Json) : Except Raised Bool :=
  if field.immutable then
    -- the default of this `getattr` stands for an attribute that the class has not
    match o.getattr model field.objKey with
    | .ok v => .ok (v.truthy && !v.equals value)
    | .error .AttributeError => .ok false
    | .error e => .error e
  else if field.readOnly then do
    let v ← o.getattr model field.objKey
    .ok (!v.equals value)
  else .ok false

/-- The value put into its field. The document of a relation is parsed into a fresh object. -/
def Field.put (field : Field) (o : Obj τ ω) (value : Json) : Except Raised (Obj τ ω) :=
  match model.relations.lookup field.objKey with
  | some relationCls =>
    match nested relationCls value with
    | .ok r => .ok (o.setRelation field.objKey r)
    | .error what => .error (.InvalidObject what)
  | none =>
    if field.objKey ∈ model.fields then .ok (o.setPlain field.objKey (.json value))
    else .error .AttributeError

/--
The loop of `_parse_object`, with the keys that are not valid. A key that the adapter does not
know is noted; a field that refuses its value ends the loop.
-/
def Adapter.parseFields (adapter : Adapter) :
    List (String × Json) → Obj τ ω → List String → Except Raised (Obj τ ω × List String)
  | [], o, errorKeys => .ok (o, errorKeys)
  | (key, value) :: rest, o, errorKeys =>
    match adapter.field key with
    | none => adapter.parseFields rest o (errorKeys ++ [key])
    | some field => do
      if ← field.refuses model o value then .ok (o, errorKeys ++ [key])
      else
        let o ← field.put model nested o value
        adapter.parseFields rest o errorKeys

/-- `_parse_object`. Only a dict has items. -/
def Adapter.parseObject (adapter : Adapter) (values : Json) (o : Obj τ ω) :
    Except Raised (Obj τ ω) :=
  match values with
  | .dict entries => do
    let (o, errorKeys) ← adapter.parseFields model nested entries o []
    if errorKeys = [] then .ok o
    else .error (.InvalidObject (.keys errorKeys adapter.resourceName))
  | _ => .error .AttributeError

/-- `parse`, of an adapter that has the `_parse_object` of its base class. -/
def Adapter.parse (adapter : Adapter) (values : Json) (o : Obj τ ω) : Except Invalid (Obj τ ω) :=
  wrapped (adapter.parseObject model nested values o)

end

/-! ## Transfer requests -/

/-- `ZoneTransferRequest`. -/
def transferRequestModel : Model where
  name := "ZoneTransferRequest"
  fields := ["key", "zone_id", "description", "tenant_id", "target_tenant_id", "status",
    "zone_name", "id", "created_at", "updated_at", "version"]

/-- The `MODIFICATIONS` of `ZoneTransferRequestAPIv2Adapter`, which parses as its base does. -/
def transferRequestAdapter : Adapter where
  fields := [{ key := "id" }, { key := "zone_id", immutable := true },
    { key := "project_id", rename := some "tenant_id" },
    { key := "target_project_id", rename := some "target_tenant_id", immutable := true },
    { key := "description", readOnly := false }, { key := "key" }, { key := "status" },
    { key := "zone_name", immutable := true }, { key := "created_at" }, { key := "updated_at" }]
  resourceName := "transfer_request"
  distinct := by decide
  apart := by decide

end Adapters

end Designate
