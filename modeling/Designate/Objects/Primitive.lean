import Designate.Objects.Base
import Mathlib.Data.String.Basic

/-!
# Primitives, and the serializer of RPC

An object goes over RPC as a dict with the name of its class, the values of its fields, the
names of the changed ones and their original values. Objects among the values go as such dicts
in turn, and so do the items of a list object. All other values are what `jsonutils` makes of
them: times become texts, and tuples become lists. On the other side an instance of the class of
that name is given the values, where the fields of time have their texts parsed.
-/

namespace Designate

namespace Objects

/-- The libraries that are used. Times are those without a time zone. -/
structure JsonUtils (τ : Type) where
  /-- `strftime`, with `PERFECT_TIME_FORMAT`. -/
  strftime : τ → String
  /-- `timeutils.parse_strtime`, which raises if the text is no time. -/
  parseStrtime : String → Option τ
  parse_strftime : ∀ t, parseStrtime (strftime t) = some t
  /-- How an instance is taken apart, by its items or its attributes. -/
  takeApart : Cls → List (String × Val τ) → Finset String → List (String × Val τ) → Val τ
  takeApart_ne : ∀ cls fields changes originals cls' fields' changes' originals',
    takeApart cls fields changes originals ≠ .obj cls' fields' changes' originals'

variable {τ : Type}

/-! ## Values -/

mutual

/-- `jsonutils.to_primitive`. -/
def Val.flatten (J : JsonUtils τ) : Val τ → Val τ
  | .prim (.datetime t) => .prim (.str (J.strftime t))
  | .prim p => .prim p
  | .list vs => .list (flattenAll J vs)
  | .tuple vs => .list (flattenAll J vs)
  | .dict entries => .dict (flattenFields J entries)
  | .obj cls fields changes originals => J.takeApart cls fields changes originals

def flattenAll (J : JsonUtils τ) : List (Val τ) → List (Val τ)
  | [] => []
  | v :: vs => v.flatten J :: flattenAll J vs

def flattenFields (J : JsonUtils τ) : List (String × Val τ) → List (String × Val τ)
  | [] => []
  | (field, v) :: vs => (field, v.flatten J) :: flattenFields J vs

end

mutual

/-- What a loop over a value goes through. -/
def Val.iterate : Val τ → Option (List (Val τ))
  | .prim (.str s) => some (s.toList.map fun c => .prim (.str (String.singleton c)))
  | .prim _ => none
  | .list vs => some vs
  | .tuple vs => some vs
  | .dict entries => some (entries.map fun p => .prim (.str p.1))
  | .obj cls fields _ _ =>
    if cls.list then ((iterateFields fields).lookup "objects").join
    else if cls.dict then
      some ((ordered cls fields).map fun p => .tuple [.prim (.str p.1), p.2])
    else none

def iterateFields : List (String × Val τ) → List (String × Option (List (Val τ)))
  | [] => []
  | (field, v) :: vs => (field, v.iterate) :: iterateFields vs

end

/-- An item of a dict. -/
def Val.get (v : Val τ) (key : String) : Option (Val τ) :=
  match v with
  | .dict entries => entries.lookup key
  | _ => none

def Val.text : Val τ → Option String
  | .prim (.str s) => some s
  | _ => none

def Val.isObj : Val τ → Bool
  | .obj .. => true
  | _ => false

/-! ## To primitives -/

/-- What `to_primitive` returns. -/
def record (cls : Cls) (data : List (String × Val τ)) (changes : Finset String)
    (originals : List (String × Val τ)) : Val τ :=
  .dict [("designate_object.name", .prim (.str cls.name)), ("designate_object.data", .dict data),
    ("designate_object.changes", .list ((changes.sort (· ≤ ·)).map fun name => .prim (.str name))),
    ("designate_object.original_values", .dict originals)]

/-- The value of a field among the data. -/
def fieldToPrimitive (toPrimitive : Val τ → Option (Val τ)) (cls : Cls) (field : String)
    (value : Val τ) : Option (Val τ) :=
  if cls.list ∧ field = "objects" then do
    let items ← value.iterate
    (items.mapM toPrimitive).map .list
  else if value.isObj then toPrimitive value
  else some value

/-- `to_primitive`. Only objects have it. -/
def toPrimitive : Nat → Val τ → Option (Val τ)
  | n + 1, .obj cls fields changes originals => do
    let data ← (ordered cls fields).mapM fun p =>
      (fieldToPrimitive (toPrimitive n) cls p.1 p.2).map fun value => (p.1, value)
    some (record cls data changes originals)
  | _, _ => none

/-! ## From primitives -/

/-- The field a datum is set to. -/
def fieldFromPrimitive (J : JsonUtils τ) (fromPrimitive : Val τ → Option (Val τ)) (cls : Cls)
    (field : String) (value : Val τ) : Option (Val τ) :=
  if cls.list ∧ field = "objects" then do
    let items ← value.iterate
    (items.mapM fromPrimitive).map .list
  else if (value.get "designate_object.name").isSome then fromPrimitive value
  else if cls.list then some value
  else if cls.dates.contains field then
    match value with
    | .prim .none => some value
    | .prim (.str s) => (J.parseStrtime s).map fun t => .prim (.datetime t)
    | _ => none
  else some value

/-- `from_primitive`, with the classes by their names. -/
def fromPrimitive [DecidableEq τ] (J : JsonUtils τ) (objClsFromName : String → Option Cls) :
    Nat → Val τ → Option (Val τ)
  | 0, _ => none
  | n + 1, primitive =>
    match primitive.get "designate_object.name", primitive.get "designate_object.data",
      primitive.get "designate_object.changes",
      primitive.get "designate_object.original_values" with
    | some (.prim (.str name)), some (.dict data), some (.list names), some (.dict originals) => do
      let cls ← objClsFromName name
      let values ← data.mapM fun p =>
        (fieldFromPrimitive J (fromPrimitive J objClsFromName n) cls p.1 p.2).map
          fun value => (p.1, value)
      let changes ← names.mapM Val.text
      if values.all fun p => cls.fields.contains p.1 then
        some (.obj cls (Attrs.build Val.same (.list []) cls values).fields changes.toFinset
          originals)
      else none
    | _, _, _, _ => none

/-! ## `DesignateObjectSerializer` -/

def serializeEntity (J : JsonUtils τ) : Nat → Val τ → Option (Val τ)
  | n + 1, .list vs => (vs.mapM (serializeEntity J n)).map fun vs => (Val.list vs).flatten J
  | n + 1, .tuple vs => (vs.mapM (serializeEntity J n)).map fun vs => (Val.tuple vs).flatten J
  | n + 1, .obj cls fields changes originals =>
    (toPrimitive n (.obj cls fields changes originals)).map (Val.flatten J)
  | _ + 1, v => some (v.flatten J)
  | 0, _ => none

def deserializeEntity [DecidableEq τ] (J : JsonUtils τ) (objClsFromName : String → Option Cls) :
    Nat → Val τ → Option (Val τ)
  | n + 1, v =>
    if (v.get "designate_object.name").isSome then fromPrimitive J objClsFromName n v
    else match v with
      | .list vs => (vs.mapM (deserializeEntity J objClsFromName n)).map .list
      | .tuple vs => (vs.mapM (deserializeEntity J objClsFromName n)).map .tuple
      | v => some v
  | 0, _ => none

end Objects

end Designate
