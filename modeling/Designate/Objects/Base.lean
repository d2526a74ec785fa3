import Designate.Heap
import Mathlib.Data.Finset.Sort

/-!
# Objects

The objects of the service are instances of classes with named fields. An object knows which
fields are set, which have been changed, and what a field was before it was first changed. A
list object keeps its items in the field `objects`, which its constructor sets.

An object is copied field by field onto a fresh instance, whose setters note changes of their
own; the set of changed fields is then put in the place of what they noted.
-/

namespace Designate

namespace Objects

/-- A class. -/
structure Cls where
  name : String
  /-- `FIELDS`. -/
  fields : List String
  /-- A `ListObjectMixin`. -/
  list : Bool := false
  /-- A `DictObjectMixin`. -/
  dict : Bool := true
  /-- The fields whose schema has the format `date-time`. -/
  dates : List String := []
  nodup : fields.Nodup
  objects : list = true → "objects" ∈ fields
  deriving DecidableEq

/-- `Quota`. -/
def quotaCls : Cls where
  name := "Quota"
  fields := ["tenant_id", "resource", "hard_limit", "id", "created_at", "updated_at", "version"]
  dates := ["created_at", "updated_at"]
  nodup := by decide
  objects := by decide

/-- A value that has no parts. The type of times is left open. -/
inductive Prim (τ : Type) where
  | none
  | bool (b : Bool)
  | int (n : Int)
  | str (s : String)
  | datetime (t : τ)
  deriving DecidableEq

def Prim.time {τ : Type} : Prim τ → Bool
  | .datetime _ => true
  | _ => false

inductive Val (τ : Type) where
  | prim (p : Prim τ)
  | list (vs : List (Val τ))
  | tuple (vs : List (Val τ))
  | dict (entries : List (String × Val τ))
  | obj (cls : Cls) (fields : List (String × Val τ)) (changes : Finset String)
      (originals : List (String × Val τ))

/-! ## Attributes -/

/-- The attributes of an object, whatever stands for its values. -/
structure Attrs (α : Type) where
  fields : List (String × α) := []
  /-- `_obj_changes`. -/
  changes : Finset String := ∅
  /-- `_obj_original_values`. -/
  originals : List (String × α) := []

variable {α τ : Type}

/-- The values of the fields of a class, in the order of `FIELDS`. -/
def ordered (cls : Cls) (values : List (String × α)) : List (String × α) :=
  cls.fields.filterMap fun field => (values.lookup field).map fun value => (field, value)

/-- A dict with a value put under a name. -/
def assign (values : List (String × α)) (name : String) (value : α) : List (String × α) :=
  if (values.lookup name).isSome then
    values.map fun p => if p.1 = name then (name, value) else p
  else values ++ [(name, value)]

namespace Attrs

/-- The `setter` of `make_class_properties`. -/
def setter (same : α → α → Bool) (a : Attrs α) (name : String) (value : α) : Attrs α :=
  match a.fields.lookup name with
  | none => ⟨assign a.fields name value, insert name a.changes, a.originals⟩
  | some old =>
    if same value old then { a with fields := assign a.fields name value }
    else
      ⟨assign a.fields name value, insert name a.changes,
        if (a.originals.lookup name).isSome then a.originals else a.originals ++ [(name, old)]⟩

/-- `obj_reset_changes` of some fields. -/
def resetChanges (a : Attrs α) (names : List String) : Attrs α :=
  ⟨a.fields, a.changes \ names.toFinset, a.originals.filter fun p => !names.contains p.1⟩

/-- `__init__`, with the empty list that a list object begins with. -/
def init (same : α → α → Bool) (nil : α) (cls : Cls) : Attrs α :=
  if cls.list then (setter same {} "objects" nil).resetChanges ["objects"] else {}

/-- The fields of an instance set one after another, on a fresh one. -/
def build (same : α → α → Bool) (nil : α) (cls : Cls) (values : List (String × α)) : Attrs α :=
  values.foldl (fun a p => a.setter same p.1 p.2) (init same nil cls)

end Attrs

/-- `obj_get_original_value`. -/
def getOriginalValue (fields originals : List (String × α)) (field : String) : Option α :=
  (originals.lookup field).or (fields.lookup field)

/-! ## Values -/

mutual

/-- `==`. -/
def Val.same [DecidableEq τ] : Val τ → Val τ → Bool
  | .prim p, .prim q => p == q
  | .list vs, .list ws => sameAll vs ws
  | .tuple vs, .tuple ws => sameAll vs ws
  | .dict vs, .dict ws => vs.length == ws.length && sameFields vs ws
  | .obj cls fields changes originals, .obj cls' fields' changes' originals' =>
    cls == cls' && (fields.length == fields'.length && sameFields fields fields') &&
      changes == changes' &&
      (originals.length == originals'.length && sameFields originals originals')
  | _, _ => false

def sameAll [DecidableEq τ] : List (Val τ) → List (Val τ) → Bool
  | [], [] => true
  | v :: vs, w :: ws => v.same w && sameAll vs ws
  | _, _ => false

def sameFields [DecidableEq τ] : List (String × Val τ) → List (String × Val τ) → Bool
  | [], _ => true
  | (field, v) :: vs, ws =>
    (match ws.lookup field with
      | none => false
      | some w => v.same w) && sameFields vs ws

end

mutual

/-- `copy.deepcopy`, as far as values go, with `__deepcopy__` of an object. -/
def Val.deepcopy [DecidableEq τ] : Val τ → Val τ
  | .prim p => .prim p
  | .list vs => .list (deepcopyAll vs)
  | .tuple vs => .tuple (deepcopyAll vs)
  | .dict entries => .dict (deepcopyFields entries)
  | .obj cls fields changes _ =>
    let a := Attrs.build Val.same (.list []) cls (ordered cls (deepcopyFields fields))
    .obj cls a.fields changes a.originals

def deepcopyAll [DecidableEq τ] : List (Val τ) → List (Val τ)
  | [] => []
  | v :: vs => v.deepcopy :: deepcopyAll vs

def deepcopyFields [DecidableEq τ] : List (String × Val τ) → List (String × Val τ)
  | [] => []
  | (field, v) :: vs => (field, v.deepcopy) :: deepcopyFields vs

end

/-! ## Objects in a heap -/

/-- What a variable holds: a value without parts, or the address of something that has parts. -/
inductive Slot (τ : Type) where
  | prim (p : Prim τ)
  | ref (a : Nat)
  deriving DecidableEq

inductive Cell (τ : Type) where
  | list (items : List (Slot τ))
  | tuple (items : List (Slot τ))
  | dict (entries : List (String × Slot τ))
  | obj (cls : Cls) (fields : List (String × Slot τ)) (changes : Finset String)
      (originals : List (String × Slot τ))

/-- The addresses among some slots. -/
def addresses (slots : List (Slot τ)) : List Nat :=
  slots.filterMap fun
    | .prim _ => none
    | .ref a => some a

/-- The cells a cell refers to. -/
def Cell.refs : Cell τ → List Nat
  | .list items => addresses items
  | .tuple items => addresses items
  | .dict entries => addresses (entries.map Prod.snd)
  | .obj _ fields _ originals =>
    addresses (fields.map Prod.snd) ++ addresses (originals.map Prod.snd)

/-- Something done for the value of each entry. -/
def forEntries {β : Type} (f : α → Option β) (entries : List (String × α)) :
    Option (List (String × β)) :=
  entries.mapM fun p => (f p.2).map fun b => (p.1, b)

/-- The value in a slot, if it is not nested deeper than this. -/
def read (h : List (Cell τ)) : Nat → Slot τ → Option (Val τ)
  | _, .prim p => some (.prim p)
  | 0, .ref _ => none
  | n + 1, .ref a =>
    match h[a]? with
    | none => none
    | some (.list items) => (items.mapM (read h n)).map .list
    | some (.tuple items) => (items.mapM (read h n)).map .tuple
    | some (.dict entries) => (forEntries (read h n) entries).map .dict
    | some (.obj cls fields changes originals) => do
      let fields ← forEntries (read h n) fields
      let originals ← forEntries (read h n) originals
      some (.obj cls fields changes originals)

/-- The heap a copy is made in, and the memo: what has been copied, and where to. -/
structure Copying (τ : Type) where
  heap : List (Cell τ)
  memo : List (Nat × Nat) := []
  /-- The memo of the code has something in it, be it only a list whose items are still to come. -/
  used : Bool := false

/-- A new cell. -/
def Copying.alloc (c : Copying τ) (cell : Cell τ) : Nat × Copying τ :=
  (c.heap.length, { c with heap := c.heap ++ [cell] })

/-- The copy of the cell at an address, which is remembered. -/
def Copying.remember (c : Copying τ) (a : Nat) (cell : Cell τ) : Slot τ × Copying τ :=
  let (b, c) := c.alloc cell
  (.ref b, { c with memo := (a, b) :: c.memo })

/-- Each slot copied, one after another. -/
def copyAll (copy : Slot τ → Copying τ → Option (Slot τ × Copying τ)) :
    List (Slot τ) → Copying τ → Option (List (Slot τ) × Copying τ)
  | [], c => some ([], c)
  | s :: slots, c => do
    let (s, c) ← copy s c
    let (slots, c) ← copyAll copy slots c
    some (s :: slots, c)

/-- The same for entries, whose names stay. -/
def copyEntries (copy : Slot τ → Copying τ → Option (Slot τ × Copying τ))
    (entries : List (String × Slot τ)) (c : Copying τ) :
    Option (List (String × Slot τ) × Copying τ) := do
  let (slots, c) ← copyAll copy (entries.map Prod.snd) c
  some ((entries.map Prod.fst).zip slots, c)

/-- `==` of what two slots hold. -/
def sameSlot [DecidableEq τ] (h : List (Cell τ)) (n : Nat) (s t : Slot τ) : Bool :=
  match read h n s, read h n t with
  | some v, some w => v.same w
  | _, _ => false

/--
`copy.deepcopy`, for so deep a value. A list or a dict is noted in the memo before its parts are
copied, and a time is noted as well. A tuple is noted only if some part of it was: one that has
nothing to copy in it is kept by the code, and cannot be told from the new one here. An object
takes the memo of its caller only if something is in it, and begins another one otherwise, of
which the caller sees nothing.
-/
def deepcopySlot [DecidableEq τ] : Nat → Slot τ → Copying τ → Option (Slot τ × Copying τ)
  | _, .prim p, c => some (.prim p, { c with used := c.used || p.time })
  | 0, .ref _, _ => none
  | n + 1, .ref a, c =>
    match c.memo.lookup a with
    | some b => some (.ref b, c)
    | none =>
      match c.heap[a]? with
      | none => none
      | some (.list items) => do
        let (items, c) ← copyAll (deepcopySlot n) items { c with used := true }
        some (c.remember a (.list items))
      | some (.tuple items) => do
        let (items, c) ← copyAll (deepcopySlot n) items c
        some (c.remember a (.tuple items))
      | some (.dict entries) => do
        let (entries, c) ← copyEntries (deepcopySlot n) entries { c with used := true }
        some (c.remember a (.dict entries))
      | some (.obj cls fields changes _) => do
        let (nil, c') := c.alloc (.list [])
        let (fields, c') ← copyEntries (deepcopySlot n) (ordered cls fields) c'
        let attrs := Attrs.build (sameSlot c'.heap (n + 1)) (.ref nil) cls fields
        let c' := { c' with memo := if c.used then c'.memo else [], used := true }
        some (c'.remember a (.obj cls attrs.fields changes attrs.originals))

/-- The copies of some objects, with one memo. -/
def deepcopyObjects [DecidableEq τ] (fuel : Nat) (h : List (Cell τ)) (objects : List Nat) :
    Option (List (Cell τ) × List Nat) := do
  let (slots, c) ← copyAll (deepcopySlot fuel) (objects.map .ref) { heap := h }
  some (c.heap, addresses slots)

end Objects

end Designate
