import Designate.Objects.Base

/-!
# What has changed in an object

The setters of an object and `obj_reset_changes` keep two books: the names of the changed fields,
and what was in a field before it was first changed.
-/

namespace Designate

namespace Objects

variable {α : Type}

/-- Something done to an object. -/
inductive Change (α : Type) where
  | assign (name : String) (value : α)
  /-- `obj_reset_changes`, with the fields if some are given. -/
  | reset (fields : Option (List String))

namespace Attrs

/-- `obj_reset_changes`. An empty list of fields is like none. -/
def objResetChanges (a : Attrs α) : Option (List String) → Attrs α
  | none => { a with changes := ∅, originals := [] }
  | some [] => { a with changes := ∅, originals := [] }
  | some (name :: names) => a.resetChanges (name :: names)

def change (same : α → α → Bool) (a : Attrs α) : Change α → Attrs α
  | .assign name value => a.setter same name value
  | .reset fields => a.objResetChanges fields

/-- The object after some changes. -/
def after (same : α → α → Bool) (a : Attrs α) (ops : List (Change α)) : Attrs α :=
  ops.foldl (change same) a

/-- `obj_what_changed`. A list object adds the field of its items when one of them has changed. -/
def whatChanged (changed : α → Bool) (cls : Cls) (a : Attrs α) : Finset String :=
  if cls.list && (a.fields.lookup "objects").any changed then insert "objects" a.changes
  else a.changes

/-- `obj_get_original_value`, which raises a `KeyError` if there is none. -/
def originalValue (a : Attrs α) (field : String) : Option α :=
  getOriginalValue a.fields a.originals field

end Attrs

/-! ## What the books should say -/

/-- A reset that covers a field: one of all fields, or of some with this among them. -/
def Covers (field : String) : Change α → Prop
  | .assign _ _ => False
  | .reset none => True
  | .reset (some names) => names = [] ∨ field ∈ names

/-- The assignment meets the field unset, or with another value. -/
def Alters (same : α → α → Bool) (a : Attrs α) (field : String) (value : α) : Prop :=
  ∀ old, a.fields.lookup field = some old → same value old = false

/-- Some of the changes altered the field. -/
def Altered (same : α → α → Bool) (a : Attrs α) (field : String) (ops : List (Change α)) : Prop :=
  ∃ before value more, ops = before ++ .assign field value :: more ∧
    Alters same (a.after same before) field value

/-- The value first assigned to a field. -/
def firstAssigned (field : String) (ops : List (Change α)) : Option α :=
  ops.findSome? fun
    | .assign name value => if name = field then some value else none
    | .reset _ => none

/-- The value a field has, or else the one first assigned to it. -/
def firstValue (a : Attrs α) (field : String) (ops : List (Change α)) : Option α :=
  (a.fields.lookup field).or (firstAssigned field ops)

/-- The value itself, or one that is equal to it. -/
def SameValue (same : α → α → Bool) (v w : α) : Prop := v = w ∨ same v w = true

end Objects

end Designate
