import Designate.Objects.Primitive
import Designate.Proof.Copies

/-!
# Objects that go over RPC

What the other side reads of an object is worked out for one object from what it reads of the
values of its fields. A value that is no object comes through if `jsonutils` has nothing to
change in it; a time is restored if it is the value of a field of time, and not if it is
anywhere else. So an original value that is a time arrives as a text.
-/

namespace Designate

namespace Objects

variable {α β γ τ : Type} (J : JsonUtils τ)

/-! ## Lists of results -/

theorem forall₂_comp_iff {R : α → β → Prop} {S : β → γ → Prop} {l : List α} {k : List γ} :
    (∃ m, List.Forall₂ R l m ∧ List.Forall₂ S m k) ↔
      List.Forall₂ (fun a c => ∃ b, R a b ∧ S b c) l k := by
  constructor
  · intro ⟨m, hl, hk⟩
    induction hl generalizing k with
    | nil =>
      cases hk
      exact .nil
    | cons hab _ ih =>
      cases hk with
      | cons hbc hk => exact .cons ⟨_, hab, hbc⟩ (ih hk)
  · intro h
    induction h with
    | nil => exact ⟨[], .nil, .nil⟩
    | cons hac _ ih =>
      obtain ⟨b, hab, hbc⟩ := hac
      obtain ⟨m, hl, hk⟩ := ih
      exact ⟨b :: m, .cons hab hl, .cons hbc hk⟩

/-- What is so for each from some point on is so for all from some point on. -/
theorem forall₂_from {R : Nat → α → β → Prop} {l : List α}
    (h : ∀ a ∈ l, ∃ n b, ∀ m, n ≤ m → R m a b) :
    ∃ n bs, ∀ m, n ≤ m → List.Forall₂ (R m) l bs := by
  induction l with
  | nil => exact ⟨0, [], fun _ _ => .nil⟩
  | cons a l ih =>
    obtain ⟨n, b, hb⟩ := h a List.mem_cons_self
    obtain ⟨n', bs, hbs⟩ := ih fun a ha => h a (List.mem_cons_of_mem _ ha)
    refine ⟨max n n', b :: bs, ?_⟩
    intro m hm
    exact .cons (hb m (by omega)) (hbs m (by omega))

/-! ## What `jsonutils` leaves as it is -/

theorem flattenAll_eq (vs : List (Val τ)) : flattenAll J vs = vs.map (Val.flatten J) := by
  induction vs with
  | nil => rfl
  | cons v vs ih => rw [flattenAll, ih, List.map_cons]

theorem flattenFields_eq (fields : List (String × Val τ)) :
    flattenFields J fields = fields.map fun p => (p.1, p.2.flatten J) := by
  induction fields with
  | nil => rfl
  | cons p fields ih =>
    obtain ⟨field, v⟩ := p
    rw [flattenFields, ih, List.map_cons]

mutual

/-- No time, tuple or object is in it. -/
def Val.Plain : Val τ → Prop
  | .prim p => p.time = false
  | .list vs => AllPlain vs
  | .tuple _ => False
  | .dict entries => FieldsPlain entries
  | .obj _ _ _ _ => False

def AllPlain : List (Val τ) → Prop
  | [] => True
  | v :: vs => v.Plain ∧ AllPlain vs

def FieldsPlain : List (String × Val τ) → Prop
  | [] => True
  | (_, v) :: vs => v.Plain ∧ FieldsPlain vs

end

theorem isObj_view (v : Val τ) : v.view.isObj = v.isObj := by
  cases v <;> rfl

theorem eq_prim_of_view {v : Val τ} {p : Prim τ} (h : v.view = .prim p) : v = .prim p := by
  cases v with
  | prim q => rwa [Val.view] at h
  | _ => exact absurd h (by simp [Val.view])

theorem isObj_takeApart (cls : Cls) (fields originals : List (String × Val τ))
    (changes : Finset String) : (J.takeApart cls fields changes originals).isObj = false := by
  cases h : J.takeApart cls fields changes originals with
  | obj cls' fields' changes' originals' => exact absurd h (J.takeApart_ne _ _ _ _ _ _ _ _)
  | _ => rfl

mutual

/-- A value shows the same afterwards exactly if it is plain. -/
theorem view_flatten_iff : ∀ v : Val τ, (v.flatten J).view = v.view ↔ v.Plain
  | .prim (.datetime t) => by
    rw [Val.flatten, Val.view, Val.view, Val.Plain]
    simp [Prim.time]
  | .prim .none => by simp [Val.flatten, Val.Plain, Prim.time]
  | .prim (.bool b) => by simp [Val.flatten, Val.Plain, Prim.time]
  | .prim (.int n) => by simp [Val.flatten, Val.Plain, Prim.time]
  | .prim (.str s) => by simp [Val.flatten, Val.Plain, Prim.time]
  | .list vs => by
    rw [Val.flatten, Val.view, Val.view, Val.Plain, Val.list.injEq]
    exact view_flattenAll_iff vs
  | .tuple vs => by
    rw [Val.flatten, Val.view, Val.view, Val.Plain]
    simp
  | .dict entries => by
    rw [Val.flatten, Val.view, Val.view, Val.Plain, Val.dict.injEq]
    exact view_flattenFields_iff entries
  -- an object becomes a dict, which is no object any more
  | .obj cls fields changes originals => by
    rw [Val.flatten, Val.Plain, iff_false]
    intro h
    have hobj := congrArg Val.isObj h
    rw [isObj_view, isObj_view, isObj_takeApart] at hobj
    exact absurd hobj (by simp [Val.isObj])

theorem view_flattenAll_iff : ∀ vs : List (Val τ), viewAll (flattenAll J vs) = viewAll vs ↔ AllPlain vs
  | [] => by simp [flattenAll, AllPlain]
  | v :: vs => by
    rw [flattenAll, viewAll, viewAll, AllPlain, List.cons.injEq, view_flatten_iff v,
      view_flattenAll_iff vs]

theorem view_flattenFields_iff :
    ∀ vs : List (String × Val τ), viewFields (flattenFields J vs) = viewFields vs ↔ FieldsPlain vs
  | [] => by simp [flattenFields, FieldsPlain]
  | (field, v) :: vs => by
    rw [flattenFields, viewFields, viewFields, FieldsPlain, List.cons.injEq, Prod.mk.injEq,
      view_flatten_iff v, view_flattenFields_iff vs]
    simp

end

/-- A value that is no object keeps its keys. -/
theorem get_flatten {v : Val τ} (hv : v.isObj = false) (key : String) :
    (v.flatten J).get key = (v.get key).map (Val.flatten J) := by
  cases v with
  | prim p => cases p <;> rfl
  | list vs => rfl
  | tuple vs => rfl
  | dict entries =>
    rw [Val.flatten, Val.get, Val.get, flattenFields_eq, lookup_map]
  | obj cls fields changes originals => exact absurd hv (by simp [Val.isObj])

/-! ## One object -/

variable [DecidableEq τ] (objClsFromName : String → Option Cls)

/-- The value `v` is read as `v'` on the other side. -/
def Carried (n : Nat) (v v' : Val τ) : Prop :=
  ∃ w, toPrimitive n v = some w ∧ fromPrimitive J objClsFromName n (w.flatten J) = some v'

/-- The value of a field is, by a class that may be another. -/
def FieldCarried (n : Nat) (cls cls' : Cls) (field : String) (v v' : Val τ) : Prop :=
  ∃ w, fieldToPrimitive (toPrimitive n) cls field v = some w ∧
    fieldFromPrimitive J (fromPrimitive J objClsFromName n) cls' field (w.flatten J) = some v'

omit [DecidableEq τ] in
theorem record_flatten (cls : Cls) (data originals : List (String × Val τ))
    (changes : Finset String) :
    (record cls data changes originals).flatten J =
      record cls (data.map fun p => (p.1, p.2.flatten J)) changes
        (originals.map fun p => (p.1, p.2.flatten J)) := by
  have hnames : flattenAll J ((changes.sort (· ≤ ·)).map fun name => .prim (.str name)) =
      (changes.sort (· ≤ ·)).map fun name => .prim (.str name) := by
    rw [flattenAll_eq, List.map_map]
    rfl
  unfold record
  simp only [Val.flatten, flattenFields, hnames]
  rw [flattenFields_eq, flattenFields_eq]

omit [DecidableEq τ] in
/-- The names of the changed fields are read back. -/
theorem names_mapM (names : List String) :
    (names.map fun name => (Val.prim (.str name) : Val τ)).mapM Val.text = some names := by
  rw [mapM_eq_some_iff, List.forall₂_map_left_iff]
  exact List.forall₂_same.mpr fun _ _ => rfl

theorem fromPrimitive_record (n : Nat) (cls : Cls) (data originals : List (String × Val τ))
    (changes : Finset String) :
    fromPrimitive J objClsFromName (n + 1) (record cls data changes originals) =
      (objClsFromName cls.name).bind fun cls' =>
        (data.mapM fun p =>
          (fieldFromPrimitive J (fromPrimitive J objClsFromName n) cls' p.1 p.2).map
            fun value => (p.1, value)).bind fun values =>
          if values.all fun p => cls'.fields.contains p.1 then
            some (.obj cls' (Attrs.build Val.same (.list []) cls' values).fields changes originals)
          else none := by
  -- the four keys of the record, as `from_primitive` asks for them
  have hname : (record cls data changes originals).get "designate_object.name" =
      some (.prim (.str cls.name)) := rfl
  have hdata : (record cls data changes originals).get "designate_object.data" =
      some (.dict data) := rfl
  have hchanges : (record cls data changes originals).get "designate_object.changes" =
      some (.list ((changes.sort (· ≤ ·)).map fun name => .prim (.str name))) := rfl
  have horiginals : (record cls data changes originals).get "designate_object.original_values" =
      some (.dict originals) := rfl
  rw [fromPrimitive, hname, hdata, hchanges, horiginals]
  simp only [names_mapM, Option.bind_eq_bind, Option.bind_some, Finset.sort_toFinset]

/--
What is read of an object: an instance of the class of its name with what is read of the values
of its fields, the same changes, and the original values as `jsonutils` leaves them.
-/
theorem carried_obj_iff (n : Nat) (cls : Cls) (fields originals : List (String × Val τ))
    (changes : Finset String) (o' : Val τ) :
    Carried J objClsFromName (n + 1) (.obj cls fields changes originals) o' ↔
      ∃ cls' values, objClsFromName cls.name = some cls' ∧
        List.Forall₂ (fun p q => q.1 = p.1 ∧
          FieldCarried J objClsFromName n cls cls' p.1 p.2 q.2) (ordered cls fields) values ∧
        (∀ p ∈ values, p.1 ∈ cls'.fields) ∧
        o' = .obj cls' (Attrs.build Val.same (.list []) cls' values).fields changes
          (flattenFields J originals) := by
  -- field by field: written, flattened, and read again
  have hcompose : ∀ cls' values, (∃ data,
      (ordered cls fields).mapM (fun p =>
        (fieldToPrimitive (toPrimitive n) cls p.1 p.2).map fun value => (p.1, value)) = some data ∧
      (data.map fun p => (p.1, p.2.flatten J)).mapM (fun p =>
        (fieldFromPrimitive J (fromPrimitive J objClsFromName n) cls' p.1 p.2).map
          fun value => (p.1, value)) = some values) ↔
      List.Forall₂ (fun p q => q.1 = p.1 ∧
        FieldCarried J objClsFromName n cls cls' p.1 p.2 q.2) (ordered cls fields) values := by
    intro cls' values
    simp only [mapM_eq_some_iff, List.forall₂_map_left_iff, forall₂_comp_iff]
    refine iff_of_eq (congrArg (fun R => List.Forall₂ R (ordered cls fields) values) ?_)
    funext p q
    obtain ⟨field, v⟩ := p
    obtain ⟨field', v'⟩ := q
    simp only [Option.map_eq_some_iff, Prod.exists, Prod.mk.injEq, eq_iff_iff, FieldCarried]
    constructor
    · intro ⟨name, w, ⟨w', hw, hname, hsame⟩, v'', hv, hname', hsame'⟩
      subst hname hsame hname' hsame'
      exact ⟨rfl, w', hw, hv⟩
    · intro ⟨hname, w, hw, hv⟩
      subst hname
      exact ⟨field', w, ⟨w, hw, rfl, rfl⟩, v', hv, rfl, rfl⟩
  constructor
  · -- what was written is a record of the class, so it is read as one
    intro ⟨w, hto, hfrom⟩
    rw [toPrimitive, Option.bind_eq_bind, Option.bind_eq_some_iff] at hto
    obtain ⟨data, hdata, hw⟩ := hto
    obtain rfl := Option.some.inj hw
    rw [record_flatten, fromPrimitive_record, Option.bind_eq_some_iff] at hfrom
    obtain ⟨cls', hcls, hfrom⟩ := hfrom
    rw [Option.bind_eq_some_iff] at hfrom
    obtain ⟨values, hvalues, hfrom⟩ := hfrom
    obtain ⟨hall, ho'⟩ := Option.ite_none_right_eq_some.mp hfrom
    refine ⟨cls', values, hcls, (hcompose cls' values).mp ⟨data, hdata, hvalues⟩, ?_, ?_⟩
    · simpa using hall
    · rw [flattenFields_eq]
      exact (Option.some.inj ho').symm
  · intro ⟨cls', values, hcls, hfields, hall, ho'⟩
    obtain ⟨data, hdata, hvalues⟩ := (hcompose cls' values).mpr hfields
    refine ⟨record cls data changes originals, ?_, ?_⟩
    · rw [toPrimitive, hdata]
      rfl
    · rw [record_flatten, fromPrimitive_record, hcls, Option.bind_some, hvalues, Option.bind_some,
        if_pos (by simpa using hall), ho', flattenFields_eq]

/-! ## The value of a field -/

/-- The field is the items of a list object. -/
abbrev IsItems (cls : Cls) (field : String) : Prop :=
  cls.list = true ∧ field = "objects"

/--
A value, not an object, that comes through as the value of a field: no dict that is taken for an
object; in a field of time nothing or a time; and plain anywhere else.
-/
def Val.Settable (cls : Cls) (field : String) (v : Val τ) : Prop :=
  v.get "designate_object.name" = none ∧
    if cls.list = false ∧ field ∈ cls.dates then v = .prim .none ∨ ∃ t, v = .prim (.datetime t)
    else v.Plain

variable {J objClsFromName} {n : Nat} {cls cls' : Cls} {field : String} {v v' : Val τ}

theorem fromPrimitive_isObj {p o : Val τ} (h : fromPrimitive J objClsFromName n p = some o) :
    o.isObj = true := by
  cases n with
  | zero => exact absurd h (by simp [fromPrimitive])
  | succ n =>
    rw [fromPrimitive] at h
    split at h
    · simp only [Option.bind_eq_bind, Option.bind_eq_some_iff] at h
      obtain ⟨cls, -, values, -, changes, -, h⟩ := h
      obtain ⟨-, h⟩ := Option.ite_none_right_eq_some.mp h
      obtain rfl := Option.some.inj h
      rfl
    · exact absurd h (by simp)

omit [DecidableEq τ] in
theorem toPrimitive_get {o w : Val τ} (h : toPrimitive n o = some w) :
    ((w.flatten J).get "designate_object.name").isSome = true := by
  cases n with
  | zero => exact absurd h (by simp [toPrimitive])
  | succ n =>
    cases o with
    | obj cls fields changes originals =>
      rw [toPrimitive, Option.bind_eq_bind, Option.bind_eq_some_iff] at h
      obtain ⟨data, _, h⟩ := h
      obtain rfl := Option.some.inj h
      rw [record_flatten]
      rfl
    | _ => exact absurd h (by simp [toPrimitive])

/-- The items of a list object are read one by one. -/
theorem fieldCarried_items (hlist : cls.list = true) :
    FieldCarried J objClsFromName n cls cls "objects" v v' ↔
      ∃ os os', v.iterate = some os ∧ List.Forall₂ (Carried J objClsFromName n) os os' ∧
        v' = .list os' := by
  have hitems : IsItems cls "objects" := ⟨hlist, rfl⟩
  have hto : fieldToPrimitive (toPrimitive n) cls "objects" v =
      v.iterate.bind fun os => (os.mapM (toPrimitive n)).map .list := if_pos hitems
  have hfrom : ∀ w, fieldFromPrimitive J (fromPrimitive J objClsFromName n) cls "objects" w =
      w.iterate.bind fun items => (items.mapM (fromPrimitive J objClsFromName n)).map .list :=
    fun _ => if_pos hitems
  -- writing and reading the items one by one is one relation between them
  have hone : ∀ os os', List.Forall₂ (Carried J objClsFromName n) os os' ↔
      ∃ ws, os.mapM (toPrimitive n) = some ws ∧
        (ws.map (Val.flatten J)).mapM (fromPrimitive J objClsFromName n) = some os' := by
    intro os os'
    simp only [mapM_eq_some_iff, List.forall₂_map_left_iff]
    exact forall₂_comp_iff.symm
  simp only [FieldCarried, hto, hfrom, Option.bind_eq_some_iff, Option.map_eq_some_iff]
  constructor
  · intro ⟨w, ⟨os, hos, ws, hws, hw⟩, items, hitems, os', hos', hv'⟩
    subst hw
    rw [Val.flatten, flattenAll_eq, Val.iterate] at hitems
    obtain rfl := Option.some.inj hitems
    exact ⟨os, os', hos, (hone os os').mpr ⟨ws, hws, hos'⟩, hv'.symm⟩
  · intro ⟨os, os', hos, hall, hv'⟩
    obtain ⟨ws, hws, hos'⟩ := (hone os os').mp hall
    refine ⟨.list ws, ⟨os, hos, ws, hws, rfl⟩, ws.map (Val.flatten J), ?_, os', hos', hv'.symm⟩
    rw [Val.flatten, flattenAll_eq, Val.iterate]

/-- An object in any other field is read as it would be by itself. -/
theorem fieldCarried_obj (hitems : ¬ IsItems cls field) (hobj : v.isObj = true) :
    FieldCarried J objClsFromName n cls cls field v v' ↔ Carried J objClsFromName n v v' := by
  unfold FieldCarried Carried fieldToPrimitive fieldFromPrimitive
  rw [if_neg hitems, if_pos hobj]
  refine exists_congr fun w => and_congr_right fun hw => ?_
  rw [if_neg hitems, if_pos (toPrimitive_get hw)]

/-- Any other value is read from what `jsonutils` made of it. -/
theorem fieldCarried_other (hitems : ¬ IsItems cls field) (hobj : v.isObj = false) :
    FieldCarried J objClsFromName n cls cls field v v' ↔
      fieldFromPrimitive J (fromPrimitive J objClsFromName n) cls field (v.flatten J) =
        some v' := by
  unfold FieldCarried fieldToPrimitive
  rw [if_neg hitems, hobj]
  constructor
  · intro ⟨w, hw, hv'⟩
    obtain rfl := Option.some.inj hw
    exact hv'
  · intro hv'
    exact ⟨v, rfl, hv'⟩

variable (J objClsFromName) in
/-- A value that may be set comes through, whatever the fuel. -/
theorem fieldCarried_settable (hitems : ¬ IsItems cls field) (hobj : v.isObj = false)
    (hv : v.Settable cls field) :
    ∃ v', v'.view = v.view ∧ ∀ n, FieldCarried J objClsFromName n cls cls field v v' := by
  obtain ⟨hname, hv⟩ := hv
  have hdict : ((v.flatten J).get "designate_object.name").isSome = false := by
    rw [get_flatten J hobj, hname]
    rfl
  simp only [fieldCarried_other hitems hobj, fieldFromPrimitive, if_neg hitems, hdict]
  -- a field that is a time is parsed again; any other has to come through as it is sent
  by_cases hdate : cls.list = false ∧ field ∈ cls.dates
  · rw [if_pos hdate] at hv
    refine ⟨v, rfl, fun n => ?_⟩
    obtain rfl | ⟨t, rfl⟩ := hv
    · simp [hdate.1, hdate.2, Val.flatten]
    · simp [hdate.1, hdate.2, Val.flatten, J.parse_strftime]
  · rw [if_neg hdate] at hv
    refine ⟨v.flatten J, (view_flatten_iff J v).mpr hv, fun n => ?_⟩
    by_cases hlist : cls.list = true
    · simp [hlist]
    · have hnot : field ∉ cls.dates := fun h => hdate ⟨by simpa using hlist, h⟩
      simp [hlist, hnot]

/-- And no other value does. -/
theorem settable_of_fieldCarried (hitems : ¬ IsItems cls field) (hobj : v.isObj = false)
    (hcarried : FieldCarried J objClsFromName n cls cls field v v') (hview : v'.view = v.view) :
    v.Settable cls field := by
  rw [fieldCarried_other hitems hobj] at hcarried
  unfold fieldFromPrimitive at hcarried
  rw [if_neg hitems] at hcarried
  have hname : v.get "designate_object.name" = none := by
    by_contra hsome
    have hdict : ((v.flatten J).get "designate_object.name").isSome = true := by
      rw [get_flatten J hobj, Option.isSome_map]
      exact Option.isSome_iff_ne_none.mpr hsome
    rw [if_pos hdict] at hcarried
    -- it has become an object
    have hobj' := fromPrimitive_isObj hcarried
    rw [← isObj_view, hview, isObj_view, hobj] at hobj'
    exact absurd hobj' (by simp)
  have hdict : ((v.flatten J).get "designate_object.name").isSome = false := by
    rw [get_flatten J hobj, hname]
    rfl
  refine ⟨hname, ?_⟩
  rw [hdict, if_neg (by simp)] at hcarried
  by_cases hdate : cls.list = false ∧ field ∈ cls.dates
  · rw [if_pos hdate]
    rw [if_neg (by simp [hdate.1]), if_pos (by simpa using hdate.2)] at hcarried
    split at hcarried
    · next hnone =>
      obtain rfl := Option.some.inj hcarried
      rw [hnone, Val.view] at hview
      exact .inl (eq_prim_of_view hview.symm)
    · obtain ⟨t, _, rfl⟩ := Option.map_eq_some_iff.mp hcarried
      rw [Val.view] at hview
      exact .inr ⟨t, eq_prim_of_view hview.symm⟩
    · exact absurd hcarried (by simp)
  · rw [if_neg hdate]
    have hsame : v' = v.flatten J := by
      by_cases hlist : cls.list = true
      · rw [if_pos hlist] at hcarried
        exact (Option.some.inj hcarried).symm
      · have hnot : field ∉ cls.dates := fun h => hdate ⟨by simpa using hlist, h⟩
        rw [if_neg hlist, if_neg (by simpa using hnot)] at hcarried
        exact (Option.some.inj hcarried).symm
    rwa [hsame, view_flatten_iff] at hview

/-! ## What comes through -/

/--
An object that comes through: its class is found by its name, the items of a list object and the
objects in other fields come through, other values may be set, and the original values are plain.
-/
inductive Val.Travels (objClsFromName : String → Option Cls) : Val τ → Prop where
  | obj {cls : Cls} {fields originals : List (String × Val τ)} {changes : Finset String} :
      objClsFromName cls.name = some cls →
      (cls.list = true → ∃ vs, fields.lookup "objects" = some (.list vs)) →
      (∀ vs, cls.list = true → fields.lookup "objects" = some (.list vs) →
        ∀ o ∈ vs, Travels objClsFromName o) →
      (∀ field ∈ cls.fields, ∀ v, fields.lookup field = some v → ¬ IsItems cls field →
        v.isObj = true → Travels objClsFromName v) →
      (∀ field ∈ cls.fields, ∀ v, fields.lookup field = some v → ¬ IsItems cls field →
        v.isObj = false → v.Settable cls field) →
      (∀ field ∈ cls.fields, ∀ v, originals.lookup field = some v → v.Plain) →
      Travels objClsFromName (.obj cls fields changes originals)

/-- The fields of an instance are those of the object it is read from, but for the items. -/
theorem read_lookup {fields values : List (String × Val τ)} {R : String → Val τ → Val τ → Prop}
    (hvalues : List.Forall₂ (fun p q => q.1 = p.1 ∧ R p.1 p.2 q.2) (ordered cls fields) values)
    (hfield : field ∈ cls.fields) :
    (fields.lookup field = none ∧
        (Attrs.build Val.same (.list []) cls values).fields.lookup field =
          if IsItems cls field then some (.list []) else none) ∨
      ∃ v v', fields.lookup field = some v ∧
        (Attrs.build Val.same (.list []) cls values).fields.lookup field = some v' ∧
        R field v v' := by
  -- the instance is built from the fields of the object, in the order of the class
  have hkeys : values.map Prod.fst = (ordered cls fields).map Prod.fst :=
    keys_rel (R := fun _ _ => True) (hvalues.imp fun _ _ hpq => ⟨hpq.1, trivial⟩)
  have hnodup : (values.map Prod.fst).Nodup := by
    rw [hkeys]
    exact ordered_nodup cls fields
  have hown : (ordered cls fields).lookup field = fields.lookup field := by
    rw [lookup_ordered, if_pos hfield]
  rw [Attrs.build_lookup _ _ _ hnodup, ← hown]
  obtain ⟨hv, hv'⟩ | ⟨v, v', hv, hv', hR⟩ := lookup_named hvalues field
  · exact .inl ⟨hv, by rw [hv', Option.none_or]⟩
  · exact .inr ⟨v, v', hv, by rw [hv', Option.some_or], hR⟩

omit [DecidableEq τ] in
theorem mem_ordered {fields : List (String × Val τ)} {p : String × Val τ}
    (hp : p ∈ ordered cls fields) : p.1 ∈ cls.fields ∧ fields.lookup p.1 = some p.2 := by
  obtain ⟨name, hname, hp⟩ := List.mem_filterMap.mp hp
  obtain ⟨v, hv, rfl⟩ := Option.map_eq_some_iff.mp hp
  exact ⟨hname, hv⟩

omit [DecidableEq τ] in
theorem viewAll_congr {vs vs' : List (Val τ)}
    (h : List.Forall₂ (fun v v' => v'.view = v.view) vs vs') : viewAll vs' = viewAll vs := by
  induction h with
  | nil => rfl
  | cons hsame _ ih => rw [viewAll, viewAll, hsame, ih]

omit [DecidableEq τ] in
/-- Lists that show the same, of related values. -/
theorem forall₂_of_views {R : Val τ → Val τ → Prop} {vs vs' : List (Val τ)}
    (h : List.Forall₂ R vs vs') (hviews : viewAll vs' = viewAll vs) :
    ∀ v ∈ vs, ∃ v', R v v' ∧ v'.view = v.view := by
  induction h with
  | nil => exact fun _ hv => absurd hv List.not_mem_nil
  | @cons v v' vs vs' hR _ ih =>
    rw [viewAll, viewAll, List.cons.injEq] at hviews
    intro u hu
    obtain rfl | hu := List.mem_cons.mp hu
    · exact ⟨v', hR, hviews.1⟩
    · exact ih hviews.2 u hu

/-- An object that is read as what it was comes through. -/
theorem travels_of_carried {o o' : Val τ} (hcarried : Carried J objClsFromName n o o')
    (hview : o'.view = o.view) : o.Travels objClsFromName := by
  induction n generalizing o o' with
  | zero =>
    obtain ⟨w, hw, _⟩ := hcarried
    exact absurd hw (by simp [toPrimitive])
  | succ n ih =>
    cases o with
    | obj cls fields changes originals =>
      obtain ⟨cls', values, hcls, hvalues, _, ho'⟩ := (carried_obj_iff ..).mp hcarried
      rw [ho', view_obj_eq_iff] at hview
      obtain ⟨rfl, -, hfields, horiginals⟩ := hview
      have hread : ∀ field ∈ cls'.fields, ∀ v, fields.lookup field = some v →
          ∃ v', FieldCarried J objClsFromName n cls' cls' field v v' ∧ v'.view = v.view := by
        intro field hfield v hv
        have hsame := hfields field hfield
        obtain ⟨hnone, _⟩ | ⟨v₁, v', hv₁, hv', hone⟩ := read_lookup hvalues hfield
        · exact absurd (hnone.symm.trans hv) (by simp)
        · obtain rfl := Option.some.inj (hv₁.symm.trans hv)
          rw [hv', hv] at hsame
          exact ⟨v', hone, Option.some.inj hsame⟩
      have hitems : ∀ v, cls'.list = true → fields.lookup "objects" = some v →
          ∃ vs, v = .list vs ∧ ∀ o ∈ vs, o.Travels objClsFromName := by
        intro v hlist hv
        obtain ⟨v', hone, hsame⟩ := hread "objects" (cls'.objects hlist) v hv
        obtain ⟨os, os', hos, hall, rfl⟩ := (fieldCarried_items hlist).mp hone
        obtain ⟨vs, rfl⟩ : ∃ vs, v = .list vs := by
          cases v with
          | list vs => exact ⟨vs, rfl⟩
          | _ => exact absurd hsame (by simp [Val.view])
        obtain rfl := Option.some.inj hos
        refine ⟨vs, rfl, fun o ho => ?_⟩
        rw [Val.view, Val.view, Val.list.injEq] at hsame
        obtain ⟨o', ho', hsame⟩ := forall₂_of_views hall hsame o ho
        exact ih ho' hsame
      refine .obj hcls ?_ ?_ ?_ ?_ ?_
      · intro hlist
        have hsame := hfields "objects" (cls'.objects hlist)
        obtain ⟨hnone, hinit⟩ | ⟨v, v', hv, _, _⟩ := read_lookup hvalues (cls'.objects hlist)
        · -- an instance would have items though the object has none
          rw [hnone, hinit, if_pos ⟨hlist, rfl⟩] at hsame
          exact absurd hsame (by simp)
        · obtain ⟨vs, rfl, _⟩ := hitems v hlist hv
          exact ⟨vs, hv⟩
      · intro vs hlist hvs o ho
        obtain ⟨ws, hws, hall⟩ := hitems _ hlist hvs
        obtain rfl := Val.list.inj hws
        exact hall o ho
      · intro field hfield v hv hnot hobj
        obtain ⟨v', hone, hsame⟩ := hread field hfield v hv
        exact ih ((fieldCarried_obj hnot hobj).mp hone) hsame
      · intro field hfield v hv hnot hobj
        obtain ⟨v', hone, hsame⟩ := hread field hfield v hv
        exact settable_of_fieldCarried hnot hobj hone hsame
      · intro field hfield v hv
        have hsame := horiginals field hfield
        unfold getOriginalValue at hsame
        rw [flattenFields_eq, lookup_map, hv] at hsame
        exact (view_flatten_iff J v).mp (Option.some.inj hsame)
    | _ =>
      obtain ⟨w, hw, _⟩ := hcarried
      exact absurd hw (by simp [toPrimitive])

/-- What comes through is read as what it was, from some depth on. -/
theorem carried_of_travels {o : Val τ} (ho : o.Travels objClsFromName) :
    ∃ n o', (∀ m, n ≤ m → Carried J objClsFromName m o o') ∧ o'.view = o.view := by
  induction ho with
  | @obj cls fields originals changes hcls hlist _ _ hsettable hplain ihitems ihobjs =>
    -- each field comes through from some depth on: items, an object, or a plain value
    have hone : ∀ p ∈ ordered cls fields, ∃ n, ∃ q : String × Val τ, ∀ m, n ≤ m → q.1 = p.1 ∧
        FieldCarried J objClsFromName m cls cls p.1 p.2 q.2 ∧ q.2.view = p.2.view := by
      intro ⟨field, v⟩ hp
      obtain ⟨hfield, hv⟩ := mem_ordered hp
      by_cases hitems : IsItems cls field
      · obtain ⟨hlist', rfl⟩ := hitems
        obtain ⟨vs, hvs⟩ := hlist hlist'
        obtain rfl := Option.some.inj (hvs.symm.trans hv)
        obtain ⟨n, os', hos'⟩ := forall₂_from
          (R := fun m o o' => Carried J objClsFromName m o o' ∧ o'.view = o.view) (l := vs) <| by
            intro o ho
            obtain ⟨n, o', hcarried, hsame⟩ := ihitems vs hlist' hvs o ho
            exact ⟨n, o', fun m hm => ⟨hcarried m hm, hsame⟩⟩
        refine ⟨n, ("objects", .list os'), fun m hm => ⟨rfl, ?_, ?_⟩⟩
        · exact (fieldCarried_items hlist').mpr
            ⟨vs, os', rfl, (hos' m hm).imp fun _ _ h => h.1, rfl⟩
        · rw [Val.view, Val.view, viewAll_congr ((hos' m hm).imp fun _ _ h => h.2)]
      · cases hobj : v.isObj with
        | true =>
          obtain ⟨n, v', hcarried, hsame⟩ := ihobjs field hfield v hv hitems hobj
          exact ⟨n, (field, v'), fun m hm =>
            ⟨rfl, (fieldCarried_obj hitems hobj).mpr (hcarried m hm), hsame⟩⟩
        | false =>
          obtain ⟨v', hsame, hcarried⟩ :=
            fieldCarried_settable J objClsFromName hitems hobj
              (hsettable field hfield v hv hitems hobj)
          exact ⟨0, (field, v'), fun m _ => ⟨rfl, hcarried m, hsame⟩⟩
    -- one depth is enough for all fields, and one more for the object
    obtain ⟨n, values, hvalues⟩ := forall₂_from hone
    refine ⟨n + 1, .obj cls (Attrs.build Val.same (.list []) cls values).fields changes
      (flattenFields J originals), ?_, ?_⟩
    · intro m hm
      obtain ⟨m, rfl⟩ : ∃ k, m = k + 1 := ⟨m - 1, by omega⟩
      refine (carried_obj_iff ..).mpr ⟨cls, values, hcls,
        (hvalues m (by omega)).imp fun _ _ h => ⟨h.1, h.2.1⟩, ?_, rfl⟩
      intro q hq
      have hkeys : values.map Prod.fst = (ordered cls fields).map Prod.fst :=
        keys_rel (R := fun _ _ => True)
          ((hvalues m (by omega)).imp fun _ _ h => ⟨h.1, trivial⟩)
      have hmem : q.1 ∈ (ordered cls fields).map Prod.fst := hkeys ▸ List.mem_map_of_mem hq
      obtain ⟨p, hp, hname⟩ := List.mem_map.mp hmem
      exact hname ▸ (mem_ordered hp).1
    · -- an unset field is unset again; only the list of items is set by the constructor
      have hsame : ∀ field ∈ cls.fields,
          ((Attrs.build Val.same (.list []) cls values).fields.lookup field).map Val.view =
            (fields.lookup field).map Val.view := by
        intro field hfield
        obtain ⟨hnone, hinit⟩ | ⟨v, v', hv, hv', hview⟩ :=
          read_lookup (R := fun _ v v' => v'.view = v.view)
            ((hvalues n (Nat.le_refl n)).imp fun _ _ h => ⟨h.1, h.2.2⟩) hfield
        · rw [hinit, hnone]
          by_cases hitems : IsItems cls field
          · obtain ⟨hlist', rfl⟩ := hitems
            obtain ⟨vs, hvs⟩ := hlist hlist'
            exact absurd (hnone.symm.trans hvs) (by simp)
          · rw [if_neg hitems]
        · rw [hv, hv', Option.map_some, Option.map_some, hview]
      refine view_obj_eq_iff.mpr ⟨rfl, rfl, hsame, ?_⟩
      intro field hfield
      unfold getOriginalValue
      rw [flattenFields_eq, lookup_map]
      cases horiginal : originals.lookup field with
      | none => exact hsame field hfield
      | some v =>
        simp only [Option.map_some, Option.some_or]
        rw [(view_flatten_iff J v).mpr (hplain field hfield v horiginal)]

/-- For an object the serializer does no more than `to_primitive`, `jsonutils`, `from_primitive`. -/
theorem serialized_iff_carried {m : Nat} {fields originals : List (String × Val τ)}
    {changes : Finset String} {o' : Val τ} :
    (serializeEntity J (m + 1) (.obj cls fields changes originals)).bind
        (deserializeEntity J objClsFromName (m + 1)) = some o' ↔
      Carried J objClsFromName m (.obj cls fields changes originals) o' := by
  rw [serializeEntity, Option.bind_map, Option.bind_eq_some_iff]
  refine exists_congr fun w => and_congr_right fun hw => ?_
  rw [Function.comp_apply]
  unfold deserializeEntity
  rw [if_pos (toPrimitive_get hw)]

/--
An object is read on the other side with the same fields, changes and original values, at every
depth, exactly if it comes through.
-/
theorem round_trip_iff (J : JsonUtils τ) (objClsFromName : String → Option Cls) (cls : Cls)
    (fields originals : List (String × Val τ)) (changes : Finset String) :
    (∃ n o', (∀ m, n ≤ m → (serializeEntity J m (.obj cls fields changes originals)).bind
        (deserializeEntity J objClsFromName m) = some o') ∧
      o'.view = (Val.obj cls fields changes originals).view) ↔
    (Val.obj cls fields changes originals).Travels objClsFromName := by
  constructor
  · intro ⟨n, o', hread, hview⟩
    exact travels_of_carried (serialized_iff_carried.mp (hread (n + 1) (by omega))) hview
  · intro htravels
    obtain ⟨n, o', hcarried, hview⟩ := carried_of_travels (J := J) htravels
    refine ⟨n + 1, o', fun m hm => ?_, hview⟩
    obtain ⟨m, rfl⟩ : ∃ k, m = k + 1 := ⟨m - 1, by omega⟩
    exact serialized_iff_carried.mpr (hcarried m (by omega))

/-- The libraries, with two days for times. -/
def twoDays : JsonUtils Bool where
  strftime t := if t then "2016-05-02T00:00:00.000000" else "2016-05-01T00:00:00.000000"
  parseStrtime s :=
    if s = "2016-05-02T00:00:00.000000" then some true
    else if s = "2016-05-01T00:00:00.000000" then some false
    else none
  parse_strftime := by decide
  takeApart _ fields _ _ := .dict fields
  takeApart_ne := by simp

/-- The day before, at which a quota had been updated last, is a text on the other side. -/
theorem original_time_lost :
    ¬ ∃ n o', (serializeEntity twoDays n (.obj quotaCls
          [("hard_limit", .prim (.int 10)), ("updated_at", .prim (.datetime true))] {"updated_at"}
          [("updated_at", .prim (.datetime false))])).bind
        (deserializeEntity twoDays (fun name => if name = "Quota" then some quotaCls else none) n) =
          some o' ∧
      o'.view = (Val.obj quotaCls
          [("hard_limit", .prim (.int 10)), ("updated_at", .prim (.datetime true))] {"updated_at"}
          [("updated_at", .prim (.datetime false))]).view := by
  intro ⟨n, o', hread, hview⟩
  cases n with
  | zero => exact absurd hread (by simp [serializeEntity])
  | succ n =>
    have htravels := travels_of_carried (serialized_iff_carried.mp hread) hview
    cases htravels with
    | obj _ _ _ _ _ hplain =>
      -- the original would have to be plain, and it is a time
      have htime := hplain "updated_at" (by decide) _ List.lookup_cons_self
      rw [Val.Plain] at htime
      exact absurd htime (by decide)

/-! ## What is sent with a call -/

/-- What `jsonutils` has made of an instance it leaves as it is. -/
def JsonUtils.Settled (J : JsonUtils τ) : Prop :=
  ∀ cls fields changes originals, (J.takeApart cls fields changes originals).flatten J =
    J.takeApart cls fields changes originals

mutual

/--
What is to arrive of an argument: the objects in it, lists for lists and tuples, and of anything
else what `jsonutils` makes of it.
-/
def Val.arrival (J : JsonUtils τ) : Val τ → Val τ
  | .prim p => (Val.prim p).flatten J
  | .list vs => .list (arrivalAll J vs)
  | .tuple vs => .list (arrivalAll J vs)
  | .dict entries => (Val.dict entries).flatten J
  | .obj cls fields changes originals => .obj cls fields changes originals

def arrivalAll (J : JsonUtils τ) : List (Val τ) → List (Val τ)
  | [] => []
  | v :: vs => v.arrival J :: arrivalAll J vs

end

mutual

/-- The objects of an argument that are sent as such: those that are in no dict. -/
def Val.objects : Val τ → List (Val τ)
  | .list vs => objectsAll vs
  | .tuple vs => objectsAll vs
  | .obj cls fields changes originals => [.obj cls fields changes originals]
  | _ => []

def objectsAll : List (Val τ) → List (Val τ)
  | [] => []
  | v :: vs => v.objects ++ objectsAll vs

end

mutual

/-- No dict of an argument is taken for an object. -/
def Val.Framed : Val τ → Prop
  | .prim _ => True
  | .list vs => AllFramed vs
  | .tuple vs => AllFramed vs
  | .dict entries => entries.lookup "designate_object.name" = none
  | .obj _ _ _ _ => True

def AllFramed : List (Val τ) → Prop
  | [] => True
  | v :: vs => v.Framed ∧ AllFramed vs

end

section

omit [DecidableEq τ]

mutual

/-- What `jsonutils` has gone over it leaves as it is. -/
theorem flatten_flatten (hJ : J.Settled) : ∀ v : Val τ, (v.flatten J).flatten J = v.flatten J
  | .prim .none => rfl
  | .prim (.bool _) => rfl
  | .prim (.int _) => rfl
  | .prim (.str _) => rfl
  | .prim (.datetime _) => rfl
  | .list vs => congrArg Val.list (flattenAll_flattenAll hJ vs)
  | .tuple vs => congrArg Val.list (flattenAll_flattenAll hJ vs)
  | .dict entries => congrArg Val.dict (flattenFields_flattenFields hJ entries)
  | .obj cls fields changes originals => hJ cls fields changes originals

theorem flattenAll_flattenAll (hJ : J.Settled) :
    ∀ vs : List (Val τ), flattenAll J (flattenAll J vs) = flattenAll J vs
  | [] => rfl
  | v :: vs => by
    rw [flattenAll, flattenAll, flatten_flatten hJ v, flattenAll_flattenAll hJ vs]

theorem flattenFields_flattenFields (hJ : J.Settled) :
    ∀ vs : List (String × Val τ), flattenFields J (flattenFields J vs) = flattenFields J vs
  | [] => rfl
  | (field, v) :: vs => by
    rw [flattenFields, flattenFields, flatten_flatten hJ v, flattenFields_flattenFields hJ vs]

end

/-- All that is sent has been gone over. -/
theorem serializeEntity_flat (hJ : J.Settled) {v w : Val τ} (h : serializeEntity J n v = some w) :
    w.flatten J = w := by
  cases n with
  | zero => exact absurd h (by simp [serializeEntity])
  | succ n =>
    -- each kind of value is gone over as a whole in the end
    have hflat : ∃ u : Val τ, w = u.flatten J := by
      cases v with
      | prim p => exact ⟨_, (Option.some.inj h).symm⟩
      | dict entries => exact ⟨_, (Option.some.inj h).symm⟩
      | list vs =>
        obtain ⟨ws, -, rfl⟩ := Option.map_eq_some_iff.mp h
        exact ⟨_, rfl⟩
      | tuple vs =>
        obtain ⟨ws, -, rfl⟩ := Option.map_eq_some_iff.mp h
        exact ⟨_, rfl⟩
      | obj cls fields changes originals =>
        obtain ⟨u, -, rfl⟩ := Option.map_eq_some_iff.mp h
        exact ⟨u, rfl⟩
    obtain ⟨u, rfl⟩ := hflat
    exact flatten_flatten hJ u

/-- The items of a list are sent as they are serialized one by one. -/
theorem serializeAll_flat (hJ : J.Settled) {vs ws : List (Val τ)}
    (h : vs.mapM (serializeEntity J n) = some ws) : flattenAll J ws = ws := by
  have hall := mapM_eq_some_iff.mp h
  clear h
  induction hall with
  | nil => rfl
  | cons hone _ ih => rw [flattenAll, serializeEntity_flat hJ hone, ih]

end

variable (J objClsFromName) in
/-- The argument `v` is read as `v'` on the other side. -/
def Sent (n : Nat) (v v' : Val τ) : Prop :=
  (serializeEntity J n v).bind (deserializeEntity J objClsFromName n) = some v'

/-- The items of a list or tuple are read one by one, into a list. -/
theorem sent_items_iff (hJ : J.Settled) {m : Nat} {vs : List (Val τ)} {v' : Val τ} :
    ((vs.mapM (serializeEntity J m)).map fun ws => (Val.list ws).flatten J).bind
        (deserializeEntity J objClsFromName (m + 1)) = some v' ↔
      ∃ vs', List.Forall₂ (Sent J objClsFromName m) vs vs' ∧ v' = .list vs' := by
  rw [Option.bind_map, Option.bind_eq_some_iff]
  -- what has been serialized `jsonutils` leaves as it is
  have hread : ∀ ws : List (Val τ), flattenAll J ws = ws →
      deserializeEntity J objClsFromName (m + 1) ((Val.list ws).flatten J) =
        (ws.mapM (deserializeEntity J objClsFromName m)).map .list := by
    intro ws hws
    rw [Val.flatten, hws]
    rfl
  have hcomp : ∀ vs' : List (Val τ), List.Forall₂ (Sent J objClsFromName m) vs vs' ↔
      ∃ ws, vs.mapM (serializeEntity J m) = some ws ∧
        ws.mapM (deserializeEntity J objClsFromName m) = some vs' := by
    intro vs'
    simp only [mapM_eq_some_iff, forall₂_comp_iff]
    refine iff_of_eq (congrArg (fun R => List.Forall₂ R vs vs') ?_)
    funext v v'
    exact propext Option.bind_eq_some_iff
  constructor
  · intro ⟨ws, hws, hv'⟩
    rw [Function.comp_apply, hread ws (serializeAll_flat hJ hws)] at hv'
    obtain ⟨vs', hvs', rfl⟩ := Option.map_eq_some_iff.mp hv'
    exact ⟨vs', (hcomp vs').mpr ⟨ws, hws, hvs'⟩, rfl⟩
  · intro ⟨vs', hall, hv'⟩
    obtain ⟨ws, hws, hvs'⟩ := (hcomp vs').mp hall
    refine ⟨ws, hws, ?_⟩
    rw [Function.comp_apply, hread ws (serializeAll_flat hJ hws), hvs', hv']
    rfl

variable (J objClsFromName) in
/-- From some depth on, an argument is read as what is to arrive. -/
def Arrives (v : Val τ) : Prop :=
  ∃ n v', (∀ m, n ≤ m → Sent J objClsFromName m v v') ∧ v'.view = (v.arrival J).view

variable (J objClsFromName) in
def ArriveAll (vs : List (Val τ)) : Prop :=
  ∃ n vs', (∀ m, n ≤ m → List.Forall₂ (Sent J objClsFromName m) vs vs') ∧
    viewAll vs' = viewAll (arrivalAll J vs)

theorem arriveAll_cons_iff {v : Val τ} {vs : List (Val τ)} :
    ArriveAll J objClsFromName (v :: vs) ↔
      Arrives J objClsFromName v ∧ ArriveAll J objClsFromName vs := by
  constructor
  · intro ⟨n, vs', hsent, hview⟩
    cases hsent n (Nat.le_refl n) with
    | cons _ _ =>
      rw [viewAll, arrivalAll, viewAll, List.cons.injEq] at hview
      exact ⟨⟨n, _, fun m hm => (List.forall₂_cons.mp (hsent m hm)).1, hview.1⟩,
        n, _, fun m hm => (List.forall₂_cons.mp (hsent m hm)).2, hview.2⟩
  · intro ⟨⟨n, v', hsent, hview⟩, n', vs', hrest, hviews⟩
    refine ⟨max n n', v' :: vs', fun m hm => ?_, ?_⟩
    · exact .cons (hsent m (by omega)) (hrest m (by omega))
    · rw [viewAll, arrivalAll, viewAll, hview, hviews]

/-- A value whose items are sent one by one, and read into a list. -/
theorem arrives_items_iff (hJ : J.Settled) {v : Val τ} {vs : List (Val τ)}
    (hv : v.arrival J = .list (arrivalAll J vs))
    (hser : ∀ m, serializeEntity J (m + 1) v =
      (vs.mapM (serializeEntity J m)).map fun ws => (Val.list ws).flatten J) :
    Arrives J objClsFromName v ↔ ArriveAll J objClsFromName vs := by
  -- a list is sent from a depth on if all its items are, one level down
  have hsent : ∀ m v', Sent J objClsFromName (m + 1) v v' ↔
      ∃ vs', List.Forall₂ (Sent J objClsFromName m) vs vs' ∧ v' = .list vs' := by
    intro m v'
    unfold Sent
    rw [hser m]
    exact sent_items_iff hJ
  constructor
  · intro ⟨n, v', hread, hview⟩
    obtain ⟨vs', -, rfl⟩ := (hsent n v').mp (hread (n + 1) (Nat.le_succ n))
    refine ⟨n, vs', fun m hm => ?_, ?_⟩
    · obtain ⟨vs'', hall, heq⟩ := (hsent m _).mp (hread (m + 1) (Nat.le_succ_of_le hm))
      obtain rfl := Val.list.inj heq
      exact hall
    · rw [hv, Val.view, Val.view] at hview
      exact Val.list.inj hview
  · intro ⟨n, vs', hall, hviews⟩
    refine ⟨n + 1, .list vs', fun m hm => ?_, ?_⟩
    · obtain ⟨m, rfl⟩ : ∃ k, m = k + 1 := ⟨m - 1, by omega⟩
      exact (hsent m _).mpr ⟨vs', hall m (by omega), rfl⟩
    · rw [hv, Val.view, Val.view, hviews]

theorem arrives_obj_iff {cls : Cls} {fields originals : List (String × Val τ)}
    {changes : Finset String} :
    Arrives J objClsFromName (.obj cls fields changes originals) ↔
      (Val.obj cls fields changes originals).Travels objClsFromName := by
  constructor
  · intro ⟨n, o', hread, hview⟩
    exact travels_of_carried (serialized_iff_carried.mp (hread (n + 1) (Nat.le_succ n))) hview
  · intro htravels
    obtain ⟨n, o', hcarried, hview⟩ := carried_of_travels (J := J) htravels
    refine ⟨n + 1, o', fun m hm => ?_, hview⟩
    obtain ⟨m, rfl⟩ : ∃ k, m = k + 1 := ⟨m - 1, by omega⟩
    exact serialized_iff_carried.mpr (hcarried m (by omega))

/-- What is no list, tuple or object is read as it was written, if it is not taken for an object. -/
theorem arrives_leaf {v : Val τ} (hv : v.arrival J = v.flatten J)
    (hser : ∀ m, serializeEntity J (m + 1) v = some (v.flatten J))
    (hread : ∀ m, deserializeEntity J objClsFromName (m + 1) (v.flatten J) = some (v.flatten J)) :
    Arrives J objClsFromName v := by
  refine ⟨1, v.flatten J, fun m hm => ?_, by rw [hv]⟩
  obtain ⟨m, rfl⟩ : ∃ k, m = k + 1 := ⟨m - 1, by omega⟩
  unfold Sent
  rw [hser m]
  exact hread m

mutual

theorem arrives_iff (hJ : J.Settled) : ∀ v : Val τ, v.Framed →
    (Arrives J objClsFromName v ↔ ∀ o ∈ v.objects, o.Travels objClsFromName)
  -- what is no object and has none in it arrives as it is sent
  | .prim p, _ => by
    refine iff_of_true (arrives_leaf rfl (fun _ => rfl) fun _ => ?_) fun o ho => ?_
    · cases p <;> rfl
    · exact absurd ho (by simp [Val.objects])
  | .dict entries, hframed => by
    refine iff_of_true (arrives_leaf rfl (fun _ => rfl) fun m => ?_) fun o ho => ?_
    · have hget : ((Val.dict entries).flatten J).get "designate_object.name" = none := by
        rw [get_flatten J rfl]
        exact congrArg (Option.map (Val.flatten J)) hframed
      unfold deserializeEntity
      rw [if_neg (by rw [hget]; exact Bool.false_ne_true)]
      rfl
    · exact absurd ho (by simp [Val.objects])
  | .list vs, hframed =>
    (arrives_items_iff hJ rfl fun _ => rfl).trans (arriveAll_iff hJ vs hframed)
  | .tuple vs, hframed =>
    (arrives_items_iff hJ rfl fun _ => rfl).trans (arriveAll_iff hJ vs hframed)
  | .obj cls fields changes originals, _ => by
    rw [arrives_obj_iff]
    simp [Val.objects]

theorem arriveAll_iff (hJ : J.Settled) : ∀ vs : List (Val τ), AllFramed vs →
    (ArriveAll J objClsFromName vs ↔ ∀ o ∈ objectsAll vs, o.Travels objClsFromName)
  | [], _ => iff_of_true ⟨0, [], fun _ _ => .nil, rfl⟩ fun o ho => absurd ho List.not_mem_nil
  | v :: vs, hframed => by
    rw [arriveAll_cons_iff, arrives_iff hJ v hframed.1, arriveAll_iff hJ vs hframed.2, objectsAll]
    simp only [List.mem_append, or_imp, forall_and]

end

/--
**An argument of a call arrives with its objects, in lists for its lists and tuples, exactly if
every object in it comes through.** By induction on the argument.
-/
theorem argument_round_trip_iff (J : JsonUtils τ) (hJ : J.Settled)
    (objClsFromName : String → Option Cls) (v : Val τ) (hframed : v.Framed) :
    (∃ n v', (∀ m, n ≤ m → (serializeEntity J m v).bind
        (deserializeEntity J objClsFromName m) = some v') ∧ v'.view = (v.arrival J).view) ↔
    ∀ o ∈ v.objects, o.Travels objClsFromName :=
  arrives_iff hJ v hframed

/-- The libraries, for arguments of which no instance is to be taken apart. -/
def settledDays : JsonUtils Bool :=
  { twoDays with
    takeApart := fun _ _ _ _ => .dict []
    takeApart_ne := by simp }

/-- A quota, and a list with a day and a limit, in a tuple. -/
def someArguments : Val Bool :=
  .tuple [.obj quotaCls [("hard_limit", .prim (.int 10)), ("updated_at", .prim (.datetime true))]
      {"updated_at"} [],
    .list [.prim (.datetime false), .dict [("zones", .prim (.int 5))]]]

theorem argument_round_trip_iff_sample :
    ∃ n v', (∀ m, n ≤ m → (serializeEntity settledDays m someArguments).bind
        (deserializeEntity settledDays (fun name => if name = "Quota" then some quotaCls else none)
          m) = some v') ∧ v'.view = (someArguments.arrival settledDays).view := by
  refine (argument_round_trip_iff settledDays (fun _ _ _ _ => rfl) _ someArguments
    ⟨trivial, ⟨trivial, rfl, trivial⟩, trivial⟩).mpr ?_
  intro o ho
  obtain rfl := List.mem_singleton.mp ho
  -- the object has these two fields and no other
  have hfields : ∀ field (v : Val Bool), List.lookup field
      [("hard_limit", .prim (.int 10)), ("updated_at", .prim (.datetime true))] = some v →
      field = "hard_limit" ∧ v = .prim (.int 10) ∨
        field = "updated_at" ∧ v = .prim (.datetime true) := by
    intro field v hv
    rw [List.lookup_cons, List.lookup_cons] at hv
    split at hv
    · next h => exact .inl ⟨eq_of_beq h, (Option.some.inj hv).symm⟩
    · split at hv
      · next h => exact .inr ⟨eq_of_beq h, (Option.some.inj hv).symm⟩
      · cases hv
  refine .obj rfl (fun h => absurd h (by decide)) (fun _ h => absurd h (by decide)) ?_ ?_ ?_
  · intro field _ v hv _ hobj
    rcases hfields field v hv with ⟨-, rfl⟩ | ⟨-, rfl⟩
    · cases hobj
    · cases hobj
  · intro field _ v hv _ _
    rcases hfields field v hv with ⟨rfl, rfl⟩ | ⟨rfl, rfl⟩
    · exact ⟨rfl, by rw [if_neg (by decide)]; rfl⟩
    · exact ⟨rfl, by rw [if_pos (by decide)]; exact .inr ⟨true, rfl⟩⟩
  · intro field _ v hv
    exact absurd hv (by simp)

end Objects

end Designate
