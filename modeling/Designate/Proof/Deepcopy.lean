import Designate.Objects.Base

/-!
# What a copy shows

What there is to see of an object is which fields are set and to what, which have been changed,
and what `obj_get_original_value` answers for each. A copy shows the same fields and the same
changes at every depth. It notes no original values, but for the empty list a list object
begins with: so it answers like the object exactly where the object has nothing else to answer.
-/

namespace Designate

namespace Objects

variable {α β τ : Type}

/-! ## Dicts -/

theorem lookup_map (g : α → β) (values : List (String × α)) (field : String) :
    (values.map fun p => (p.1, g p.2)).lookup field = (values.lookup field).map g := by
  induction values with
  | nil => rfl
  | cons p values ih =>
    obtain ⟨name, value⟩ := p
    rw [List.map_cons, List.lookup_cons, List.lookup_cons]
    cases hname : field == name with
    | true => rfl
    | false => exact ih

/-- An entry that is looked up is one of the dict. -/
theorem mem_of_lookup {values : List (String × α)} {field : String} {value : α}
    (h : values.lookup field = some value) : (field, value) ∈ values := by
  obtain ⟨before, after, rfl, -⟩ := List.lookup_eq_some_iff.mp h
  simp

/-- A name that is left out has no value, every other one has the value it had. -/
theorem lookup_filter (keep : String → Bool) (values : List (String × α)) (field : String) :
    (values.filter fun p => keep p.1).lookup field =
      if keep field then values.lookup field else none := by
  induction values with
  | nil => simp
  | cons p values ih =>
    obtain ⟨other, v⟩ := p
    rw [List.filter_cons]
    by_cases hother : field = other
    · subst hother
      cases hkeep : keep field with
      | true => simp
      | false => simp [ih, hkeep]
    · have hne : (field == other) = false := beq_eq_false_iff_ne.mpr hother
      split
      · rw [List.lookup_cons, List.lookup_cons, hne, ih]
      · rw [List.lookup_cons, hne, ih]

/-- What is under other names does not matter. -/
theorem lookup_filter_ne {name field : String} (hne : field ≠ name)
    (values : List (String × α)) :
    (values.filter fun p => p.1 ≠ name).lookup field = values.lookup field := by
  have hkeep : decide (field ≠ name) = true := decide_eq_true hne
  exact (lookup_filter (fun f => decide (f ≠ name)) values field).trans (if_pos hkeep)

/-- The fields of a class are under their names in the dict, in the order of the class. -/
theorem lookup_ordered (cls : Cls) (values : List (String × α)) (field : String) :
    (ordered cls values).lookup field =
      if field ∈ cls.fields then values.lookup field else none := by
  unfold ordered
  induction cls.fields with
  | nil => rfl
  | cons name names ih =>
    rw [List.filterMap_cons]
    by_cases hname : field = name
    · subst hname
      cases hvalue : values.lookup field with
      | none =>
        simp only [Option.map_none, ih, hvalue]
        simp
      | some value => simp
    · cases hvalue : values.lookup name with
      | none =>
        simp only [Option.map_none, ih]
        simp [hname]
      | some value =>
        simp only [Option.map_some]
        rw [List.lookup_cons, beq_eq_false_iff_ne.mpr hname]
        simp [ih, hname]

/-- Two dicts have the same fields of a class exactly when each is the same in both. -/
theorem ordered_eq_iff (cls : Cls) (values more : List (String × α)) :
    ordered cls values = ordered cls more ↔
      ∀ field ∈ cls.fields, values.lookup field = more.lookup field := by
  constructor
  · intro h field hfield
    have hlookup := congrArg (fun l => l.lookup field) h
    simpa [lookup_ordered, hfield] using hlookup
  · intro h
    unfold ordered
    refine List.filterMap_congr fun field hfield => ?_
    rw [h field hfield]

theorem ordered_map (cls : Cls) (g : α → β) (values : List (String × α)) :
    ordered cls (values.map fun p => (p.1, g p.2)) =
      (ordered cls values).map fun p => (p.1, g p.2) := by
  unfold ordered
  rw [List.map_filterMap]
  refine List.filterMap_congr fun field _ => ?_
  rw [lookup_map]
  cases values.lookup field <;> rfl

theorem ordered_nodup (cls : Cls) (values : List (String × α)) :
    ((ordered cls values).map Prod.fst).Nodup := by
  have hsub : ((ordered cls values).map Prod.fst).Sublist cls.fields := by
    unfold ordered
    induction cls.fields with
    | nil => exact .slnil
    | cons field fields ih =>
      rw [List.filterMap_cons]
      cases values.lookup field with
      | none => exact ih.cons _
      | some value => exact ih.cons_cons _
  exact cls.nodup.sublist hsub

/-! ## A fresh instance -/

namespace Attrs

variable (same : α → α → Bool) {nil : α} {a : Attrs α} {name : String} (value : α)

theorem setter_fresh (h : a.fields.lookup name = none) :
    (a.setter same name value).fields = a.fields ++ [(name, value)] ∧
      (a.setter same name value).originals = a.originals := by
  unfold setter
  rw [h]
  simp [assign, h]

/-- Fields that are not set yet are put after the others, and have no original value. -/
theorem foldl_setter_fresh (values : List (String × α)) (hnodup : (values.map Prod.fst).Nodup)
    (hfresh : ∀ p ∈ values, a.fields.lookup p.1 = none) :
    (values.foldl (fun a p => a.setter same p.1 p.2) a).fields = a.fields ++ values ∧
      (values.foldl (fun a p => a.setter same p.1 p.2) a).originals = a.originals := by
  induction values generalizing a with
  | nil => simp
  | cons p values ih =>
    obtain ⟨hfields, horiginals⟩ :=
      setter_fresh same p.2 (hfresh p List.mem_cons_self)
    rw [List.map_cons, List.nodup_cons] at hnodup
    have hrest : ∀ q ∈ values, (a.setter same p.1 p.2).fields.lookup q.1 = none := by
      intro q hq
      rw [hfields, List.lookup_append, hfresh q (List.mem_cons_of_mem _ hq)]
      have hne : q.1 ≠ p.1 := fun h => hnodup.1 (h ▸ List.mem_map_of_mem hq)
      simp [hne]
    obtain ⟨hfields', horiginals'⟩ := ih hnodup.2 hrest
    rw [List.foldl_cons]
    refine ⟨?_, horiginals'.trans horiginals⟩
    rw [hfields', hfields, List.append_assoc]
    rfl

/-- The list a list object begins with is replaced, and is an original value if that changes it. -/
theorem setter_objects {more : List (String × α)} (hmore : ∀ p ∈ more, p.1 ≠ "objects")
    (hfields : a.fields = ("objects", nil) :: more) (horiginals : a.originals = []) :
    (a.setter same "objects" value).fields = ("objects", value) :: more ∧
      (a.setter same "objects" value).originals =
        if same value nil then [] else [("objects", nil)] := by
  have hassign : assign a.fields "objects" value = ("objects", value) :: more := by
    have hkeep : (more.map fun p => if p.1 = "objects" then ("objects", value) else p) = more := by
      refine (List.map_congr_left fun p hp => ?_).trans (List.map_id more)
      exact if_neg (hmore p hp)
    rw [hfields]
    simp only [assign, List.lookup_cons_self, Option.isSome_some, if_true, List.map_cons, hkeep]
  unfold setter
  rw [hfields, List.lookup_cons_self]
  simp only
  by_cases hsame : same value nil = true
  · rw [if_pos hsame, if_pos hsame, ← hfields]
    exact ⟨hassign, horiginals⟩
  · rw [if_neg hsame, if_neg hsame, ← hfields]
    exact ⟨hassign, by simp [horiginals]⟩

/-- What an instance of a class begins with. -/
theorem init_eq (nil : α) (cls : Cls) :
    (init same nil cls).fields = (if cls.list then [("objects", nil)] else []) ∧
      (init same nil cls).originals = [] := by
  unfold init
  by_cases hlist : cls.list = true <;> simp [hlist, setter, assign, resetChanges]

/-- The fields of an instance that is built are those it is given, after the items of a list. -/
theorem build_eq (nil : α) (cls : Cls) {values : List (String × α)}
    (hnodup : (values.map Prod.fst).Nodup) :
    (build same nil cls values).fields =
        (if cls.list then ("objects", (values.lookup "objects").getD nil) ::
          values.filter (fun p => p.1 ≠ "objects") else values) ∧
      (build same nil cls values).originals =
        if cls.list ∧ (values.lookup "objects").any (fun value => !same value nil) then
          [("objects", nil)] else [] := by
  obtain ⟨hinit, horiginals⟩ := init_eq same nil cls
  unfold build
  by_cases hlist : cls.list = true
  · rw [if_pos hlist] at hinit ⊢
    -- what is set before and after the items is fresh
    have hfresh : ∀ {p : String × α}, p.1 ≠ "objects" → ∀ value : α, ∀ more : List (String × α),
        more.lookup p.1 = none → (("objects", value) :: more).lookup p.1 = none := by
      intro p hne value more hmore
      rw [List.lookup_cons, beq_eq_false_iff_ne.mpr hne]
      exact hmore
    cases hobjects : values.lookup "objects" with
    | none =>
      have hne : ∀ p ∈ values, p.1 ≠ "objects" := by
        intro p hp
        have hne := List.lookup_eq_none_iff.mp hobjects p hp
        exact Ne.symm (by simpa using hne)
      obtain ⟨hfields', horiginals'⟩ := foldl_setter_fresh same (a := init same nil cls)
        values hnodup fun p hp => by rw [hinit]; exact hfresh (hne p hp) nil [] rfl
      rw [hfields', horiginals', hinit, horiginals,
        List.filter_eq_self.mpr fun p hp => by simpa using hne p hp]
      simp
    | some value =>
      obtain ⟨before, after, rfl, hbefore⟩ := List.lookup_eq_some_iff.mp hobjects
      have hbefore : ∀ p ∈ before, p.1 ≠ "objects" :=
        fun p hp => Ne.symm (by simpa using hbefore p hp)
      rw [List.map_append, List.map_cons, List.nodup_append, List.nodup_cons] at hnodup
      obtain ⟨hnodup₁, ⟨hnot, hnodup₂⟩, hdisjoint⟩ := hnodup
      have hafter : ∀ p ∈ after, p.1 ≠ "objects" :=
        fun p hp h => hnot (List.mem_map.mpr ⟨p, hp, h⟩)
      rw [List.foldl_append, List.foldl_cons]
      obtain ⟨hfields₁, horiginals₁⟩ := foldl_setter_fresh same
        (a := init same nil cls) before hnodup₁
        fun p hp => by rw [hinit]; exact hfresh (hbefore p hp) nil [] rfl
      obtain ⟨hfields₂, horiginals₂⟩ := setter_objects same value hbefore
        (hfields₁.trans (by rw [hinit]; rfl)) (horiginals₁.trans horiginals)
      obtain ⟨hfields₃, horiginals₃⟩ := foldl_setter_fresh same
        (a := setter same (before.foldl (fun a p => a.setter same p.1 p.2) (init same nil cls))
          "objects" value) after hnodup₂ fun p hp => by
          rw [hfields₂]
          refine hfresh (hafter p hp) value before ?_
          rw [List.lookup_eq_none_iff]
          intro q hq
          have hne := hdisjoint q.1 (List.mem_map_of_mem hq) p.1
            (List.mem_cons_of_mem _ (List.mem_map_of_mem hp))
          simpa using Ne.symm hne
      rw [hfields₃, horiginals₃, hfields₂, horiginals₂, List.filter_append,
        List.filter_eq_self.mpr fun p hp => by simpa using hbefore p hp,
        List.filter_cons_of_neg (by simp),
        List.filter_eq_self.mpr fun p hp => by simpa using hafter p hp]
      cases hsame : same value nil <;> simp [hlist, hsame]
  · rw [if_neg hlist] at hinit ⊢
    obtain ⟨hfields', horiginals'⟩ := foldl_setter_fresh same (a := init same nil cls)
      values hnodup fun p _ => by rw [hinit]; rfl
    rw [hfields', horiginals', hinit, horiginals]
    simp [hlist]

/-- A field of an instance that is built is what it is set to, and a list object has its items. -/
theorem build_lookup (nil : α) (cls : Cls) {values : List (String × α)}
    (hnodup : (values.map Prod.fst).Nodup) (field : String) :
    (build same nil cls values).fields.lookup field =
      (values.lookup field).or
        (if cls.list = true ∧ field = "objects" then some nil else none) := by
  rw [(build_eq same nil cls hnodup).1]
  by_cases hlist : cls.list = true
  · rw [if_pos hlist]
    by_cases hobjects : field = "objects"
    · subst hobjects
      rw [List.lookup_cons_self]
      cases values.lookup "objects" <;> simp [hlist]
    · rw [List.lookup_cons, beq_eq_false_iff_ne.mpr hobjects]
      simp only [hlist, hobjects, and_false, if_false, Option.or_none]
      exact lookup_filter_ne hobjects values
  · rw [if_neg hlist]
    simp [hlist]

end Attrs

/-! ## What is to be seen -/

mutual

/-- A value with, for each object, the fields that are set and what each of them was. -/
def Val.view : Val τ → Val τ
  | .prim p => .prim p
  | .list vs => .list (viewAll vs)
  | .tuple vs => .tuple (viewAll vs)
  | .dict entries => .dict (viewFields entries)
  | .obj cls fields changes originals =>
    .obj cls (ordered cls (viewFields fields)) changes
      (ordered cls (viewFields originals ++ viewFields fields))

def viewAll : List (Val τ) → List (Val τ)
  | [] => []
  | v :: vs => v.view :: viewAll vs

def viewFields : List (String × Val τ) → List (String × Val τ)
  | [] => []
  | (field, v) :: vs => (field, v.view) :: viewFields vs

end

theorem viewFields_eq (fields : List (String × Val τ)) :
    viewFields fields = fields.map fun p => (p.1, p.2.view) := by
  induction fields with
  | nil => rfl
  | cons p fields ih =>
    obtain ⟨field, v⟩ := p
    rw [viewFields, ih, List.map_cons]

/-- Two objects show the same exactly when they answer the same for every field. -/
theorem view_obj_eq_iff {cls cls' : Cls} {fields fields' originals originals' : List (String × Val τ)}
    {changes changes' : Finset String} :
    (Val.obj cls fields changes originals).view = (Val.obj cls' fields' changes' originals').view ↔
      cls = cls' ∧ changes = changes' ∧
        (∀ field ∈ cls.fields, (fields.lookup field).map Val.view =
          (fields'.lookup field).map Val.view) ∧
        ∀ field ∈ cls.fields, (getOriginalValue fields originals field).map Val.view =
          (getOriginalValue fields' originals' field).map Val.view := by
  -- what is stored as original hides the field, as in `getOriginalValue`
  have hanswer : ∀ (fields originals : List (String × Val τ)) field,
      (viewFields originals ++ viewFields fields).lookup field =
        (getOriginalValue fields originals field).map Val.view := by
    intro fields originals field
    rw [List.lookup_append, viewFields_eq, viewFields_eq, lookup_map, lookup_map, getOriginalValue]
    cases originals.lookup field <;> rfl
  have hfield : ∀ (fields : List (String × Val τ)) field,
      (viewFields fields).lookup field = (fields.lookup field).map Val.view := by
    intro fields field
    rw [viewFields_eq, lookup_map]
  rw [Val.view, Val.view, Val.obj.injEq]
  constructor
  · intro ⟨hcls, hfields, hchanges, horiginals⟩
    subst hcls
    rw [ordered_eq_iff] at hfields horiginals
    exact ⟨rfl, hchanges, by simpa only [hfield] using hfields,
      by simpa only [hanswer] using horiginals⟩
  · intro ⟨hcls, hchanges, hfields, horiginals⟩
    subst hcls
    refine ⟨rfl, ?_, hchanges, ?_⟩
    · rw [ordered_eq_iff]
      simpa only [hfield] using hfields
    · rw [ordered_eq_iff]
      simpa only [hanswer] using horiginals

/-! ## Where a copy shows the same -/

/--
The answers of an object that its copy gives as well: each field was what it is, except that the
items of a list object were none.
-/
def OwnOriginals (cls : Cls) (fields originals : List (String × Val τ)) : Prop :=
  (cls.list = true → (fields.lookup "objects").isSome) ∧
    ∀ field ∈ cls.fields, (getOriginalValue fields originals field).map Val.view =
      if cls.list = true ∧ field = "objects" then some (.list [])
      else (fields.lookup field).map Val.view

mutual

/-- So it is for every object in a value. -/
def Val.OriginalsKept : Val τ → Prop
  | .prim _ => True
  | .list vs => AllKept vs
  | .tuple vs => AllKept vs
  | .dict entries => ∀ p ∈ fieldsKept entries, p.2
  | .obj cls fields _ originals =>
    (∀ field ∈ cls.fields, ∀ kept, (fieldsKept fields).lookup field = some kept → kept) ∧
      OwnOriginals cls fields originals

def AllKept : List (Val τ) → Prop
  | [] => True
  | v :: vs => v.OriginalsKept ∧ AllKept vs

def fieldsKept : List (String × Val τ) → List (String × Prop)
  | [] => []
  | (field, v) :: vs => (field, v.OriginalsKept) :: fieldsKept vs

end

theorem fieldsKept_eq (fields : List (String × Val τ)) :
    fieldsKept fields = fields.map fun p => (p.1, p.2.OriginalsKept) := by
  induction fields with
  | nil => rfl
  | cons p fields ih =>
    obtain ⟨field, v⟩ := p
    rw [fieldsKept, ih, List.map_cons]

variable [DecidableEq τ]

theorem deepcopyAll_eq (vs : List (Val τ)) : deepcopyAll vs = vs.map Val.deepcopy := by
  induction vs with
  | nil => rfl
  | cons v vs ih => rw [deepcopyAll, ih, List.map_cons]

theorem deepcopyFields_eq (fields : List (String × Val τ)) :
    deepcopyFields fields = fields.map fun p => (p.1, p.2.deepcopy) := by
  induction fields with
  | nil => rfl
  | cons p fields ih =>
    obtain ⟨field, v⟩ := p
    rw [deepcopyFields, ih, List.map_cons]

theorem same_nil {v : Val τ} : v.same (.list []) = true ↔ v = .list [] := by
  constructor
  · intro h
    cases v with
    | list vs =>
      cases vs with
      | nil => rfl
      | cons => exact absurd h Bool.false_ne_true
    | _ => exact absurd h Bool.false_ne_true
  · intro h
    subst h
    rfl

/-- The fields of a copy are the copies of the fields, and a list object has its items. -/
theorem copy_lookup (cls : Cls) (fields : List (String × Val τ)) {field : String}
    (hfield : field ∈ cls.fields) :
    (Attrs.build Val.same (.list []) cls (ordered cls (deepcopyFields fields))).fields.lookup field =
      ((fields.lookup field).map Val.deepcopy).or
        (if cls.list = true ∧ field = "objects" then some (.list []) else none) := by
  rw [Attrs.build_lookup _ _ _ (ordered_nodup _ _), lookup_ordered, if_pos hfield,
    deepcopyFields_eq, lookup_map]

/-- A copy answers with what a field is, and that a list object had no items. -/
theorem copy_original (cls : Cls) (fields : List (String × Val τ)) {field : String}
    (hfield : field ∈ cls.fields) :
    (getOriginalValue
        (Attrs.build Val.same (.list []) cls (ordered cls (deepcopyFields fields))).fields
        (Attrs.build Val.same (.list []) cls (ordered cls (deepcopyFields fields))).originals
        field).map Val.view =
      if cls.list = true ∧ field = "objects" then some (.list [])
      else (fields.lookup field).map fun v => v.deepcopy.view := by
  unfold getOriginalValue
  rw [copy_lookup cls fields hfield, (Attrs.build_eq _ _ _ (ordered_nodup _ _)).2, lookup_ordered,
    deepcopyFields_eq, lookup_map]
  -- only the items of a list object get an original: the empty list they are built with, unless
  -- they are empty
  by_cases hitems : cls.list = true ∧ field = "objects"
  · obtain ⟨hlist, rfl⟩ := hitems
    rw [if_pos hfield]
    cases hobjects : fields.lookup "objects" with
    | none => simp [hlist, Val.view, viewAll]
    | some v =>
      by_cases hnil : v.deepcopy = .list []
      · simp [hlist, hnil, same_nil.mpr rfl, Val.view, viewAll]
      · have hsame : Val.same v.deepcopy (.list []) = false :=
          Bool.eq_false_iff.mpr fun h => hnil (same_nil.mp h)
        simp [hlist, hsame, Val.view, viewAll]
  · rw [if_neg hitems, if_neg hitems, Option.or_none]
    -- every other field is set once, which records no original
    have hother : ∀ recorded : Bool, ((if cls.list = true ∧ recorded = true then
        [("objects", Val.list ([] : List (Val τ)))] else []).lookup field) = none := by
      intro recorded
      by_cases hlist : cls.list = true
      · have hne : field ≠ "objects" := fun h => hitems ⟨hlist, h⟩
        cases recorded <;> simp [hlist, hne]
      · simp [hlist]
    rw [hother, Option.none_or, Option.map_map]
    rfl

mutual

/-- A copy shows the same exactly when the original values of all objects in it are kept. -/
theorem view_deepcopy_iff : ∀ v : Val τ, v.deepcopy.view = v.view ↔ v.OriginalsKept
  -- along the value: the containers are kept if their items are, an object has originals of its
  -- own too
  | .prim p => by simp [Val.deepcopy, Val.OriginalsKept]
  | .list vs => by
    rw [Val.deepcopy, Val.view, Val.view, Val.OriginalsKept, Val.list.injEq]
    exact view_deepcopy_all vs
  | .tuple vs => by
    rw [Val.deepcopy, Val.view, Val.view, Val.OriginalsKept, Val.tuple.injEq]
    exact view_deepcopy_all vs
  | .dict entries => by
    have ih := view_deepcopy_fields entries
    rw [Val.deepcopy, Val.view, Val.view, Val.OriginalsKept, Val.dict.injEq, deepcopyFields_eq,
      viewFields_eq, viewFields_eq, fieldsKept_eq, List.map_map, List.map_inj_left]
    simp only [List.mem_map, forall_exists_index, and_imp, forall_apply_eq_imp_iff₂,
      Function.comp_apply, Prod.mk.injEq, true_and]
    exact forall₂_congr ih
  | .obj cls fields changes originals => by
    have ih := view_deepcopy_fields fields
    rw [Val.deepcopy, view_obj_eq_iff, Val.OriginalsKept]
    simp only [true_and]
    constructor
    · intro ⟨hfields, horiginals⟩
      refine ⟨?_, ?_, ?_⟩
      · intro field hfield kept hkept
        rw [fieldsKept_eq, lookup_map, Option.map_eq_some_iff] at hkept
        obtain ⟨v, hv, rfl⟩ := hkept
        have hsame := hfields field hfield
        rw [copy_lookup cls fields hfield, hv] at hsame
        exact (ih (field, v) (mem_of_lookup hv)).mp (Option.some.inj hsame)
      · intro hlist
        have hsame := hfields "objects" (cls.objects hlist)
        rw [copy_lookup cls fields (cls.objects hlist)] at hsame
        cases hobjects : fields.lookup "objects" with
        | none => simp [hobjects, hlist] at hsame
        | some v => rfl
      · intro field hfield
        rw [← horiginals field hfield, copy_original cls fields hfield]
        by_cases hitems : cls.list = true ∧ field = "objects"
        · rw [if_pos hitems, if_pos hitems]
        · rw [if_neg hitems, if_neg hitems]
          have hsame := hfields field hfield
          rw [copy_lookup cls fields hfield, if_neg hitems, Option.or_none, Option.map_map] at hsame
          exact hsame
    · intro ⟨hkept, hobjects, hown⟩
      -- the fields are copied as they are; what is left are the originals
      have hcopied : ∀ field ∈ cls.fields, (fields.lookup field).map (fun v => v.deepcopy.view) =
          (fields.lookup field).map Val.view := by
        intro field hfield
        cases hv : fields.lookup field with
        | none => rfl
        | some v =>
          have hv' := hkept field hfield v.OriginalsKept (by rw [fieldsKept_eq, lookup_map, hv]; rfl)
          exact congrArg some ((ih (field, v) (mem_of_lookup hv)).mpr hv')
      constructor
      · intro field hfield
        rw [copy_lookup cls fields hfield]
        by_cases hitems : cls.list = true ∧ field = "objects"
        · obtain ⟨hlist, rfl⟩ := hitems
          obtain ⟨v, hv⟩ := Option.isSome_iff_exists.mp (hobjects hlist)
          have hsame := hcopied "objects" hfield
          rw [hv] at hsame ⊢
          exact hsame
        · rw [if_neg hitems, Option.or_none, Option.map_map]
          exact hcopied field hfield
      · intro field hfield
        rw [copy_original cls fields hfield, hown field hfield]
        by_cases hitems : cls.list = true ∧ field = "objects"
        · rw [if_pos hitems, if_pos hitems]
        · rw [if_neg hitems, if_neg hitems, hcopied field hfield]

theorem view_deepcopy_all : ∀ vs : List (Val τ),
    viewAll (deepcopyAll vs) = viewAll vs ↔ AllKept vs
  | [] => by simp [deepcopyAll, AllKept]
  | v :: vs => by
    rw [deepcopyAll, viewAll, viewAll, AllKept, List.cons.injEq, view_deepcopy_iff v,
      view_deepcopy_all vs]

theorem view_deepcopy_fields : ∀ fields : List (String × Val τ), ∀ p ∈ fields,
    (p.2.deepcopy.view = p.2.view ↔ p.2.OriginalsKept)
  | [], _, h => absurd h List.not_mem_nil
  | (field, v) :: fields, p, h => by
    obtain rfl | h := List.mem_cons.mp h
    · exact view_deepcopy_iff v
    · exact view_deepcopy_fields fields p h

end

end Objects

end Designate
