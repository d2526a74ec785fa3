import Designate.Objects.ZoneAdapter

/-!
# What a document may change

A field that its adapter protects holds after parsing what it held before, or a value that is
equal to it. The checks are made key by key, while the values are put into their fields, so what
carries the argument through the loop is that no other key stands for the field: the checks of
its own key still see what was there at first, and nothing replaces what they let through.
-/

namespace Designate

namespace Adapters

open Objects

/-! ## Setting a field -/

section

variable {α : Type} {values : List (String × α)} {name other : String} {v : α}

private theorem lookup_replaced (hsome : (values.lookup name).isSome) :
    (values.map fun p => if p.1 = name then (name, v) else p).lookup name = some v := by
  induction values with
  | nil => exact absurd hsome (by simp)
  | cons p rest ih =>
    by_cases hp : p.1 = name
    · simp [hp]
    · have hne : (name == p.1) = false := by simpa using Ne.symm hp
      rw [List.lookup_cons, hne] at hsome
      rw [List.map_cons, if_neg hp, List.lookup_cons, hne]
      exact ih hsome

private theorem lookup_replaced_ne (hne : other ≠ name) :
    (values.map fun p => if p.1 = name then (name, v) else p).lookup other =
      values.lookup other := by
  induction values with
  | nil => rfl
  | cons p rest ih =>
    by_cases hp : p.1 = name
    · have hother : (other == name) = false := by simpa using hne
      have hothers : (other == p.1) = false := by rw [hp]; exact hother
      rw [List.map_cons, if_pos hp, List.lookup_cons, List.lookup_cons, hother, hothers]
      exact ih
    · rw [List.map_cons, if_neg hp, List.lookup_cons, List.lookup_cons, ih]

private theorem lookup_snoc (hnone : values.lookup name = none) :
    (values ++ [(name, v)]).lookup name = some v := by
  rw [List.lookup_append, hnone, Option.none_or]
  simp

private theorem lookup_snoc_ne (hne : other ≠ name) :
    (values ++ [(name, v)]).lookup other = values.lookup other := by
  have hother : (other == name) = false := beq_eq_false_iff_ne.mpr hne
  rw [List.lookup_append, List.lookup_cons, hother, List.lookup_nil, Option.or_none]

theorem lookup_assign : (assign values name v).lookup name = some v := by
  unfold assign
  split
  · rename_i hsome
    exact lookup_replaced hsome
  · rename_i hsome
    exact lookup_snoc (Option.not_isSome_iff_eq_none.mp hsome)

theorem lookup_assign_ne (hne : other ≠ name) :
    (assign values name v).lookup other = values.lookup other := by
  unfold assign
  split
  · exact lookup_replaced_ne hne
  · exact lookup_snoc_ne hne

theorem setter_fields (same : α → α → Bool) (a : Attrs α) :
    (a.setter same name v).fields = assign a.fields name v := by
  unfold Attrs.setter
  split
  · rfl
  · split <;> rfl

end

section

variable {τ ω : Type} [DecidableEq τ] [Related ω] {model : Model}
  {nested : String → Json → Except Invalid ω} {adapter : Adapter} {field : Field}
  {o o' r : Obj τ ω} {name other : String} {value : Json}

omit [Related ω] in
theorem getattr_setPlain_ne (hne : other ≠ name) (v : Plain τ) :
    (o.setPlain name v).getattr model other = o.getattr model other := by
  show (if _ then _ else _) = (if _ then _ else _)
  simp only [Obj.setPlain, setter_fields, lookup_assign_ne hne]

omit [DecidableEq τ] in
theorem getattr_setRelation_ne (hne : other ≠ name) (p : ω) :
    (o.setRelation name p).getattr model other = o.getattr model other := by
  show (if _ then _ else _) = (if _ then _ else _)
  simp only [Obj.setRelation, setter_fields, lookup_assign_ne hne]

omit [Related ω] in
theorem getattr_setPlain (hplain : model.relations.lookup name = none)
    (hname : name ∈ model.fields) (v : Plain τ) :
    (o.setPlain name v).getattr model name = .ok (.plain v) := by
  unfold Obj.getattr
  rw [hplain, if_neg (by simp), if_pos hname]
  simp only [Obj.setPlain, setter_fields, lookup_assign]
  rfl

/-! ## What stays -/

/-- A field holds what it held, or something equal to that. -/
def Keeps (model : Model) (o o' : Obj τ ω) (name : String) : Prop :=
  o'.getattr model name = o.getattr model name ∨
    ∃ v v', o.getattr model name = .ok v ∧ o'.getattr model name = .ok v' ∧ v.same v' = true

/-- The field holds a value that is true. -/
def Obj.IsSet (model : Model) (o : Obj τ ω) (name : String) : Prop :=
  ∃ v, o.getattr model name = .ok v ∧ v.truthy = true

/-- A field that no document may change: it is immutable and has a value, or is read only. -/
def Field.Protected (model : Model) (field : Field) (o : Obj τ ω) : Prop :=
  if field.immutable then o.IsSet model field.objKey else field.readOnly = true

theorem Keeps.of_getattr (h : o'.getattr model name = o.getattr model name)
    (hkeeps : Keeps model o' r name) : Keeps model o r name := by
  unfold Keeps at hkeeps ⊢
  rw [h] at hkeeps
  exact hkeeps

theorem Keeps.getattr_eq (hkeeps : Keeps model o o' name)
    (h : r.getattr model name = o'.getattr model name) : Keeps model o r name := by
  unfold Keeps at hkeeps ⊢
  rw [h]
  exact hkeeps

omit [DecidableEq τ] in
/-- A field that holds what it held is as protected as it was. -/
theorem Field.Protected.of_getattr (hprotected : field.Protected model o)
    (h : o'.getattr model field.objKey = o.getattr model field.objKey) :
    field.Protected model o' := by
  unfold Field.Protected Obj.IsSet at hprotected ⊢
  rw [h]
  exact hprotected

theorem not_keeps {v v' : Held τ ω} (hv : o.getattr model name = .ok v)
    (hv' : o'.getattr model name = .ok v') (hself : v'.same v' = true)
    (hsame : v.same v' = false) : ¬ Keeps model o o' name := by
  rintro (heq | ⟨w, w', hw, hw', hww⟩)
  · rw [hv, hv'] at heq
    cases heq
    rw [hself] at hsame
    cases hsame
  · cases hv.symm.trans hw
    cases hv'.symm.trans hw'
    rw [hsame] at hww
    cases hww

/-! ## One key -/

/-- A protected field that does not refuse a value holds an equal one. -/
theorem equals_of_accepted (hprotected : field.Protected model o)
    (haccepted : field.refuses model o value = .ok false) :
    ∃ v, o.getattr model field.objKey = .ok v ∧ v.equals value = true := by
  unfold Field.Protected at hprotected
  unfold Field.refuses at haccepted
  cases himmutable : field.immutable with
  | true =>
    rw [himmutable, if_pos rfl] at hprotected haccepted
    -- what it has is true, so that a value that differs would be refused
    obtain ⟨v, hv, htrue⟩ := hprotected
    rw [hv] at haccepted
    refine ⟨v, hv, ?_⟩
    have hrefused := Except.ok.inj haccepted
    rw [htrue, Bool.true_and] at hrefused
    simpa using hrefused
  | false =>
    rw [himmutable, if_neg (by simp)] at hprotected haccepted
    rw [hprotected, if_pos rfl] at haccepted
    cases hv : o.getattr model field.objKey with
    | error e => rw [hv] at haccepted; cases haccepted
    | ok v =>
      rw [hv] at haccepted
      exact ⟨v, rfl, by simpa using Except.ok.inj haccepted⟩

omit [DecidableEq τ] [Related ω] in
theorem getattr_relation (hrel : (model.relations.lookup name).isSome) {v : Held τ ω}
    (hv : o.getattr model name = .ok v) : ∃ p, v = .related p := by
  unfold Obj.getattr at hv
  rw [if_pos hrel] at hv
  cases hp : o.relations.fields.lookup name with
  | none => rw [hp] at hv; cases hv
  | some p => rw [hp] at hv; exact ⟨p, (Except.ok.inj hv).symm⟩

theorem put_keeps (hprotected : field.Protected model o)
    (haccepted : field.refuses model o value = .ok false)
    (hput : field.put model nested o value = .ok o') : Keeps model o o' field.objKey := by
  obtain ⟨v, hv, hequals⟩ := equals_of_accepted hprotected haccepted
  unfold Field.put at hput
  cases hrel : model.relations.lookup field.objKey with
  | some relationCls =>
    -- what a relation holds is an object, and none is equal to a document
    obtain ⟨p, rfl⟩ := getattr_relation (by rw [hrel]; rfl) hv
    cases hequals
  | none =>
    rw [hrel] at hput
    by_cases hfield : field.objKey ∈ model.fields
    · rw [if_pos hfield] at hput
      cases hput
      exact .inr ⟨v, _, hv, getattr_setPlain hrel hfield _, hequals⟩
    · rw [if_neg hfield] at hput
      cases hput

theorem put_other (hput : field.put model nested o value = .ok o') (hne : other ≠ field.objKey) :
    o'.getattr model other = o.getattr model other := by
  unfold Field.put at hput
  -- a relation or a field is set under its own name, anything else is refused
  cases hrel : model.relations.lookup field.objKey with
  | some relationCls =>
    rw [hrel] at hput
    cases hparse : nested relationCls value with
    | error what => simp only [hparse] at hput; cases hput
    | ok p =>
      simp only [hparse] at hput
      cases hput
      exact getattr_setRelation_ne hne p
  | none =>
    rw [hrel] at hput
    by_cases hfield : field.objKey ∈ model.fields
    · rw [if_pos hfield] at hput
      cases hput
      exact getattr_setPlain_ne hne _
    · rw [if_neg hfield] at hput
      cases hput

/-! ## The loop -/

theorem field_key {key : String} (h : adapter.field key = some field) :
    field ∈ adapter.fields ∧ field.key = key :=
  ⟨List.mem_of_find?_eq_some h, by simpa using List.find?_some h⟩

theorem field_eq {field' : Field} (hmem : field ∈ adapter.fields)
    (hmem' : field' ∈ adapter.fields) (hkey : field'.key = field.key) : field' = field :=
  List.inj_on_of_nodup_map adapter.distinct hmem' hmem hkey

theorem objKey_ne {field' : Field} (hmem : field ∈ adapter.fields)
    (hmem' : field' ∈ adapter.fields) (hkey : field'.key ≠ field.key) :
    field.objKey ≠ field'.objKey := by
  intro heq
  have hfields := List.inj_on_of_nodup_map adapter.apart hmem hmem' heq
  exact hkey (by rw [hfields])

/-- What a turn of the loop does. -/
theorem parseFields_cons {key : String} {rest : List (String × Json)}
    {errors errors' : List String}
    (h : adapter.parseFields model nested ((key, value) :: rest) o errors = .ok (r, errors')) :
    (adapter.field key = none ∧
      adapter.parseFields model nested rest o (errors ++ [key]) = .ok (r, errors')) ∨
    r = o ∨
    ∃ field' o', adapter.field key = some field' ∧ field'.refuses model o value = .ok false ∧
      field'.put model nested o value = .ok o' ∧
      adapter.parseFields model nested rest o' errors = .ok (r, errors') := by
  unfold Adapter.parseFields at h
  -- an unknown key is noted; a refused value ends the loop; another one is put
  cases hfield : adapter.field key with
  | none => rw [hfield] at h; exact .inl ⟨rfl, h⟩
  | some field' =>
    rw [hfield] at h
    cases hrefuses : field'.refuses model o value with
    | error e => simp only [hrefuses] at h; cases h
    | ok refused =>
      cases refused with
      | true =>
        simp only [hrefuses] at h
        cases h
        exact .inr (.inl rfl)
      | false =>
        cases hput : field'.put model nested o value with
        | error e =>
          simp only [hrefuses, hput] at h
          cases h
        | ok o' =>
          simp only [hrefuses, hput] at h
          exact .inr (.inr ⟨field', o', rfl, hrefuses, hput, h⟩)

/-- A field whose key the document has not holds what it held. -/
theorem parseFields_fresh (hmem : field ∈ adapter.fields) :
    ∀ {entries : List (String × Json)} {o : Obj τ ω} {errors errors' : List String},
      adapter.parseFields model nested entries o errors = .ok (r, errors') →
      field.key ∉ entries.map Prod.fst →
      r.getattr model field.objKey = o.getattr model field.objKey := by
  intro entries
  induction entries with
  | nil =>
    intro o errors errors' h _
    cases h
    rfl
  | cons p rest ih =>
    intro o errors errors' h hfresh
    rw [List.map_cons, List.mem_cons, not_or] at hfresh
    -- a key that is not taken up, one that is an error, or one of another field
    rcases parseFields_cons h with ⟨_, hrest⟩ | rfl | ⟨field', o', hfield, _, hput, hrest⟩
    · exact ih hrest hfresh.2
    · rfl
    · have hkey := field_key hfield
      have hne : field'.key ≠ field.key := by rw [hkey.2]; exact Ne.symm hfresh.1
      rw [ih hrest hfresh.2]
      exact put_other hput (objKey_ne hmem hkey.1 hne)

/-- The loop keeps what is protected when it begins. -/
theorem parseFields_keeps (hmem : field ∈ adapter.fields) :
    ∀ {entries : List (String × Json)} {o : Obj τ ω} {errors errors' : List String},
      adapter.parseFields model nested entries o errors = .ok (r, errors') →
      (entries.map Prod.fst).Nodup → field.Protected model o →
      Keeps model o r field.objKey := by
  intro entries
  induction entries with
  | nil =>
    intro o errors errors' h _ _
    cases h
    exact .inl rfl
  | cons p rest ih =>
    intro o errors errors' h hnodup hprotected
    rw [List.map_cons, List.nodup_cons] at hnodup
    rcases parseFields_cons h with
      ⟨_, hrest⟩ | rfl | ⟨field', o', hfield, haccepted, hput, hrest⟩
    · exact ih hrest hnodup.2 hprotected
    · exact .inl rfl
    · have hkey := field_key hfield
      by_cases hsame : field'.key = field.key
      · -- its own key: an equal value is put there, and the rest of the document has no other
        have hfields := field_eq hmem hkey.1 hsame
        subst hfields
        have hfresh : field'.key ∉ rest.map Prod.fst := by rw [hkey.2]; exact hnodup.1
        exact (put_keeps hprotected haccepted hput).getattr_eq
          (parseFields_fresh hmem hrest hfresh)
      · -- another key: the field is as it was, and as protected
        have hother := put_other hput (objKey_ne hmem hkey.1 hsame)
        exact (ih hrest hnodup.2 (hprotected.of_getattr hother)).of_getattr hother

/-- What was parsed is a dict, and its loop found nothing that is not valid. -/
theorem parseObject_dict {values : Json} (h : adapter.parseObject model nested values o = .ok r) :
    ∃ entries, values = .dict entries ∧
      adapter.parseFields model nested entries o [] = .ok (r, []) := by
  cases values with
  | dict entries =>
    unfold Adapter.parseObject at h
    cases hfields : adapter.parseFields model nested entries o [] with
    | error e => simp only [hfields] at h; cases h
    | ok parsed =>
      obtain ⟨o', errorKeys⟩ := parsed
      simp only [hfields] at h
      have hr : (if errorKeys = [] then Except.ok o'
          else .error (Raised.InvalidObject (.keys errorKeys adapter.resourceName))) = .ok r := h
      split at hr
      · rename_i hvalid
        cases hr
        rw [hvalid] at hfields
        exact ⟨entries, rfl, hfields⟩
      · cases hr
  | _ => cases h

theorem parseObject_keeps {values : Json} (h : adapter.parseObject model nested values o = .ok r)
    (hdistinct : values.keys.Nodup) (hmem : field ∈ adapter.fields)
    (hprotected : field.Protected model o) : Keeps model o r field.objKey := by
  obtain ⟨entries, rfl, hfields⟩ := parseObject_dict h
  exact parseFields_keeps hmem hfields hdistinct hprotected

theorem parseObject_fresh {values : Json} (h : adapter.parseObject model nested values o = .ok r)
    (hmem : field ∈ adapter.fields) (hfresh : field.key ∉ values.keys) :
    r.getattr model field.objKey = o.getattr model field.objKey := by
  obtain ⟨entries, rfl, hfields⟩ := parseObject_dict h
  exact parseFields_fresh hmem hfields hfresh

theorem ok_of_wrapped {α : Type} {x : Except Raised α} {a : α} (h : wrapped x = .ok a) :
    x = .ok a := by
  cases x with
  | ok b => cases h; rfl
  | error e => cases h

/-- `parse` keeps what is protected. -/
theorem parse_keeps {values : Body} (h : adapter.parse model nested values.json o = .ok r)
    (hmem : field ∈ adapter.fields) (hprotected : field.Protected model o) :
    Keeps model o r field.objKey :=
  parseObject_keeps (ok_of_wrapped h) values.distinct hmem hprotected

end

/-! ## Zones -/

section

variable {τ : Type} [DecidableEq τ] {int : String → Option Int} {zone zone' handed : Zone τ}
  {values values' : Json} {key name : String}

theorem keys_del : (values.del key).keys.Sublist values.keys := by
  cases values with
  | dict entries => exact List.filter_sublist.map Prod.fst
  | _ => exact List.Sublist.refl _

theorem not_mem_keys_of_has (h : values.has key = .ok false) : key ∉ values.keys := by
  cases values with
  | dict entries =>
    intro hmem
    obtain ⟨p, hp, hkey⟩ := List.mem_map.mp hmem
    have hany : entries.any (·.1 = key) = true :=
      List.any_eq_true.mpr ⟨p, hp, by simpa using hkey⟩
    have hhas := Except.ok.inj h
    rw [hany] at hhas
    cases hhas
  | _ => exact List.not_mem_nil

/-- Only a dict has an item under a text. -/
theorem dict_of_item {value : Json} (h : values.item key = .ok value) :
    ∃ entries, values = .dict entries ∧ entries.lookup key = some value := by
  cases values with
  | dict entries =>
    unfold Json.item at h
    cases hlookup : entries.lookup key with
    | none => simp only [hlookup] at h; cases h
    | some w =>
      simp only [hlookup] at h
      cases h
      exact ⟨entries, rfl, hlookup⟩
  | _ => cases h

private theorem mem_of_lookup {entries : List (String × Json)} {value : Json}
    (h : entries.lookup key = some value) : (key, value) ∈ entries := by
  obtain ⟨before, after, hsplit, _⟩ := List.lookup_eq_some_iff.mp h
  rw [hsplit]
  exact List.mem_append_right _ List.mem_cons_self

/-- What taking a relation does. -/
theorem takeRelation_cases {parse : Json → Except Invalid (ListObject τ)}
    (h : takeRelation key parse values zone = .ok (values', zone')) :
    (values.has key = .ok false ∧ values' = values ∧ zone' = zone) ∨
      ∃ value r, values.item key = .ok value ∧ values' = values.del key ∧
        zone' = zone.setRelation key r := by
  unfold takeRelation at h
  cases hhas : values.has key with
  | error e => simp only [hhas] at h; cases h
  | ok has =>
    cases has with
    | false =>
      -- the request has no such key
      simp only [hhas] at h
      cases h
      exact .inl ⟨rfl, rfl, rfl⟩
    | true =>
      cases hitem : values.item key with
      | error e => simp only [hhas, hitem] at h; cases h
      | ok value =>
        cases hparse : parse value with
        | error e =>
          simp only [hhas, hitem, hparse, bind, Except.bind, if_true] at h
          cases h
        | ok r =>
          simp only [hhas, hitem, hparse, bind, Except.bind, if_true] at h
          cases h
          exact .inr ⟨value, r, rfl, rfl, rfl⟩

/-- What is left of the document, and of the zone, when a relation was taken. -/
theorem takeRelation_spec {parse : Json → Except Invalid (ListObject τ)}
    (h : takeRelation key parse values zone = .ok (values', zone')) :
    key ∉ values'.keys ∧ values'.keys.Sublist values.keys ∧
      (key ∉ values.keys → zone' = zone) ∧
      ∀ other, other ≠ key → zone'.getattr zoneModel other = zone.getattr zoneModel other := by
  rcases takeRelation_cases h with ⟨hhas, rfl, rfl⟩ | ⟨value, r, hitem, rfl, rfl⟩
  · exact ⟨not_mem_keys_of_has hhas, List.Sublist.refl _, fun _ => rfl, fun _ _ => rfl⟩
  · obtain ⟨entries, rfl, hlookup⟩ := dict_of_item hitem
    have hmem : key ∈ (Json.dict entries).keys :=
      List.mem_map.mpr ⟨(key, value), mem_of_lookup hlookup, rfl⟩
    refine ⟨?_, keys_del, fun hfresh => absurd hmem hfresh,
      fun other hne => getattr_setRelation_ne hne r⟩
    intro hdel
    obtain ⟨p, hp, hkey⟩ := List.mem_map.mp hdel
    have hne := (List.mem_filter.mp hp).2
    exact absurd hkey (by simpa using hne)

theorem parseZone_steps (h : parseZone int values zone = .ok handed) :
    ∃ values₁ zone₁ values₂ zone₂,
      takeRelation "masters" (parseMasters int) values zone = .ok (values₁, zone₁) ∧
      takeRelation "attributes" parseAttributes values₁ zone₁ = .ok (values₂, zone₂) ∧
      zoneAdapter.parseObject zoneModel (parseNested int) values₂ zone₂ = .ok handed := by
  have hobject := ok_of_wrapped h
  unfold parseZoneObject at hobject
  cases hfirst : takeRelation "masters" (parseMasters int) values zone with
  | error e => simp only [hfirst] at hobject; cases hobject
  | ok first =>
    obtain ⟨values₁, zone₁⟩ := first
    cases hsecond : takeRelation "attributes" parseAttributes values₁ zone₁ with
    | error e =>
      simp only [hfirst, bind, Except.bind, hsecond] at hobject
      cases hobject
    | ok second =>
      obtain ⟨values₂, zone₂⟩ := second
      simp only [hfirst, bind, Except.bind, hsecond] at hobject
      exact ⟨values₁, zone₁, values₂, zone₂, rfl, hsecond, hobject⟩

/-- The fields whose keys are left to the checks that all adapters share. -/
theorem parseZone_keeps {body : Body} (h : parseZone int body.json zone = .ok handed)
    {field : Field} (hmem : field ∈ zoneAdapter.fields) (hmasters : field.objKey ≠ "masters")
    (hattributes : field.objKey ≠ "attributes") (hprotected : field.Protected zoneModel zone) :
    Keeps zoneModel zone handed field.objKey := by
  obtain ⟨values₁, zone₁, values₂, zone₂, hfirst, hsecond, hparse⟩ := parseZone_steps h
  obtain ⟨_, hsub₁, _, hother₁⟩ := takeRelation_spec hfirst
  obtain ⟨_, hsub₂, _, hother₂⟩ := takeRelation_spec hsecond
  have hsame : zone₂.getattr zoneModel field.objKey = zone.getattr zoneModel field.objKey :=
    (hother₂ _ hattributes).trans (hother₁ _ hmasters)
  have hdistinct : values₂.keys.Nodup := (hsub₂.trans hsub₁).nodup body.distinct
  exact (parseObject_keeps hparse hdistinct hmem (hprotected.of_getattr hsame)).of_getattr hsame

/-- A field that keeps its name in a document holds what it held, if the document has none. -/
theorem parseZone_fresh (h : parseZone int values zone = .ok handed) {field : Field}
    (hmem : field ∈ zoneAdapter.fields) (hname : field.objKey = field.key)
    (hfresh : field.key ∉ values.keys) :
    handed.getattr zoneModel field.objKey = zone.getattr zoneModel field.objKey := by
  obtain ⟨values₁, zone₁, values₂, zone₂, hfirst, hsecond, hparse⟩ := parseZone_steps h
  obtain ⟨_, hsub₁, hkept₁, hother₁⟩ := takeRelation_spec hfirst
  obtain ⟨_, hsub₂, hkept₂, hother₂⟩ := takeRelation_spec hsecond
  have hfresh₁ : field.key ∉ values₁.keys := fun hkey => hfresh (hsub₁.subset hkey)
  have hfresh₂ : field.key ∉ values₂.keys := fun hkey => hfresh₁ (hsub₂.subset hkey)
  -- the masters come first, then the attributes, then the fields; the key is in none of them
  have hkept : zone₁.getattr zoneModel field.objKey = zone.getattr zoneModel field.objKey := by
    by_cases hmasters : field.objKey = "masters"
    · rw [hname] at hmasters
      rw [hkept₁ (by rw [← hmasters]; exact hfresh)]
    · exact hother₁ _ hmasters
  have hkept' : zone₂.getattr zoneModel field.objKey = zone₁.getattr zoneModel field.objKey := by
    by_cases hattributes : field.objKey = "attributes"
    · rw [hname] at hattributes
      rw [hkept₂ (by rw [← hattributes]; exact hfresh₁)]
    · exact hother₂ _ hattributes
  rw [parseObject_fresh hparse hmem hfresh₂, hkept', hkept]

/-! ## The controller -/

/-- The fields of a zone that no document may set. -/
def zoneReadOnly : List String :=
  ["id", "pool_id", "tenant_id", "serial", "status", "action", "version", "created_at",
    "updated_at"]

/-- The fields of a zone that a document may set once. -/
def zoneImmutable : List String :=
  ["name", "view_id", "type"]

/-- What the document of a `PATCH` leaves as it is. -/
structure PatchKeeps (stored handed : Zone τ) (body : Json) : Prop where
  readOnly : ∀ name ∈ zoneReadOnly, Keeps zoneModel stored handed name
  immutable : ∀ name ∈ zoneImmutable, stored.IsSet zoneModel name →
    Keeps zoneModel stored handed name
  /-- The controller clears it when the attributes have changed. -/
  transferredAt : "attributes" ∉ handed.whatChanged →
    Keeps zoneModel stored handed "transferred_at"
  relations : ∀ name ∈ ["masters", "attributes"], name ∉ body.keys →
    handed.getattr zoneModel name = stored.getattr zoneModel name

/-- The zone handed to central was parsed, and has at most its time of transfer cleared. -/
theorem patchOne_parsed {ε : Type} {validate : Zone τ → Except ε Unit} {jsonPatch : Bool}
    (h : patchOne int validate zone jsonPatch values = .ok handed) :
    ∃ parsed, parseZone int values zone = .ok parsed ∧
      (handed = parsed ∨ "attributes" ∈ parsed.whatChanged ∧
        handed = parsed.setPlain "transferred_at" (.json .null)) := by
  unfold patchOne at h
  cases haction : zone.reads "action" "DELETE" with
  | true => rw [haction, if_pos rfl] at h; cases h
  | false =>
    rw [haction, if_neg (by simp)] at h
    cases jsonPatch with
    | true => cases h
    | false =>
      rw [if_neg (by simp)] at h
      cases hparse : parseZone int values zone with
      | error what => simp only [hparse] at h; cases h
      | ok parsed =>
        cases hvalid : validate parsed with
        | error e => simp only [hparse, hvalid] at h; cases h
        | ok _ =>
          simp only [hparse, hvalid] at h
          refine ⟨parsed, rfl, ?_⟩
          -- the time of transfer is cleared where `attributes` is among the changes, and not for
          -- `masters`
          by_cases hattributes : "attributes" ∈ parsed.whatChanged
          · rw [if_pos hattributes] at h
            split at h
            · cases h
            · exact .inr ⟨hattributes, (Except.ok.inj h).symm⟩
          · rw [if_neg hattributes] at h
            split at h
            · cases h
            · exact .inl (Except.ok.inj h).symm

theorem whatChanged_setPlain {field : String} (hmem : field ∈ zone.whatChanged) (v : Plain τ) :
    field ∈ (zone.setPlain name v).whatChanged := by
  unfold Obj.whatChanged at hmem ⊢
  rcases Finset.mem_union.mp hmem with hplain | hrelation
  · refine Finset.mem_union_left _ ?_
    show field ∈ (zone.plain.setter Plain.same name v).changes
    unfold Attrs.setter
    split
    · exact Finset.mem_insert_of_mem hplain
    · split
      · exact hplain
      · exact Finset.mem_insert_of_mem hplain
  · exact Finset.mem_union_right _ hrelation

/-- The adapter of zones knows these fields, and protects them. -/
theorem field_of_readOnly : ∀ name ∈ "transferred_at" :: zoneReadOnly,
    ∃ field ∈ zoneAdapter.fields, field.objKey = name ∧ field.immutable = false ∧
      field.readOnly = true := by
  decide

theorem field_of_immutable : ∀ name ∈ zoneImmutable,
    ∃ field ∈ zoneAdapter.fields, field.objKey = name ∧ field.immutable = true := by
  decide

theorem field_of_relation : ∀ name ∈ ["masters", "attributes"],
    ∃ field ∈ zoneAdapter.fields, field.objKey = name ∧ field.key = name := by
  decide

theorem parseZone_keeps_readOnly {body : Body} (h : parseZone int body.json zone = .ok handed)
    (hname : name ∈ "transferred_at" :: zoneReadOnly) : Keeps zoneModel zone handed name := by
  obtain ⟨field, hmem, rfl, himmutable, hreadOnly⟩ := field_of_readOnly _ hname
  refine parseZone_keeps h hmem ?_ ?_ ?_
  · rintro heq; rw [heq] at hname; exact absurd hname (by decide)
  · rintro heq; rw [heq] at hname; exact absurd hname (by decide)
  · unfold Field.Protected
    rw [himmutable, if_neg (by simp)]
    exact hreadOnly

theorem parseZone_keeps_immutable {body : Body} (h : parseZone int body.json zone = .ok handed)
    (hname : name ∈ zoneImmutable) (hset : zone.IsSet zoneModel name) :
    Keeps zoneModel zone handed name := by
  obtain ⟨field, hmem, rfl, himmutable⟩ := field_of_immutable _ hname
  refine parseZone_keeps h hmem ?_ ?_ ?_
  · rintro heq; rw [heq] at hname; exact absurd hname (by decide)
  · rintro heq; rw [heq] at hname; exact absurd hname (by decide)
  · unfold Field.Protected
    rw [himmutable, if_pos rfl]
    exact hset

theorem patchOne_keeps {ε : Type} {validate : Zone τ → Except ε Unit} {jsonPatch : Bool}
    {body : Body} (h : patchOne int validate zone jsonPatch body.json = .ok handed) :
    PatchKeeps zone handed body.json := by
  obtain ⟨parsed, hparse, hhanded⟩ := patchOne_parsed h
  -- after the parsing no other field is written
  have hother : ∀ name, name ≠ "transferred_at" →
      handed.getattr zoneModel name = parsed.getattr zoneModel name := by
    intro name hne
    rcases hhanded with rfl | ⟨_, rfl⟩
    · rfl
    · exact getattr_setPlain_ne hne _
  refine ⟨fun name hname => ?_, fun name hname hset => ?_, fun hchanged => ?_,
    fun name hname hfresh => ?_⟩
  · have hne : name ≠ "transferred_at" := by
      rintro rfl
      exact absurd hname (by decide)
    exact (parseZone_keeps_readOnly hparse (List.mem_cons_of_mem _ hname)).getattr_eq
      (hother name hne)
  · have hne : name ≠ "transferred_at" := by
      rintro rfl
      exact absurd hname (by decide)
    exact (parseZone_keeps_immutable hparse hname hset).getattr_eq (hother name hne)
  · rcases hhanded with rfl | ⟨hattributes, rfl⟩
    · exact parseZone_keeps_readOnly hparse List.mem_cons_self
    · exact absurd (whatChanged_setPlain hattributes _) hchanged
  · obtain ⟨field, hmem, rfl, hkey⟩ := field_of_relation _ hname
    have hne : field.objKey ≠ "transferred_at" := by
      intro heq
      rw [heq] at hname
      exact absurd hname (by decide)
    rw [hother _ hne]
    exact parseZone_fresh hparse hmem hkey.symm (by rw [hkey]; exact hfresh)

end

/--
What a document may not change, in a zone that is patched and in an object whose adapter parses
as its base does.
-/
theorem parse_protects :
    (∀ {τ ε : Type} [DecidableEq τ] (int : String → Option Int)
      (validate : Zone τ → Except ε Unit) (jsonPatch : Bool) (stored handed : Zone τ)
      (body : Body), patchOne int validate stored jsonPatch body.json = .ok handed →
        PatchKeeps stored handed body.json) ∧
    ∀ {τ ω : Type} [DecidableEq τ] [Related ω] (model : Model)
      (nested : String → Json → Except Invalid ω) (adapter : Adapter) (values : Body)
      (o r : Obj τ ω), adapter.parse model nested values.json o = .ok r →
        ∀ field ∈ adapter.fields, field.Protected model o → Keeps model o r field.objKey :=
  ⟨fun _ _ _ _ _ _ h => patchOne_keeps h, fun _ _ _ _ _ _ h _ => parse_keeps h⟩

/-- A secondary zone with a master and an attribute. -/
def secondarySample : Zone Unit where
  plain := { fields := [("id", .json (.str "6f4a")), ("name", .json (.str "example.org.")),
    ("type", .json (.str "SECONDARY")), ("action", .json (.str "NONE")),
    ("serial", .json (.int 1))] }
  relations := { fields := [
    ("masters",
      { cls := "ZoneMasterList", items := [pair "host" (.str "10.0.0.1") "port" (.int 53)] }),
    ("attributes",
      { cls := "ZoneAttributeList", items := [pair "key" (.str "tier") "value" (.str "gold")] })] }

/-- A request for a transfer that names no target. -/
def requestSample : Obj Unit (ListObject Unit) where
  plain := { fields := [("id", .json (.str "91c2")), ("status", .json (.str "ACTIVE"))] }

/-- A document that names a field that is read only and one that is immutable, as they are. -/
def harmlessBody : Body where
  json := .dict [("serial", .float (.finite 1)), ("name", .str "example.org."),
    ("description", .str "moved")]
  distinct := by decide

/-- A document that describes a request. -/
def descriptionBody : Body where
  json := .dict [("status", .str "ACTIVE"), ("description", .str "for b7")]
  distinct := by decide

theorem parse_protects_sample :
    (∃ handed, patchOne (ε := Empty) (fun _ => none) (fun _ => .ok ()) secondarySample false
        harmlessBody.json = .ok handed ∧ PatchKeeps secondarySample handed harmlessBody.json) ∧
    ∃ r, transferRequestAdapter.parse transferRequestModel (fun _ _ => .error (.got ""))
        descriptionBody.json requestSample = .ok r ∧
      Keeps transferRequestModel requestSample r "status" := by
  have hpatched : ∃ handed, patchOne (ε := Empty) (fun _ => none) (fun _ => .ok ())
      secondarySample false harmlessBody.json = .ok handed := ⟨_, rfl⟩
  have hparsed : ∃ r, transferRequestAdapter.parse transferRequestModel
      (fun _ _ => .error (.got "")) descriptionBody.json requestSample = .ok r := ⟨_, rfl⟩
  obtain ⟨handed, hhanded⟩ := hpatched
  obtain ⟨r, hr⟩ := hparsed
  exact ⟨⟨handed, hhanded, parse_protects.1 _ _ _ _ _ _ hhanded⟩, r, hr,
    parse_protects.2 _ _ _ _ _ _ hr { key := "status" } (by simp [transferRequestAdapter]) rfl⟩

/-- A document with another master and another attribute. -/
def relationsBody : Json :=
  .dict [("masters", .list [.str "10.0.0.2"]), ("attributes", .dict [("tier", .str "silver")])]

theorem relations_replaced :
    (∃ handed, patchOne (ε := Empty) (fun _ => none) (fun _ => .ok ()) secondarySample false
        relationsBody = .ok handed ∧
      secondarySample.IsSet zoneModel "attributes" ∧
      ¬ Keeps zoneModel secondarySample handed "attributes" ∧
      ¬ Keeps zoneModel secondarySample handed "masters") ∧
    ∃ field ∈ transferRequestAdapter.fields, field.readOnly = true ∧
      ∃ r, transferRequestAdapter.parse transferRequestModel (fun _ _ => .error (.got ""))
          (.dict [("target_project_id", .str "b7")]) requestSample = .ok r ∧
        ¬ Keeps transferRequestModel requestSample r field.objKey := by
  refine ⟨⟨_, rfl, ⟨_, rfl, rfl⟩, ?_, ?_⟩,
    transferRequestAdapter.fields[3], by simp, rfl, _, rfl, ?_⟩
  · exact not_keeps rfl rfl rfl rfl
  · exact not_keeps rfl rfl rfl rfl
  · exact not_keeps rfl rfl rfl rfl

end Adapters

end Designate
