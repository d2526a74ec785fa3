import Designate.Objects.Changes
import Designate.Proof.Adapters
import Designate.Proof.Deepcopy
import Mathlib.Data.Option.Basic

/-!
# The books of an object

Between two resets that cover a field, its name is noted at the first assignment that alters it
and stays noted. The value it had is noted when it is first replaced by another one, so what
`obj_get_original_value` falls back on is still equal to it. The argument is an induction on the
changes since the reset, from their end.
-/

namespace Designate

namespace Objects

variable {α : Type} {same : α → α → Bool} {a : Attrs α} {field name : String} {value : α}

/-! ## One change -/

/-- What the books say of a field, and what is in it. -/
structure SameBooks (field : String) (a b : Attrs α) : Prop where
  value : b.fields.lookup field = a.fields.lookup field
  noted : field ∈ b.changes ↔ field ∈ a.changes
  original : b.originals.lookup field = a.originals.lookup field

theorem sameBooks_setter (hne : field ≠ name) :
    SameBooks field a (a.setter same name value) where
  value := by
    rw [Adapters.setter_fields, Adapters.lookup_assign_ne hne]
  noted := by
    unfold Attrs.setter
    split
    · simp [hne]
    · split <;> simp [hne]
  original := by
    unfold Attrs.setter
    split
    · rfl
    · split
      · rfl
      · rename_i old _ _
        -- an original is recorded once, and under the other name
        by_cases hhas : (a.originals.lookup name).isSome
        · rw [if_pos hhas]
        · have hother : (field == name) = false := beq_eq_false_iff_ne.mpr hne
          rw [if_neg hhas, List.lookup_append, List.lookup_cons, hother, List.lookup_nil,
            Option.or_none]

theorem sameBooks_reset {fields : Option (List String)}
    (h : ¬ Covers field (.reset fields : Change α)) :
    SameBooks field a (a.change same (.reset fields)) := by
  unfold Covers at h
  cases fields with
  | none => exact absurd trivial h
  | some names =>
    cases names with
    | nil => exact absurd (.inl rfl) h
    | cons other names =>
      have hnot : field ∉ other :: names := fun hmem => h (.inr hmem)
      refine ⟨rfl, ?_, ?_⟩
      · unfold Attrs.change Attrs.objResetChanges Attrs.resetChanges
        rw [Finset.mem_sdiff, List.mem_toFinset]
        exact and_iff_left hnot
      · unfold Attrs.change Attrs.objResetChanges Attrs.resetChanges
        have hkeep : (!(other :: names).contains field) = true := by simpa using hnot
        exact (lookup_filter (fun f => !(other :: names).contains f) _ _).trans (if_pos hkeep)

/-- **A reset that covers a field clears its books.** -/
theorem reset_cleared {op : Change α} (h : Covers field op) :
    field ∉ (a.change same op).changes ∧ (a.change same op).originals.lookup field = none := by
  unfold Covers at h
  cases op with
  | assign name value => exact absurd h id
  | reset fields =>
    cases fields with
    | none => exact ⟨Finset.notMem_empty _, rfl⟩
    | some names =>
      cases names with
      | nil => exact ⟨Finset.notMem_empty _, rfl⟩
      | cons other names =>
        -- an empty list of names stands for all of them
        have hmem : field ∈ other :: names := h.resolve_left (List.cons_ne_nil _ _)
        unfold Attrs.change Attrs.objResetChanges Attrs.resetChanges
        constructor
        · intro hnoted
          rw [Finset.mem_sdiff, List.mem_toFinset] at hnoted
          exact hnoted.2 hmem
        · have hkeep : ¬ (!(other :: names).contains field) = true := by
            rw [List.contains_iff_mem.mpr hmem]
            exact Bool.false_ne_true
          exact (lookup_filter (fun f => !(other :: names).contains f) _ _).trans (if_neg hkeep)

/-! ## One more change -/

theorem after_snoc (ops : List (Change α)) (op : Change α) :
    a.after same (ops ++ [op]) = (a.after same ops).change same op := by
  unfold Attrs.after
  rw [List.foldl_append]
  rfl

theorem after_append (ops more : List (Change α)) :
    a.after same (ops ++ more) = (a.after same ops).after same more := by
  unfold Attrs.after
  rw [List.foldl_append]

theorem altered_snoc {ops : List (Change α)} {op : Change α} :
    Altered same a field (ops ++ [op]) ↔ Altered same a field ops ∨
      ∃ value, op = .assign field value ∧ Alters same (a.after same ops) field value := by
  constructor
  · intro h
    obtain ⟨before, value, more, he, halters⟩ := h
    rcases List.eq_nil_or_concat more with rfl | ⟨more, last, rfl⟩
    · obtain ⟨rfl, hop⟩ := List.append_inj' he rfl
      exact .inr ⟨value, List.singleton_inj.mp hop, halters⟩
    · rw [List.concat_eq_append, ← List.cons_append, ← List.append_assoc] at he
      exact .inl ⟨before, value, more, (List.append_inj' he rfl).1, halters⟩
  · intro h
    rcases h with ⟨before, value, more, rfl, halters⟩ | ⟨value, rfl, halters⟩
    · exact ⟨before, value, more ++ [op], by simp, halters⟩
    · exact ⟨ops, value, [], rfl, halters⟩

theorem firstValue_snoc (ops : List (Change α)) (op : Change α) :
    firstValue a field (ops ++ [op]) = (firstValue a field ops).or (firstAssigned field [op]) := by
  unfold firstValue firstAssigned
  rw [List.findSome?_append, Option.or_assoc]

/-! ## The books since a reset -/

/--
What the books say of a field after some changes. An original is what stood there first, however
often the field has been set since.
-/
structure Booked (same : α → α → Bool) (field : String) (a : Attrs α) (ops : List (Change α))
    (now : Attrs α) : Prop where
  noted : field ∈ now.changes ↔ Altered same a field ops
  original : Option.Rel (SameValue same) (now.originalValue field) (firstValue a field ops)
  kept : now.fields.lookup field = none → now.originals.lookup field = none

theorem booked_nil (hnoted : field ∉ a.changes) (hnone : a.originals.lookup field = none) :
    Booked same field a [] a where
  noted := by
    constructor
    · intro h
      exact absurd h hnoted
    · intro h
      obtain ⟨before, value, more, he, -⟩ := h
      simp at he
  original := by
    unfold Attrs.originalValue getOriginalValue firstValue firstAssigned
    rw [hnone, Option.none_or, List.findSome?_nil, Option.or_none]
    cases a.fields.lookup field with
    | none => exact .none
    | some v => exact .some (.inl rfl)
  kept := fun _ => hnone

variable {now : Attrs α} {ops : List (Change α)}

/-- A change that is not about the field leaves the books as they are. -/
theorem Booked.other (h : Booked same field a ops now) {op : Change α} {next : Attrs α}
    (hsame : SameBooks field now next) (hassigns : ∀ value, op ≠ .assign field value) :
    Booked same field a (ops ++ [op]) next where
  noted := by
    rw [hsame.noted, h.noted, altered_snoc]
    constructor
    · exact .inl
    · intro haltered
      rcases haltered with haltered | ⟨value, he, -⟩
      · exact haltered
      · exact absurd he (hassigns value)
  original := by
    -- the change assigns nothing to this field
    have hfirst : firstAssigned field [op] = none := by
      unfold firstAssigned
      cases op with
      | assign name value =>
        have hne : name ≠ field := fun he => hassigns value (he ▸ rfl)
        simp [hne]
      | reset fields => rfl
    unfold Attrs.originalValue getOriginalValue
    rw [hsame.original, hsame.value, firstValue_snoc, hfirst, Option.or_none]
    exact h.original
  kept := by
    rw [hsame.value, hsame.original]
    exact h.kept

theorem setter_value : (a.setter same field value).fields.lookup field = some value := by
  rw [Adapters.setter_fields, Adapters.lookup_assign]

theorem setter_kept (h : (a.setter same field value).fields.lookup field = none) :
    (a.setter same field value).originals.lookup field = none := by
  rw [setter_value] at h
  exact absurd h (Option.some_ne_none value)

theorem altered_assign (hnow : now = a.after same ops) (value : α) :
    Altered same a field (ops ++ [.assign field value]) ↔
      Altered same a field ops ∨ Alters same now field value := by
  rw [altered_snoc, ← hnow]
  refine or_congr_right ⟨?_, fun halters => ⟨value, rfl, halters⟩⟩
  intro hlast
  obtain ⟨w, he, halters⟩ := hlast
  obtain rfl := (Change.assign.inj he).2
  exact halters

theorem firstValue_assign (value : α) :
    firstValue a field (ops ++ [.assign field value]) = (firstValue a field ops).or (some value) := by
  rw [firstValue_snoc]
  simp [firstAssigned]

/-- What is noted at a first assignment that replaces a value. -/
theorem setter_originals {old : α} (hold : a.fields.lookup field = some old)
    (hsame : same value old = false) : (a.setter same field value).originals.lookup field =
      (a.originals.lookup field).or (some old) := by
  unfold Attrs.setter
  rw [hold]
  simp only [hsame, Bool.false_eq_true, if_false]
  cases ho : a.originals.lookup field with
  | some u => simp [ho]
  | none => simp [ho, List.lookup_append]

/-- **The field is set for the first time**: this is the value that counts. -/
theorem Booked.assign_unset (h : Booked same field a ops now) (hnow : now = a.after same ops)
    (hold : now.fields.lookup field = none) (value : α) :
    Booked same field a (ops ++ [.assign field value]) (now.setter same field value) := by
  have hnone := h.kept hold
  have hset : now.setter same field value =
      ⟨assign now.fields field value, insert field now.changes, now.originals⟩ := by
    unfold Attrs.setter
    rw [hold]
  -- no value has counted so far, else the field would have an original one
  have hunset : firstValue a field ops = none := by
    have horiginal := h.original
    unfold Attrs.originalValue getOriginalValue at horiginal
    rw [hold, hnone] at horiginal
    cases hv : firstValue a field ops with
    | none => rfl
    | some v =>
      rw [hv] at horiginal
      cases horiginal
  refine ⟨?_, ?_, ?_⟩
  · -- a field without a value is altered by any
    have halters : Alters same now field value := by
      intro old ho
      rw [hold] at ho
      exact absurd ho.symm (Option.some_ne_none old)
    rw [altered_assign hnow, hset]
    exact ⟨fun _ => .inr halters, fun _ => Finset.mem_insert_self _ _⟩
  · rw [firstValue_assign, hunset, Option.none_or]
    unfold Attrs.originalValue getOriginalValue
    rw [setter_value, hset, hnone]
    exact .some (.inl rfl)
  · exact setter_kept

/-- A field that is set has had a first value. -/
theorem Booked.first (h : Booked same field a ops now) {old : α}
    (hold : now.fields.lookup field = some old) : ∃ v, firstValue a field ops = some v ∧
      SameValue same ((now.originals.lookup field).getD old) v := by
  have hor : (now.originals.lookup field).or (some old) =
      some ((now.originals.lookup field).getD old) := by
    cases now.originals.lookup field <;> rfl
  have horiginal := h.original
  unfold Attrs.originalValue getOriginalValue at horiginal
  rw [hold, hor] at horiginal
  cases hv : firstValue a field ops with
  | none =>
    rw [hv] at horiginal
    cases horiginal
  | some v =>
    rw [hv] at horiginal
    cases horiginal with
    | some hvalue => exact ⟨v, rfl, hvalue⟩

/-- **An equal value**: nothing is noted, and it is as good as the one before. -/
theorem Booked.assign_same (htrans : ∀ u v w, same u v = true → same v w = true → same u w = true)
    (h : Booked same field a ops now) (hnow : now = a.after same ops) {old : α}
    (hold : now.fields.lookup field = some old) (hsame : same value old = true) :
    Booked same field a (ops ++ [.assign field value]) (now.setter same field value) := by
  have hset : now.setter same field value =
      { now with fields := assign now.fields field value } := by
    unfold Attrs.setter
    rw [hold]
    simp only [hsame, if_true]
  have hno : ¬ Alters same now field value := by
    intro halters
    rw [halters old hold] at hsame
    exact absurd hsame Bool.false_ne_true
  obtain ⟨v, hv, hvalue⟩ := h.first hold
  refine ⟨?_, ?_, ?_⟩
  · rw [altered_assign hnow, hset, or_iff_left hno]
    exact h.noted
  · rw [firstValue_assign, hv, Option.some_or]
    unfold Attrs.originalValue getOriginalValue
    rw [setter_value, hset]
    -- a noted value stays; else the one before counts, and the new one equals it
    cases ho : now.originals.lookup field with
    | some u =>
      rw [ho] at hvalue
      exact .some hvalue
    | none =>
      rw [ho] at hvalue
      refine .some (.inr ?_)
      rcases hvalue with rfl | hequal
      · exact hsame
      · exact htrans _ _ _ hsame hequal
  · exact setter_kept

/-- **Another value**: the one before is noted, if none is yet. -/
theorem Booked.assign_other (h : Booked same field a ops now) (hnow : now = a.after same ops)
    {old : α} (hold : now.fields.lookup field = some old) (hsame : same value old = false) :
    Booked same field a (ops ++ [.assign field value]) (now.setter same field value) := by
  have hchanges : field ∈ (now.setter same field value).changes := by
    unfold Attrs.setter
    rw [hold]
    simp [hsame]
  have halters : Alters same now field value := by
    intro other ho
    rw [hold] at ho
    obtain rfl := Option.some.inj ho
    exact hsame
  obtain ⟨v, hv, hvalue⟩ := h.first hold
  refine ⟨?_, ?_, ?_⟩
  · rw [altered_assign hnow]
    exact ⟨fun _ => .inr halters, fun _ => hchanges⟩
  · rw [firstValue_assign, hv, Option.some_or]
    unfold Attrs.originalValue getOriginalValue
    rw [setter_originals hold hsame]
    -- a noted value stays; else the one before is noted, and that is what counted
    cases ho : now.originals.lookup field with
    | some u =>
      rw [ho] at hvalue
      exact .some hvalue
    | none =>
      rw [ho] at hvalue
      exact .some hvalue
  · exact setter_kept

/-- **One assignment of the field.** -/
theorem Booked.assign (htrans : ∀ u v w, same u v = true → same v w = true → same u w = true)
    (h : Booked same field a ops now) (hnow : now = a.after same ops) (value : α) :
    Booked same field a (ops ++ [.assign field value]) (now.setter same field value) := by
  cases hold : now.fields.lookup field with
  | none => exact h.assign_unset hnow hold value
  | some old =>
    cases hsame : same value old with
    | true => exact h.assign_same htrans hnow hold hsame
    | false => exact h.assign_other hnow hold hsame

/-- **The books of a field after all changes since a reset.** By induction on the changes, from
their end. -/
theorem booked_after (htrans : ∀ u v w, same u v = true → same v w = true → same u w = true)
    (hnoted : field ∉ a.changes) (hnone : a.originals.lookup field = none)
    (hsince : ∀ op ∈ ops, ¬ Covers field op) : Booked same field a ops (a.after same ops) := by
  induction ops using List.reverseRecOn with
  | nil => exact booked_nil hnoted hnone
  | append_singleton ops op ih =>
    have hbooked := ih fun op hop => hsince op (List.mem_append_left _ hop)
    rw [after_snoc]
    cases op with
    | assign name value =>
      by_cases hname : field = name
      · subst hname
        exact hbooked.assign htrans rfl value
      · refine hbooked.other (sameBooks_setter hname) fun v he => ?_
        exact hname (Change.assign.inj he).1.symm
    | reset fields =>
      have hcovers := hsince (.reset fields) (by simp)
      exact hbooked.other (sameBooks_reset hcovers) fun v he => nomatch he

/-! ## The law -/

/-- A value of a field was there at first, or it was assigned. -/
theorem value_after {v : α} (h : (a.after same ops).fields.lookup field = some v) :
    a.fields.lookup field = some v ∨ .assign field v ∈ ops := by
  induction ops using List.reverseRecOn with
  | nil => exact .inl h
  | append_singleton ops op ih =>
    -- where the last change leaves the field alone, the value is of before
    have hbefore : (a.after same ops).fields.lookup field = some v →
        a.fields.lookup field = some v ∨ .assign field v ∈ ops ++ [op] := by
      intro hv
      rcases ih hv with hfirst | hop
      · exact .inl hfirst
      · exact .inr (List.mem_append_left _ hop)
    rw [after_snoc] at h
    cases op with
    | assign name value =>
      by_cases hname : field = name
      · subst hname
        have hvalue : some value = some v := setter_value.symm.trans h
        obtain rfl := Option.some.inj hvalue
        exact .inr (by simp)
      · have hbooks : SameBooks field (a.after same ops) ((a.after same ops).setter same name value) :=
          sameBooks_setter hname
        exact hbefore (hbooks.value.symm.trans h)
    | reset fields =>
      refine hbefore (Eq.trans ?_ h)
      cases fields with
      | none => rfl
      | some names =>
        cases names with
        | nil => rfl
        | cons other names => rfl

/-- With no changed item in it, a list object tells its own changes only. -/
theorem mem_whatChanged {changed : α → Bool} {cls : Cls}
    (h : ∀ v, a.fields.lookup "objects" = some v → changed v = false) :
    field ∈ a.whatChanged changed cls ↔ field ∈ a.changes := by
  have hnone : (a.fields.lookup "objects").any changed = false := by
    cases hv : a.fields.lookup "objects" with
    | none => rfl
    | some v => exact h v hv
  unfold Attrs.whatChanged
  rw [hnone, Bool.and_false, if_neg Bool.false_ne_true]

/-- **The law of the books.** Take any changes to an object that begins with empty books, up to the
last reset that covers a field, and since. The field is told as changed exactly when some
assignment since then met it unset or with another value; its original value is the one it had at
that reset, or else the first assigned since, up to `==`; and there is none exactly when the field
is still unset. Values are immutable: none is a list with a changed item in it. -/
theorem change_law (same : α → α → Bool)
    (htrans : ∀ u v w, same u v = true → same v w = true → same u w = true)
    (changed : α → Bool) (cls : Cls) (a : Attrs α) (field : String) (before since : List (Change α))
    (hreset : (before = [] ∧ a.changes = ∅ ∧ a.originals = []) ∨
      ∃ earlier op, before = earlier ++ [op] ∧ Covers field op)
    (hsince : ∀ op ∈ since, ¬ Covers field op)
    (hvalues : ∀ name v, a.fields.lookup name = some v → changed v = false)
    (hassigned : ∀ name v, .assign name v ∈ before ++ since → changed v = false) :
    (field ∈ (a.after same (before ++ since)).whatChanged changed cls ↔
        Altered same (a.after same before) field since) ∧
      Option.Rel (SameValue same) ((a.after same (before ++ since)).originalValue field)
        (firstValue (a.after same before) field since) ∧
      ((a.after same (before ++ since)).originalValue field = none ↔
        (a.after same (before ++ since)).fields.lookup field = none) := by
  -- at the beginning, or after the reset, the books have nothing of the field
  have hcleared : field ∉ (a.after same before).changes ∧
      (a.after same before).originals.lookup field = none := by
    rcases hreset with ⟨rfl, hchanges, horiginals⟩ | ⟨earlier, op, rfl, hcovers⟩
    · unfold Attrs.after
      rw [List.foldl_nil, hchanges, horiginals]
      exact ⟨Finset.notMem_empty _, rfl⟩
    · rw [after_snoc]
      exact reset_cleared hcovers
  have hbooked := booked_after htrans hcleared.1 hcleared.2 hsince
  -- no value has changed inside, so only the books tell of a change
  have himmutable : ∀ v, (a.after same (before ++ since)).fields.lookup "objects" = some v →
      changed v = false := by
    intro v hv
    rcases value_after hv with hfirst | hop
    · exact hvalues _ v hfirst
    · exact hassigned _ v hop
  rw [mem_whatChanged himmutable, after_append]
  refine ⟨hbooked.noted, hbooked.original, ?_⟩
  unfold Attrs.originalValue getOriginalValue
  constructor
  · intro hnone
    exact (Option.or_eq_none_iff.mp hnone).2
  · intro hnone
    rw [hbooked.kept hnone, hnone]
    rfl

/-- A quota that is reset, then set back to its old limit. -/
theorem change_law_sample :
    "hard_limit" ∈ ((({} : Attrs Nat).after (· == ·) ([.assign "hard_limit" 10, .reset none] ++
        [.assign "hard_limit" 20, .reset (some ["resource"]), .assign "hard_limit" 10])).whatChanged
      (fun _ => false) quotaCls) := by
  refine ((change_law (· == ·) ?_ (fun _ => false) quotaCls {} "hard_limit" _ _ ?_ ?_ ?_ ?_).1).mpr ?_
  · intro u v w huv hvw
    rw [beq_iff_eq] at huv hvw ⊢
    omega
  · exact .inr ⟨[.assign "hard_limit" 10], .reset none, rfl, trivial⟩
  · simp only [List.forall_mem_cons]
    exact ⟨id, by simp [Covers], id, by simp⟩
  · intro name v hv
    rfl
  · intro name v hv
    rfl
  · refine ⟨[], 20, _, rfl, ?_⟩
    intro old hold
    obtain rfl : 10 = old := Option.some.inj hold
    rfl

end Objects

end Designate
