import Designate.Objects.RecordSet
import Mathlib.Data.List.Nodup
import Mathlib.Data.List.Perm.Subperm

/-!
# Validation of recordsets

A record that cannot be taken apart is left out of the list that is validated, so a position in
that list is not the position of the record. The loop that puts it right begins where the record
would be if no record after the last invalid one had been left out, and goes on while it stands on
one that was. It gets to the record if those that were left out stand together right before it; it
stops early, at a valid one, if a valid one comes after one of them.
-/

namespace Designate

open Adapters (Json Plain)

/-! ## Records -/

/-- What becomes of a record. -/
inductive Kind where
  /-- It cannot be taken apart. -/
  | fails
  /-- Its parts fail the schema. -/
  | bad
  | good
  deriving DecidableEq, Repr

/-- The parts of a record pass the schemas of their fields. -/
def RdataClass.valid (lib : Lib) (cls : RdataClass) (values : Parts) : Bool :=
  cls.fields.all fun f => f.relation ||
    match values.lookup f.name with
    | none => true
    | some v => (f.schema.failed lib v).isEmpty

/-- What becomes of a record of a type with this value. -/
def kind (lib : Lib) (type : RRType) (data : Json) : Kind :=
  match type.rdata.fromString lib data with
  | .error _ => .fails
  | .ok values => if type.rdata.valid lib values then .good else .bad

variable {τ : Type} {lib : Lib} {messages : Messages τ} {type : RRType} {data : Json}

theorem kind_eq_fails {e : Unparsed} (h : type.rdata.fromString lib data = .error e) :
    kind lib type data = .fails := by
  unfold kind
  rw [h]

theorem kind_eq_of_ok {values : Parts} (h : type.rdata.fromString lib data = .ok values) :
    kind lib type data = if type.rdata.valid lib values then .good else .bad := by
  unfold kind
  rw [h]

theorem lookup_json (values : Parts) (name : String) :
    (values.map fun p => (p.1, (Plain.json p.2 : Plain τ))).lookup name =
      (values.lookup name).map Plain.json := by
  induction values with
  | nil => rfl
  | cons p values ih =>
    obtain ⟨key, v⟩ := p
    rw [List.map_cons, List.lookup_cons, List.lookup_cons, ih]
    cases name == key <;> rfl

/-- The values of an object pass the schemas of their fields. -/
def valuesValid (lib : Lib) (fields : List FieldDef) (values : List (String × Plain τ)) : Bool :=
  fields.all fun f => f.relation ||
    match values.lookup f.name with
    | none => true
    | some v => (f.schema.fails lib v).isEmpty

theorem valueErrors_eq_nil {fields : List FieldDef} {values : List (String × Plain τ)}
    {path : List PathItem} :
    valueErrors lib messages fields values path = [] ↔ valuesValid lib fields values = true := by
  unfold valueErrors valuesValid
  rw [List.flatMap_eq_nil_iff, List.all_eq_true]
  constructor
  · intro h f hf
    rw [Bool.or_eq_true]
    -- a relation is checked as an object, not as a value
    by_cases hrel : f.relation = true
    · exact Or.inl hrel
    · have hnone := h f (List.mem_filter.mpr ⟨hf, by simpa using hrel⟩)
      refine Or.inr ?_
      cases hv : values.lookup f.name with
      | none => rfl
      | some v =>
        rw [hv] at hnone
        rw [List.isEmpty_iff]
        exact List.map_eq_nil_iff.mp hnone
  · intro h f hf
    obtain ⟨hmem, hrel⟩ := List.mem_filter.mp hf
    have hvalid := h f hmem
    rw [Bool.or_eq_true] at hvalid
    rcases hvalid with hrel' | hvalid
    · rw [hrel'] at hrel
      exact absurd hrel nofun
    · cases hv : values.lookup f.name with
      | none => rfl
      | some v =>
        rw [hv] at hvalid
        exact List.map_eq_nil_iff.mpr (List.isEmpty_iff.mp hvalid)

/-- The errors of the parts of a record, at a position. -/
def partErrors (lib : Lib) (messages : Messages τ) (type : RRType) (i : Nat) (values : Parts) :
    List ValidationError :=
  valueErrors lib messages type.rdata.fields (values.map fun p => (p.1, .json p.2))
    [.key "records", .index i]

theorem partErrors_eq_nil (i : Nat) (values : Parts) :
    partErrors lib messages type i values = [] ↔ type.rdata.valid lib values = true := by
  unfold partErrors RdataClass.valid
  rw [valueErrors_eq_nil]
  unfold valuesValid
  refine Eq.congr (congrArg (List.all _ ·) (funext fun f => ?_)) rfl
  rw [lookup_json]
  cases values.lookup f.name <;> rfl

theorem partErrors_index {i : Nat} {values : Parts} {e : ValidationError}
    (h : e ∈ partErrors lib messages type i values) : e.index = some i := by
  unfold partErrors valueErrors at h
  obtain ⟨f, -, he⟩ := List.mem_flatMap.mp h
  split at he
  · exact absurd he List.not_mem_nil
  · obtain ⟨c, -, rfl⟩ := List.mem_map.mp he
    rfl

theorem itemErrors_cons (i : Nat) (values : Parts) (more : List Parts) :
    itemErrors lib messages type i (values :: more) =
      partErrors lib messages type i values ++ itemErrors lib messages type (i + 1) more := rfl

/-! ## The positions that were left out -/

variable {dropped : List Nat} {i increment : Nat}

theorem skipDropped_run (dropped : List Nat) (fuel i increment : Nat) :
    ∃ m ≤ fuel, skipDropped dropped fuel i increment = (i + m, increment + m) ∧
      (∀ x, i ≤ x → x < i + m → x ∈ dropped) ∧ (i + m ∉ dropped ∨ m = fuel) := by
  induction fuel generalizing i increment with
  | zero => exact ⟨0, Nat.le_refl _, rfl, fun x _ _ => by omega, Or.inr rfl⟩
  | succ fuel ih =>
    -- as long as the place was left out, both numbers go up by one
    by_cases hi : i ∈ dropped
    · obtain ⟨m, hm, hrun, hall, hend⟩ := ih (i + 1) (increment + 1)
      refine ⟨m + 1, by omega, ?_, ?_, ?_⟩
      · rw [skipDropped, if_pos hi, hrun]
        exact Prod.ext (by omega) (by omega)
      · intro x hx hlt
        rcases Nat.eq_or_lt_of_le hx with rfl | hx
        · exact hi
        · exact hall x hx (by omega)
      · rcases hend with hout | hfuel
        · exact Or.inl (by rwa [Nat.add_assoc, Nat.add_comm 1 m] at hout)
        · exact Or.inr (by omega)
    · refine ⟨0, Nat.zero_le _, ?_, fun x _ _ => by omega, Or.inl hi⟩
      rw [skipDropped, if_neg hi]
      rfl

/-- The loop ends at the first position that was not left out. -/
theorem skipDropped_spec (dropped : List Nat) (i increment : Nat) :
    ∃ m, skipDropped dropped dropped.length i increment = (i + m, increment + m) ∧
      (∀ x, i ≤ x → x < i + m → x ∈ dropped) ∧ i + m ∉ dropped := by
  obtain ⟨m, -, hrun, hall, hend⟩ := skipDropped_run dropped dropped.length i increment
  refine ⟨m, hrun, hall, ?_⟩
  rcases hend with hout | rfl
  · exact hout
  · -- it has gone through as many of them as there are, so none is left to stand on
    intro hin
    have hsub : List.range' i (dropped.length + 1) ⊆ dropped := by
      intro x hx
      rw [List.mem_range'_1] at hx
      rcases Nat.eq_or_lt_of_le (Nat.le_of_lt_succ hx.2) with rfl | hlt
      · exact hin
      · exact hall x hx.1 hlt
    have hle := (List.subperm_of_subset List.nodup_range' hsub).length_le
    rw [List.length_range'] at hle
    omega

theorem reindex_cons_none {e : ValidationError} (h : e.index = none) (more : List ValidationError) :
    reindex dropped increment (e :: more) = e :: reindex dropped increment more := by
  rw [reindex, h]

theorem reindex_cons_some {e : ValidationError} {m : Nat} (h : e.index = some i)
    (hrun : skipDropped dropped dropped.length (i + increment) increment =
      (i + increment + m, increment + m)) (more : List ValidationError) :
    reindex dropped increment (e :: more) =
      e.setIndex (i + increment + m) :: reindex dropped (increment + m) more := by
  rw [reindex, h]
  dsimp only
  rw [hrun]

/-- A position that was not left out stays. -/
theorem skipDropped_stays (h : i ∉ dropped) (fuel : Nat) :
    skipDropped dropped fuel i increment = (i, increment) := by
  cases fuel with
  | zero => rfl
  | succ fuel => rw [skipDropped, if_neg h]

/-- The errors of one record all get the same position. -/
theorem reindex_block {es : List ValidationError} (hes : ∀ e ∈ es, e.index = some i)
    (hout : i + increment ∉ dropped) (more : List ValidationError) :
    reindex dropped increment (es ++ more) =
      (es.map fun e => e.setIndex (i + increment)) ++ reindex dropped increment more := by
  induction es with
  | nil => rfl
  | cons e es ih =>
    have hstays : skipDropped dropped dropped.length (i + increment) increment =
        (i + increment + 0, increment + 0) := skipDropped_stays hout _
    rw [List.cons_append, reindex_cons_some (hes e List.mem_cons_self) hstays]
    exact congrArg (_ :: ·) (ih fun e he => hes e (List.mem_cons_of_mem _ he))

/-- And the first of them says which. -/
theorem reindex_first {es : List ValidationError} (hes : ∀ e ∈ es, e.index = some i) (hne : es ≠ [])
    {m : Nat} (hrun : skipDropped dropped dropped.length (i + increment) increment =
      (i + increment + m, increment + m)) (hout : i + increment + m ∉ dropped)
    (more : List ValidationError) :
    reindex dropped increment (es ++ more) =
      (es.map fun e => e.setIndex (i + increment + m)) ++ reindex dropped (increment + m) more := by
  obtain ⟨e, es, rfl⟩ := List.exists_cons_of_ne_nil hne
  rw [List.cons_append, reindex_cons_some (hes e List.mem_cons_self) hrun,
    reindex_block (fun e he => hes e (List.mem_cons_of_mem _ he)) (by rwa [← Nat.add_assoc])]
  rw [← Nat.add_assoc]
  rfl

theorem reindex_eq_nil {es : List ValidationError} :
    reindex dropped increment es = [] ↔ es = [] := by
  cases es with
  | nil => exact Iff.rfl
  | cons e es =>
    rw [reindex]
    cases e.index with
    | none => exact ⟨nofun, nofun⟩
    | some i => exact ⟨nofun, nofun⟩

/-! ## What comes out of the loop -/

/-- What became of the records. -/
def kinds (lib : Lib) (type : RRType) (old : List RecordItem) : List Kind :=
  old.map fun r => kind lib type r.data

/-- The records that were taken apart. -/
def parsedRecords (lib : Lib) (type : RRType) (old : List RecordItem) : List Parts :=
  old.filterMap fun r => (type.rdata.fromString lib r.data).toOption

theorem parsedRecords_error {r : RecordItem} {e : Unparsed} (old : List RecordItem)
    (h : type.rdata.fromString lib r.data = .error e) :
    parsedRecords lib type (r :: old) = parsedRecords lib type old := by
  unfold parsedRecords
  rw [List.filterMap_cons, h]
  rfl

theorem parsedRecords_ok {r : RecordItem} {values : Parts} (old : List RecordItem)
    (h : type.rdata.fromString lib r.data = .ok values) :
    parsedRecords lib type (r :: old) = values :: parsedRecords lib type old := by
  unfold parsedRecords
  rw [List.filterMap_cons, h]
  rfl

theorem fromStrings_records (i : Nat) (old : List RecordItem) :
    (fromStrings lib messages type i old).records = parsedRecords lib type old := by
  induction old generalizing i with
  | nil => rfl
  | cons r old ih =>
    unfold fromStrings parsedRecords
    rw [List.filterMap_cons]
    cases type.rdata.fromString lib r.data with
    | error e => exact ih (i + 1)
    | ok values => exact congrArg (values :: ·) (ih (i + 1))

theorem fromStrings_errors (i : Nat) (old : List RecordItem) :
    (fromStrings lib messages type i old).errors.map ValidationError.index =
      (fromStrings lib messages type i old).errorIndexes.map some := by
  induction old generalizing i with
  | nil => rfl
  | cons r old ih =>
    unfold fromStrings
    cases type.rdata.fromString lib r.data with
    | error e => exact congrArg (some i :: ·) (ih (i + 1))
    | ok values => exact ih (i + 1)

/-- The positions that were left out are those of the records that could not be taken apart. -/
theorem mem_errorIndexes (i x : Nat) (old : List RecordItem) :
    x ∈ (fromStrings lib messages type i old).errorIndexes ↔
      i ≤ x ∧ (kinds lib type old)[x - i]? = some .fails := by
  induction old generalizing i with
  | nil => exact ⟨nofun, fun h => absurd h.2 (by simp [kinds])⟩
  | cons r old ih =>
    -- a position behind the head, counted from the next one
    have hstep : i ≤ x → i ≠ x → x - i = x - (i + 1) + 1 := by omega
    unfold fromStrings kinds
    rw [List.map_cons]
    cases hr : type.rdata.fromString lib r.data with
    | error e =>
      -- the head cannot be taken apart, so its position is left out
      dsimp only
      rw [List.mem_cons, ih (i + 1), kind_eq_fails hr]
      constructor
      · rintro (rfl | ⟨hx, hk⟩)
        · exact ⟨Nat.le_refl _, by rw [Nat.sub_self]; rfl⟩
        · refine ⟨by omega, ?_⟩
          rw [hstep (by omega) (by omega), List.getElem?_cons_succ]
          exact hk
      · rintro ⟨hx, hk⟩
        by_cases heq : i = x
        · exact Or.inl heq.symm
        · rw [hstep hx heq, List.getElem?_cons_succ] at hk
          exact Or.inr ⟨by omega, hk⟩
    | ok values =>
      -- the head can, so the position is a later one
      dsimp only
      rw [ih (i + 1), kind_eq_of_ok hr]
      constructor
      · rintro ⟨hx, hk⟩
        refine ⟨by omega, ?_⟩
        rw [hstep (by omega) (by omega), List.getElem?_cons_succ]
        exact hk
      · rintro ⟨hx, hk⟩
        by_cases heq : i = x
        · subst heq
          rw [Nat.sub_self, List.getElem?_cons_zero] at hk
          split at hk <;> exact absurd hk nofun
        · rw [hstep hx heq, List.getElem?_cons_succ] at hk
          exact ⟨by omega, hk⟩

/-! ## Where the positions come out right -/

/-- If one of them is bad, then the first that can be taken apart is. -/
def NextIsBad (ks : List Kind) : Prop :=
  .bad ∈ ks → (ks.filter fun k => k != .fails).head? = some .bad

/-- So it is after each record that cannot be taken apart. -/
def Aligned : List Kind → Prop
  | [] => True
  | .fails :: ks => NextIsBad ks ∧ Aligned ks
  | _ :: ks => Aligned ks

theorem nextIsBad_fails (ks : List Kind) : NextIsBad (.fails :: ks) ↔ NextIsBad ks := by
  unfold NextIsBad
  rw [List.filter_cons_of_neg (by decide), List.mem_cons]
  exact ⟨fun h hbad => h (Or.inr hbad), fun h hbad => h (hbad.resolve_left nofun)⟩

theorem nextIsBad_bad (ks : List Kind) : NextIsBad (.bad :: ks) := fun _ => rfl

theorem nextIsBad_good (ks : List Kind) : NextIsBad (.good :: ks) ↔ .bad ∉ ks := by
  unfold NextIsBad
  constructor
  · intro h hbad
    have hhead : some Kind.good = some Kind.bad := h (List.mem_cons_of_mem _ hbad)
    exact absurd hhead (by decide)
  · intro h hbad
    exact absurd (List.mem_of_ne_of_mem (by decide) hbad) h

theorem aligned_of_not_mem {ks : List Kind} (h : .bad ∉ ks) : Aligned ks := by
  induction ks with
  | nil => trivial
  | cons k ks ih =>
    have hrest : .bad ∉ ks := fun hbad => h (List.mem_cons_of_mem _ hbad)
    cases k with
    | fails => exact ⟨fun hbad => absurd hbad hrest, ih hrest⟩
    | bad => exact absurd List.mem_cons_self h
    | good => exact ih hrest

/-- What is left to go through, from position `p` on: the records, and what became of them. -/
structure Ahead (all : List Kind) (dropped : List Nat) (p : Nat) (ks : List Kind) : Prop where
  dropped : ∀ x, x ∈ dropped ↔ all[x]? = some .fails
  rest : ∀ n, all[p + n]? = ks[n]?

namespace Ahead

variable {all ks : List Kind} {k : Kind} {p : Nat}

theorem tail (h : Ahead all dropped p (k :: ks)) : Ahead all dropped (p + 1) ks :=
  ⟨h.dropped, fun n => by
    rw [Nat.add_assoc, Nat.add_comm 1 n, h.rest (n + 1), List.getElem?_cons_succ]⟩

theorem head (h : Ahead all dropped p (k :: ks)) : all[p]? = some k := h.rest 0

/-- The errors of a bad record at `p`, if all from where the loop is up to there was left out. -/
theorem reindex_bad (h : Ahead all dropped p (.bad :: ks)) (hle : i + increment ≤ p)
    (hfails : ∀ x, i + increment ≤ x → x < p → all[x]? = some .fails)
    {es : List ValidationError} (hes : ∀ e ∈ es, e.index = some i) (hne : es ≠ [])
    (more : List ValidationError) :
    ∃ m, i + increment + m = p ∧
      reindex dropped increment (es ++ more) =
        (es.map fun e => e.setIndex p) ++ reindex dropped (increment + m) more := by
  obtain ⟨m, hrun, hskipped, hout⟩ := skipDropped_spec dropped (i + increment) increment
  have hp : p ∉ dropped := by
    intro hin
    rw [h.dropped, h.head] at hin
    exact absurd hin (by decide)
  -- the loop stops at the first place that was not left out, which is the one of the bad record
  have hat : i + increment + m = p := by
    rcases Nat.lt_trichotomy (i + increment + m) p with hlt | heq | hgt
    · exact absurd ((h.dropped _).mpr (hfails _ (by omega) hlt)) hout
    · exact heq
    · exact absurd (hskipped p hle hgt) hp
  refine ⟨m, hat, ?_⟩
  rw [reindex_first hes hne hrun hout, hat]

/-- The records that were left out go on. -/
theorem fails_tail (h : Ahead all dropped p (.fails :: ks)) {j : Nat}
    (hfails : ∀ x, j ≤ x → x < p → all[x]? = some .fails) :
    ∀ x, j ≤ x → x < p + 1 → all[x]? = some .fails := by
  intro x hx hlt
  rcases Nat.lt_or_ge x p with hlt' | hge
  · exact hfails x hx hlt'
  · exact (show x = p by omega) ▸ h.head

/-- There is still no bad record. -/
theorem none_tail (h : Ahead all dropped p (k :: ks)) {j : Nat}
    (hnone : ∀ x, j ≤ x → x < p → all[x]? ≠ some .bad) (hk : some k ≠ some .bad) :
    ∀ x, j ≤ x → x < p + 1 → all[x]? ≠ some .bad := by
  intro x hx hlt
  rcases Nat.lt_or_ge x p with hlt' | hge
  · exact hnone x hx hlt'
  · rw [show x = p by omega, h.head]
    exact hk

/-- A bad record is further on. -/
theorem after (h : Ahead all dropped p (k :: ks)) {x : Nat} (hx : p ≤ x)
    (hbad : all[x]? = some .bad) (hk : some k ≠ some .bad) : p + 1 ≤ x := by
  have hne : x ≠ p := by
    rintro rfl
    exact hk (h.head.symm.trans hbad)
  omega

end Ahead

variable {old : List RecordItem}

/--
The errors of the records, one record after the other; `i` is the position among those that were
taken apart.
-/
inductive Blamed : Nat → List Kind → List ValidationError → Prop where
  | nil (i : Nat) : Blamed i [] []
  | fails {i : Nat} {ks : List Kind} {es : List ValidationError} :
      Blamed i ks es → Blamed i (.fails :: ks) es
  | good {i : Nat} {ks : List Kind} {es : List ValidationError} :
      Blamed (i + 1) ks es → Blamed i (.good :: ks) es
  | bad {i : Nat} {ks : List Kind} {own es : List ValidationError} :
      (∀ e ∈ own, e.index = some i) → own ≠ [] → Blamed (i + 1) ks es →
      Blamed i (.bad :: ks) (own ++ es)

theorem blamed_itemErrors (i : Nat) (old : List RecordItem) :
    Blamed i (kinds lib type old)
      (itemErrors lib messages type i (parsedRecords lib type old)) := by
  induction old generalizing i with
  | nil => exact .nil i
  | cons r old ih =>
    have hks : kinds lib type (r :: old) = kind lib type r.data :: kinds lib type old := rfl
    rw [hks]
    cases hr : type.rdata.fromString lib r.data with
    | error e =>
      rw [parsedRecords_error old hr, kind_eq_fails hr]
      exact (ih i).fails
    | ok values =>
      rw [parsedRecords_ok old hr, itemErrors_cons, kind_eq_of_ok hr]
      -- a record that parses is good or bad; one that does not is left out and shifts the others
      by_cases hvalid : type.rdata.valid lib values = true
      · rw [if_pos hvalid, (partErrors_eq_nil i values).mpr hvalid]
        exact (ih (i + 1)).good
      · rw [if_neg hvalid]
        refine .bad (fun e he => partErrors_index he) (fun hnil => ?_) (ih (i + 1))
        exact hvalid ((partErrors_eq_nil i values).mp hnil)

section

variable {all ks : List Kind} {es : List ValidationError} {p : Nat}

/-- Something is wrong with what was taken apart if a record is bad. -/
theorem Blamed.eq_nil (h : Blamed i ks es) : es = [] ↔ .bad ∉ ks := by
  induction h with
  | nil i => exact ⟨fun _ => List.not_mem_nil, fun _ => rfl⟩
  | fails _ ih =>
    rw [ih, List.mem_cons, not_or]
    exact (and_iff_right nofun).symm
  | good _ ih =>
    rw [ih, List.mem_cons, not_or]
    exact (and_iff_right nofun).symm
  | bad _ hne _ _ =>
    refine iff_of_false (fun hnil => hne (List.append_eq_nil_iff.mp hnil).1) fun hno => ?_
    exact hno List.mem_cons_self

/--
The position the loop is at is before `p`, and every record from there on was left out: the
positions come out right, for as long as the records ahead are aligned for it.
-/
theorem reindex_right (h : Blamed i ks es) (hahead : Ahead all dropped p ks)
    (hle : i + increment ≤ p)
    (hfails : ∀ x, i + increment ≤ x → x < p → all[x]? = some .fails)
    (haligned : Aligned ks) (hnext : i + increment = p ∨ NextIsBad ks) :
    (∀ e ∈ reindex dropped increment es, ∃ x, e.index = some x ∧ all[x]? = some .bad) ∧
    ∀ x, p ≤ x → all[x]? = some .bad → ∃ e ∈ reindex dropped increment es, e.index = some x := by
  induction h generalizing p increment with
  | nil i =>
    refine ⟨fun e he => absurd he List.not_mem_nil, fun x hx hbad => ?_⟩
    have hnone := hahead.rest (x - p)
    rw [Nat.add_sub_cancel' hx, hbad] at hnone
    exact absurd hnone nofun
  -- a record that was left out: the loop stays where it is
  | @fails i ks es _ ih =>
    obtain ⟨hright, hall⟩ := ih hahead.tail (by omega) (hahead.fails_tail hfails) haligned.2
      (Or.inr haligned.1)
    refine ⟨hright, fun x hx hbad => hall x ?_ hbad⟩
    exact hahead.after hx hbad (by decide)
  | @good i ks es hrest ih =>
    rcases hnext with heq | hnext
    · obtain ⟨hright, hall⟩ := ih hahead.tail (show i + 1 + increment ≤ p + 1 by omega)
        (fun x hx hlt => by omega) haligned (Or.inl (by omega))
      exact ⟨hright, fun x hx hbad => hall x (hahead.after hx hbad (by decide)) hbad⟩
    · -- nothing is bad any more
      rw [nextIsBad_good] at hnext
      rw [hrest.eq_nil.mpr hnext]
      refine ⟨fun e he => absurd he List.not_mem_nil, fun x hx hbad => ?_⟩
      have hlt : p + 1 ≤ x := hahead.after hx hbad (by decide)
      have hget := hahead.tail.rest (x - (p + 1))
      rw [Nat.add_sub_cancel' hlt, hbad] at hget
      exact absurd (List.mem_of_getElem? hget.symm) hnext
  | @bad i ks own es hown hne _ ih =>
    -- the first error here makes the loop catch up with `p`
    obtain ⟨m, hat, hreindex⟩ := hahead.reindex_bad hle hfails hown hne es
    rw [hreindex]
    obtain ⟨hright, hall⟩ := ih hahead.tail (show i + 1 + (increment + m) ≤ p + 1 by omega)
      (fun x hx hlt => by omega) haligned (Or.inl (by omega))
    constructor
    · intro e he
      rcases List.mem_append.mp he with he | he
      · obtain ⟨e', he', rfl⟩ := List.mem_map.mp he
        exact ⟨p, ValidationError.index_setIndex (hown e' he'), hahead.head⟩
      · exact hright e he
    · intro x hx hbad
      by_cases heq : x = p
      · obtain ⟨e, he⟩ := List.exists_mem_of_ne_nil own hne
        refine ⟨e.setIndex p, List.mem_append_left _ (List.mem_map_of_mem he), ?_⟩
        rw [heq]
        exact ValidationError.index_setIndex (hown e he)
      · obtain ⟨e, he, hindex⟩ := hall x (by omega) hbad
        exact ⟨e, List.mem_append_right _ he, hindex⟩

/--
The position the loop is at is before `p`, a valid record stands in between and no bad one: the
next position that is put right becomes that of a valid record.
-/
theorem reindex_wrong (h : Blamed i ks es) (hahead : Ahead all dropped p ks)
    (hnone : ∀ x, i + increment ≤ x → x < p → all[x]? ≠ some .bad)
    (hgood : ∃ x, i + increment ≤ x ∧ x < p ∧ all[x]? = some .good) (hbad : .bad ∈ ks) :
    ∃ e ∈ reindex dropped increment es, ∃ x, e.index = some x ∧ all[x]? = some .good := by
  induction h generalizing p increment with
  | nil i => exact absurd hbad List.not_mem_nil
  | @fails i ks es _ ih =>
    -- the valid record stays behind
    obtain ⟨x, hx, hlt, hk⟩ := hgood
    exact ih hahead.tail (hahead.none_tail hnone (by decide)) ⟨x, hx, by omega, hk⟩
      (List.mem_of_ne_of_mem (by decide) hbad)
  | @good i ks es _ ih =>
    obtain ⟨x, hx, hlt, -⟩ := hgood
    exact ih hahead.tail (fun x hx => hahead.none_tail hnone (by decide) x (by omega))
      ⟨p, by omega, by omega, hahead.head⟩ (List.mem_of_ne_of_mem (by decide) hbad)
  | @bad i ks own es hown hne _ ih =>
    obtain ⟨m, hrun, hskipped, hout⟩ := skipDropped_spec dropped (i + increment) increment
    rw [reindex_first hown hne hrun hout]
    -- the loop does not get past the valid record
    obtain ⟨x, hx, hlt, hk⟩ := hgood
    have hstop : i + increment + m ≤ x := by
      by_contra hpast
      have hin := (hahead.dropped x).mp (hskipped x hx (by omega))
      rw [hk] at hin
      exact absurd hin (by decide)
    have hsome : i + increment + m < all.length := by
      have hlen := (List.getElem?_eq_some_iff.mp hk).1
      omega
    have hat : all[i + increment + m]? = some .good := by
      have hnotbad := hnone (i + increment + m) (by omega) (by omega)
      have hnotfails := fun h => hout ((hahead.dropped _).mpr h)
      rw [List.getElem?_eq_getElem hsome] at hnotbad hnotfails ⊢
      cases hkind : all[i + increment + m] with
      | fails => exact absurd (congrArg some hkind) hnotfails
      | bad => exact absurd (congrArg some hkind) hnotbad
      | good => rfl
    obtain ⟨e, he⟩ := List.exists_mem_of_ne_nil own hne
    exact ⟨_, List.mem_append_left _ (List.mem_map_of_mem he), _,
      ValidationError.index_setIndex (hown e he), hat⟩

/-- If the records ahead are not aligned for it, some position becomes that of a valid record. -/
theorem reindex_misplaced (h : Blamed i ks es) (hahead : Ahead all dropped p ks)
    (hle : i + increment ≤ p)
    (hfails : ∀ x, i + increment ≤ x → x < p → all[x]? = some .fails)
    (hnot : ¬ (Aligned ks ∧ (i + increment = p ∨ NextIsBad ks))) :
    ∃ e ∈ reindex dropped increment es, ∃ x, e.index = some x ∧ all[x]? = some .good := by
  induction h generalizing p increment with
  | nil i => exact absurd ⟨trivial, Or.inr fun hbad => absurd hbad List.not_mem_nil⟩ hnot
  | @fails i ks es _ ih =>
    refine ih hahead.tail (by omega) (hahead.fails_tail hfails) fun h => hnot ?_
    have hnext : NextIsBad ks := h.2.resolve_left (by omega)
    exact ⟨⟨hnext, h.1⟩, Or.inr ((nextIsBad_fails _).mpr hnext)⟩
  | @good i ks es hrest ih =>
    by_cases heq : i + increment = p
    · refine ih hahead.tail (by omega) (fun x hx hlt => by omega) fun h => hnot ?_
      exact ⟨h.1, Or.inl heq⟩
    · -- a valid record after one that was left out, and a bad one to come
      have hbad : .bad ∈ ks := by
        by_contra hno
        have haligned : Aligned ks := aligned_of_not_mem hno
        exact hnot ⟨haligned, Or.inr ((nextIsBad_good _).mpr hno)⟩
      have hnone : ∀ x, i + increment ≤ x → x < p → all[x]? ≠ some .bad := by
        intro x hx hlt
        rw [hfails x hx hlt]
        decide
      exact reindex_wrong hrest hahead.tail
        (fun x hx => hahead.none_tail hnone (by decide) x (by omega))
        ⟨p, by omega, by omega, hahead.head⟩ hbad
  | @bad i ks own es hown hne _ ih =>
    obtain ⟨m, hat, hreindex⟩ := hahead.reindex_bad hle hfails hown hne es
    rw [hreindex]
    obtain ⟨e, he, x, hx⟩ := ih hahead.tail (show i + 1 + (increment + m) ≤ p + 1 by omega)
      (fun x hx hlt => by omega) fun h => hnot ⟨h.1, Or.inr (nextIsBad_bad _)⟩
    exact ⟨e, List.mem_append_right _ he, x, hx⟩

end

/-! ## What comes of a validation -/

variable {supported : List RRType} {obj : RecordSetObject τ}

/-- The object while it is validated. -/
def RecordSetObject.during (lib : Lib) (type : RRType) (obj : RecordSetObject τ)
    (old : List RecordItem) : RecordSetObject τ where
  values := obj.values
  nameFormat := type.rdata.nameFormat.getD obj.nameFormat
  records := some ((parsedRecords lib type old).map (RecordItem.rdata type))

/-- What is wrong with the fields that are no relations, and what is missing. -/
def RecordSetObject.fieldErrors (lib : Lib) (messages : Messages τ) (type : RRType)
    (obj : RecordSetObject τ) : List ValidationError :=
  let fields := recordSetFields (type.rdata.nameFormat.getD obj.nameFormat)
  missingErrors messages fields
      (fun name => (obj.values.lookup name).isSome || name == "records") [] ++
    valueErrors lib messages fields obj.values []

theorem during_schemaErrors (obj : RecordSetObject τ) (old : List RecordItem) :
    (obj.during lib type old).schemaErrors lib messages type =
      obj.fieldErrors lib messages type ++
        itemErrors lib messages type 0 (parsedRecords lib type old) := by
  have hvalues : ((parsedRecords lib type old).map (RecordItem.rdata type)).map RecordItem.values =
      parsedRecords lib type old := by
    rw [List.map_map]
    exact List.map_id _
  unfold RecordSetObject.schemaErrors RecordSetObject.during
  dsimp only [Option.getD_some, Option.isSome_some]
  rw [hvalues]
  simp only [Bool.and_true]
  rfl

/-- All that is wrong with the object. -/
def RecordSetObject.complaints (lib : Lib) (messages : Messages τ) (type : RRType)
    (obj : RecordSetObject τ) (old : List RecordItem) : List ValidationError :=
  reindex (fromStrings lib messages type 0 old).errorIndexes 0
      ((obj.during lib type old).schemaErrors lib messages type) ++
    (fromStrings lib messages type 0 old).errors

/-- What is left of the object where something is wrong with it. -/
def RecordSetObject.spoilt (lib : Lib) (type : RRType) (obj : RecordSetObject τ)
    (old : List RecordItem) : RecordSetObject τ :=
  { obj with records := some ((parsedRecords lib type old).map (RecordItem.rdata type)) }

theorem recordClass_state (obj : RecordSetObject τ) :
    (recordClass messages supported obj).2 = obj := by
  unfold recordClass
  rw [Exec.bind_apply, Exec.read_apply]
  dsimp only
  cases classOf (obj.type messages) with
  | none => dsimp only; split <;> rfl
  | some t => dsimp only; split <;> rfl

/-- The type is refused: nothing happens to the object. -/
theorem validate_refused {e : Refused} (h : (recordClass messages supported obj).1 = .error e) :
    RecordSetObject.validate lib messages supported obj = (.error e, obj) := by
  have hrun : recordClass messages supported obj = (.error e, obj) :=
    Prod.ext h (recordClass_state obj)
  unfold RecordSetObject.validate
  rw [Exec.bind_apply, hrun]

/-- What the `try` block does with the object while it is validated. -/
theorem validateParsed_during (old : List RecordItem) :
    validateParsed lib messages type (fromStrings lib messages type 0 old)
        (obj.during lib type old) =
      (match obj.complaints lib messages type old with
        | [] => .ok ()
        | errors => .error (.InvalidObject noMatch errors), obj.during lib type old) := by
  unfold validateParsed designateValidate RecordSetObject.complaints
  rw [Exec.read_apply]
  -- without an error of the schema, the errors of parsing are all there is
  cases herrors : (obj.during lib type old).schemaErrors lib messages type with
  | nil =>
    dsimp only
    rw [reindex, List.nil_append]
    cases (fromStrings lib messages type 0 old).errors with
    | nil => rfl
    | cons e es => rfl
  | cons e es =>
    dsimp only
    cases hall : reindex (fromStrings lib messages type 0 old).errorIndexes 0 (e :: es) with
    | nil => exact absurd (reindex_eq_nil.mp hall) nofun
    | cons e' es' => rfl

section

variable {type : RRType} (hclass : (recordClass messages supported obj).1 = .ok type)

include hclass

/-- The records are not loaded: the format of the name has been changed by then. -/
theorem validate_unloaded (hrecords : obj.records = none) :
    RecordSetObject.validate lib messages supported obj =
      (.error .RelationNotLoaded,
        { obj with nameFormat := type.rdata.nameFormat.getD obj.nameFormat }) := by
  have hrun : recordClass messages supported obj = (.ok type, obj) :=
    Prod.ext hclass (recordClass_state obj)
  unfold RecordSetObject.validate
  rw [Exec.bind_ok hrun]
  simp only [Exec.bind_apply, Exec.read_apply, Exec.modify_apply, hrecords]

/--
Nothing is wrong with the object, and it is what it was; or something is, and it keeps the list
that was validated.
-/
theorem validate_loaded {old : List RecordItem} (hrecords : obj.records = some old) :
    RecordSetObject.validate lib messages supported obj =
      match obj.complaints lib messages type old with
      | [] => (.ok (), obj)
      | errors => (.error (.InvalidObject noMatch errors), obj.spoilt lib type old) := by
  have hrun : recordClass messages supported obj = (.ok type, obj) :=
    Prod.ext hclass (recordClass_state obj)
  -- what is validated in between holds the parsed records
  have hparsed : ({ values := obj.values, nameFormat := type.rdata.nameFormat.getD obj.nameFormat
                    records := some ((fromStrings lib messages type 0 old).records.map
                      (RecordItem.rdata type)) } : RecordSetObject τ) = obj.during lib type old := by
    rw [fromStrings_records]
    rfl
  have hformat : (if type.rdata.nameFormat.isSome = true then obj.nameFormat
      else type.rdata.nameFormat.getD obj.nameFormat) = obj.nameFormat := by
    cases type.rdata.nameFormat <;> rfl
  -- and where nothing is wrong the records are put back
  have hrestored : ({ obj with records := some old } : RecordSetObject τ) = obj := by
    rw [← hrecords]
  unfold RecordSetObject.validate
  rw [Exec.bind_ok hrun]
  simp only [Exec.bind_apply, Exec.read_apply, Exec.modify_apply, hrecords, hparsed,
    Exec.ensuring, validateParsed_during]
  unfold RecordSetObject.during RecordSetObject.spoilt
  cases obj.complaints lib messages type old with
  | nil =>
    dsimp only
    rw [hformat, hrestored]
  | cons e es =>
    dsimp only
    rw [hformat]

/-- What `validate` reports. -/
theorem validate_errors {old : List RecordItem} (hrecords : obj.records = some old) :
    (RecordSetObject.validate lib messages supported obj).1 =
      match obj.complaints lib messages type old with
      | [] => .ok ()
      | errors => .error (.InvalidObject noMatch errors) := by
  rw [validate_loaded hclass hrecords]
  cases obj.complaints lib messages type old <;> rfl

end

/-! ## The positions of errors -/

/-- The errors `validate` raises with. -/
def reported (lib : Lib) (messages : Messages τ) (supported : List RRType)
    (obj : RecordSetObject τ) : List ValidationError :=
  match (RecordSetObject.validate lib messages supported obj).1 with
  | .ok _ => []
  | .error e => e.errors

/-- Every position that is reported is that of an invalid record, and every invalid one is. -/
structure ReportsRight (lib : Lib) (messages : Messages τ) (supported : List RRType)
    (obj : RecordSetObject τ) : Prop where
  right : ∀ e ∈ reported lib messages supported obj, ∀ x, e.index = some x →
    ∃ type old k, (recordClass messages supported obj).1 = .ok type ∧ obj.records = some old ∧
      (kinds lib type old)[x]? = some k ∧ k ≠ .good
  all : ∀ type old x k, (recordClass messages supported obj).1 = .ok type →
    obj.records = some old → (kinds lib type old)[x]? = some k → k ≠ .good →
      ∃ e ∈ reported lib messages supported obj, e.index = some x

theorem reported_loaded {old : List RecordItem}
    (hclass : (recordClass messages supported obj).1 = .ok type) (hrecords : obj.records = some old) :
    reported lib messages supported obj = obj.complaints lib messages type old := by
  unfold reported
  rw [validate_errors hclass hrecords]
  cases obj.complaints lib messages type old <;> rfl

/-- A type that is refused is no matter of a record. -/
theorem recordClass_index {e : Refused} (h : (recordClass messages supported obj).1 = .error e) :
    ∀ err ∈ e.errors, err.index = none := by
  -- each refusal names the type of the recordset
  have hfail : ∀ message : String,
      ((validateFail (obj.type messages) message : Exec (RecordSetObject τ) Refused RRType) obj).1 =
        .error e → ∀ err ∈ e.errors, err.index = none := by
    intro message hraise err herr
    obtain rfl := Except.error.inj hraise
    rw [List.mem_singleton.mp herr]
    rfl
  unfold recordClass at h
  rw [Exec.bind_apply, Exec.read_apply] at h
  dsimp only at h
  cases hclass : classOf (obj.type messages) with
  | some t =>
    rw [hclass] at h
    dsimp only at h
    by_cases hin : supported.contains t = true
    · rw [if_pos hin] at h
      exact absurd h nofun
    · rw [if_neg hin] at h
      exact hfail _ h
  | none =>
    rw [hclass] at h
    dsimp only at h
    by_cases hother : isClass (obj.type messages) = true
    · rw [if_pos hother] at h
      exact hfail _ h
    · rw [if_neg hother] at h
      exact hfail _ h

/-- Neither is what is wrong with the fields. -/
theorem fieldErrors_index {e : ValidationError} (h : e ∈ obj.fieldErrors lib messages type) :
    e.index = none := by
  unfold RecordSetObject.fieldErrors at h
  rcases List.mem_append.mp h with h | h
  · obtain ⟨name, -, rfl⟩ := List.mem_map.mp h
    rfl
  · obtain ⟨f, -, he⟩ := List.mem_flatMap.mp h
    split at he
    · exact absurd he List.not_mem_nil
    · obtain ⟨c, -, rfl⟩ := List.mem_map.mp he
      rfl

theorem reindex_none {es : List ValidationError} (h : ∀ e ∈ es, e.index = none)
    (more : List ValidationError) :
    reindex dropped increment (es ++ more) = es ++ reindex dropped increment more := by
  induction es with
  | nil => rfl
  | cons e es ih =>
    rw [List.cons_append, reindex_cons_none (h e List.mem_cons_self),
      ih fun e he => h e (List.mem_cons_of_mem _ he)]
    rfl

/-- The errors of an object: of its fields, of what was taken apart, and of what was not. -/
theorem complaints_eq (obj : RecordSetObject τ) (old : List RecordItem) :
    obj.complaints lib messages type old =
      obj.fieldErrors lib messages type ++
        (reindex (fromStrings lib messages type 0 old).errorIndexes 0
          (itemErrors lib messages type 0 (parsedRecords lib type old)) ++
        (fromStrings lib messages type 0 old).errors) := by
  unfold RecordSetObject.complaints
  rw [during_schemaErrors, reindex_none fun e he => fieldErrors_index he, List.append_assoc]

/-- All the records are ahead at the start of the loop. -/
theorem ahead_start (old : List RecordItem) :
    Ahead (kinds lib type old) (fromStrings lib messages type 0 old).errorIndexes 0
      (kinds lib type old) :=
  ⟨fun x => by rw [mem_errorIndexes, Nat.sub_zero, and_iff_right (Nat.zero_le x)],
    fun n => by rw [Nat.zero_add]⟩

/-- The positions of what was taken apart come out right where the records are aligned for it. -/
theorem loop_right (h : Aligned (kinds lib type old)) :
    (∀ e ∈ reindex (fromStrings lib messages type 0 old).errorIndexes 0
        (itemErrors lib messages type 0 (parsedRecords lib type old)),
      ∃ x, e.index = some x ∧ (kinds lib type old)[x]? = some .bad) ∧
    ∀ x : Nat, (kinds lib type old)[x]? = some .bad →
      ∃ e ∈ reindex (fromStrings lib messages type 0 old).errorIndexes 0
        (itemErrors lib messages type 0 (parsedRecords lib type old)), e.index = some x := by
  obtain ⟨hright, hall⟩ := reindex_right (blamed_itemErrors 0 old) (ahead_start old)
    (show 0 + 0 ≤ 0 from Nat.le_refl 0)
    (fun x _ hx => by omega) h (Or.inl (Nat.add_zero 0))
  exact ⟨hright, fun x hbad => hall x (Nat.zero_le x) hbad⟩

/-- The texts that could not be taken apart are reported at their positions. -/
theorem fromStrings_index {x : Nat} (old : List RecordItem) :
    (∃ e ∈ (fromStrings lib messages type 0 old).errors, e.index = some x) ↔
      (kinds lib type old)[x]? = some .fails := by
  have hmem : (∃ e ∈ (fromStrings lib messages type 0 old).errors, e.index = some x) ↔
      some x ∈ (fromStrings lib messages type 0 old).errors.map ValidationError.index :=
    List.mem_map.symm
  rw [hmem, fromStrings_errors, List.mem_map_of_injective (Option.some_injective _),
    mem_errorIndexes, Nat.sub_zero, and_iff_right (Nat.zero_le x)]

/-- Records that are not aligned for it make a valid one be reported. -/
theorem ReportsRight.aligned (h : ReportsRight lib messages supported obj) {old : List RecordItem}
    (hclass : (recordClass messages supported obj).1 = .ok type)
    (hrecords : obj.records = some old) : Aligned (kinds lib type old) := by
  by_contra hnot
  obtain ⟨e, he, x, hx, hgood⟩ :
      ∃ e ∈ reindex (fromStrings lib messages type 0 old).errorIndexes 0
        (itemErrors lib messages type 0 (parsedRecords lib type old)),
        ∃ x, e.index = some x ∧ (kinds lib type old)[x]? = some .good :=
    reindex_misplaced (blamed_itemErrors 0 old) (ahead_start old) (Nat.le_refl 0)
      (fun x _ hx => by omega) fun haligned => hnot haligned.1
  have hmem : e ∈ reported lib messages supported obj := by
    rw [reported_loaded hclass hrecords, complaints_eq]
    exact List.mem_append_right _ (List.mem_append_left _ he)
  obtain ⟨type', old', k, hclass', hrecords', hk, hne⟩ := h.right e hmem x hx
  obtain rfl := Except.ok.inj (hclass.symm.trans hclass')
  obtain rfl := Option.some.inj (hrecords.symm.trans hrecords')
  exact hne (Option.some.inj (hk.symm.trans hgood))

/--
**The positions that are reported are those of the invalid records exactly where after each record
that cannot be taken apart the next one that can is bad, if any later one is.**
-/
theorem reportsRight_iff (lib : Lib) (messages : Messages τ) (supported : List RRType)
    (obj : RecordSetObject τ) :
    ReportsRight lib messages supported obj ↔
      ∀ type old, (recordClass messages supported obj).1 = .ok type → obj.records = some old →
        Aligned (kinds lib type old) := by
  constructor
  · intro h type old hclass hrecords
    exact h.aligned hclass hrecords
  · intro h
    constructor
    · intro e he x hx
      cases hclass : (recordClass messages supported obj).1 with
      | error refused =>
        unfold reported at he
        rw [validate_refused hclass] at he
        rw [recordClass_index hclass e he] at hx
        exact absurd hx nofun
      | ok type =>
        cases hrecords : obj.records with
        | none =>
          unfold reported at he
          rw [validate_unloaded hclass hrecords] at he
          exact absurd he List.not_mem_nil
        | some old =>
          rw [reported_loaded hclass hrecords, complaints_eq] at he
          rcases List.mem_append.mp he with he | he
          · rw [fieldErrors_index he] at hx
            exact absurd hx nofun
          · -- what is reported of the fields has no index; the rest is of a bad record or a
            -- broken one
            rcases List.mem_append.mp he with he | he
            · obtain ⟨y, hy, hbad⟩ := (loop_right (h type old hclass hrecords)).1 e he
              obtain rfl := Option.some.inj (hy.symm.trans hx)
              exact ⟨type, old, .bad, rfl, rfl, hbad, by decide⟩
            · exact ⟨type, old, .fails, rfl, rfl, (fromStrings_index old).mp ⟨e, he, hx⟩,
                by decide⟩
    · intro type old x k hclass hrecords hk hne
      rw [reported_loaded hclass hrecords, complaints_eq]
      -- every invalid record is reported at its own position
      cases k with
      | good => exact absurd rfl hne
      | bad =>
        obtain ⟨e, he, hx⟩ := (loop_right (h type old hclass hrecords)).2 x hk
        exact ⟨e, List.mem_append_right _ (List.mem_append_left _ he), hx⟩
      | fails =>
        obtain ⟨e, he, hx⟩ := (fromStrings_index old).mpr hk
        exact ⟨e, List.mem_append_right _ (List.mem_append_right _ he), hx⟩

namespace Sample

/-- The texts of libraries, which no result looks at. -/
def silent : Messages Unit := ⟨fun _ => "", fun _ => "", fun _ _ => "", fun _ => ""⟩

/-- A recordset of the type MX with records of these texts. -/
def exchanges (texts : List String) : RecordSetObject Unit where
  values :=
    [("name", .json (.str "example.com.")), ("type", .json (.str "MX")), ("ttl", .json .null),
     ("description", .json .null)]
  records := some (texts.map fun s => .record (.str s))

end Sample

/-- One record that cannot be taken apart, a valid one, and one with too high a priority. -/
theorem valid_reported :
    ¬ ∀ (lib : Lib) (messages : Messages Unit) (supported : List RRType)
      (obj : RecordSetObject Unit), ReportsRight lib messages supported obj := by
  intro h
  have hright := h {} Sample.silent [.MX] (Sample.exchanges ["x", "7 a.", "65536 a."])
  have haligned : Aligned (kinds {} .MX
      (["x", "7 a.", "65536 a."].map fun s => .record (.str s))) := hright.aligned rfl rfl
  have hkinds : kinds {} .MX (["x", "7 a.", "65536 a."].map fun s => .record (.str s)) =
      [.fails, .good, .bad] := by decide
  rw [hkinds] at haligned
  have hhead : some Kind.good = some Kind.bad := haligned.1 (by decide)
  exact absurd hhead (by decide)

/-! ## What is left of the object -/

/-- The object is what it was, and the next validation ends like this one. -/
structure LeftAlone (lib : Lib) (messages : Messages τ) (supported : List RRType)
    (obj : RecordSetObject τ) : Prop where
  same : (RecordSetObject.validate lib messages supported obj).2 = obj
  again : (RecordSetObject.validate lib messages supported
      (RecordSetObject.validate lib messages supported obj).2).1 =
    (RecordSetObject.validate lib messages supported obj).1

/-- A recordset with `Record` objects of these data, if they are loaded. -/
def RecordSetObject.ofRecords (values : List (String × Plain τ)) (nameFormat : Format)
    (data : Option (List Json)) : RecordSetObject τ where
  values := values
  nameFormat := nameFormat
  records := data.map fun data => data.map RecordItem.record

/-- The fields pass the schema, with the format the type gives the name, and none is missing. -/
def RecordSetObject.fieldsValid (lib : Lib) (type : RRType) (obj : RecordSetObject τ) : Bool :=
  let fields := recordSetFields (type.rdata.nameFormat.getD obj.nameFormat)
  ((fields.filter FieldDef.required).all fun f =>
      (obj.values.lookup f.name).isSome || f.name == "records") &&
    valuesValid lib fields obj.values

theorem fieldErrors_eq_nil :
    obj.fieldErrors lib messages type = [] ↔ obj.fieldsValid lib type = true := by
  unfold RecordSetObject.fieldErrors RecordSetObject.fieldsValid missingErrors
  dsimp only
  rw [List.append_eq_nil_iff, valueErrors_eq_nil, Bool.and_eq_true, List.map_eq_nil_iff,
    List.filter_eq_nil_iff, List.all_eq_true]
  refine and_congr ?_ Iff.rfl
  constructor
  · intro h f hf
    have hset := h f.name (List.mem_map_of_mem hf)
    rwa [Bool.not_eq_true, Bool.not_eq_false'] at hset
  · intro h name hname
    obtain ⟨f, hf, rfl⟩ := List.mem_map.mp hname
    rw [h f hf]
    decide

/-- Nothing is wrong with an object whose fields and records are all valid. -/
theorem complaints_eq_nil (obj : RecordSetObject τ) (old : List RecordItem) :
    obj.complaints lib messages type old = [] ↔
      obj.fieldsValid lib type = true ∧ ∀ r ∈ old, kind lib type r.data = .good := by
  -- no error of parsing means that every record could be taken apart
  have hfails : (fromStrings lib messages type 0 old).errors = [] ↔
      .fails ∉ kinds lib type old := by
    rw [List.eq_nil_iff_forall_not_mem]
    constructor
    · intro h hmem
      obtain ⟨x, hx⟩ := List.getElem?_of_mem hmem
      obtain ⟨e, he, -⟩ := (fromStrings_index old).mpr hx
      exact h e he
    · intro h e he
      have hindex : e.index ∈ (fromStrings lib messages type 0 old).errorIndexes.map some := by
        rw [← fromStrings_errors]
        exact List.mem_map_of_mem he
      obtain ⟨x, -, hx⟩ := List.mem_map.mp hindex
      exact h (List.mem_of_getElem? ((fromStrings_index old).mp ⟨e, he, hx.symm⟩))
  rw [complaints_eq, List.append_eq_nil_iff, List.append_eq_nil_iff, reindex_eq_nil,
    (blamed_itemErrors 0 old).eq_nil, hfails, fieldErrors_eq_nil]
  refine and_congr Iff.rfl ?_
  constructor
  · rintro ⟨hbad, hfails⟩ r hr
    have hmem : kind lib type r.data ∈ kinds lib type old := List.mem_map_of_mem hr
    cases hk : kind lib type r.data with
    | fails => exact absurd (hk ▸ hmem) hfails
    | bad => exact absurd (hk ▸ hmem) hbad
    | good => rfl
  · intro h
    have hgood : ∀ k ∈ kinds lib type old, k = .good := by
      intro k hk
      obtain ⟨r, hr, rfl⟩ := List.mem_map.mp hk
      exact h r hr
    exact ⟨fun hbad => absurd (hgood _ hbad) nofun, fun hfails => absurd (hgood _ hfails) nofun⟩

/--
The type is refused; or the records are not loaded, and the type has no other format for the name;
or there are no records; or everything is valid.
-/
def RecordSetObject.Spared (lib : Lib) (messages : Messages τ) (supported : List RRType)
    (obj : RecordSetObject τ) : Prop :=
  ∀ type, (recordClass messages supported obj).1 = .ok type →
    (obj.records = none → type.rdata.nameFormat.getD obj.nameFormat = obj.nameFormat) ∧
      ∀ old, obj.records = some old → old = [] ∨
        (obj.fieldsValid lib type = true ∧ ∀ r ∈ old, kind lib type r.data = .good)

theorem leftAlone_of_spared (h : obj.Spared lib messages supported) :
    LeftAlone lib messages supported obj := by
  have hsame : (RecordSetObject.validate lib messages supported obj).2 = obj := by
    cases hclass : (recordClass messages supported obj).1 with
    | error e => rw [validate_refused hclass]
    | ok type =>
      obtain ⟨hnone, hsome⟩ := h type hclass
      cases hrecords : obj.records with
      | none =>
        rw [validate_unloaded hclass hrecords]
        dsimp only
        rw [hnone hrecords]
      | some old =>
        rw [validate_loaded hclass hrecords]
        -- an empty list is put back as it was; a list that is not has to be valid as a whole
        rcases hsome old hrecords with rfl | hvalid
        · cases obj.complaints lib messages type [] with
          | nil => rfl
          | cons e es =>
            show ({ obj with records := some [] } : RecordSetObject τ) = obj
            rw [← hrecords]
        · rw [(complaints_eq_nil obj old).mpr hvalid]
  exact ⟨hsame, by rw [hsame]⟩

/-- Where something is wrong, what is left is objects of another class than `Record`. -/
theorem LeftAlone.spared {values : List (String × Plain τ)} {nameFormat : Format}
    {data : Option (List Json)}
    (h : LeftAlone lib messages supported (.ofRecords values nameFormat data)) :
    (RecordSetObject.ofRecords values nameFormat data).Spared lib messages supported := by
  intro type hclass
  have hsame := h.same
  cases data with
  | none =>
    -- without records only the format of the name can be lost
    rw [validate_unloaded hclass rfl] at hsame
    exact ⟨fun _ => congrArg RecordSetObject.nameFormat hsame, nofun⟩
  | some ds =>
    refine ⟨nofun, fun old hrecords => ?_⟩
    obtain rfl : ds.map RecordItem.record = old := Option.some.inj hrecords
    rw [validate_loaded hclass hrecords] at hsame
    cases hcomplaints : (RecordSetObject.ofRecords values nameFormat (some ds)).complaints lib
        messages type (ds.map RecordItem.record) with
    | nil => exact Or.inr ((complaints_eq_nil _ _).mp hcomplaints)
    | cons e es =>
      rw [hcomplaints] at hsame
      -- with something wrong the parsed records stay, which are no `Record`
      have hitems : (parsedRecords lib type (ds.map RecordItem.record)).map (RecordItem.rdata type) =
          ds.map RecordItem.record := Option.some.inj (congrArg RecordSetObject.records hsame)
      cases ds with
      | nil => exact Or.inl rfl
      | cons d ds =>
        have hhead : RecordItem.record d ∈
            (parsedRecords lib type ((d :: ds).map RecordItem.record)).map (RecordItem.rdata type) := by
          rw [hitems]
          exact List.mem_cons_self
        obtain ⟨values, -, hno⟩ := List.mem_map.mp hhead
        exact absurd hno nofun

/--
**A validation leaves a recordset as it was exactly where it has nothing to complain about**, or
does not get to the records.
-/
theorem leftAlone_iff (lib : Lib) (messages : Messages τ) (supported : List RRType)
    (values : List (String × Plain τ)) (nameFormat : Format) (data : Option (List Json)) :
    LeftAlone lib messages supported (.ofRecords values nameFormat data) ↔
      (RecordSetObject.ofRecords values nameFormat data).Spared lib messages supported :=
  ⟨LeftAlone.spared, leftAlone_of_spared⟩

/-- A recordset whose one record cannot be taken apart has none afterwards. -/
theorem records_lost :
    ¬ ∀ (lib : Lib) (messages : Messages Unit) (supported : List RRType)
      (values : List (String × Plain Unit)) (nameFormat : Format) (data : Option (List Json)),
      LeftAlone lib messages supported (.ofRecords values nameFormat data) := by
  intro h
  have hspared := (h {} Sample.silent [.MX] (Sample.exchanges []).values .hostname
    (some [.str "x"])).spared
  rcases (hspared .MX rfl).2 _ rfl with hnil | ⟨-, hgood⟩
  · exact absurd hnil nofun
  · have hk : kind {} .MX (.str "x") = .good := hgood _ List.mem_cons_self
    exact absurd hk (by decide)

end Designate
