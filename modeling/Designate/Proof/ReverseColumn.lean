import Designate.Proof.ReverseNames
import Designate.Storage.ReverseColumn

/-!
# Which writes keep the reversed names

Whatever is inserted has its name reversed, and no update writes a reversed name. So a statement
leaves the tables in step unless it gives a row that is there another name; and as the operations
of storage are made of such statements, so does every run of them, however they are interleaved.
-/

namespace Designate

namespace ReverseNames

open ListFilters (Binary)

variable {env : Engine} {db : Database} {ctx : QueryContext} {t : Tables} {table : TableName}

/-! ## Statements that know about reversed names -/

/-- An insert has the name reversed next to it, and an update leaves the reversed name alone. -/
def Patched : Statement → Prop
  | .insert _ _ values =>
    ∃ s, values.lookup "reverse_name" = some (.text (Text.reverse s)) ∧
      ∀ name, values.lookup "name" = some name → name = .text s
  | .update _ _ _ values => values.lookup "reverse_name" = none
  | _ => True

theorem lookup_changes (obj : Object) (fields : List String) (field : String) :
    (obj.changes fields).lookup field =
      if field ∈ fields ∧ obj.changed field = true then some (obj.get field) else none := by
  unfold Object.changes
  have hmap : ∀ l : List String, (l.map fun f => (f, obj.get f)).lookup field =
      if field ∈ l then some (obj.get field) else none := by
    intro l
    induction l with
    | nil => rfl
    | cons f l ih =>
      rw [List.map_cons, List.lookup_cons]
      by_cases hf : field = f
      · subst hf
        simp
      · rw [beq_false_of_ne hf, ih]
        simp [hf]
  rw [hmap]
  simp only [List.mem_filter]

theorem patched_update (obj : Object) {fields : List String} (hfields : "reverse_name" ∉ fields)
    (id : Cell) : Patched (.update table ctx id (obj.changes fields)) := by
  change (obj.changes fields).lookup "reverse_name" = none
  rw [lookup_changes, if_neg fun h => hfields h.1]

theorem patched_insert {obj : Object} {s : String} (hname : obj.get "name" = .text s)
    (fields : List String) :
    Patched (.insert table ctx ((obj.changes fields).filter
      (fun entry => entry.1 ∉ [("reverse_name", Cell.text (Text.reverse s))].map Prod.fst) ++
        [("reverse_name", .text (Text.reverse s))])) := by
  have hlookup : ∀ field, ((obj.changes fields).filter
      (fun entry => entry.1 ∉ [("reverse_name", Cell.text (Text.reverse s))].map Prod.fst)).lookup
        field = if field ≠ "reverse_name" then (obj.changes fields).lookup field else none := by
    intro field
    have h := Objects.lookup_filter (fun key => decide (key ≠ "reverse_name")) (obj.changes fields)
      field
    simpa using h
  refine ⟨s, ?_, fun name h => ?_⟩
  · rw [List.lookup_append, hlookup, if_neg (not_not.mpr rfl)]
    rfl
  · rw [List.lookup_append, hlookup, if_pos (by decide), lookup_changes] at h
    split at h
    · exact (Option.some.inj h).symm.trans hname
    · cases h

/-! ## The statements of the operations -/

section

open Calls

theorem makes_ask {statement : Statement} (h : Patched statement) : (ask statement).Makes Patched :=
  Makes.call h Makes.ofExcept

theorem makes_asking {excDup : Exc} {statement : Statement} (h : Patched statement) :
    (asking excDup statement).Makes Patched := by
  refine Makes.call h fun answer => ?_
  split
  · exact Makes.raise _
  · exact Makes.ofExcept _

theorem makes_refetch (table : TableName) (id : Cell) : (refetch table id).Makes Patched :=
  Makes.bind (makes_ask trivial) fun _ => Makes.pure _

theorem makes_update (obj : Object) {fields : List String} (hfields : "reverse_name" ∉ fields)
    (excDup excNotfound : Exc) :
    (update ctx table fields obj excDup excNotfound).Makes Patched := by
  refine Makes.bind (makes_asking (patched_update obj hfields _)) fun rows => ?_
  split
  · exact Makes.raise _
  · exact Makes.bind (makes_refetch table _) fun _ => Makes.pure _

theorem makes_create {obj : Object} {s : String} (hname : obj.get "name" = .text s)
    (fields : List String) (excDup : Exc) :
    (create ctx table fields obj excDup [("reverse_name", .text (Text.reverse s))]).Makes Patched :=
  Makes.bind (makes_asking (patched_insert hname fields)) fun _ =>
    Makes.bind (makes_refetch table _) fun _ => Makes.pure _

/-- What follows a reversed name knows that it is the name reversed. -/
theorem makes_reversed {α : Type} {name : Cell} {next : Cell → Program α}
    (h : ∀ s, name = .text s → (next (.text (Text.reverse s))).Makes Patched) :
    (reversed name >>= next).Makes Patched := by
  cases name with
  | null => exact Makes.raise _
  | number n => exact Makes.raise _
  | text s => exact h s rfl

theorem makes_findZone (id : Cell) : (findZone db ctx id).Makes Patched := by
  refine Makes.bind (makes_ask trivial) fun rows => ?_
  split
  · exact Makes.pure _
  · exact Makes.raise _

theorem makes_findRecordset (id : Cell) : (findRecordset db ctx id).Makes Patched := by
  refine Makes.bind (makes_ask trivial) fun rows => ?_
  split
  · exact Makes.pure _
  · exact Makes.raise _

theorem makes_createZone (zone : Zone) : (createZone ctx zone).Makes Patched :=
  makes_reversed fun _ hs => Makes.bind (makes_create hs _ _) fun _ =>
    Makes.bind (Makes.ofExcept _) fun _ => Makes.pure _

theorem makes_createRecordset (zoneId : Cell) (recordset : RecordSet) :
    (createRecordset db ctx zoneId recordset).Makes Patched :=
  Makes.bind (makes_findZone zoneId) fun _ => makes_reversed fun _ hs => makes_create hs _ _

theorem makes_updateRecordset (recordset : Object) :
    (updateRecordset ctx recordset).Makes Patched := makes_update recordset (by decide) _ _

theorem makes_deleteRecordset (id : Cell) : (deleteRecordset db ctx id).Makes Patched := by
  refine Makes.bind (makes_findRecordset id) fun recordset => ?_
  refine Makes.bind (makes_ask trivial) fun rows => ?_
  split
  · exact Makes.raise _
  · exact Makes.bind (makes_refetch _ _) fun _ => Makes.pure _

theorem makes_deleteZone (id : Cell) : (deleteZone db ctx id).Makes Patched :=
  Makes.bind (makes_findZone id) fun _ => makes_update _ (by decide) _ _

theorem makes_purgeZone (id : Cell) : (purgeZone ctx id).Makes Patched := by
  refine Makes.bind (makes_ask trivial) fun rows => ?_
  split
  · exact Makes.raise _
  · exact Makes.bind (makes_refetch _ _) fun _ => Makes.pure _

/-- By induction on the zones. -/
theorem makes_purgeEach (zonesById : List (Cell × Row)) (zones : List Row) :
    (purgeEach ctx zonesById zones).Makes Patched := by
  induction zones with
  | nil => exact Makes.pure _
  | cons zone zones ih =>
    refine Makes.bind ?_ fun _ => ih
    refine Makes.bind (Makes.ofExcept _) fun parent => ?_
    refine Makes.bind (Makes.bind (makes_ask trivial) fun _ => Makes.pure _) fun _ => ?_
    exact makes_purgeZone _

theorem makes_purgeZones (criterion : Criterion) (page : List Row → List Row) :
    (purgeZones db ctx criterion page).Makes Patched :=
  Makes.bind (makes_ask trivial) fun zones => makes_purgeEach _ zones

/-- By induction on the recordsets. -/
theorem makes_storeRecordsets (zoneId : Cell) (rrsets : List RecordSet) (data : Existing)
    (keep : List Cell) : (storeRecordsets db ctx zoneId rrsets data keep).Makes Patched := by
  induction rrsets generalizing data keep with
  | nil => exact Makes.pure _
  | cons rrset rrsets ih =>
    unfold storeRecordsets
    dsimp only
    split
    · split
      · exact Makes.raise _
      · exact Makes.bind (makes_updateRecordset _) fun _ => ih _ _
    · exact Makes.bind (makes_createRecordset zoneId rrset) fun _ => ih _ _

theorem makes_deleteRecordsets (ids : List Cell) : (deleteRecordsets db ctx ids).Makes Patched := by
  induction ids with
  | nil => exact Makes.pure _
  | cons id ids ih => exact Makes.bind (makes_deleteRecordset id) fun _ => ih

theorem makes_replaceRecordsets (zone : Object) (recordsets : List RecordSet) :
    (replaceRecordsets db ctx zone recordsets).Makes Patched := by
  refine Makes.bind (makes_ask trivial) fun existing => ?_
  refine Makes.bind (makes_storeRecordsets _ _ _ _) fun ⟨data, keep⟩ => ?_
  dsimp only
  split
  · exact makes_deleteRecordsets _
  · exact Makes.pure _

theorem makes_updateZone (zone : Zone) : (updateZone db ctx zone).Makes Patched := by
  refine Makes.bind (makes_update zone.fields (by decide) _ _) fun updatedZone => ?_
  refine Makes.bind (Makes.ofExcept _) fun _ => ?_
  refine Makes.bind ?_ fun _ => ?_
  · split
    · exact makes_replaceRecordsets _ _
    · exact Makes.pure _
  · split
    · refine Makes.bind (makes_ask trivial) fun _ => ?_
      exact Makes.bind (makes_ask trivial) fun _ => Makes.pure _
    · exact Makes.pure _

/-- Every operation is made of statements that know about reversed names. -/
theorem makes_program (operation : Operation) : (operation.program db).Makes Patched := by
  cases operation with
  | createZone ctx zone => exact Makes.bind (makes_createZone zone) fun _ => Makes.pure _
  | updateZone ctx zone => exact Makes.bind (makes_updateZone zone) fun _ => Makes.pure _
  | deleteZone ctx id => exact Makes.bind (makes_deleteZone id) fun _ => Makes.pure _
  | purgeZones ctx criterion page => exact makes_purgeZones criterion page
  | createRecordset ctx zoneId recordset =>
    exact Makes.bind (makes_createRecordset zoneId recordset) fun _ => Makes.pure _
  | updateRecordset ctx recordset =>
    exact Makes.bind (makes_updateRecordset recordset.fields) fun _ => Makes.pure _
  | deleteRecordset ctx id => exact makes_deleteRecordset id

end

/-! ## What a statement leaves -/

theorem rows_put (t : Tables) (table : TableName) (rows : List Row) :
    (t.put table rows).rows table = rows := by
  cases table <;> rfl

/-- Only the rows of the table that is written have to be looked at. -/
theorem Tables.InStep.put_iff (ht : t.InStep) {rows : List Row} (htable : table ≠ .records) :
    (t.put table rows).InStep ↔ ∀ row ∈ rows, ReverseNames.InStep row := by
  cases table with
  | zones => exact ⟨fun h => h.zones, fun h => ⟨h, ht.recordsets⟩⟩
  | recordsets => exact ⟨fun h => h.recordsets, fun h => ⟨ht.zones, h⟩⟩
  | records => exact absurd rfl htable

theorem Tables.InStep.put_records (ht : t.InStep) (rows : List Row) :
    (t.put .records rows).InStep := ⟨ht.zones, ht.recordsets⟩

theorem Tables.InStep.rows (ht : t.InStep) (htable : table ≠ .records) :
    ∀ row ∈ t.rows table, ReverseNames.InStep row := by
  cases table with
  | zones => exact ht.zones
  | recordsets => exact ht.recordsets
  | records => exact absurd rfl htable

theorem settle_of_refused {t' : Tables} {e : Fault} (h : refusal env table t' = some e)
    (answer : List Row) : (settle env t t' table answer).2 = t := by
  unfold settle
  rw [h]

theorem settle_of_accepted {t' : Tables} (h : refusal env table t' = none) (answer : List Row) :
    (settle env t t' table answer).2 = t' := by
  unfold settle
  rw [h]

/-- What is in step either way. -/
theorem settle_inStep {t' : Tables} (ht : t.InStep)
    (ht' : refusal env table t' = none → t'.InStep) (answer : List Row) :
    (settle env t t' table answer).2.InStep := by
  cases h : refusal env table t' with
  | some e => rwa [settle_of_refused h]
  | none => rw [settle_of_accepted h]; exact ht' h

/-- Tables that are not refused have no row without a name. -/
theorem name_of_accepted {t' : Tables} (h : refusal env table t' = none) (htable : table ≠ .records) :
    ∀ row ∈ t'.rows table, row "name" ≠ .null := by
  intro row hrow hnull
  have hname : "name" ∈ table.columns := by
    cases table with
    | zones => decide
    | recordsets => decide
    | records => exact absurd rfl htable
  unfold refusal at h
  rw [if_pos ⟨hname, row, hrow, hnull⟩] at h
  cases h

/-- A name that is not null is a text. -/
theorem stored_name {name : Cell} (h : stored "name" name ≠ .null) :
    ∃ s, stored "name" name = .text s := by
  cases name with
  | null => exact absurd rfl h
  | number n => exact ⟨toString n, rfl⟩
  | text s => exact ⟨s, rfl⟩

theorem insertedRow_of_inserted {values : Values} {row : Row}
    (h : inserted env t table ctx values = .ok row) :
    ∃ id shard, row = insertedRow env table ctx values id shard := by
  unfold inserted at h
  dsimp only at h
  cases hshard : shardOf table ((values.lookup "id").getD (.text (env.uuid t))) values with
  | error e => rw [hshard] at h; cases h
  | ok shard => rw [hshard] at h; exact ⟨_, shard, (Except.ok.inj h).symm⟩

/-- The row an insert makes has its name reversed, if it has a name. -/
theorem inStep_insertedRow {values : Values} {id shard : Cell}
    (hpatched : Patched (.insert table ctx values))
    (hname : insertedRow env table ctx values id shard "name" ≠ .null) :
    InStep (insertedRow env table ctx values id shard) := by
  obtain ⟨s, hreverse, hvalue⟩ := hpatched
  refine ⟨s, ?_, ?_⟩
  · unfold insertedRow at hname ⊢
    cases hlookup : values.lookup "name" with
    | some name =>
      rw [hvalue name hlookup]
      rfl
    | none =>
      -- the name defaults to null
      rw [hlookup] at hname
      cases table <;> exact absurd rfl hname
  · unfold insertedRow
    rw [hreverse]
    rfl

/-- A row with an update behind it is in step exactly if it has kept its name. -/
theorem inStep_updated_iff {values : Values} {row : Row} (hrow : InStep row)
    (hpatched : values.lookup "reverse_name" = none)
    (hname : updated ctx values row "name" ≠ .null) :
    InStep (updated ctx values row) ↔
      ∀ name, values.lookup "name" = some name → row "name" = stored "name" name := by
  obtain ⟨s, hs, hreverse⟩ := hrow
  -- no trigger follows an update, so the reversed column is the one of before
  have hreversed : updated ctx values row "reverse_name" = .text (Text.reverse s) := by
    unfold updated
    rw [if_neg (by decide), hpatched]
    exact hreverse
  unfold InStep
  rw [hreversed]
  -- the name is the one that is given, or else the one of before
  have hwritten : updated ctx values row "name" =
      ((values.lookup "name").map (stored "name")).getD (row "name") := by
    unfold updated
    rw [if_neg (by decide)]
    cases values.lookup "name" with
    | none => rfl
    | some name => rfl
  rw [hwritten] at hname ⊢
  cases hlookup : values.lookup "name" with
  | none => exact iff_of_true ⟨s, hs, rfl⟩ fun name h => absurd h (by simp)
  | some name =>
    rw [hlookup] at hname
    obtain ⟨s', hs'⟩ := stored_name hname
    simp only [Option.map_some, Option.getD_some, Option.some.injEq, forall_eq', hs, hs',
      Cell.text.injEq]
    constructor
    · rintro ⟨r, rfl, hr⟩
      rw [← reverse_reverse s, hr, reverse_reverse]
    · exact fun he => ⟨s', rfl, by rw [he]⟩

/-- What an accepted update leaves in step. -/
theorem inStep_afterUpdate_iff {id : Cell} {values : Values} (ht : t.InStep)
    (htable : table ≠ .records) (hpatched : values.lookup "reverse_name" = none)
    (haccepted : refusal env table (afterUpdate t table ctx id values) = none) :
    (afterUpdate t table ctx id values).InStep ↔
      ∀ name, values.lookup "name" = some name → ∀ row ∈ t.rows table,
        targets table ctx id row = true → row "name" = stored "name" name := by
  have hname := name_of_accepted haccepted htable
  unfold afterUpdate at hname ⊢
  rw [rows_put, List.forall_mem_map] at hname
  rw [ht.put_iff htable, List.forall_mem_map]
  constructor
  · intro h name hlookup row hrow htargets
    have hstep := h row hrow
    have hnull := hname row hrow
    rw [if_pos htargets] at hstep hnull
    exact (inStep_updated_iff (ht.rows htable row hrow) hpatched hnull).mp hstep name hlookup
  · intro h row hrow
    have hnull := hname row hrow
    -- a row that the statement does not target is the one of before
    by_cases htargets : targets table ctx id row = true
    · rw [if_pos htargets] at hnull ⊢
      exact (inStep_updated_iff (ht.rows htable row hrow) hpatched hnull).mpr
        fun name hlookup => h name hlookup row hrow htargets
    · rw [if_neg htargets]
      exact ht.rows htable row hrow

/-- A row with another column written. -/
theorem inStep_touched (ctx : QueryContext) {column : String} (cell : Cell) {row : Row}
    (hname : "name" ≠ column) (hreverse : "reverse_name" ≠ column) (h : InStep row) :
    InStep (touched ctx column cell row) := by
  obtain ⟨s, hs, hrow⟩ := h
  refine ⟨s, ?_, ?_⟩
  · unfold touched
    rw [if_neg hname, if_neg (by decide), hs]
  · unfold touched
    rw [if_neg hreverse, if_neg (by decide), hrow]

/-- Some rows of a table with another column written. -/
theorem inStep_touchedRows (table : TableName) (ctx : QueryContext) {column : String} (cell : Cell)
    (picks : Row → Prop) [DecidablePred picks] (hname : "name" ≠ column)
    (hreverse : "reverse_name" ≠ column) (ht : t.InStep) :
    (t.put table ((t.rows table).map fun row =>
      if picks row then touched ctx column cell row else row)).InStep := by
  by_cases htable : table = .records
  · subst htable
    exact ht.put_records _
  · refine (ht.put_iff htable).mpr (List.forall_mem_map.mpr fun row hrow => ?_)
    split
    · exact inStep_touched ctx cell hname hreverse (ht.rows htable row hrow)
    · exact ht.rows htable row hrow

theorem inStep_cascade (id : Cell) (ht : t.InStep) : (cascade env table id t).InStep := by
  unfold cascade
  split
  · cases table with
    | zones =>
      refine ⟨List.forall_mem_map.mpr fun row hrow => ?_, fun row hrow => ?_⟩
      · obtain ⟨s, hs, hreverse⟩ := ht.zones row hrow
        refine ⟨s, (if_neg ?_).trans hs, (if_neg ?_).trans hreverse⟩
        · exact fun h => absurd h.1 (by decide)
        · exact fun h => absurd h.1 (by decide)
      · exact ht.recordsets row (List.mem_filter.mp hrow).1
    | recordsets => exact ⟨ht.zones, ht.recordsets⟩
    | records => exact ht
  · exact ht

theorem execute_insert_inStep {values : Values} (hpatched : Patched (.insert table ctx values))
    (ht : t.InStep) : (execute env (.insert table ctx values) t).2.InStep := by
  rw [execute]
  split
  · exact ht
  · split
    · exact ht
    · rename_i row hrow
      refine settle_inStep ht (fun haccepted => ?_) _
      by_cases htable : table = .records
      · subst htable
        exact ht.put_records _
      · have hname := name_of_accepted haccepted htable
        rw [rows_put] at hname
        refine (ht.put_iff htable).mpr fun row' hrow' => ?_
        -- an INSERT writes both columns of the new row from one name
        rcases List.mem_append.mp hrow' with hmem | hmem
        · exact ht.rows htable row' hmem
        · obtain rfl := List.mem_singleton.mp hmem
          have hnull := hname row' hrow'
          obtain ⟨id, shard, rfl⟩ := insertedRow_of_inserted hrow
          exact inStep_insertedRow hpatched hnull

theorem execute_update_inStep_iff {id : Cell} {values : Values}
    (hpatched : values.lookup "reverse_name" = none) (ht : t.InStep) :
    (execute env (.update table ctx id values) t).2.InStep ↔
      ¬ Renames env (.update table ctx id values) t := by
  rw [execute]
  -- the statement itself is refused: nothing is written
  by_cases hcolumns : ∃ entry ∈ values, entry.1 ∉ table.columns
  · rw [if_pos hcolumns]
    obtain ⟨entry, hentry, hnot⟩ := hcolumns
    exact iff_of_true ht fun h => hnot (h.2.1 entry hentry)
  rw [if_neg hcolumns]
  -- a record has no name that could be reversed
  by_cases htable : table = .records
  · subst htable
    exact iff_of_true (settle_inStep ht (fun _ => ht.put_records _) _) fun h => h.1 rfl
  cases haccepted : refusal env table (afterUpdate t table ctx id values) with
  | some e =>
    rw [settle_of_refused haccepted]
    exact iff_of_true ht fun h => absurd (haccepted.symm.trans h.2.2.2) (by simp)
  | none =>
    rw [settle_of_accepted haccepted, inStep_afterUpdate_iff ht htable hpatched haccepted]
    have hall : ∀ entry ∈ values, entry.1 ∈ table.columns := fun entry hentry =>
      not_not.mp fun hnot => hcolumns ⟨entry, hentry, hnot⟩
    constructor
    · rintro h ⟨-, -, ⟨name, hlookup, row, hrow, htargets, hne⟩, -⟩
      exact hne (h name hlookup row hrow htargets)
    · intro h name hlookup row hrow htargets
      by_contra hne
      exact h ⟨htable, hall, ⟨name, hlookup, row, hrow, htargets, hne⟩, haccepted⟩

theorem execute_delete_inStep (id : Cell) (ht : t.InStep) :
    (execute env (.delete table ctx id) t).2.InStep := by
  have hrest : (t.put table ((t.rows table).partition (targets table ctx id)).2).InStep := by
    by_cases htable : table = .records
    · subst htable
      exact ht.put_records _
    · refine (ht.put_iff htable).mpr fun row hrow => ht.rows htable row ?_
      rw [List.partition_eq_filter_filter] at hrow
      exact (List.mem_filter.mp hrow).1
  rw [execute]
  refine settle_inStep ht (fun _ => ?_) _
  split
  · exact hrest
  · exact inStep_cascade id hrest

theorem execute_moveTenant_inStep (zoneId tenant : Cell) (ht : t.InStep) :
    (execute env (.moveTenant table ctx zoneId tenant) t).2.InStep := by
  rw [execute]
  refine settle_inStep ht (fun _ => ?_) _
  exact inStep_touchedRows table ctx tenant (fun row => row "zone_id" = zoneId) (by decide)
    (by decide) ht

theorem execute_reparent_inStep (zoneId parent : Cell) (ht : t.InStep) :
    (execute env (.reparent ctx zoneId parent) t).2.InStep := by
  rw [execute]
  refine settle_inStep ht (fun _ => ?_) _
  exact inStep_touchedRows .zones ctx parent (fun row => row "parent_zone_id" = zoneId) (by decide)
    (by decide) ht

/-- **A statement leaves the tables in step unless it renames a row.** Case by case. -/
theorem execute_inStep_iff {statement : Statement} (hpatched : Patched statement) (ht : t.InStep) :
    (execute env statement t).2.InStep ↔ ¬ Renames env statement t := by
  cases statement with
  | select query => exact iff_of_true ht id
  | insert table ctx values => exact iff_of_true (execute_insert_inStep hpatched ht) id
  | update table ctx id values => exact execute_update_inStep_iff hpatched ht
  | delete table ctx id => exact iff_of_true (execute_delete_inStep id ht) fun h => h
  | moveTenant table ctx zoneId tenant =>
    exact iff_of_true (execute_moveTenant_inStep zoneId tenant ht) id
  | reparent ctx zoneId parent => exact iff_of_true (execute_reparent_inStep zoneId parent ht) id

/-! ## Runs -/

/--
**Which runs keep the reversed names.** However the operations of storage are interleaved, the tables
stay in step all along a run exactly when no statement of it gives a row another name.
-/
theorem inStep_throughout_iff (env : Engine) (moves : List (Sessions.Move Operation))
    (ht : t.InStep) :
    (∀ m ∈ Run.transitions (Sessions.step (Operation.program env.toDatabase) (execute env)) moves
        (Sessions.fresh t), m.after.state.InStep) ↔
      ∀ m ∈ Run.transitions (Sessions.step (Operation.program env.toDatabase) (execute env)) moves
        (Sessions.fresh t), ∀ statement, m.before.callOf m.input = some statement →
          ¬ Renames env statement m.before.state :=
  Sessions.throughout_iff makes_program (fun _ _ => execute_inStep_iff) moves
    (fun _ hp => absurd hp List.not_mem_nil) ht

/--
**What the reversed names are good for.** A criterion that asks for names with a star in front may
be turned round exactly when it has no entry of its own for the reversed name and the name reads
back to front. And the operations of storage, however they are interleaved, keep the reversed names
all along a run exactly when no statement of it gives a row another name.
-/
theorem reverse_names_iff (env : Engine) (hbinary : Binary env.conf) :
    (∀ value : String, Text.startsWith value "*" = true → ∀ own : Bool,
      (∀ criterion : Criterion, (criterion.map Prod.fst).Nodup →
        criterion.lookup "name" = some (.text value) →
        (criterion.lookup "reverse_name").isSome = own →
          SelectsSame env.toDatabase criterion) ↔
        own = false ∧ ReadsBack env.conf.dialect value) ∧
    ∀ (moves : List (Sessions.Move Operation)) (t : Tables), t.InStep →
      ((∀ m ∈ Run.transitions (Sessions.step (Operation.program env.toDatabase) (execute env)) moves
          (Sessions.fresh t), m.after.state.InStep) ↔
        ∀ m ∈ Run.transitions (Sessions.step (Operation.program env.toDatabase) (execute env)) moves
          (Sessions.fresh t), ∀ statement, m.before.callOf m.input = some statement →
            ¬ Renames env statement m.before.state) :=
  ⟨fun _ hstar own => turned_round_iff hbinary hstar own,
    fun moves _ ht => inStep_throughout_iff env moves ht⟩

/-- A database that generates one id only. -/
def sampleEngine : Engine where
  asksNumber _ _ := false
  sameText _ _ := false
  uuid _ := "cf661142e57711e4b5710800200c9a66"

/-- A request of the tenant whose zone it is. -/
def sampleContext : QueryContext := { tenant := "1", now := 5 }

/-- The zone `example.org.`, before it is stored. -/
def sampleZone : Zone where
  fields := (Object.new.set "name" (.text "example.org.")).set "tenant_id" (.text "1")
  relations := .ok ()
  recordsets := none

/-- The zone `example.org.` as it is stored. -/
def storedZone : Row := fun column =>
  if column = "id" then .text "cf661142e57711e4b5710800200c9a66"
  else if column = "tenant_id" then .text "1"
  else if column = "deleted" then .text "0"
  else rowOf "example.org." column

/-- The zone is given a description. -/
def describedZone : Zone where
  fields := (Object.new.ofModel zoneFields zonesColumns (some storedZone)).set "description"
    (.text "moved")
  relations := .ok ()
  recordsets := none

theorem reverse_names_iff_sample :
    SelectsSame sampleEngine.toDatabase [("name", .text "*.example.org.")] ∧
      ∀ m ∈ Run.transitions
        (Sessions.step (Operation.program sampleEngine.toDatabase) (execute sampleEngine))
        [.start (.createZone sampleContext sampleZone), .go 0,
          .start (.updateZone sampleContext describedZone), .go 1, .go 0] (Sessions.fresh ⟨[], [], []⟩),
        m.after.state.InStep := by
  obtain ⟨hqueries, hruns⟩ := reverse_names_iff sampleEngine ⟨fun _ _ => rfl, rfl⟩
  refine ⟨?_, ?_⟩
  · exact (hqueries "*.example.org." (by decide) false).mpr ⟨rfl, by decide⟩ _ (by simp) rfl rfl
  · refine (hruns _ ⟨[], [], []⟩ ⟨nofun, nofun⟩).mpr ?_
    intro m hm statement hcall hrenames
    rcases List.mem_cons.mp hm with rfl | hm
    · cases hcall
    rcases List.mem_cons.mp hm with rfl | hm
    · obtain rfl := Option.some.inj hcall
      exact hrenames
    rcases List.mem_cons.mp hm with rfl | hm
    · cases hcall
    rcases List.mem_cons.mp hm with rfl | hm
    · -- the update writes no name
      obtain rfl := Option.some.inj hcall
      obtain ⟨name, hlookup, -⟩ := hrenames.2.2.1
      cases hlookup
    rcases List.mem_cons.mp hm with rfl | hm
    · obtain rfl := Option.some.inj hcall
      exact hrenames
    · exact absurd hm List.not_mem_nil

/-- The zone is renamed to `example.net.`. -/
def renamedZone : Zone where
  fields := (Object.new.ofModel zoneFields zonesColumns (some storedZone)).set "name"
    (.text "example.net.")
  relations := .ok ()
  recordsets := none

/--
The name `*x!`, reversed, asks for every reversed name but `x*`, and a zone that is renamed keeps the
reversed name it had.
-/
theorem reverse_names_misled :
    ¬ SelectsSame sampleEngine.toDatabase [("name", .text "*x!")] ∧
      Tables.InStep ⟨[storedZone], [], []⟩ ∧
      ¬ ((updateZone sampleEngine.toDatabase sampleContext renamedZone).run (execute sampleEngine)
        ⟨[storedZone], [], []⟩).2.InStep := by
  refine ⟨fun h => ?_, ⟨?_, nofun⟩, fun h => ?_⟩
  · have hsame := (h everything (oneZone "example.org.") (oneZone_inStep _)).1
    have hlength := congrArg (fun rows => rows.toOption.map List.length) hsame
    exact absurd hlength (by decide)
  · intro row hrow
    rw [List.mem_singleton.mp hrow]
    exact ⟨"example.org.", rfl, rfl⟩
  · -- the table that the update leaves, column by column
    have hnames : ((updateZone sampleEngine.toDatabase sampleContext renamedZone).run
        (execute sampleEngine) ⟨[storedZone], [], []⟩).2.zones.map
          (fun row => (row "name", row "reverse_name")) =
        [(.text "example.net.", .text (Text.reverse "example.org."))] := by rfl
    obtain ⟨row, hrow, hrest⟩ := List.map_eq_singleton_iff.mp hnames
    obtain ⟨s, hs, hreverse⟩ := h.zones row (hrow ▸ List.mem_singleton_self row)
    rw [Prod.mk.injEq] at hrest
    have hname := Cell.text.inj (hs.symm.trans hrest.1)
    have hback := Cell.text.inj (hreverse.symm.trans hrest.2)
    rw [hname] at hback
    exact absurd hback (by decide)

end ReverseNames

end Designate
