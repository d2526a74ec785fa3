import Designate.Pages
import Designate.Proof.Paginate
import Designate.Proof.Wf
import Designate.Sqlalchemy.RecordSetListing

/-!
# When the listing of recordsets is complete

The first query's limit counts rows of a join, in which a recordset stands once for each of
its records that match. So a page may have fewer recordsets than the limit though others
remain, and then no link leads to those.
-/

namespace Designate

namespace Sqlalchemy

variable {V : Type} [LinearOrder V]

/-! ## What matches -/

section Matching

variable {clauses : Clauses} {ctx : Context} {db : Db} {criterion : RecordSetCriterion}

/-- The records of a recordset that the criterion asks for. -/
def matchingRecords (clauses : Clauses) (db : Db) (criterion : RecordSetCriterion)
    (row : RecordSetRow) : List RecordRow :=
  (db.recordsOf row.id).filter (criterion.record clauses)

/--
The recordset is in a live zone, the caller's, and as the criterion wants it; with a
criterion on records, one of its records is.
-/
def matching (clauses : Clauses) (ctx : Context) (db : Db) (criterion : RecordSetCriterion)
    (row : RecordSetRow) : Bool :=
  db.liveZone row.zoneId && ctx.owns row.tenantId && criterion.recordset row &&
    (!criterion.filteringRecords || !(matchingRecords clauses db criterion row).isEmpty)

/-- How often the recordset stands in the join. -/
def multiplicity (clauses : Clauses) (db : Db) (criterion : RecordSetCriterion)
    (row : RecordSetRow) : Nat :=
  if criterion.filteringRecords then (matchingRecords clauses db criterion row).length else 1

/-- The rows of the join that are left of a recordset. -/
def selectedOf (clauses : Clauses) (ctx : Context) (db : Db) (criterion : RecordSetCriterion)
    (row : RecordSetRow) : List JoinedRow :=
  (joinedRows db criterion.filteringRecords row).filter (selected clauses ctx criterion)

theorem recordset_of_selectedOf {row : RecordSetRow} {joined : JoinedRow}
    (h : joined ∈ selectedOf clauses ctx db criterion row) : joined.recordset = row := by
  obtain ⟨zone, -, h⟩ := List.mem_flatMap.mp (List.mem_of_mem_filter h)
  cases hf : criterion.filteringRecords with
  | true =>
    rw [hf, if_pos rfl] at h
    obtain ⟨record, -, rfl⟩ := List.mem_map.mp h
    rfl
  | false =>
    rw [hf, if_neg (by simp)] at h
    rw [List.mem_singleton.mp h]

/-- The zones of a recordset are none or one. -/
theorem zones_of (hzones : (db.zones.map Zone.id).Nodup) (row : RecordSetRow) :
    (db.zones.filter (fun zone => zone.id == row.zoneId) = [] ∧ db.liveZone row.zoneId = false) ∨
      ∃ zone, db.zones.filter (fun zone => zone.id == row.zoneId) = [zone] ∧
        db.liveZone row.zoneId = !zone.deleted := by
  have hlive : db.liveZone row.zoneId =
      (db.zones.filter fun zone => zone.id == row.zoneId).any fun zone => !zone.deleted := by
    rw [List.any_filter]
    rfl
  -- the identifier is the key of the zones, so there is no second one
  by_cases h : ∃ zone ∈ db.zones, zone.id = row.zoneId
  · obtain ⟨zone, hzone, hid⟩ := h
    have hone := Table.filter_key hzones hzone
    rw [hid] at hone
    refine .inr ⟨zone, hone, ?_⟩
    rw [hlive]
    change (List.filter (fun z => decide (z.id = row.zoneId)) db.zones).any _ = _
    rw [hone]
    simp
  · have hnone : db.zones.filter (fun zone => zone.id == row.zoneId) = [] := by
      rw [List.filter_eq_nil_iff]
      intro zone hzone hid
      exact h ⟨zone, hzone, by simpa using hid⟩
    refine .inl ⟨hnone, ?_⟩
    rw [hlive, hnone]
    rfl

variable (clauses ctx criterion) in
/-- A recordset that matches stands in the join as often as its multiplicity says. -/
theorem length_selectedOf (hzones : (db.zones.map Zone.id).Nodup) (row : RecordSetRow) :
    (selectedOf clauses ctx db criterion row).length =
      if matching clauses ctx db criterion row then multiplicity clauses db criterion row else 0 := by
  unfold selectedOf joinedRows matching multiplicity
  rcases zones_of hzones row with ⟨hzone, hlive⟩ | ⟨zone, hzone, hlive⟩
  · rw [hzone, hlive]
    simp
  · rw [hzone, hlive, List.flatMap_singleton]
    cases hguard : (!zone.deleted && ctx.owns row.tenantId && criterion.recordset row) with
    | false =>
      -- the zone or the recordset does not match, so no row of the join does
      have hnone : ∀ record, selected clauses ctx criterion ⟨row, zone, record⟩ = false := by
        intro record
        simp only [selected, hguard, Bool.false_and]
      have hempty : ∀ l : List RecordRow, (l.map fun record =>
          (⟨row, zone, some record⟩ : JoinedRow)).filter (selected clauses ctx criterion) = [] := by
        intro l
        rw [List.filter_map, List.map_eq_nil_iff, List.filter_eq_nil_iff]
        intro record _
        simp [hnone]
      cases criterion.filteringRecords <;> simp [hnone, hempty]
    | true =>
      have hrecord : ∀ record, selected clauses ctx criterion ⟨row, zone, record⟩ =
          record.all (criterion.record clauses) := by
        intro record
        simp only [selected, hguard, Bool.true_and]
      cases criterion.filteringRecords with
      | false => simp [hrecord]
      | true =>
        -- the join has a row for each record that matches
        have hlen : (((db.records.filter fun record => record.recordsetId == row.id).map
            fun record => (⟨row, zone, some record⟩ : JoinedRow)).filter
              (selected clauses ctx criterion)).length =
            (matchingRecords clauses db criterion row).length := by
          rw [List.filter_map, List.length_map]
          refine congrArg List.length (List.filter_congr ?_)
          intro record _
          simp [hrecord]
        simp only [if_true, Bool.not_true, Bool.false_or, Bool.true_and]
        rw [hlen]
        cases matchingRecords clauses db criterion row <;> simp

theorem multiplicity_pos {row : RecordSetRow}
    (h : matching clauses ctx db criterion row = true) :
    0 < multiplicity clauses db criterion row := by
  unfold matching at h
  rw [Bool.and_eq_true] at h
  unfold multiplicity
  cases hf : criterion.filteringRecords with
  | false => simp
  | true =>
    rw [hf] at h
    rw [if_pos rfl]
    exact List.length_pos_iff.mpr (by simpa using h.2)

end Matching

/-! ## The first query -/

section Inner

variable {engine : Engine V} {clauses : Clauses} {ctx : Context} {db : Db}
  {criterion : RecordSetCriterion} {columns : Columns RecordSetRow V}
  {cell : RecordSetRow → Option V} {key : Option String} {sortDir : Option SortDir}

/-- The recordsets that match, in the order of the listing. -/
def matchingRecordsets (engine : Engine V) (clauses : Clauses) (ctx : Context) (db : Db)
    (criterion : RecordSetCriterion) (columns : Columns RecordSetRow V)
    (cell : RecordSetRow → Option V) (sortDir : Option SortDir) : List RecordSetRow :=
  Keyset.arranged (listingLe engine columns cell (sortDir.getD .asc))
    (db.recordsets.filter (matching clauses ctx db criterion))

theorem mem_matchingRecordsets {row : RecordSetRow} :
    row ∈ matchingRecordsets engine clauses ctx db criterion columns cell sortDir ↔
      row ∈ db.recordsets ∧ matching clauses ctx db criterion row = true := by
  unfold matchingRecordsets
  rw [Keyset.mem_arranged, List.mem_filter]

/-- The rows of the join for a recordset under a condition are the ones made for it. -/
theorem selectedRows_filter (hnodup : db.recordsets.Nodup) {condition : RecordSetRow → Bool}
    {row : RecordSetRow} (hrow : row ∈ db.recordsets) (hcond : condition row = true) :
    ((selectedRows clauses ctx db criterion).filter
        fun joined => condition joined.recordset).filter
          (fun joined => decide (joined.recordset = row)) =
      selectedOf clauses ctx db criterion row := by
  rw [List.filter_filter, ← Keyset.filter_flatMap_key hnodup
    (f := selectedOf clauses ctx db criterion)
    (fun row joined h => recordset_of_selectedOf h) hrow]
  refine List.filter_congr ?_
  intro joined _
  by_cases h : joined.recordset = row
  · simp [h, hcond]
  · simp [h]

/-- A row of the join is one of a recordset that matches. -/
theorem matching_of_selectedRows (hzones : (db.zones.map Zone.id).Nodup) {joined : JoinedRow}
    (h : joined ∈ selectedRows clauses ctx db criterion) :
    joined.recordset ∈ db.recordsets ∧
      matching clauses ctx db criterion joined.recordset = true := by
  obtain ⟨row, hrow, hsel⟩ := List.mem_flatMap.mp h
  have heq : joined.recordset = row := recordset_of_selectedOf hsel
  have hlen := length_selectedOf clauses ctx criterion hzones row
  have hpos : 0 < (selectedOf clauses ctx db criterion row).length :=
    List.length_pos_of_mem hsel
  refine ⟨heq ▸ hrow, ?_⟩
  by_contra hno
  rw [if_neg (heq ▸ hno)] at hlen
  omega

/--
The rows of the join under a condition on recordsets, put in order, are the recordsets under
the condition in order, each as often as it counts.
-/
theorem map_orderBy_selectedRows (hzones : (db.zones.map Zone.id).Nodup)
    (hids : (db.recordsets.map columns.id).Nodup) (condition : RecordSetRow → Bool) :
    (orderBy engine (sortDir.getD .asc) [cell, fun row => some (columns.id row)]
        JoinedRow.recordset ((selectedRows clauses ctx db criterion).filter
          fun row => condition row.recordset)).map JoinedRow.recordset =
      Pages.spread (multiplicity clauses db criterion)
        ((matchingRecordsets engine clauses ctx db criterion columns cell sortDir).filter
          condition) := by
  have hnodup : db.recordsets.Nodup := hids.of_map _
  have hmem : ∀ row ∈ (matchingRecordsets engine clauses ctx db criterion columns cell
      sortDir).filter condition, row ∈ db.recordsets ∧
        matching clauses ctx db criterion row = true ∧ condition row = true := by
    intro row hrow
    obtain ⟨hrow, hcond⟩ := List.mem_filter.mp hrow
    obtain ⟨hrow, hmatch⟩ := mem_matchingRecordsets.mp hrow
    exact ⟨hrow, hmatch, hcond⟩
  have hperm := orderBy_perm engine (sortDir.getD .asc)
    [cell, fun row => some (columns.id row)] JoinedRow.recordset
    ((selectedRows clauses ctx db criterion).filter fun row => condition row.recordset)
  -- sorted as the recordsets are, the rows of one recordset stand together
  have hblocks := Keyset.eq_flatMap_blocks
    ((matchingRecordsets engine clauses ctx db criterion columns cell sortDir).filter condition)
    (orderBy_sorted _ _ _)
    ((Keyset.arranged_sorted listingLe_isOrder _).sublist List.filter_sublist)
    (((Keyset.arranged_perm _).symm.nodup (hnodup.filter _)).filter _)
    ((listingLe_distinct hids).subset fun row hrow => (hmem row hrow).1) (by
      intro joined hjoined
      obtain ⟨hjoined, hcond⟩ := List.mem_filter.mp (hperm.mem_iff.mp hjoined)
      rw [List.mem_filter, mem_matchingRecordsets]
      exact ⟨matching_of_selectedRows hzones hjoined, hcond⟩)
  conv_lhs => rw [hblocks]
  rw [List.map_flatMap]
  refine List.flatMap_congr ?_
  intro row hrow
  obtain ⟨hrow, hmatch, hcond⟩ := hmem row hrow
  -- and the block of a recordset is that recordset, as often as it counts
  rw [List.eq_replicate_iff]
  constructor
  · rw [List.length_map, (hperm.filter _).length_eq, selectedRows_filter hnodup hrow hcond,
      length_selectedOf _ _ _ hzones, hmatch, if_pos rfl]
  · intro row' hrow'
    obtain ⟨joined, hjoined, rfl⟩ := List.mem_map.mp hrow'
    exact of_decide_eq_true (List.mem_filter.mp hjoined).2

end Inner

/-! ## Putting the rows together -/

section Gather

variable {zoneName : Nat → Option String}

/-- The recordsets gathered so far. -/
def Gathering.listed (state : Gathering) : List Listed := state.rrsets ++ state.current.toList

/-- The current recordset is not the last one done with. -/
def Gathering.Fresh (state : Gathering) : Prop :=
  ∀ listed ∈ state.rrsets.getLast?, ∃ current, state.current = some current ∧
    listed.recordset.id ≠ current.recordset.id

theorem Gathering.Fresh.step {state : Gathering} (h : state.Fresh)
    (row : RecordSetRow × Option RecordRow) : (state.step zoneName row).Fresh := by
  unfold Gathering.step
  -- what has been listed last is never the recordset that is being gathered
  cases hc : state.current with
  | none =>
    intro listed hl
    obtain ⟨current, hcurrent, -⟩ := h listed hl
    rw [hc] at hcurrent
    exact absurd hcurrent (by simp)
  | some current =>
    dsimp only
    split
    · rename_i hne
      intro listed hl
      rw [List.getLast?_concat, Option.mem_some_iff] at hl
      exact ⟨_, rfl, hl ▸ Ne.symm hne⟩
    · intro listed hl
      obtain ⟨current', hcurrent, hne⟩ := h listed hl
      rw [hc, Option.some.injEq] at hcurrent
      exact ⟨_, rfl, hcurrent ▸ hne⟩

theorem Gathering.Fresh.foldl {rows : List (RecordSetRow × Option RecordRow)} :
    ∀ {state : Gathering}, state.Fresh → (rows.foldl (Gathering.step zoneName) state).Fresh := by
  induction rows with
  | nil => exact fun h => h
  | cons row rows ih =>
    intro state h
    exact ih (h.step row)

/-- The last recordset is never dropped. -/
theorem Gathering.Fresh.finish {state : Gathering} (h : state.Fresh) :
    state.finish = state.listed := by
  unfold Gathering.finish
  refine if_pos ?_
  cases hr : state.rrsets.getLast? with
  | none => simp [List.getLast?_eq_none_iff.mp hr]
  | some listed =>
    obtain ⟨current, hc, hne⟩ := h listed hr
    have : listed ≠ current := fun he => hne (he ▸ rfl)
    simp [hc, this]

/-- Rows of the current recordset add their records to it. -/
theorem foldl_same {rows : List (RecordSetRow × Option RecordRow)} :
    ∀ {state : Gathering} (current : Listed), state.current = some current →
      (∀ row ∈ rows, row.1.id = current.recordset.id) →
      rows.foldl (Gathering.step zoneName) state =
        { state with
          current := some { current with records := current.records ++ rows.filterMap Prod.snd } } := by
  induction rows with
  | nil =>
    intro state current hc _
    cases state
    simp_all
  | cons row rows ih =>
    intro state current hc hrows
    -- a row of the same recordset only adds its record
    have hstep : Gathering.step zoneName state row =
        { state with
          current := some { current with records := current.records ++ row.2.toList } } := by
      simp [Gathering.step, hc, hrows row List.mem_cons_self]
    rw [List.foldl_cons, hstep,
      ih { current with records := current.records ++ row.2.toList } rfl
        fun row' hrow' => hrows row' (List.mem_cons_of_mem _ hrow')]
    obtain ⟨recordset, record⟩ := row
    cases record <;> simp

variable (zoneName) in
/-- Rows of another recordset make that one the current one. -/
theorem foldl_block {rows : List (RecordSetRow × Option RecordRow)} {k : RecordSetRow}
    {state : Gathering} (hne : rows ≠ []) (hrows : ∀ row ∈ rows, row.1 = k)
    (hcurrent : ∀ current, state.current = some current → current.recordset.id ≠ k.id) :
    rows.foldl (Gathering.step zoneName) state =
      { rrsets := state.listed, current := some ⟨k, zoneName k.id, rows.filterMap Prod.snd⟩ } := by
  cases rows with
  | nil => exact absurd rfl hne
  | cons row rows =>
    have hk := hrows row List.mem_cons_self
    have hstep : Gathering.step zoneName state row =
        { rrsets := state.listed, current := some ⟨k, zoneName k.id, row.2.toList⟩ } := by
      unfold Gathering.step Gathering.listed
      cases hc : state.current with
      | none => simp [hk]
      | some current => simp [hk, Ne.symm (hcurrent current hc)]
    rw [List.foldl_cons, hstep, foldl_same _ rfl fun row' hrow' => by
      rw [hrows row' (List.mem_cons_of_mem _ hrow')]]
    obtain ⟨recordset, record⟩ := row
    cases record <;> simp

theorem listed_foldl_blocks {block : RecordSetRow → List (RecordSetRow × Option RecordRow)}
    {keys : List RecordSetRow} :
    ∀ {state : Gathering}, (keys.map RecordSetRow.id).Nodup →
      (∀ k ∈ keys, block k ≠ [] ∧ ∀ row ∈ block k, row.1 = k) →
      (∀ current, state.current = some current →
        current.recordset.id ∉ keys.map RecordSetRow.id) →
      ((keys.flatMap block).foldl (Gathering.step zoneName) state).listed =
        state.listed ++ keys.map fun k => ⟨k, zoneName k.id, (block k).filterMap Prod.snd⟩ := by
  induction keys with
  | nil => simp
  | cons k keys ih =>
    intro state hnodup hblock hcurrent
    rw [List.map_cons, List.nodup_cons] at hnodup
    obtain ⟨hne, hrows⟩ := hblock k List.mem_cons_self
    -- one block after the other: each lists the recordset before it and gathers its own
    have hfirst := foldl_block zoneName hne hrows fun current hc => by
      have := hcurrent current hc
      rw [List.map_cons, List.mem_cons, not_or] at this
      exact this.1
    rw [List.flatMap_cons, List.foldl_append, hfirst,
      ih hnodup.2 (fun k' hk' => hblock k' (List.mem_cons_of_mem _ hk')) (by
        intro current hc
        rw [Option.some.injEq] at hc
        exact hc ▸ hnodup.1)]
    simp [Gathering.listed]

variable (zoneName) in
/-- **Rows that come recordset by recordset are put together recordset by recordset.** -/
theorem gather_blocks (block : RecordSetRow → List (RecordSetRow × Option RecordRow))
    {keys : List RecordSetRow} (hnodup : (keys.map RecordSetRow.id).Nodup)
    (hblock : ∀ k ∈ keys, block k ≠ [] ∧ ∀ row ∈ block k, row.1 = k) :
    gather zoneName (keys.flatMap block) =
      keys.map fun k => ⟨k, zoneName k.id, (block k).filterMap Prod.snd⟩ := by
  have hfresh : (Gathering.Fresh {}) := by
    intro listed hl
    exact absurd hl (by simp)
  unfold gather
  rw [hfresh.foldl.finish, listed_foldl_blocks hnodup hblock (by simp)]
  rfl

end Gather

/-! ## The second query -/

section Outer

variable {engine : Engine V} {db : Db} {columns : Columns RecordSetRow V}
  {cell : RecordSetRow → Option V} {dir : SortDir}

/-- The rows of the second query for one recordset. -/
def outerRowsOf (db : Db) (row : RecordSetRow) : List (RecordSetRow × Option RecordRow) :=
  match db.records.filter fun record => record.recordsetId == row.id with
  | [] => [(row, none)]
  | record :: records => (record :: records).map fun record => (row, some record)

theorem fst_of_outerRowsOf {row : RecordSetRow} {raw : RecordSetRow × Option RecordRow}
    (h : raw ∈ outerRowsOf db row) : raw.1 = row := by
  unfold outerRowsOf at h
  split at h
  · rw [List.mem_singleton.mp h]
  · obtain ⟨record, -, rfl⟩ := List.mem_map.mp h
    rfl

theorem outerRowsOf_ne_nil (row : RecordSetRow) : outerRowsOf db row ≠ [] := by
  unfold outerRowsOf
  split <;> simp

theorem filterMap_outerRowsOf (row : RecordSetRow) :
    (outerRowsOf db row).filterMap Prod.snd = db.recordsOf row.id := by
  unfold outerRowsOf Db.recordsOf
  split
  · rename_i h
    rw [h]
    rfl
  · rename_i record records h
    rw [h]
    simp [List.filterMap_map]

/-- The second query gives the recordsets asked for in order, each with all its records. -/
theorem gather_outerRows (hcolumns : ∀ a b : RecordSetRow, columns.id a = columns.id b ↔ a.id = b.id)
    (hids : (db.recordsets.map RecordSetRow.id).Nodup) {keys : List RecordSetRow}
    (hsub : ∀ k ∈ keys, k ∈ db.recordsets) (hnodup : keys.Nodup)
    (hsorted : keys.Pairwise fun a b => listingLe engine columns cell dir a b = true)
    {ids : List Nat} (hidsOf : ∀ id, id ∈ ids ↔ id ∈ keys.map RecordSetRow.id)
    (zoneName : Nat → Option String) :
    (gather zoneName (orderBy engine dir [cell, fun row => some (columns.id row)] Prod.fst
        (outerRows db ids))).map Listed.recordset = keys ∧
      ∀ listed ∈ gather zoneName (orderBy engine dir [cell, fun row => some (columns.id row)]
        Prod.fst (outerRows db ids)), listed.records.Perm (db.recordsOf listed.recordset.id) := by
  have hperm := orderBy_perm engine dir
    [cell, fun row => some (columns.id row)] Prod.fst (outerRows db ids)
  have hdb : db.recordsets.Nodup := hids.of_map _
  have hcolumnIds : (db.recordsets.map columns.id).Nodup := by
    rw [List.nodup_map_iff_inj_on hdb]
    intro a ha b hb hab
    exact List.inj_on_of_nodup_map hids ha hb ((hcolumns a b).mp hab)
  have hkey : ∀ row ∈ db.recordsets, (row ∈ keys ↔ row.id ∈ ids) := by
    intro row hrow
    rw [hidsOf, List.mem_map]
    constructor
    · intro h
      exact ⟨row, h, rfl⟩
    · intro h
      obtain ⟨k, hk, hid⟩ := h
      exact List.inj_on_of_nodup_map hids (hsub k hk) hrow hid ▸ hk
  have houter : outerRows db ids =
      (db.recordsets.filter fun row => ids.contains row.id).flatMap (outerRowsOf db) := rfl
  have hblocks := Keyset.eq_flatMap_blocks keys (orderBy_sorted _ _ _) hsorted hnodup
    ((listingLe_distinct hcolumnIds).subset hsub) (by
      intro raw hraw
      rw [hperm.mem_iff, houter] at hraw
      obtain ⟨row, hrow, hraw⟩ := List.mem_flatMap.mp hraw
      obtain ⟨hrow, hid⟩ := List.mem_filter.mp hrow
      rw [fst_of_outerRowsOf hraw, hkey row hrow]
      simpa using hid)
  -- the rows of each recordset are the ones the join makes for it
  have hblock : ∀ k ∈ keys, ((orderBy engine dir [cell, fun row => some (columns.id row)] Prod.fst
      (outerRows db ids)).filter fun raw => decide (raw.1 = k)).Perm (outerRowsOf db k) := by
    intro k hk
    have hmem : k ∈ db.recordsets.filter fun row => ids.contains row.id := by
      rw [List.mem_filter]
      exact ⟨hsub k hk, by simpa using (hkey k (hsub k hk)).mp hk⟩
    have := Keyset.filter_flatMap_key (hdb.filter _)
      (f := outerRowsOf db) (fun row raw h => fst_of_outerRowsOf h) hmem
    rw [← this, ← houter]
    exact hperm.filter _
  have hgather := gather_blocks zoneName
    (fun k => (orderBy engine dir [cell, fun row => some (columns.id row)] Prod.fst
      (outerRows db ids)).filter fun raw => decide (raw.1 = k)) (by
      rw [List.nodup_map_iff_inj_on hnodup]
      intro a ha b hb hab
      exact List.inj_on_of_nodup_map hids (hsub a ha) (hsub b hb) hab) (by
      intro k hk
      refine ⟨?_, ?_⟩
      · intro hnil
        have := hblock k hk
        rw [hnil] at this
        exact outerRowsOf_ne_nil k this.symm.eq_nil
      · intro raw hraw
        exact of_decide_eq_true (List.mem_filter.mp hraw).2)
  rw [← hblocks] at hgather
  rw [hgather]
  refine ⟨?_, ?_⟩
  · simp [List.map_map, Function.comp_def]
  · intro listed hlisted
    obtain ⟨k, hk, rfl⟩ := List.mem_map.mp hlisted
    have := (hblock k hk).filterMap Prod.snd
    rwa [filterMap_outerRowsOf] at this

end Outer

/-! ## Pages, and the links between them -/

section Follow

variable (engine : Engine V) (clauses : Clauses) (ctx : Context) (hideCounts : Bool) (db : Db)
  (criterion : RecordSetCriterion) (idText : Nat → V)
  (other : String → Option (RecordSetRow → Option V)) (key : Option String)
  (sortDir : Option SortDir) (limit : Nat)

/-- The recordsets of a page, by its marker. -/
def recordsetPage (marker : Option V) : Except QueryError (List Listed) :=
  (findRecordsetsWithRecords engine clauses (recordsetColumns idText other) ctx hideCounts db
    criterion marker (some limit) key sortDir).map Prod.snd

/-- The links lead to every recordset that matches once, and to all of its records. -/
def ListsAll : Prop :=
  ∃ pages all, follow (recordsetPage engine clauses ctx hideCounts db criterion idText other key
      sortDir limit) idText limit pages none = some (.ok all) ∧
    (all.map Listed.recordset).Perm (db.recordsets.filter (matching clauses ctx db criterion)) ∧
    ∀ listed ∈ all, listed.records.Perm (db.recordsOf listed.recordset.id)

variable {engine clauses ctx hideCounts db criterion idText other key sortDir limit}
variable {cell : RecordSetRow → Option V}

omit [LinearOrder V] in
theorem recordsetColumns_id (hidText : Function.Injective idText) (a b : RecordSetRow) :
    (recordsetColumns idText other).id a = (recordsetColumns idText other).id b ↔ a.id = b.id :=
  hidText.eq_iff

variable (other) in
omit [LinearOrder V] in
theorem recordsetColumns_nodup (hidText : Function.Injective idText)
    (hids : (db.recordsets.map RecordSetRow.id).Nodup) :
    (db.recordsets.map (recordsetColumns idText other).id).Nodup := by
  have := hids.map hidText
  rwa [List.map_map] at this

/--
A page under a condition has the recordsets that the first entries of the join reach, each
with all its records.
-/
theorem page_of_condition (hidText : Function.Injective idText)
    (hzones : (db.zones.map Zone.id).Nodup) (hids : (db.recordsets.map RecordSetRow.id).Nodup)
    (hkey : (recordsetColumns idText other).get (sortKeyOf key) = some cell)
    {condition : RecordSetRow → Bool} {rest : List RecordSetRow}
    (hrest : (matchingRecordsets engine clauses ctx db criterion (recordsetColumns idText other)
      cell sortDir).filter condition = rest)
    {rows : List JoinedRow}
    (hrows : rows = (orderBy engine (sortDir.getD .asc)
      [cell, fun row => some ((recordsetColumns idText other).id row)] JoinedRow.recordset
      ((selectedRows clauses ctx db criterion).filter
        fun row => condition row.recordset)).take limit)
    (zoneName : Nat → Option String) :
    ∃ raw, sortQuery engine (recordsetColumns idText other)
        (outerRows db (rows.map (·.recordset.id))) Prod.fst [sortKeyOf key, "id"]
        (sortDir.getD .asc) = .ok raw ∧
      (gather zoneName raw).map Listed.recordset =
        rest.take (Pages.reached (multiplicity clauses db criterion) limit rest) ∧
      ∀ listed ∈ gather zoneName raw,
        listed.records.Perm (db.recordsOf listed.recordset.id) := by
  have hcolumnIds := recordsetColumns_nodup other hidText hids
  -- the limit cuts the list in which each recordset stands as often as it counts
  have hmap : rows.map JoinedRow.recordset =
      (Pages.spread (multiplicity clauses db criterion) rest).take limit := by
    rw [hrows, List.map_take, map_orderBy_selectedRows hzones hcolumnIds, hrest]
  have hmem : ∀ row ∈ rest, row ∈ db.recordsets ∧
      matching clauses ctx db criterion row = true := by
    intro row hrow
    rw [← hrest] at hrow
    exact mem_matchingRecordsets.mp (List.mem_of_mem_filter hrow)
  have hpos : ∀ row ∈ rest, 0 < multiplicity clauses db criterion row := fun row hrow =>
    multiplicity_pos (hmem row hrow).2
  have hsorted : rest.Pairwise fun a b =>
      listingLe engine (recordsetColumns idText other) cell (sortDir.getD .asc) a b = true := by
    rw [← hrest]
    exact (Keyset.arranged_sorted listingLe_isOrder _).sublist List.filter_sublist
  have hnodup : rest.Nodup := by
    rw [← hrest]
    exact ((Keyset.arranged_perm _).symm.nodup ((hids.of_map _).filter _)).filter _
  -- the second query is sorted by the same columns
  have hquery : sortQuery engine (recordsetColumns idText other)
      (outerRows db (rows.map (·.recordset.id))) Prod.fst [sortKeyOf key, "id"]
      (sortDir.getD .asc) = .ok (orderBy engine (sortDir.getD .asc)
        [cell, fun row => some ((recordsetColumns idText other).id row)] Prod.fst
        (outerRows db (rows.map (·.recordset.id)))) := by
    unfold sortQuery
    rw [sortColumns_eq hkey]
    rfl
  refine ⟨_, hquery, ?_⟩
  refine gather_outerRows (recordsetColumns_id hidText) hids
    (fun k hk => (hmem k (List.mem_of_mem_take hk)).1) (hnodup.sublist (List.take_sublist _ _))
    (hsorted.sublist (List.take_sublist _ _)) ?_ zoneName
  intro id
  have hmap' : rows.map (·.recordset.id) =
      ((Pages.spread (multiplicity clauses db criterion) rest).take limit).map
        RecordSetRow.id := by
    rw [← hmap, List.map_map]
    rfl
  rw [hmap', List.mem_map, List.mem_map]
  refine exists_congr fun row => and_congr_left fun _ => ?_
  exact Pages.mem_take_spread hpos limit

/-- A page has the recordsets its rows reach; an empty one has none. -/
theorem recordsetPage_of (condition : RecordSetRow → Bool) {marker : Option V}
    (hidText : Function.Injective idText)
    (hzones : (db.zones.map Zone.id).Nodup) (hids : (db.recordsets.map RecordSetRow.id).Nodup)
    (hkey : (recordsetColumns idText other).get (sortKeyOf key) = some cell)
    {rest : List RecordSetRow} {found : Option RecordSetRow}
    (hmarker : markerRow (recordsetColumns idText other) db.recordsets marker = .ok found)
    (hquery : paginateQuery engine (recordsetColumns idText other)
        (selectedRows clauses ctx db criterion) JoinedRow.recordset (some limit)
        [sortKeyOf key, "id"] found (sortDir.getD .asc) =
      .ok ((orderBy engine (sortDir.getD .asc)
        [cell, fun row => some ((recordsetColumns idText other).id row)] JoinedRow.recordset
        ((selectedRows clauses ctx db criterion).filter
          fun row => condition row.recordset)).take limit))
    (hrest : (matchingRecordsets engine clauses ctx db criterion (recordsetColumns idText other)
      cell sortDir).filter condition = rest) :
    ∃ items, recordsetPage engine clauses ctx hideCounts db criterion idText other key sortDir
        limit marker = .ok items ∧
      items.map Listed.recordset =
        rest.take (Pages.reached (multiplicity clauses db criterion) limit rest) ∧
      ∀ listed ∈ items, listed.records.Perm (db.recordsOf listed.recordset.id) := by
  generalize hrows : (orderBy engine (sortDir.getD .asc)
    [cell, fun row => some ((recordsetColumns idText other).id row)] JoinedRow.recordset
    ((selectedRows clauses ctx db criterion).filter
      fun row => condition row.recordset)).take limit = rows at hquery
  have hpage : recordsetPage engine clauses ctx hideCounts db criterion idText other key sortDir
      limit marker = (recordsetsOfRows engine clauses (recordsetColumns idText other) ctx hideCounts
        db criterion key sortDir rows).map Prod.snd := by
    unfold recordsetPage findRecordsetsWithRecords
    rw [hmarker]
    change Except.map Prod.snd (paginateQuery engine (recordsetColumns idText other)
      (selectedRows clauses ctx db criterion) JoinedRow.recordset (some limit)
      [sortKeyOf key, "id"] found (sortDir.getD .asc) >>= _) = _
    rw [hquery]
    rfl
  rw [hpage]
  unfold recordsetsOfRows
  obtain ⟨raw, hsort, hitems, hrecords⟩ := page_of_condition hidText hzones hids
    hkey hrest hrows.symm fun id =>
      (rows.reverse.find? fun row => row.recordset.id == id).map fun row => row.zone.name
  by_cases hempty : rows.isEmpty = true
  · rw [if_pos hempty]
    refine ⟨[], rfl, ?_, by simp⟩
    -- without rows the second query has nothing to fetch either
    have hrows' : rows = [] := List.isEmpty_iff.mp hempty
    have hcolumnIds := recordsetColumns_nodup other hidText hids
    have htake : (Pages.spread (multiplicity clauses db criterion) rest).take limit = [] := by
      rw [← hrest, ← map_orderBy_selectedRows hzones hcolumnIds, ← List.map_take, hrows, hrows']
      rfl
    have hnone : ∀ row, row ∉ rest.take
        (Pages.reached (multiplicity clauses db criterion) limit rest) := by
      intro row hrow
      have hpos : ∀ row ∈ rest, 0 < multiplicity clauses db criterion row := by
        intro row hrow
        rw [← hrest] at hrow
        exact multiplicity_pos (mem_matchingRecordsets.mp (List.mem_of_mem_filter hrow)).2
      rw [← Pages.mem_take_spread hpos, htake] at hrow
      exact absurd hrow (by simp)
    rw [List.eq_nil_iff_forall_not_mem.mpr hnone]
    rfl
  · rw [if_neg hempty]
    dsimp only
    rw [hsort]
    exact ⟨gather _ raw, rfl, hitems, hrecords⟩

/-- The marker of the page behind the recordsets `pre`. -/
def MarkerOf (idText : Nat → V) (pre : List RecordSetRow) : Option V → Prop
  | none => pre = []
  | some v => ∃ before m, pre = before ++ [m] ∧ v = idText m.id

variable (limit) in
/-- The page behind some of the recordsets that match is cut off the others. -/
theorem recordsetPage_behind (hagree : engine.SortsAlike (recordsetColumns idText other) cell)
    (hidText : Function.Injective idText)
    (hzones : (db.zones.map Zone.id).Nodup) (hids : (db.recordsets.map RecordSetRow.id).Nodup)
    (hkey : (recordsetColumns idText other).get (sortKeyOf key) = some cell)
    (hcell : ∀ row ∈ db.recordsets, (cell row).isSome = true) {marker : Option V}
    {pre rest : List RecordSetRow} (hmarker : MarkerOf idText pre marker)
    (hsplit : matchingRecordsets engine clauses ctx db criterion (recordsetColumns idText other)
      cell sortDir = pre ++ rest) :
    ∃ items, recordsetPage engine clauses ctx hideCounts db criterion idText other key sortDir
        limit marker = .ok items ∧
      items.map Listed.recordset =
        rest.take (Pages.reached (multiplicity clauses db criterion) limit rest) ∧
      ∀ listed ∈ items, listed.records.Perm (db.recordsOf listed.recordset.id) := by
  cases marker with
  | none =>
    -- the first page has no condition
    have hpre : pre = [] := hmarker
    have hall : ∀ l : List JoinedRow, l.filter (fun _ => true) = l := fun l =>
      List.filter_eq_self.mpr fun _ _ => rfl
    refine recordsetPage_of (fun _ => true) hidText hzones hids hkey rfl
      (by rw [paginateQuery_first hkey, hall]) ?_
    rw [List.filter_eq_self.mpr fun _ _ => rfl, hsplit, hpre, List.nil_append]
  | some v =>
    -- a later one is behind the last recordset of the page before
    obtain ⟨before, m, hpre, rfl⟩ := hmarker
    have hmem : m ∈ matchingRecordsets engine clauses ctx db criterion
        (recordsetColumns idText other) cell sortDir := by
      rw [hsplit, hpre]
      simp
    have hm : m ∈ db.recordsets := (mem_matchingRecordsets.mp hmem).1
    have hcolumnIds := recordsetColumns_nodup other hidText hids
    have hsplit' : matchingRecordsets engine clauses ctx db criterion
        (recordsetColumns idText other) cell sortDir = before ++ m :: rest := by
      rw [hsplit, hpre]
      simp
    refine recordsetPage_of (fun row => (cell row).isSome &&
        Keyset.after (listingLe engine (recordsetColumns idText other) cell
          (sortDir.getD .asc)) m row) hidText hzones hids hkey (markerRow_id hcolumnIds hm)
      (paginateQuery_next hagree hkey (hcell m hm)) ?_
    have hd : Keyset.Distinct (listingLe engine (recordsetColumns idText other) cell
        (sortDir.getD .asc)) (matchingRecordsets engine clauses ctx db criterion
          (recordsetColumns idText other) cell sortDir) :=
      (listingLe_distinct hcolumnIds).subset fun row hrow => (mem_matchingRecordsets.mp hrow).1
    have hn : (matchingRecordsets engine clauses ctx db criterion
        (recordsetColumns idText other) cell sortDir).Nodup :=
      (Keyset.arranged_perm _).symm.nodup ((hids.of_map _).filter _)
    have hs : (matchingRecordsets engine clauses ctx db criterion
        (recordsetColumns idText other) cell sortDir).Pairwise fun a b =>
          listingLe engine (recordsetColumns idText other) cell (sortDir.getD .asc) a b = true :=
      Keyset.arranged_sorted listingLe_isOrder _
    -- no value of the key is NULL, so the comparison misses none
    have hsome : ∀ row ∈ rest, (cell row).isSome = true := by
      intro row hrow
      have hmem : row ∈ matchingRecordsets engine clauses ctx db criterion
          (recordsetColumns idText other) cell sortDir := by
        rw [hsplit]
        exact List.mem_append_right _ hrow
      exact hcell row (mem_matchingRecordsets.mp hmem).1
    rw [hsplit'] at hd hn hs ⊢
    rw [← List.filter_filter, Keyset.filter_after listingLe_isOrder hd hn hs]
    exact List.filter_eq_self.mpr hsome

variable (hideCounts) in
/-- **Following the links is walking through the pages of the join.** -/
theorem follow_eq_walk (hagree : engine.SortsAlike (recordsetColumns idText other) cell)
    (hidText : Function.Injective idText)
    (hzones : (db.zones.map Zone.id).Nodup) (hids : (db.recordsets.map RecordSetRow.id).Nodup)
    (hkey : (recordsetColumns idText other).get (sortKeyOf key) = some cell)
    (hcell : ∀ row ∈ db.recordsets, (cell row).isSome = true) (hlimit : 0 < limit) (pages : Nat) :
    ∀ (marker : Option V) (pre rest : List RecordSetRow), MarkerOf idText pre marker →
      matchingRecordsets engine clauses ctx db criterion (recordsetColumns idText other) cell
        sortDir = pre ++ rest →
      match Pages.walk (multiplicity clauses db criterion) limit pages rest with
      | none => follow (recordsetPage engine clauses ctx hideCounts db criterion idText other key
          sortDir limit) idText limit pages marker = none
      | some walked => ∃ all, follow (recordsetPage engine clauses ctx hideCounts db criterion
          idText other key sortDir limit) idText limit pages marker = some (.ok all) ∧
          all.map Listed.recordset = walked ∧
          ∀ listed ∈ all, listed.records.Perm (db.recordsOf listed.recordset.id) := by
  induction pages with
  | zero =>
    intro marker pre rest _ _
    rfl
  | succ pages ih =>
    intro marker pre rest hmarker hsplit
    obtain ⟨items, hpage, hitems, hrecords⟩ := recordsetPage_behind limit hagree hidText hzones hids
      hkey hcell hmarker hsplit
    have hlength : items.length =
        Pages.reached (multiplicity clauses db criterion) limit rest := by
      have := Pages.reached_le_length (multiplicity clauses db criterion) rest limit
      rw [← List.length_map (f := Listed.recordset), hitems, List.length_take]
      omega
    rw [Pages.walk, follow, hpage]
    dsimp only
    rw [hlength]
    by_cases hfull : Pages.reached (multiplicity clauses db criterion) limit rest = limit
    · rw [if_pos hfull, if_pos hfull.symm]
      rw [hfull] at hitems hlength
      -- the next page begins behind the last recordset of this one
      have hne : items ≠ [] := by
        intro h
        rw [h, List.length_nil] at hlength
        omega
      obtain ⟨init, last, rfl⟩ : ∃ init last, items = init ++ [last] :=
        ⟨_, _, (List.dropLast_concat_getLast hne).symm⟩
      rw [List.map_append, List.map_singleton] at hitems
      have hnext := ih (some (idText last.recordset.id)) (pre ++ rest.take limit) (rest.drop limit)
        ⟨pre ++ init.map Listed.recordset, last.recordset, by rw [← hitems, List.append_assoc], rfl⟩
        (by rw [hsplit, List.append_assoc, List.take_append_drop])
      rw [List.getLast?_concat]
      dsimp only
      cases hwalk : Pages.walk (multiplicity clauses db criterion) limit pages
          (rest.drop limit) with
      | none =>
        rw [hwalk] at hnext
        dsimp only [Option.map_none] at hnext ⊢
        rw [hnext, Option.map_none]
      | some walked =>
        rw [hwalk] at hnext
        obtain ⟨all, hfollow, hall, hrest⟩ := hnext
        rw [hfollow]
        refine ⟨init ++ [last] ++ all, rfl, ?_, ?_⟩
        · rw [List.map_append, List.map_append, List.map_singleton, hitems, hall]
        · intro listed hlisted
          rcases List.mem_append.mp hlisted with h | h
          · exact hrecords listed h
          · exact hrest listed h
    · rw [if_neg hfull, if_neg fun h => hfull h.symm]
      exact ⟨items, rfl, hitems, hrecords⟩

/-- The listing is complete exactly when walking through the pages of the join gives all. -/
theorem listsAll_iff_walk (hagree : engine.SortsAlike (recordsetColumns idText other) cell)
    (hidText : Function.Injective idText)
    (hzones : (db.zones.map Zone.id).Nodup) (hids : (db.recordsets.map RecordSetRow.id).Nodup)
    (hkey : (recordsetColumns idText other).get (sortKeyOf key) = some cell)
    (hcell : ∀ row ∈ db.recordsets, (cell row).isSome = true) (hlimit : 0 < limit) :
    ListsAll engine clauses ctx hideCounts db criterion idText other key sortDir limit ↔
      ∃ pages, Pages.walk (multiplicity clauses db criterion) limit pages
        (matchingRecordsets engine clauses ctx db criterion (recordsetColumns idText other) cell
          sortDir) = some (matchingRecordsets engine clauses ctx db criterion
            (recordsetColumns idText other) cell sortDir) := by
  have hperm : (matchingRecordsets engine clauses ctx db criterion
      (recordsetColumns idText other) cell sortDir).Perm
        (db.recordsets.filter (matching clauses ctx db criterion)) := Keyset.arranged_perm _
  have hfollow := fun pages => follow_eq_walk hideCounts hagree hidText hzones hids hkey hcell
    hlimit pages none [] (matchingRecordsets engine clauses ctx db criterion (recordsetColumns idText other)
      cell sortDir) rfl rfl
  constructor
  · intro h
    obtain ⟨pages, all, hall, hmatch, -⟩ := h
    refine ⟨pages, ?_⟩
    have hpages := hfollow pages
    cases hwalk : Pages.walk (multiplicity clauses db criterion) limit pages
        (matchingRecordsets engine clauses ctx db criterion (recordsetColumns idText other) cell
          sortDir) with
    | none =>
      rw [hwalk] at hpages
      dsimp only at hpages
      rw [hpages] at hall
      exact absurd hall (by simp)
    | some walked =>
      rw [hwalk] at hpages
      obtain ⟨all', hall', hwalked, -⟩ := hpages
      rw [hall'] at hall
      cases hall
      -- what is walked through is the beginning of the list, and as long as all of it
      have hbegins := Pages.prefix_of_walk pages hwalk
      have hlength := (hwalked ▸ hmatch).length_eq.trans hperm.length_eq.symm
      exact congrArg some (hbegins.eq_of_length hlength)
  · intro h
    obtain ⟨pages, hwalk⟩ := h
    have hpages := hfollow pages
    rw [hwalk] at hpages
    obtain ⟨all, hall, hwalked, hrecords⟩ := hpages
    exact ⟨pages, all, hall, hwalked ▸ hperm, hrecords⟩

/--
**The listing of recordsets is complete exactly when its recordsets fit the pages**, each
taking as many places as it has records that the criterion asks for.
-/
theorem recordset_listing_complete_iff
    (hagree : engine.SortsAlike (recordsetColumns idText other) cell)
    (hidText : Function.Injective idText)
    (hzones : (db.zones.map Zone.id).Nodup) (hids : (db.recordsets.map RecordSetRow.id).Nodup)
    (hkey : (recordsetColumns idText other).get (sortKeyOf key) = some cell)
    (hcell : ∀ row ∈ db.recordsets, (cell row).isSome = true) (hlimit : 0 < limit) :
    ListsAll engine clauses ctx hideCounts db criterion idText other key sortDir limit ↔
      Pages.Fits (multiplicity clauses db criterion) limit
        (matchingRecordsets engine clauses ctx db criterion (recordsetColumns idText other) cell
          sortDir) := by
  rw [listsAll_iff_walk hagree hidText hzones hids hkey hcell hlimit]
  exact Pages.walk_eq_self_iff hlimit _ (le_refl _)
    fun row hrow => multiplicity_pos (mem_matchingRecordsets.mp hrow).2

end Follow

/-! ## Two recordsets, one of them with two records -/

/-- A live zone with two recordsets, in order of their identifiers. -/
def sampleListingDb (records : List RecordRow) : Db where
  zones := [⟨1, some "t", "example.org.", .PRIMARY, 3600, 1, .NONE, .ACTIVE, 1, none, none, false⟩]
  recordsets := [⟨10, 1, some "t", "a.example.org.", .A, none, none⟩,
    ⟨11, 1, some "t", "b.example.org.", .A, none, none⟩]
  records := records

/-- A record of a recordset, in the zone of the sample. -/
def sampleListingRecord (id recordsetId : Nat) (data : String) : RecordRow :=
  ⟨id, 1, recordsetId, some "t", data, data, false, .NONE, .ACTIVE, 1, none, {}⟩

/-- The recordsets that have a record with the status `ACTIVE`. -/
def sampleListingCriterion : RecordSetCriterion where
  recordset _ := true
  status := some "ACTIVE"

/-- Texts are compared as they are. -/
def sampleClauses : Clauses where
  data value column := value == column
  status value column := value == "ACTIVE" && column == .ACTIVE

/-- Both recordsets match, in the order of their identifiers. -/
theorem matchingRecordsets_sample {records : List RecordRow}
    (h : (sampleListingDb records).recordsets.filter (matching sampleClauses
      ⟨"t", false, false, false, 0⟩ (sampleListingDb records) sampleListingCriterion) =
        (sampleListingDb records).recordsets) :
    matchingRecordsets sampleEngine sampleClauses ⟨"t", false, false, false, 0⟩
      (sampleListingDb records) sampleListingCriterion
      (recordsetColumns (fun id => id) fun _ => none) (fun row => some row.id) none =
      [⟨10, 1, some "t", "a.example.org.", .A, none, none⟩,
        ⟨11, 1, some "t", "b.example.org.", .A, none, none⟩] := by
  unfold matchingRecordsets
  rw [h]
  refine (Keyset.eq_arranged listingLe_isOrder (listingLe_distinct ?_) (List.Perm.refl _) ?_).symm
  · change [10, 11].Nodup
    decide
  · change List.Pairwise _ [_, _]
    rw [List.pairwise_pair]
    decide

theorem sampleListing_key :
    (recordsetColumns (fun id => id) fun _ => none).get (sortKeyOf (some "id")) =
      some fun row => some row.id := rfl

/-- The recordset with two records is the last one of its page: the limit cuts off its second row. -/
theorem recordset_listing_complete_iff_sample :
    ListsAll sampleEngine sampleClauses ⟨"t", false, false, false, 0⟩ false
      (sampleListingDb [sampleListingRecord 20 10 "192.0.2.1", sampleListingRecord 21 11 "192.0.2.2",
        sampleListingRecord 22 11 "192.0.2.3"])
      sampleListingCriterion (fun id => id) (fun _ => none) (some "id") none 2 := by
  refine (recordset_listing_complete_iff (sampleEngine_alike _ _) (fun _ _ h => h) (by decide)
    (by decide) sampleListing_key (by simp) (by decide)).mpr ?_
  rw [matchingRecordsets_sample (by decide), Pages.fits_of_le (by decide) (by decide),
    Pages.fits_of_lt (by decide)]
  exact ⟨by decide, by decide⟩

/-- With two records in the first recordset, pages of two rows never come to the second. -/
theorem recordset_listing_cut_short :
    ¬ ListsAll sampleEngine sampleClauses ⟨"t", false, false, false, 0⟩ false
      (sampleListingDb [sampleListingRecord 20 10 "192.0.2.1", sampleListingRecord 21 10 "192.0.2.2",
        sampleListingRecord 22 11 "192.0.2.3"])
      sampleListingCriterion (fun id => id) (fun _ => none) (some "id") none 2 := by
  rw [listsAll_iff_walk (sampleEngine_alike _ _) (fun _ _ h => h) (by decide) (by decide) sampleListing_key (by simp)
    (by decide), matchingRecordsets_sample (by decide),
    Pages.walk_eq_self_iff (by decide) 2 (le_refl _) (by decide),
    Pages.fits_of_le (by decide) (by decide)]
  intro h
  exact absurd (h.1 _ List.mem_cons_self) (by decide)

end Sqlalchemy

end Designate
