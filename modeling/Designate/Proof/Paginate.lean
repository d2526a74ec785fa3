import Designate.Keyset
import Designate.Sqlalchemy.Paginate

/-!
# When a listing by pages is complete

The pages that follow the first one leave out the rows without a value in the sort column,
and no page can be asked for from such a row. So a listing comes to an end with every row
in it exactly when there are no such rows, or they all come first and the first page goes
beyond them.
-/

namespace Designate

namespace Sqlalchemy

variable {ρ V : Type} [LinearOrder V] {engine : Engine V} {dir : SortDir}

/-! ## The order of `ORDER BY` -/

theorem precedes_irrefl (a : Option V) : precedes engine dir a a = false := by
  unfold precedes
  cases dir <;> cases a <;> simp [lower]

theorem precedes_trans {a b c : Option V} (hab : precedes engine dir a b = true)
    (hbc : precedes engine dir b c = true) : precedes engine dir a c = true := by
  unfold precedes at *
  cases dir <;> cases a <;> cases b <;> cases c <;> simp_all [lower]
  · exact lt_trans hab hbc
  · exact lt_trans hbc hab

theorem precedes_trichotomy (a b : Option V) :
    precedes engine dir a b = true ∨ a = b ∨ precedes engine dir b a = true := by
  unfold precedes
  cases hlow : engine.nullsLow <;> cases dir <;> cases a <;> cases b <;> simp [lower, hlow]
  all_goals rename_i x y; rcases lt_trichotomy x y with h | h | h <;> simp [h]

theorem precedes_asymm {a b : Option V} (h : precedes engine dir a b = true) :
    precedes engine dir b a = false := by
  by_contra hcon
  have := precedes_trans h (by simpa using hcon)
  rw [precedes_irrefl] at this
  exact absurd this (by simp)

/-- One key decides, or it is the same and the other keys decide. -/
theorem rowLe_cons_iff {key : ρ → Option V} {keys : List (ρ → Option V)} {a b : ρ} :
    rowLe engine dir (key :: keys) a b = true ↔
      precedes engine dir (key a) (key b) = true ∨
        key a = key b ∧ rowLe engine dir keys a b = true := by
  rw [rowLe, Bool.or_eq_true, Bool.and_eq_true, Bool.not_eq_true']
  constructor
  · intro h
    rcases h with h | ⟨hback, h⟩
    · exact .inl h
    · rcases precedes_trichotomy (key a) (key b) with hk | hk | hk
      · exact .inl hk
      · exact .inr ⟨hk, h⟩
      · rw [hback] at hk
        exact absurd hk (by simp)
  · intro h
    rcases h with h | ⟨hk, h⟩
    · exact .inl h
    · exact .inr ⟨by rw [hk]; exact precedes_irrefl _, h⟩

theorem rowLe_isOrder (keys : List (ρ → Option V)) :
    Keyset.IsOrder (rowLe engine dir keys) := by
  induction keys with
  | nil => exact ⟨fun _ _ _ _ _ => rfl, fun _ _ => .inl rfl⟩
  | cons key keys ih =>
    constructor
    · intro a b c hab hbc
      -- by the first key, and by the others where it does not tell the rows apart
      rw [rowLe_cons_iff] at hab hbc ⊢
      rcases hab with hab | ⟨hab, hab'⟩
      · rcases hbc with hbc | ⟨hbc, -⟩
        · exact .inl (precedes_trans hab hbc)
        · exact .inl (hbc ▸ hab)
      · rcases hbc with hbc | ⟨hbc, hbc'⟩
        · exact .inl (hab ▸ hbc)
        · exact .inr ⟨hab.trans hbc, ih.trans a b c hab' hbc'⟩
    · intro a b
      rw [rowLe_cons_iff, rowLe_cons_iff]
      rcases precedes_trichotomy (key a) (key b) with h | h | h
      · exact .inl (.inl h)
      · rcases ih.total a b with h' | h'
        · exact .inl (.inr ⟨h, h'⟩)
        · exact .inr (.inr ⟨h.symm, h'⟩)
      · exact .inr (.inl h)

/-- Rows that neither key tells apart have the same keys. -/
theorem rowLe_antisymm {keys : List (ρ → Option V)} {a b : ρ}
    (hab : rowLe engine dir keys a b = true) (hba : rowLe engine dir keys b a = true) :
    ∀ key ∈ keys, key a = key b := by
  induction keys with
  | nil => simp
  | cons key keys ih =>
    rw [rowLe_cons_iff] at hab hba
    -- neither row may precede the other by the first key, so it is the same in both
    rcases hab with hab | ⟨hkey, hab⟩
    · rcases hba with hba | ⟨hkey, -⟩
      · rw [precedes_asymm hab] at hba
        exact absurd hba (by simp)
      · rw [hkey, precedes_irrefl] at hab
        exact absurd hab (by simp)
    · rcases hba with hba | ⟨-, hba⟩
      · rw [hkey, precedes_irrefl] at hba
        exact absurd hba (by simp)
      · intro k hk
        rcases List.mem_cons.mp hk with rfl | hk
        · exact hkey
        · exact ih hab hba k hk

variable (engine dir) in
/-- Strictly behind, with a key and a second one. -/
theorem after_rowLe_iff (key key' : ρ → Option V) (a b : ρ) :
    Keyset.after (rowLe engine dir [key, key']) a b = true ↔
      precedes engine dir (key a) (key b) = true ∨
        key a = key b ∧ precedes engine dir (key' a) (key' b) = true := by
  unfold Keyset.after
  rw [Bool.and_eq_true, Bool.not_eq_true', ← Bool.not_eq_true]
  constructor
  · intro h
    obtain ⟨hle, hnot⟩ := h
    -- before by the key, or by the second one where the keys are equal
    rcases rowLe_cons_iff.mp hle with h | ⟨hkey, hle'⟩
    · exact .inl h
    · rcases rowLe_cons_iff.mp hle' with h | ⟨hkey', -⟩
      · exact .inr ⟨hkey, h⟩
      · exact absurd (rowLe_cons_iff.mpr (.inr ⟨hkey.symm,
          rowLe_cons_iff.mpr (.inr ⟨hkey'.symm, rfl⟩)⟩)) hnot
  · intro h
    rcases h with h | ⟨hkey, h⟩
    · refine ⟨rowLe_cons_iff.mpr (.inl h), ?_⟩
      intro hback
      rcases rowLe_cons_iff.mp hback with hback | ⟨hback, -⟩
      · rw [precedes_asymm h] at hback
        exact absurd hback (by simp)
      · rw [hback, precedes_irrefl] at h
        exact absurd h (by simp)
    · refine ⟨rowLe_cons_iff.mpr (.inr ⟨hkey, rowLe_cons_iff.mpr (.inl h)⟩), ?_⟩
      intro hback
      rcases rowLe_cons_iff.mp hback with hback | ⟨-, hback⟩
      · rw [hkey, precedes_irrefl] at hback
        exact absurd hback (by simp)
      · rcases rowLe_cons_iff.mp hback with hback | ⟨hback, -⟩
        · rw [precedes_asymm h] at hback
          exact absurd hback (by simp)
        · rw [hback, precedes_irrefl] at h
          exact absurd h (by simp)

/-! ## The condition on a marker -/

section Behind

variable {cell key : ρ → Option V} {m : ρ} {v w : V}

/-- With values in the marker, the condition is the order's, among the rows with a value. -/
theorem behind_of_value (hagree : engine.Agrees cell) (hagreeKey : engine.Agrees key)
    (hv : cell m = some v) (hw : key m = some w) (hkey : ∀ row, (key row).isSome = true) :
    ∃ condition, behind engine dir [cell, key] m = .ok condition ∧ ∀ row,
      (condition row == some true) =
        ((cell row).isSome && Keyset.after (rowLe engine dir [cell, key]) m row) := by
  have hbehind : behind engine dir [cell, key] m = .ok fun row =>
      Truth.or (past engine dir v (cell row))
        (Truth.or (Truth.and (equals (cell row) (some v)) (past engine dir w (key row)))
          (some false)) := by
    simp only [behind, criteria, beyond, hv, hw, List.nil_append, List.map_cons, List.map_nil,
      List.foldr_cons, List.foldr_nil]
    rfl
  refine ⟨_, hbehind, ?_⟩
  intro row
  have hafter := after_rowLe_iff engine dir cell key m row
  rw [hv, hw] at hafter
  obtain ⟨k, hk⟩ := Option.isSome_iff_exists.mp (hkey row)
  rw [Bool.eq_iff_iff, Bool.and_eq_true, hafter, hk]
  cases hc : cell row with
  | none =>
    -- compared with `NULL`, neither criterion can be true
    cases hp : past engine dir w (some k) with
    | none => simp [past, equals, Truth.or, Truth.and]
    | some z => cases z <;> simp [past, equals, Truth.or, Truth.and]
  | some c =>
    have hor : ∀ x y z : Bool, (Truth.or (some x) (Truth.or (Truth.and (some y) (some z))
        (some false)) == some true) = (x || y && z) := by decide
    have hsame : (c = v) = (v = c) := propext eq_comm
    -- both columns are compared as the listing sorts them
    have hcell : engine.below v c = decide (v < c) ∧ engine.below c v = decide (c < v) :=
      ⟨hagree m row v hv c hc, hagree row m c hc v hv⟩
    have hlast : engine.below w k = decide (w < k) ∧ engine.below k w = decide (k < w) :=
      ⟨hagreeKey m row w hw k hk, hagreeKey row m k hk w hw⟩
    cases dir <;>
      simp only [past, hcell, hlast, equals, Option.map_some, hor, precedes, lower, Bool.or_eq_true,
        Bool.and_eq_true, decide_eq_true_eq, Option.isSome_some, true_and, Option.some.injEq, hsame]

/-- Without a value in the marker there is no condition. -/
theorem behind_of_null {e : QueryError} (hnone : engine.compareNone = .error e)
    (hv : cell m = none) : behind engine dir [cell, key] m = .error e := by
  simp only [behind, criteria, beyond, hv, hnone]
  rfl

end Behind

/-! ## Pages of a table -/

/-- The order of the rows of a listing. -/
def listingLe (engine : Engine V) (columns : Columns ρ V) (cell : ρ → Option V) (dir : SortDir) :
    ρ → ρ → Bool :=
  rowLe engine dir [cell, fun row => some (columns.id row)]

/-- Rows without a value come before those with one. -/
def nullsFirst (engine : Engine V) (dir : SortDir) : Bool :=
  match dir with
  | .asc => engine.nullsLow
  | .desc => !engine.nullsLow

/-- How many of the rows have no value in a column. -/
def nulls (cell : ρ → Option V) (rows : List ρ) : Nat := rows.countP fun row => (cell row).isNone

/-- Paging comes to an end, and has given every one of the rows once, in order. -/
def Complete {ε : Type} (le : ρ → ρ → Bool) (id : ρ → V)
    (page : Option V → Except ε (List ρ)) (rows : List ρ) : Prop :=
  ∃ pages all, iter page id pages none = some (.ok all) ∧ all.Perm rows ∧
    all.Pairwise fun a b => le a b = true

section Listing

variable {columns : Columns ρ V} {table : List ρ} {matching : ρ → Bool} {cell : ρ → Option V}
  {key : Option String} {sortDir : Option SortDir} {limit : Nat}

theorem listingLe_isOrder : Keyset.IsOrder (listingLe engine columns cell dir) := rowLe_isOrder _

theorem listingLe_distinct (hids : (table.map columns.id).Nodup) :
    Keyset.Distinct (listingLe engine columns cell dir) table := by
  intro a ha b hb hab hba
  have hid := rowLe_antisymm hab hba (fun row => some (columns.id row)) (by simp)
  exact List.inj_on_of_nodup_map hids ha hb (by simpa using hid)

variable (engine dir) in
theorem orderBy_perm {α : Type} (keys : List (ρ → Option V)) (of : α → ρ) (rows : List α) :
    (orderBy engine dir keys of rows).Perm rows := List.mergeSort_perm _ _

theorem orderBy_sorted {α : Type} (keys : List (ρ → Option V)) (of : α → ρ) (rows : List α) :
    (orderBy engine dir keys of rows).Pairwise fun a b =>
      rowLe engine dir keys (of a) (of b) = true := by
  refine List.pairwise_mergeSort ?_ ?_ rows
  · intro a b c
    exact (rowLe_isOrder keys).trans _ _ _
  · intro a b
    rw [Bool.or_eq_true]
    exact (rowLe_isOrder keys).total _ _

/-- The marker of a row is found in the table. -/
theorem checkMarker_id (hids : (table.map columns.id).Nodup) {m : ρ} (hm : m ∈ table) :
    checkMarker columns table (columns.id m) = .ok m := by
  unfold checkMarker
  cases hf : table.find? fun row => decide (columns.id row = columns.id m) with
  | none =>
    have := List.find?_eq_none.mp hf m hm
    exact absurd (decide_eq_true rfl) this
  | some row =>
    have hrow := List.find?_some hf
    have hid : columns.id row = columns.id m := of_decide_eq_true hrow
    rw [List.inj_on_of_nodup_map hids (List.mem_of_find?_eq_some hf) hm hid]

theorem markerRow_id (hids : (table.map columns.id).Nodup) {m : ρ} (hm : m ∈ table) :
    markerRow columns table (some (columns.id m)) = .ok (some m) := by
  change Except.map some (checkMarker columns table (columns.id m)) = _
  rw [checkMarker_id hids hm]
  rfl

omit [LinearOrder V] in
theorem sortColumns_eq (hkey : columns.get (sortKeyOf key) = some cell) :
    sortColumns columns [sortKeyOf key, "id"] =
      .ok [cell, fun row => some (columns.id row)] := by
  have hid : columns.get "id" = some fun row => some (columns.id row) := if_pos rfl
  simp only [sortColumns, List.mapM_cons, List.mapM_nil, hkey, hid]
  rfl

/-- The rows of a query behind a row with a value in the sort column. -/
theorem paginateQuery_next {α : Type} {of : α → ρ} {rows : List α}
    (hagree : engine.SortsAlike columns cell)
    (hkey : columns.get (sortKeyOf key) = some cell) {m : ρ} (hv : (cell m).isSome = true) :
    paginateQuery engine columns rows of (some limit) [sortKeyOf key, "id"] (some m) dir =
      .ok ((orderBy engine dir [cell, fun row => some (columns.id row)] of
        (rows.filter fun row => (cell (of row)).isSome &&
          Keyset.after (listingLe engine columns cell dir) m (of row))).take limit) := by
  obtain ⟨v, hv⟩ := Option.isSome_iff_exists.mp hv
  -- the condition that is asked of the rows is that they stand behind the marker, unless they
  -- have no value
  obtain ⟨condition, hbehind, hcondition⟩ : ∃ condition,
      behind engine dir [cell, fun row => some (columns.id row)] m = .ok condition ∧ ∀ row,
        (condition row == some true) =
          ((cell row).isSome && Keyset.after (listingLe engine columns cell dir) m row) :=
    behind_of_value hagree.1 hagree.2 hv rfl fun _ => rfl
  have hfilter : rows.filter (fun row => condition (of row) == some true) =
      rows.filter fun row => (cell (of row)).isSome &&
        Keyset.after (listingLe engine columns cell dir) m (of row) :=
    List.filter_congr fun row _ => hcondition (of row)
  rw [← hfilter]
  unfold paginateQuery
  rw [sortColumns_eq hkey]
  change (behind engine dir [cell, fun row => some (columns.id row)] m >>= _) = _
  rw [hbehind]
  rfl

/-- The first rows of a query. -/
theorem paginateQuery_first {α : Type} {of : α → ρ} {rows : List α}
    (hkey : columns.get (sortKeyOf key) = some cell) :
    paginateQuery engine columns rows of (some limit) [sortKeyOf key, "id"] none dir =
      .ok ((orderBy engine dir [cell, fun row => some (columns.id row)] of rows).take limit) := by
  unfold paginateQuery
  rw [sortColumns_eq hkey]
  rfl

/-- The first page. -/
theorem find_first (hkey : columns.get (sortKeyOf key) = some cell) :
    find engine columns table matching none (some limit) key sortDir =
      .ok ((Keyset.arranged (listingLe engine columns cell (sortDir.getD .asc))
        (table.filter matching)).take limit) := by
  exact paginateQuery_first hkey

/-- The page behind a row with a value in the sort column. -/
theorem find_next (hagree : engine.SortsAlike columns cell) (hids : (table.map columns.id).Nodup)
    (hkey : columns.get (sortKeyOf key) = some cell) {m : ρ} (hm : m ∈ table)
    (hv : (cell m).isSome = true) :
    find engine columns table matching (some (columns.id m)) (some limit) key sortDir =
      .ok (((Keyset.arranged (listingLe engine columns cell (sortDir.getD .asc))
        (table.filter matching)).filter fun row => (cell row).isSome &&
          Keyset.after (listingLe engine columns cell (sortDir.getD .asc)) m row).take limit) := by
  have hd : Keyset.Distinct (listingLe engine columns cell (sortDir.getD .asc))
      (table.filter matching) :=
    (listingLe_distinct hids).subset fun a ha => List.mem_of_mem_filter ha
  rw [← Keyset.arranged_filter listingLe_isOrder hd]
  unfold find
  rw [markerRow_id hids hm]
  exact paginateQuery_next hagree hkey hv

/-- No page can be asked for behind a row without a value. -/
theorem find_null {e : QueryError} (hnone : engine.compareNone = .error e)
    (hids : (table.map columns.id).Nodup) (hkey : columns.get (sortKeyOf key) = some cell) {m : ρ}
    (hm : m ∈ table) (hv : (cell m).isSome = false) :
    find engine columns table matching (some (columns.id m)) (some limit) key sortDir =
      .error e := by
  have hv : cell m = none := by simpa using hv
  unfold find paginateQuery
  rw [sortColumns_eq hkey, markerRow_id hids hm]
  change (behind engine (sortDir.getD .asc) [cell, fun row => some (columns.id row)] m >>= _) = _
  rw [behind_of_null hnone hv]
  rfl


/-! ## Walking through the pages -/

/-- The end of a list that is cut off after a number of elements. -/
theorem take_eq_concat {l : List ρ} (hne : l ≠ []) (hlimit : 0 < limit) :
    ∃ init last, l.take limit = init ++ [last] := by
  have htake : l.take limit ≠ [] := by
    intro h
    rcases List.take_eq_nil_iff.mp h with h | h
    · omega
    · exact hne h
  exact ⟨_, _, (List.dropLast_concat_getLast htake).symm⟩

section Walk

variable (engine columns table matching key sortDir limit)

/-- The pages of a listing, by their marker. -/
def pageOf (marker : Option V) : Except QueryError (List ρ) :=
  find engine columns table matching marker (some limit) key sortDir

/-- All that matches, in the order of the listing. -/
def wanted (cell : ρ → Option V) : List ρ :=
  Keyset.arranged (listingLe engine columns cell (sortDir.getD .asc)) (table.filter matching)

variable {engine columns table matching key sortDir limit}

theorem mem_table_of_wanted {row : ρ}
    (h : row ∈ wanted engine columns table matching sortDir cell) : row ∈ table :=
  List.mem_of_mem_filter (Keyset.mem_arranged.mp h)

variable (engine columns table matching cell sortDir) in
theorem wanted_sorted : (wanted engine columns table matching sortDir cell).Pairwise fun a b =>
    listingLe engine columns cell (sortDir.getD .asc) a b = true :=
  Keyset.arranged_sorted listingLe_isOrder _

/-- Behind a row from which on all rows have a value, paging gives the rest. -/
theorem iter_rest (hagree : engine.SortsAlike columns cell) (hids : (table.map columns.id).Nodup)
    (hkey : columns.get (sortKeyOf key) = some cell) (hlimit : 0 < limit) :
    ∀ (pages : Nat) {pre post : List ρ} {m : ρ},
      wanted engine columns table matching sortDir cell = pre ++ m :: post →
      (∀ row ∈ m :: post, (cell row).isSome = true) → post.length < pages →
      iter (pageOf engine columns table matching key sortDir limit) columns.id pages
        (some (columns.id m)) = some (.ok post) := by
  intro pages
  induction pages with
  | zero =>
    intro pre post m _ _ hlen
    omega
  | succ pages ih =>
    intro pre post m hsplit hsome hlen
    have hm : m ∈ wanted engine columns table matching sortDir cell := by simp [hsplit]
    have hpage : pageOf engine columns table matching key sortDir limit (some (columns.id m)) =
        .ok (post.take limit) := by
      have hd : Keyset.Distinct (listingLe engine columns cell (sortDir.getD .asc))
          (wanted engine columns table matching sortDir cell) :=
        (listingLe_distinct hids).subset fun a ha => mem_table_of_wanted ha
      have hn : (wanted engine columns table matching sortDir cell).Nodup :=
        (Keyset.arranged_perm _).symm.nodup ((hids.of_map _).filter _)
      have hs := wanted_sorted engine columns table matching cell sortDir
      rw [hsplit] at hd hn hs
      have hafter := Keyset.filter_after listingLe_isOrder hd hn hs
      -- the rows behind the marker are those that stand behind it in the order
      have hbehind : (wanted engine columns table matching sortDir cell).filter (fun row =>
          (cell row).isSome &&
            Keyset.after (listingLe engine columns cell (sortDir.getD .asc)) m row) = post := by
        rw [← List.filter_filter, hsplit, hafter, List.filter_eq_self]
        exact fun row hrow => hsome row (List.mem_cons_of_mem _ hrow)
      unfold wanted at hbehind
      rw [pageOf, find_next hagree hids hkey (mem_table_of_wanted hm) (hsome m List.mem_cons_self),
        hbehind]
    rw [iter, hpage]
    -- nothing is left, or the page ends at a row with which the induction goes on
    by_cases hpost : post = []
    · subst hpost
      simp
    · obtain ⟨init, last, htake⟩ := take_eq_concat hpost hlimit
      have hrest : post = init ++ last :: post.drop limit := by
        conv_lhs => rw [← List.take_append_drop limit post, htake]
        simp
      have hsplit' : wanted engine columns table matching sortDir cell =
          (pre ++ m :: init) ++ last :: post.drop limit := by
        rw [hsplit]
        conv_lhs => rw [hrest]
        simp
      have hlen' : (post.drop limit).length < pages := by
        have := List.length_pos_iff.mpr hpost
        rw [List.length_drop]
        omega
      have hsome' : ∀ row ∈ last :: post.drop limit, (cell row).isSome = true := by
        intro row hrow
        refine hsome row (List.mem_cons_of_mem _ ?_)
        rw [hrest]
        exact List.mem_append_right _ hrow
      simp only [htake, List.getLast?_concat, ih hsplit' hsome' hlen', Option.map_some,
        Except.map]
      rw [← htake, List.take_append_drop]

/-- A walk that goes on from a row and ends has met no row without a value. -/
theorem isSome_of_iter {e : QueryError} (hnone : engine.compareNone = .error e)
    (hagree : engine.SortsAlike columns cell)
    (hids : (table.map columns.id).Nodup) (hkey : columns.get (sortKeyOf key) = some cell) :
    ∀ (pages : Nat) {m : ρ} {rest : List ρ}, m ∈ table →
      iter (pageOf engine columns table matching key sortDir limit) columns.id pages
        (some (columns.id m)) = some (.ok rest) →
      (cell m).isSome = true ∧ ∀ row ∈ rest, (cell row).isSome = true := by
  intro pages
  induction pages with
  | zero =>
    intro m rest _ h
    exact absurd h (by simp [iter])
  | succ pages ih =>
    intro m rest hm h
    cases hv : (cell m).isSome with
    | false =>
      rw [iter, pageOf, find_null hnone hids hkey hm hv] at h
      exact absurd h (by simp)
    | true =>
      refine ⟨rfl, ?_⟩
      rw [iter, pageOf, find_next hagree hids hkey hm hv] at h
      simp only at h
      -- every row of the page is one of the table, and has a value
      have hitems : ∀ row ∈ ((Keyset.arranged (listingLe engine columns cell (sortDir.getD .asc))
          (table.filter matching)).filter fun row => (cell row).isSome &&
            Keyset.after (listingLe engine columns cell (sortDir.getD .asc)) m row).take limit,
          row ∈ table ∧ (cell row).isSome = true := by
        intro row hrow
        obtain ⟨hmem, hcond⟩ := List.mem_filter.mp (List.mem_of_mem_take hrow)
        rw [Bool.and_eq_true] at hcond
        exact ⟨List.mem_of_mem_filter (Keyset.mem_arranged.mp hmem), hcond.1⟩
      generalize List.take limit _ = items at h hitems
      cases hlast : items.getLast? with
      | none =>
        rw [hlast] at h
        cases h
        simp
      | some last =>
        rw [hlast] at h
        simp only at h
        cases hnext : iter (pageOf engine columns table matching key sortDir limit) columns.id
            pages (some (columns.id last)) with
        | none => simp [hnext] at h
        | some result =>
          rw [hnext] at h
          cases result with
          | error e => simp [Except.map] at h
          | ok later =>
            simp only [Option.map_some, Except.map, Option.some.injEq, Except.ok.injEq] at h
            obtain ⟨hmem, -⟩ := hitems last (List.mem_of_getLast? hlast)
            have hlater := (ih hmem hnext).2
            intro row hrow
            rw [← h] at hrow
            rcases List.mem_append.mp hrow with hrow | hrow
            · exact (hitems row hrow).2
            · exact hlater row hrow

/-! ## Rows without a value -/

/-- What comes before a row without a value has none either, where these rows are first. -/
theorem isNone_of_before (hfirst : nullsFirst engine dir = true) {a b : ρ}
    (hle : listingLe engine columns cell dir a b = true) (hb : (cell b).isNone = true) :
    (cell a).isNone = true := by
  rcases rowLe_cons_iff.mp hle with h | ⟨h, -⟩
  · cases ha : cell a with
    | none => rfl
    | some v =>
      have hb : cell b = none := by simpa using hb
      rw [ha, hb] at h
      cases dir <;> simp_all [precedes, lower, nullsFirst]
  · rw [h]
    exact hb

/-- A row without a value that comes before one with a value. -/
theorem nullsFirst_of_before {a b : ρ} (hle : listingLe engine columns cell dir a b = true)
    (ha : (cell a).isNone = true) (hb : (cell b).isSome = true) :
    nullsFirst engine dir = true := by
  obtain ⟨v, hb⟩ := Option.isSome_iff_exists.mp hb
  have ha : cell a = none := by simpa using ha
  rcases rowLe_cons_iff.mp hle with h | ⟨h, -⟩
  · rw [ha, hb] at h
    cases dir <;> simpa [precedes, lower, nullsFirst] using h
  · rw [ha, hb] at h
    exact absurd h (by simp)

theorem nulls_wanted :
    nulls cell (wanted engine columns table matching sortDir cell) =
      nulls cell (table.filter matching) := (Keyset.arranged_perm _).countP_eq _

/-- Few enough rows without a value, all first, end before the last row of the first page. -/
theorem isSome_of_few {init post : List ρ} {last : ρ}
    (hsplit : wanted engine columns table matching sortDir cell = init ++ last :: post)
    (h : nulls cell (table.filter matching) = 0 ∨
      nullsFirst engine (sortDir.getD .asc) = true ∧
        nulls cell (table.filter matching) ≤ init.length) :
    ∀ row ∈ last :: post, (cell row).isSome = true := by
  intro row hrow
  have hsorted := wanted_sorted engine columns table matching cell sortDir
  rw [← nulls_wanted, hsplit] at h
  rw [hsplit, List.pairwise_append] at hsorted
  cases hv : cell row with
  | some v => rfl
  | none =>
    have hcount : 0 < (last :: post).countP fun row => (cell row).isNone :=
      List.countP_pos_iff.mpr ⟨row, hrow, by simp [hv]⟩
    unfold nulls at h
    rw [List.countP_append] at h
    rcases h with h | ⟨hfirst, h⟩
    · omega
    · -- all of the rows before are without a value as well
      have hinit : init.countP (fun row => (cell row).isNone) = init.length := by
        rw [List.countP_eq_length]
        intro a ha
        exact isNone_of_before hfirst (hsorted.2.2 a ha row hrow) (by simp [hv])
      omega

/-- The rows of a listing, around the last one of the first page. -/
theorem wanted_split {init : List ρ} {last : ρ}
    (htake : (wanted engine columns table matching sortDir cell).take limit = init ++ [last]) :
    wanted engine columns table matching sortDir cell = init ++
        last :: (wanted engine columns table matching sortDir cell).drop limit ∧
      last ∈ table ∧ init.length + 1 = min limit (table.filter matching).length := by
  have hsplit : wanted engine columns table matching sortDir cell = init ++
      last :: (wanted engine columns table matching sortDir cell).drop limit := by
    conv_lhs => rw [← List.take_append_drop limit
      (wanted engine columns table matching sortDir cell), htake]
    simp
  -- arranging the rows neither adds nor loses any
  have hlength : (wanted engine columns table matching sortDir cell).length =
      (table.filter matching).length := (Keyset.arranged_perm _).length_eq
  refine ⟨hsplit, ?_, ?_⟩
  · have hlast : last ∈ wanted engine columns table matching sortDir cell := by
      rw [hsplit]
      simp
    exact mem_table_of_wanted hlast
  · rw [← hlength, ← List.length_take, htake]
    simp

/-- Complete paging has asked for a page behind the first, and given the rows left by it. -/
theorem isSome_of_complete {e : QueryError} (hnone : engine.compareNone = .error e)
    (hagree : engine.SortsAlike columns cell)
    (hids : (table.map columns.id).Nodup) (hkey : columns.get (sortKeyOf key) = some cell)
    {init : List ρ} {last : ρ}
    (htake : (wanted engine columns table matching sortDir cell).take limit = init ++ [last])
    (h : Complete (listingLe engine columns cell (sortDir.getD .asc)) columns.id
      (pageOf engine columns table matching key sortDir limit) (table.filter matching)) :
    ∀ row ∈ last :: (wanted engine columns table matching sortDir cell).drop limit,
      (cell row).isSome = true := by
  obtain ⟨pages, all, hiter, hperm, hsorted⟩ := h
  have hfirst : pageOf engine columns table matching key sortDir limit none =
      .ok ((wanted engine columns table matching sortDir cell).take limit) := find_first hkey
  -- what is complete and sorted is the list itself
  have hall : all = wanted engine columns table matching sortDir cell :=
    Keyset.eq_arranged listingLe_isOrder
      ((listingLe_distinct hids).subset fun a ha => List.mem_of_mem_filter ha) hperm hsorted
  cases pages with
  | zero => exact absurd hiter (by simp [iter])
  | succ pages =>
    rw [iter, hfirst, htake] at hiter
    simp only [List.getLast?_concat] at hiter
    cases hnext : iter (pageOf engine columns table matching key sortDir limit)
        columns.id pages (some (columns.id last)) with
    | none => simp [hnext] at hiter
    | some result =>
      rw [hnext] at hiter
      cases result with
      | error e => simp [Except.map] at hiter
      | ok later =>
        simp only [Option.map_some, Except.map, Option.some.injEq, Except.ok.injEq] at hiter
        -- so behind the first page comes what it has left
        have hlater : later = (wanted engine columns table matching sortDir cell).drop limit := by
          have hjoin := List.take_append_drop limit
            (wanted engine columns table matching sortDir cell)
          rw [htake] at hjoin
          exact List.append_cancel_left (hiter.trans (hall.trans hjoin.symm))
        have hsome := isSome_of_iter hnone hagree hids hkey pages (wanted_split htake).2.1 hnext
        intro row hrow
        rcases List.mem_cons.mp hrow with rfl | hrow
        · exact hsome.1
        · exact hsome.2 row (hlater ▸ hrow)

/-- With all of them having a value from the end of the first page on, paging is complete. -/
theorem complete_of_isSome (hagree : engine.SortsAlike columns cell)
    (hids : (table.map columns.id).Nodup)
    (hkey : columns.get (sortKeyOf key) = some cell) (hlimit : 0 < limit)
    {init : List ρ} {last : ρ}
    (htake : (wanted engine columns table matching sortDir cell).take limit = init ++ [last])
    (hsome : ∀ row ∈ last :: (wanted engine columns table matching sortDir cell).drop limit,
      (cell row).isSome = true) :
    Complete (listingLe engine columns cell (sortDir.getD .asc)) columns.id
      (pageOf engine columns table matching key sortDir limit) (table.filter matching) := by
  -- the first page is the front of the listing; from its last row on, every page goes on where
  -- the one before ended
  have hfirst : pageOf engine columns table matching key sortDir limit none =
      .ok ((wanted engine columns table matching sortDir cell).take limit) := find_first hkey
  have hiter := iter_rest hagree hids hkey hlimit
    (((wanted engine columns table matching sortDir cell).drop limit).length + 1)
    (wanted_split htake).1 hsome (Nat.lt_succ_self _)
  refine ⟨((wanted engine columns table matching sortDir cell).drop limit).length + 2,
    wanted engine columns table matching sortDir cell, ?_, Keyset.arranged_perm _,
    wanted_sorted engine columns table matching cell sortDir⟩
  rw [iter, hfirst, htake]
  simp only [List.getLast?_concat, hiter, Option.map_some, Except.map]
  rw [← htake, List.take_append_drop]

/--
**Paging is complete exactly when no row it wants lacks a value in the sort column, or those
that do come first and the first page ends behind them.**
-/
theorem paging_complete_iff {e : QueryError} (hnone : engine.compareNone = .error e)
    (hagree : engine.SortsAlike columns cell)
    (hids : (table.map columns.id).Nodup) (hkey : columns.get (sortKeyOf key) = some cell)
    (hlimit : 0 < limit) :
    Complete (listingLe engine columns cell (sortDir.getD .asc)) columns.id
        (pageOf engine columns table matching key sortDir limit) (table.filter matching) ↔
      nulls cell (table.filter matching) = 0 ∨
        nullsFirst engine (sortDir.getD .asc) = true ∧
          nulls cell (table.filter matching) < limit ∧
          nulls cell (table.filter matching) < (table.filter matching).length := by
  by_cases hempty : wanted engine columns table matching sortDir cell = []
  · -- nothing is wanted, and the first page says so
    have hrows : table.filter matching = [] :=
      ((Keyset.arranged_perm _).symm.trans (List.Perm.of_eq hempty)).eq_nil
    have hfirst : pageOf engine columns table matching key sortDir limit none =
        .ok ((wanted engine columns table matching sortDir cell).take limit) := find_first hkey
    have hnulls : nulls cell (table.filter matching) = 0 := by simp [hrows, nulls]
    refine ⟨fun _ => .inl hnulls, fun _ => ⟨1, [], ?_, ?_, List.Pairwise.nil⟩⟩
    · simp [iter, hfirst, hempty]
    · rw [hrows]
  · obtain ⟨init, last, htake⟩ := take_eq_concat hempty hlimit
    obtain ⟨hsplit, -, hinit⟩ := wanted_split htake
    constructor
    · intro h
      have hsome := isSome_of_complete hnone hagree hids hkey htake h
      by_cases hnulls : nulls cell (table.filter matching) = 0
      · exact .inl hnulls
      · right
        -- all the rows without a value come before the last row of the first page
        have hcount : nulls cell (table.filter matching) =
            init.countP fun row => (cell row).isNone := by
          rw [← nulls_wanted, hsplit]
          unfold nulls
          rw [List.countP_append, Nat.add_eq_left, List.countP_eq_zero]
          intro row hrow
          simp [Option.isSome_iff_ne_none.mp (hsome row hrow)]
        have hle : init.countP (fun row => (cell row).isNone) ≤ init.length :=
          List.countP_le_length
        obtain ⟨row, hrow, hnull⟩ := List.countP_pos_iff.mp (by omega :
          0 < init.countP fun row => (cell row).isNone)
        have hs := wanted_sorted engine columns table matching cell sortDir
        rw [hsplit, List.pairwise_append] at hs
        have hfirst := nullsFirst_of_before (hs.2.2 row hrow last List.mem_cons_self) hnull
          (hsome last List.mem_cons_self)
        exact ⟨hfirst, by omega, by omega⟩
    · intro h
      refine complete_of_isSome hagree hids hkey hlimit htake (isSome_of_few hsplit ?_)
      rcases h with h | ⟨hfirst, h, h'⟩
      · exact .inl h
      · exact .inr ⟨hfirst, by omega⟩

end Walk

end Listing

/-! ## Zones that have never been updated -/

/-- A library that refuses to compare with `None` by order, before a database with low `NULL`s. -/
def sampleEngine : Engine Nat := ⟨true, .error .ArgumentError, fun a b => decide (a < b)⟩

theorem sampleEngine_alike {ρ : Type} (columns : Columns ρ Nat) (cell : ρ → Option Nat) :
    sampleEngine.SortsAlike columns cell :=
  ⟨fun _ _ _ _ _ _ => rfl, fun _ _ _ _ _ _ => rfl⟩

/-- A table with an identifier and the time of the last update. -/
def sampleColumns : Columns (Nat × Option Nat) Nat where
  id row := row.1
  other name := if name = "updated_at" then some fun row => row.2 else none

/-- One row without a value in front of two with one, and pages of two rows. -/
theorem paging_complete_iff_sample :
    Complete (listingLe sampleEngine sampleColumns (fun row => row.2) .asc) sampleColumns.id
      (pageOf sampleEngine sampleColumns [(1, none), (2, some 7), (3, some 5)] (fun _ => true)
        (some "updated_at") none 2)
      ([(1, none), (2, some 7), (3, some 5)].filter fun _ => true) :=
  (paging_complete_iff (e := .ArgumentError) rfl (sampleEngine_alike _ _) (by decide) rfl
    (by decide)).mpr
    (.inr (by decide))

/-- Two zones, never updated and listed one by one: the second page is refused. -/
theorem paging_never_updated :
    pageOf sampleEngine sampleColumns [(1, none), (2, none)] (fun _ => true)
      (some "updated_at") none 1 (some 1) = .error .ArgumentError ∧
    ¬ Complete (listingLe sampleEngine sampleColumns (fun row => row.2) .asc) sampleColumns.id
      (pageOf sampleEngine sampleColumns [(1, none), (2, none)] (fun _ => true)
        (some "updated_at") none 1)
      ([(1, none), (2, none)].filter fun _ => true) := by
  constructor
  · exact find_null (m := (1, none)) rfl (by decide) rfl (by decide) rfl
  · intro h
    have hids : (([(1, none), (2, none)] : List (Nat × Option Nat)).map
      sampleColumns.id).Nodup := by decide
    -- both rows have no value, so they stand in the order of the identifiers
    have hwanted : wanted sampleEngine sampleColumns [(1, none), (2, none)] (fun _ => true)
        none (fun row => row.2) = [(1, none), (2, none)] :=
      (Keyset.eq_arranged listingLe_isOrder (listingLe_distinct hids) (List.Perm.refl _)
        (by decide)).symm
    have htake : (wanted sampleEngine sampleColumns [(1, none), (2, none)] (fun _ => true)
        none (fun row => row.2)).take 1 = [] ++ [(1, none)] := by rw [hwanted]; rfl
    have hsome := isSome_of_complete rfl (sampleEngine_alike _ _) hids rfl htake h
    exact absurd (hsome (1, none) List.mem_cons_self) (by decide)

end Sqlalchemy

end Designate
