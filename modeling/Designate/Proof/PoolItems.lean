import Designate.Proof.PoolContents
import Designate.Proof.PoolKeeps
import Mathlib.Data.List.Perm.Basic

/-!
# The items of a pool

`_update_pool_items` deletes the rows of the pool that no item names, writes the items that
have an identifier over the rows they name, and creates the others. Which rows an item may
name is nobody's business: the UPDATE goes by the identifier alone. So what the pool owns
afterwards is its list, and what others own is as before, exactly if each identifier is that
of a row of its own and no two items name one row.
-/

namespace Designate

namespace Pools

/-! ## Lists side by side -/

section

variable {α β : Type} {R : α → β → Prop} {l : List α} {l' : List β}

theorem pair_left (h : List.Forall₂ R l l') {a : α} (ha : a ∈ l) : ∃ b ∈ l', R a b := by
  induction h with
  | nil => exact absurd ha List.not_mem_nil
  | @cons a₁ b₁ l l' hfirst _ ih =>
    rcases List.mem_cons.mp ha with rfl | htail
    · exact ⟨b₁, List.mem_cons_self, hfirst⟩
    · obtain ⟨b, hb, hab⟩ := ih htail
      exact ⟨b, List.mem_cons_of_mem _ hb, hab⟩

theorem pair_right (h : List.Forall₂ R l l') {b : β} (hb : b ∈ l') : ∃ a ∈ l, R a b :=
  pair_left h.flip hb

/-- What each has somewhere they have in a list. -/
theorem pairs_of_each (h : ∀ a ∈ l, ∃ b, R a b) : ∃ l', List.Forall₂ R l l' := by
  induction l with
  | nil => exact ⟨[], List.Forall₂.nil⟩
  | cons a l ih =>
    obtain ⟨b, hb⟩ := h a List.mem_cons_self
    obtain ⟨l', hl'⟩ := ih fun a' ha' => h a' (List.mem_cons_of_mem _ ha')
    exact ⟨b :: l', List.Forall₂.cons hb hl'⟩

/-- The relation may be read off for members only. -/
theorem pairs_imp {S : α → β → Prop} (h : List.Forall₂ R l l')
    (himp : ∀ a ∈ l, ∀ b, R a b → S a b) : List.Forall₂ S l l' := by
  have hmem := (List.forall₂_and_left (p := fun a => a ∈ l) _ _).mpr ⟨fun _ ha => ha, h⟩
  exact hmem.imp fun a b hab => himp a hab.1 b hab.2

/-- Two halves of a list, each beside a list of its own. -/
theorem pairs_join (p : α → Bool) {kept added : List β}
    (hkept : List.Forall₂ R (l.filter p) kept)
    (hadded : List.Forall₂ R (l.filter fun a => !p a) added) :
    ∃ l', (kept ++ added).Perm l' ∧ List.Forall₂ R l l' := by
  have hparts : List.Forall₂ R (l.filter p ++ l.filter fun a => !p a) (kept ++ added) :=
    List.rel_append hkept hadded
  obtain ⟨l', hl', hperm⟩ := List.perm_comp_forall₂ (List.filter_append_perm p l).symm hparts
  exact ⟨l', hperm.symm, hl'⟩

end

/-! ## Rows -/

section

variable {κ : Type} {owner next : Nat} {items : List (Item κ)} {rows : List (ItemRow κ)}
  {row : ItemRow κ}

/-- What the items make of a row, one after the other. -/
def writtenBy (items : List (Item κ)) (row : ItemRow κ) : ItemRow κ :=
  items.foldl (fun row item => if item.id = some row.id then item.over row else row) row

theorem writtenBy_same (items : List (Item κ)) (row : ItemRow κ) :
    (writtenBy items row).id = row.id ∧ (writtenBy items row).owner = row.owner := by
  induction items generalizing row with
  | nil => exact ⟨rfl, rfl⟩
  | cons item items ih =>
    have hrest := ih (if item.id = some row.id then item.over row else row)
    have hfirst : (if item.id = some row.id then item.over row else row).id = row.id ∧
        (if item.id = some row.id then item.over row else row).owner = row.owner := by
      split
      · exact ⟨rfl, rfl⟩
      · exact ⟨rfl, rfl⟩
    exact ⟨hrest.1.trans hfirst.1, hrest.2.trans hfirst.2⟩

/-- Items that name other rows leave this one alone. -/
theorem writtenBy_unnamed (h : ∀ item ∈ items, item.id ≠ some row.id) :
    writtenBy items row = row := by
  induction items with
  | nil => rfl
  | cons item items ih =>
    show writtenBy items (if item.id = some row.id then item.over row else row) = row
    rw [if_neg (h item List.mem_cons_self)]
    exact ih fun i hi => h i (List.mem_cons_of_mem _ hi)

/-- Where no two items name one row, each is written over its own. -/
theorem writtenBy_named (hnodup : (items.filterMap Item.id).Nodup) {item : Item κ}
    (hitem : item ∈ items) (hid : item.id = some row.id) : writtenBy items row = item.over row := by
  induction items with
  | nil => exact absurd hitem List.not_mem_nil
  | cons first items ih =>
    show writtenBy items (if first.id = some row.id then first.over row else row) = item.over row
    -- no two items of the list have the identifier
    have hapart : ∀ i, first.id = some i → i ∉ items.filterMap Item.id := by
      intro i hfirst
      rw [List.filterMap_cons_some hfirst, List.nodup_cons] at hnodup
      exact hnodup.1
    have hrest : (items.filterMap Item.id).Nodup :=
      ((List.sublist_cons_self first items).filterMap Item.id).nodup hnodup
    rcases List.mem_cons.mp hitem with rfl | htail
    · rw [if_pos hid]
      refine writtenBy_unnamed fun i hi hsame => hapart row.id hid ?_
      exact List.mem_filterMap.mpr ⟨i, hi, hsame⟩
    · have hne : first.id ≠ some row.id := by
        intro hfirst
        exact hapart row.id hfirst (List.mem_filterMap.mpr ⟨item, htail, hid⟩)
      rw [if_neg hne]
      exact ih hrest htail

theorem map_writtenBy_id (items : List (Item κ)) (rows : List (ItemRow κ)) :
    (rows.map (writtenBy items)).map ItemRow.id = rows.map ItemRow.id := by
  rw [List.map_map]
  exact List.map_congr_left fun row _ => (writtenBy_same items row).1

/-- An update under the identifier of an item, and then the others. -/
theorem map_writtenBy_update {item : Item κ} {id : Nat} (hid : item.id = some id)
    (rows : List (ItemRow κ)) :
    (Table.update ItemRow.id id item.over rows).map (writtenBy items) =
      rows.map (writtenBy (item :: items)) := by
  unfold Table.update
  rw [List.map_map]
  refine List.map_congr_left fun row _ => ?_
  show writtenBy items (if row.id = id then item.over row else row) =
    writtenBy items (if item.id = some row.id then item.over row else row)
  by_cases hrow : row.id = id
  · rw [if_pos hrow, if_pos (by rw [hid, hrow])]
  · rw [if_neg hrow, if_neg fun hsame => hrow (Option.some.inj (hsame.symm.trans hid))]

/-- The rows that are not deleted: those of other owners, and those that an item names. -/
def left (owner : Nat) (items : List (Item κ)) (rows : List (ItemRow κ)) : List (ItemRow κ) :=
  rows.filter fun row => row.owner != owner || items.any fun item => item.id == some row.id

theorem mem_left : row ∈ left owner items rows ↔
    row ∈ rows ∧ (row.owner = owner → ∃ item ∈ items, item.id = some row.id) := by
  unfold left
  rw [List.mem_filter, Bool.or_eq_true, bne_iff_ne, List.any_eq_true]
  simp only [beq_iff_eq]
  constructor
  · rintro ⟨hrow, hkept⟩
    exact ⟨hrow, fun howner => hkept.resolve_left fun hne => hne howner⟩
  · rintro ⟨hrow, hnamed⟩
    refine ⟨hrow, ?_⟩
    by_cases howner : row.owner = owner
    · exact Or.inr (hnamed howner)
    · exact Or.inl howner

/-- Identifiers are unique, and below the next one to hand out. -/
structure KeyedRows (next : Nat) (rows : List (ItemRow κ)) : Prop where
  nodup : (rows.map ItemRow.id).Nodup
  below : ∀ row ∈ rows, row.id < next

theorem Sound.keyed {clash : κ → κ → Bool} (h : Sound clash next rows) : KeyedRows next rows :=
  ⟨h.nodup, h.below⟩

theorem KeyedRows.mono (h : KeyedRows next rows) {next' : Nat} (hle : next ≤ next') :
    KeyedRows next' rows :=
  ⟨h.nodup, fun row hrow => Nat.lt_of_lt_of_le (h.below row hrow) hle⟩

theorem KeyedRows.filter (h : KeyedRows next rows) (p : ItemRow κ → Bool) :
    KeyedRows next (rows.filter p) :=
  ⟨(List.filter_sublist.map ItemRow.id).nodup h.nodup,
    fun row hrow => h.below row (List.mem_of_mem_filter hrow)⟩

theorem KeyedRows.update (h : KeyedRows next rows) (item : Item κ) (id : Nat) :
    KeyedRows next (Table.update ItemRow.id id item.over rows) where
  nodup := by
    have hids : (Table.update ItemRow.id id item.over rows).map ItemRow.id =
        rows.map ItemRow.id := Table.map_update fun _ _ _ => rfl
    rw [hids]
    exact h.nodup
  below row hrow := by
    rcases Table.mem_update.mp hrow with ⟨hold, -⟩ | ⟨old, hold, -, rfl⟩
    · exact h.below row hold
    · exact h.below old hold

theorem KeyedRows.add (h : KeyedRows next rows) (owner : Nat) (columns : κ) :
    KeyedRows (next + 1) (rows ++ [⟨next, owner, columns⟩]) where
  nodup := Table.append_nodup h.nodup fun row hrow => Nat.ne_of_lt (h.below row hrow)
  below row hrow := by
    rcases List.mem_append.mp hrow with hold | hnew
    · exact Nat.lt_succ_of_lt (h.below row hold)
    · rw [List.mem_singleton.mp hnew]
      exact Nat.lt_succ_self next

/-! ## A list and its rows -/

/--
The row that stands for an item afterwards. One with an identifier has the row of the owner it
names, with its columns written over it; another has a row under a new identifier.
-/
def Stands (owner next : Nat) (before : List (ItemRow κ)) (item : Item κ) (row : ItemRow κ) :
    Prop :=
  match item.id with
  | some id => ∃ old ∈ before, old.owner = owner ∧ old.id = id ∧ row = item.over old
  | none => item.new = some row.columns ∧ row.owner = owner ∧ next ≤ row.id

/-- Each identifier is that of a row of the owner, and no two items name one row. -/
structure OwnIds (owner : Nat) (items : List (Item κ)) (rows : List (ItemRow κ)) : Prop where
  nodup : (items.filterMap Item.id).Nodup
  own : ∀ item ∈ items, ∀ id, item.id = some id → ∃ row ∈ rows, row.owner = owner ∧ row.id = id

theorem stands_some {item : Item κ} {id : Nat} (hid : item.id = some id) :
    Stands owner next rows item row ↔
      ∃ old ∈ rows, old.owner = owner ∧ old.id = id ∧ row = item.over old := by
  unfold Stands
  rw [hid]

theorem stands_none {item : Item κ} (hid : item.id = none) :
    Stands owner next rows item row ↔
      item.new = some row.columns ∧ row.owner = owner ∧ next ≤ row.id := by
  unfold Stands
  rw [hid]

/-- An item that names a row stands in a row with this identifier. -/
theorem Stands.id {item : Item κ} (h : Stands owner next rows item row) {id : Nat}
    (hid : item.id = some id) : row.id = id := by
  obtain ⟨old, -, -, hold, rfl⟩ := (stands_some hid).mp h
  exact hold

theorem Stands.owned {item : Item κ} (h : Stands owner next rows item row) :
    row.owner = owner := by
  cases hid : item.id with
  | none => exact ((stands_none hid).mp h).2.1
  | some id =>
    obtain ⟨old, -, howner, -, rfl⟩ := (stands_some hid).mp h
    exact howner

theorem Stands.mono {item : Item κ} {next' : Nat} (h : Stands owner next' rows item row)
    (hle : next ≤ next') : Stands owner next rows item row := by
  cases hid : item.id with
  | none =>
    obtain ⟨hnew, howner, hfresh⟩ := (stands_none hid).mp h
    exact (stands_none hid).mpr ⟨hnew, howner, Nat.le_trans hle hfresh⟩
  | some id => exact (stands_some hid).mpr ((stands_some hid).mp h)

/-- The identifiers of the items are among those of the rows. -/
theorem filterMap_sublist {stored : List (ItemRow κ)}
    (h : List.Forall₂ (Stands owner next rows) items stored) :
    (items.filterMap Item.id).Sublist (stored.map ItemRow.id) := by
  induction h with
  | nil => exact List.Sublist.slnil
  | @cons item row items stored hfirst _ ih =>
    rw [List.map_cons]
    cases hid : item.id with
    | none =>
      rw [List.filterMap_cons_none hid]
      exact ih.cons _
    | some id =>
      rw [List.filterMap_cons_some hid, hfirst.id hid]
      exact ih.cons_cons _

theorem filterMap_filter_isSome (items : List (Item κ)) :
    (items.filter fun item => item.id.isSome).filterMap Item.id = items.filterMap Item.id := by
  induction items with
  | nil => rfl
  | cons item items ih =>
    cases hid : item.id with
    | none =>
      rw [List.filter_cons_of_neg (by simp [hid]), List.filterMap_cons_none hid, ih]
    | some id =>
      rw [List.filter_cons_of_pos (by simp [hid]), List.filterMap_cons_some hid,
        List.filterMap_cons_some hid, ih]

theorem filterMap_named {stored : List (ItemRow κ)} (hnamed : ∀ item ∈ items, item.id.isSome)
    (h : List.Forall₂ (Stands owner next rows) items stored) :
    stored.map ItemRow.id = items.filterMap Item.id := by
  induction h with
  | nil => rfl
  | @cons item row items stored hfirst _ ih =>
    obtain ⟨id, hid⟩ := Option.isSome_iff_exists.mp (hnamed item List.mem_cons_self)
    rw [List.map_cons, List.filterMap_cons_some hid, hfirst.id hid,
      ih fun i hi => hnamed i (List.mem_cons_of_mem _ hi)]

/-- Where a list has the rows it asks for, it names rows of its owner only, and none twice. -/
theorem ownIds_of_stands {stored : List (ItemRow κ)} (hnodup : (stored.map ItemRow.id).Nodup)
    (h : List.Forall₂ (Stands owner next rows) items stored) : OwnIds owner items rows where
  nodup := (filterMap_sublist h).nodup hnodup
  own item hitem id hid := by
    obtain ⟨row, -, hstands⟩ := pair_left h hitem
    obtain ⟨old, hold, howner, hsame, -⟩ := (stands_some hid).mp hstands
    exact ⟨old, hold, howner, hsame⟩

/-- The rows of the owner after the deletions and the updates. -/
theorem left_writtenBy_own (next : Nat) (hnodup : (rows.map ItemRow.id).Nodup)
    (hown : OwnIds owner items rows) :
    ∃ stored, (((left owner items rows).map (writtenBy items)).filter
        fun row => row.owner == owner).Perm stored ∧
      List.Forall₂ (Stands owner next rows) (items.filter fun item => item.id.isSome) stored := by
  -- each of them names one row, so the two lists have the same members
  have heach : ∀ item ∈ items.filter fun item => item.id.isSome,
      ∃ row, Stands owner next rows item row := by
    intro item hitem
    obtain ⟨hmem, hsome⟩ := List.mem_filter.mp hitem
    obtain ⟨id, hid⟩ := Option.isSome_iff_exists.mp hsome
    obtain ⟨old, hold, howner, hsame⟩ := hown.own item hmem id hid
    exact ⟨item.over old, (stands_some hid).mpr ⟨old, hold, howner, hsame, rfl⟩⟩
  obtain ⟨stored, hstored⟩ := pairs_of_each heach
  have hnamed : ∀ item ∈ items.filter fun item => item.id.isSome, item.id.isSome :=
    fun item hitem => (List.mem_filter.mp hitem).2
  have hids : stored.map ItemRow.id = items.filterMap Item.id := by
    rw [filterMap_named hnamed hstored]
    exact filterMap_filter_isSome items
  have hleft : (((left owner items rows).map (writtenBy items)).map ItemRow.id).Nodup := by
    rw [map_writtenBy_id]
    exact (List.filter_sublist.map ItemRow.id).nodup hnodup
  have hnodup' : stored.Nodup := by
    refine List.Nodup.of_map ItemRow.id ?_
    rw [hids]
    exact hown.nodup
  refine ⟨stored, ?_, hstored⟩
  refine (List.perm_ext_iff_of_nodup ((List.Nodup.of_map _ hleft).filter _) hnodup').mpr ?_
  intro row
  rw [List.mem_filter, List.mem_map, beq_iff_eq]
  constructor
  · rintro ⟨⟨old, hold, rfl⟩, howner⟩
    rw [(writtenBy_same items old).2] at howner
    obtain ⟨hmem, hkept⟩ := mem_left.mp hold
    obtain ⟨item, hitem, hid⟩ := hkept howner
    have hlisted : item ∈ items.filter fun item => item.id.isSome :=
      List.mem_filter.mpr ⟨hitem, by rw [hid]; rfl⟩
    obtain ⟨row, hrow, hstands⟩ := pair_left hstored hlisted
    obtain ⟨old', hold', -, hsame, rfl⟩ := (stands_some hid).mp hstands
    -- the item names one row only
    obtain rfl : old' = old := Table.eq_of_key hnodup hold' hmem hsame
    rw [writtenBy_named hown.nodup hitem hid]
    exact hrow
  · intro hrow
    obtain ⟨item, hlisted, hstands⟩ := pair_right hstored hrow
    obtain ⟨hitem, hsome⟩ := List.mem_filter.mp hlisted
    obtain ⟨id, hid⟩ := Option.isSome_iff_exists.mp hsome
    obtain ⟨old, hold, howner, hsame, rfl⟩ := (stands_some hid).mp hstands
    rw [← hsame] at hid
    refine ⟨⟨old, mem_left.mpr ⟨hold, fun _ => ⟨item, hitem, hid⟩⟩, ?_⟩, howner⟩
    exact writtenBy_named hown.nodup hitem hid

theorem others_append (owner : Nat) (rows rows' : List (ItemRow κ)) :
    others owner (rows ++ rows') = others owner rows ++ others owner rows' := List.filter_append ..

/-- No row of another owner goes or is written over. -/
theorem left_writtenBy_others (hnodup : (rows.map ItemRow.id).Nodup)
    (hown : OwnIds owner items rows) :
    others owner ((left owner items rows).map (writtenBy items)) = others owner rows := by
  have hsame : ∀ row ∈ others owner rows, writtenBy items row = row := by
    intro row hrow
    obtain ⟨hmem, howner⟩ := List.mem_filter.mp hrow
    refine writtenBy_unnamed fun item hitem hid => ?_
    -- an item that named it would name a row of its own owner
    obtain ⟨named, hnamed, hofowner, hsame⟩ := hown.own item hitem row.id hid
    rw [Table.eq_of_key hnodup hnamed hmem hsame] at hofowner
    exact bne_iff_ne.mp howner hofowner
  have hkept : others owner (left owner items rows) = others owner rows := by
    unfold others left
    rw [List.filter_filter]
    refine List.filter_congr fun row _ => ?_
    cases row.owner != owner with
    | false => rfl
    | true => rfl
  have howner : (fun row : ItemRow κ => row.owner != owner) ∘ writtenBy items =
      fun row => row.owner != owner := by
    funext row
    show ((writtenBy items row).owner != owner) = _
    rw [(writtenBy_same items row).2]
  have hfilter : others owner ((left owner items rows).map (writtenBy items)) =
      (others owner (left owner items rows)).map (writtenBy items) := by
    unfold others
    rw [List.filter_map, howner]
  rw [hfilter, hkept]
  exact (List.map_congr_left hsame).trans (List.map_id _)

/-- New rows stand for the items they were made of. -/
theorem newRows_stand {cs : List κ} {id : Nat} (hid : next ≤ id)
    (hfresh : ∀ item ∈ items, item.id = none)
    (hnew : List.Forall₂ (fun item c => item.new = some c) items cs) :
    List.Forall₂ (Stands owner next rows) items (newRows owner id cs) := by
  induction hnew generalizing id with
  | nil => exact List.Forall₂.nil
  | @cons item c items cs hfirst _ ih =>
    refine List.Forall₂.cons ?_ (ih (Nat.le_succ_of_le hid) fun i hi =>
      hfresh i (List.mem_cons_of_mem _ hi))
    exact (stands_none (hfresh item List.mem_cons_self)).mpr ⟨hfirst, rfl, hid⟩


end

/-! ## The statements -/

section

variable {κ : Type} {t : ItemTable κ} {s s' : State} {owner : Nat}

theorem deleteItem_returned {id : Nat} (h : deleteItem t id s = (.ok (), s')) :
    s' = t.withRows (Table.remove ItemRow.id id (t.rows s)) s := by
  unfold deleteItem at h
  rw [Exec.write_eq_ok] at h
  split at h
  · exact absurd h (by simp)
  · exact (congrArg Prod.snd (Except.ok.inj h)).symm

theorem updateItem_returned {item : Item κ} (h : updateItem t item s = (.ok (), s')) :
    ∃ id, item.id = some id ∧ (∃ row ∈ t.rows s, row.id = id) ∧
      s' = t.withRows (Table.update ItemRow.id id item.over (t.rows s)) s := by
  unfold updateItem at h
  rw [Exec.write_eq_ok] at h
  cases hid : item.id with
  | none =>
    rw [hid] at h
    exact absurd h (by simp)
  | some id =>
    simp only [hid] at h
    split at h
    · exact absurd h (by simp)
    · rename_i row hfind
      split at h
      · exact absurd h (by simp)
      · have hrow := Table.find_mem hfind
        exact ⟨id, rfl, ⟨row, hrow.1, hrow.2.1⟩, (congrArg Prod.snd (Except.ok.inj h)).symm⟩

theorem createItem_returned (ht : t.Lawful) {item : Item κ} {id : Nat}
    (h : createItem t owner item s = (.ok id, s')) :
    ∃ columns, item.new = some columns ∧ id = s.world.nextId ∧
      s' = t.withRows (t.rows s ++ [⟨s.world.nextId, owner, columns⟩]) (s.advance 1) := by
  have hid : (onWorld generateUuid : PoolCall Nat) s = (.ok s.world.nextId, s.advance 1) := rfl
  unfold createItem at h
  rw [Exec.bind_ok hid, Exec.write_eq_ok] at h
  split at h
  · exact absurd h (by simp)
  · rename_i columns hnew
    split at h
    · exact absurd h (by simp)
    · obtain ⟨rfl, rfl⟩ := Prod.mk.inj (Except.ok.inj h)
      rw [ht.rows_advance]
      exact ⟨columns, hnew, rfl, rfl⟩

/-! ## The loops -/

theorem deleteItems_returned (ht : t.Lawful) {ids : List Nat}
    (h : Exec.forEach (deleteItem t) ids s = (.ok (), s')) :
    s' = t.withRows ((t.rows s).filter fun row => row.id ∉ ids) s := by
  induction ids generalizing s with
  | nil =>
    obtain rfl : s = s' := congrArg Prod.snd h
    simp [ht.withRows_rows]
  | cons id ids ih =>
    obtain ⟨⟨⟩, s₁, hfirst, hrest⟩ := Exec.bind_eq_ok.mp h
    obtain rfl := deleteItem_returned hfirst
    rw [ih hrest, ht.rows_withRows, ht.withRows_withRows, Table.remove, List.filter_filter]
    congr 1
    refine List.filter_congr fun row _ => ?_
    by_cases hrow : row.id = id
    · simp [hrow]
    · simp [hrow]

theorem updateItems_returned (ht : t.Lawful) {items : List (Item κ)}
    (h : Exec.forEach (updateItem t) items s = (.ok (), s')) :
    s' = t.withRows ((t.rows s).map (writtenBy items)) s := by
  induction items generalizing s with
  | nil =>
    obtain rfl : s = s' := congrArg Prod.snd h
    have hsame : (t.rows s).map (writtenBy ([] : List (Item κ))) = t.rows s := List.map_id _
    rw [hsame, ht.withRows_rows]
  | cons item items ih =>
    obtain ⟨⟨⟩, s₁, hfirst, hrest⟩ := Exec.bind_eq_ok.mp h
    obtain ⟨id, hid, -, rfl⟩ := updateItem_returned hfirst
    rw [ih hrest, ht.rows_withRows, ht.withRows_withRows, map_writtenBy_update hid]

theorem createItems_returned (ht : t.Lawful) {ι : Type} {item : ι → Item κ} {items : List ι}
    (h : Exec.forEach (fun i => do let _ ← createItem t owner (item i)) items s = (.ok (), s')) :
    ∃ cs, List.Forall₂ (fun i c => (item i).new = some c) items cs ∧
      s' = t.withRows (t.rows s ++ newRows owner s.world.nextId cs) (s.advance cs.length) := by
  induction items generalizing s with
  | nil =>
    obtain rfl : s = s' := congrArg Prod.snd h
    refine ⟨[], List.Forall₂.nil, ?_⟩
    rw [newRows, List.append_nil, List.length_nil, advance_zero, ht.withRows_rows]
  | cons i items ih =>
    obtain ⟨⟨⟩, s₁, hfirst, hrest⟩ := Exec.bind_eq_ok.mp h
    obtain ⟨id, s₂, hcreate, hpure⟩ := Exec.bind_eq_ok.mp hfirst
    obtain rfl : s₂ = s₁ := congrArg Prod.snd hpure
    obtain ⟨c, hnew, -, rfl⟩ := createItem_returned ht hcreate
    obtain ⟨cs, hcs, rfl⟩ := ih hrest
    refine ⟨c :: cs, List.Forall₂.cons hnew hcs, ?_⟩
    rw [ht.rows_withRows, ht.advance_withRows, ht.withRows_withRows, advance_advance, newRows,
      List.append_assoc, List.singleton_append, t.world, List.length_cons, Nat.add_comm 1]
    rfl

/-- What the loops have gone through, one after the other. -/
theorem updateItems_loops {ι : Type} {have_ : State → List Nat} {id : ι → Option Nat}
    {delete : Nat → PoolCall Unit} {update create : ι → PoolCall Unit} {items : List ι}
    (h : updateItems have_ id delete update create items s = (.ok (), s')) :
    ∃ s₁ s₂,
      Exec.forEach delete ((have_ s).filter fun i => !items.any fun item => id item == some i) s =
        (.ok (), s₁) ∧
      Exec.forEach update (items.filter fun item => (id item).isSome) s₁ = (.ok (), s₂) ∧
      Exec.forEach create (items.filter fun item => (id item).isNone) s₂ = (.ok (), s') := by
  unfold updateItems at h
  obtain ⟨ids, hids, h⟩ := Exec.of_read_bind h
  obtain rfl := Except.ok.inj hids
  obtain ⟨⟨⟩, s₁, hdelete, h⟩ := Exec.bind_eq_ok.mp h
  obtain ⟨⟨⟩, s₂, hupdate, hcreate⟩ := Exec.bind_eq_ok.mp h
  exact ⟨s₁, s₂, hdelete, hupdate, hcreate⟩

/-- The rows of the owner that no item names go. -/
theorem filter_unnamed (owner : Nat) (hnodup : ((t.rows s).map ItemRow.id).Nodup)
    (items : List (Item κ)) :
    (t.rows s).filter (fun row => row.id ∉ ((t.of owner s).map ItemRow.id).filter fun i =>
      !items.any fun item => item.id == some i) = left owner items (t.rows s) := by
  refine List.filter_congr fun row hrow => ?_
  have hown : row.id ∈ (t.of owner s).map ItemRow.id ↔ row.owner = owner := by
    constructor
    · intro hmem
      obtain ⟨row', hrow', hid⟩ := List.mem_map.mp hmem
      obtain ⟨hmem', howner⟩ := List.mem_filter.mp hrow'
      rw [← Table.eq_of_key hnodup hmem' hrow hid]
      exact beq_iff_eq.mp howner
    · intro howner
      exact List.mem_map_of_mem (List.mem_filter.mpr ⟨hrow, beq_iff_eq.mpr howner⟩)
  rw [Bool.eq_iff_iff]
  simp only [decide_eq_true_eq, List.mem_filter, hown, Bool.or_eq_true, bne_iff_ne,
    Bool.not_eq_true', not_and, Bool.not_eq_false]
  exact ⟨fun himp => or_iff_not_imp_left.mpr fun hne => himp (not_not.mp hne),
    fun hor howner => hor.resolve_left (not_not.mpr howner)⟩

/-- Items without an identifier are written over no row. -/
theorem writtenBy_filter (items : List (Item κ)) :
    writtenBy (items.filter fun item => item.id.isSome) = writtenBy items := by
  induction items with
  | nil => rfl
  | cons item items ih =>
    cases hid : item.id with
    | none =>
      rw [List.filter_cons_of_neg (by simp [hid]), ih]
      funext row
      show writtenBy items row =
        writtenBy items (if item.id = some row.id then item.over row else row)
      rw [hid, if_neg nofun]
    | some id =>
      rw [List.filter_cons_of_pos (by simp [hid])]
      funext row
      exact congrFun ih _

/-- What `_update_pool_items` has done when it returns. -/
def Updated (t : ItemTable κ) (owner : Nat) (items : List (Item κ)) (s s' : State) : Prop :=
  ∃ cs, List.Forall₂ (fun item c => item.new = some c)
      (items.filter fun item => item.id.isNone) cs ∧
    s' = t.withRows ((left owner items (t.rows s)).map (writtenBy items) ++
      newRows owner s.world.nextId cs) (s.advance cs.length)

theorem updatePoolItems_returned (ht : t.Lawful) (hnodup : ((t.rows s).map ItemRow.id).Nodup)
    {items : List (Item κ)} (h : updatePoolItems t owner items s = (.ok (), s')) :
    Updated t owner items s s' := by
  obtain ⟨s₁, s₂, hdelete, hupdate, hcreate⟩ := updateItems_loops h
  obtain rfl := deleteItems_returned ht hdelete
  obtain rfl := updateItems_returned ht hupdate
  obtain ⟨cs, hcs, rfl⟩ := createItems_returned ht hcreate
  refine ⟨cs, hcs, ?_⟩
  rw [ht.rows_withRows, ht.rows_withRows, filter_unnamed owner hnodup, writtenBy_filter,
    ht.withRows_withRows, ht.advance_withRows, ht.withRows_withRows, t.world]

/-! ## One list -/

/--
The rows of the owner have come to be the list, in some order; a list that is not set leaves
them alone.
-/
def Lists (t : ItemTable κ) (owner : Nat) (list : Option (List (Item κ))) (s s' : State) : Prop :=
  match list with
  | none => t.of owner s' = t.of owner s
  | some items => ∃ stored, (t.of owner s').Perm stored ∧
      List.Forall₂ (Stands owner s.world.nextId (t.rows s)) items stored

/-- No row of another owner has been created, changed or deleted on the way. -/
structure Reconciles (t : ItemTable κ) (owner : Nat) (list : Option (List (Item κ)))
    (s s' : State) : Prop where
  own : Lists t owner list s s'
  others : others owner (t.rows s') = others owner (t.rows s)

/-- If the list is set, it names rows of its owner only, and none twice. -/
def NamesOwnRows (owner : Nat) (list : Option (List (Item κ))) (rows : List (ItemRow κ)) : Prop :=
  ∀ items, list = some items → OwnIds owner items rows

theorem of_congr (owner : Nat) (h : t.rows s' = t.rows s) : t.of owner s' = t.of owner s := by
  unfold ItemTable.of
  rw [h]

theorem Lists.namesOwnRows {list : Option (List (Item κ))} (h : Lists t owner list s s')
    (hnodup : ((t.rows s').map ItemRow.id).Nodup) : NamesOwnRows owner list (t.rows s) := by
  rintro items rfl
  obtain ⟨stored, hperm, hstored⟩ := h
  exact ownIds_of_stands ((hperm.map ItemRow.id).nodup_iff.mp (own_nodup owner hnodup)) hstored

/-- It is the rows of the owner alone that count, and that identifiers are handed out upwards. -/
theorem Lists.congr {list : Option (List (Item κ))} {s₁ s₂ : State}
    (h : Lists t owner list s₁ s₂) (hrows : t.of owner s₁ = t.of owner s)
    (hrows' : t.of owner s' = t.of owner s₂) (hnext : s.world.nextId ≤ s₁.world.nextId) :
    Lists t owner list s s' := by
  cases list with
  | none => exact hrows'.trans (Eq.trans h hrows)
  | some items =>
    obtain ⟨stored, hperm, hstored⟩ := h
    refine ⟨stored, by rw [hrows']; exact hperm, hstored.imp fun item row hstands => ?_⟩
    refine Stands.mono ?_ hnext
    cases hid : item.id with
    | none => exact (stands_none hid).mpr ((stands_none hid).mp hstands)
    | some id =>
      obtain ⟨old, hold, howner, hsame, hrow⟩ := (stands_some hid).mp hstands
      have hmem : old ∈ t.of owner s := hrows ▸ List.mem_filter.mpr ⟨hold, beq_iff_eq.mpr howner⟩
      exact (stands_some hid).mpr ⟨old, (List.mem_filter.mp hmem).1, howner, hsame, hrow⟩

/-- The rows of an owner are told from those that are not another's. -/
theorem of_eq_filter_others {q : Nat} (hq : q ≠ owner) (s : State) :
    t.of q s = (others owner (t.rows s)).filter fun row => row.owner == q := by
  unfold ItemTable.of others
  rw [List.filter_filter]
  refine List.filter_congr fun row _ => ?_
  by_cases howner : row.owner = q
  · simp [howner, hq]
  · simp [howner]

theorem Reconciles.of_other {list : Option (List (Item κ))} (h : Reconciles t owner list s s')
    {q : Nat} (hq : q ≠ owner) : t.of q s' = t.of q s := by
  rw [of_eq_filter_others hq, of_eq_filter_others hq, h.others]

theorem Reconciles.congr {list : Option (List (Item κ))} {s₁ s₂ : State}
    (h : Reconciles t owner list s₁ s₂) (hrows : t.rows s₁ = t.rows s)
    (hrows' : t.rows s' = t.rows s₂) (hnext : s.world.nextId ≤ s₁.world.nextId) :
    Reconciles t owner list s s' := by
  refine ⟨h.own.congr (of_congr owner hrows) (of_congr owner hrows') hnext, ?_⟩
  rw [hrows', ← hrows]
  exact h.others

/-- What an `if` around the call has done. -/
def Changed (t : ItemTable κ) (owner : Nat) (list : Option (List (Item κ))) (s s' : State) :
    Prop :=
  match list with
  | none => s' = s
  | some items => Updated t owner items s s'

theorem ifSet_returned {ι : Type} {item : ι → Item κ} {list : Option (List ι)} (ht : t.Lawful)
    (hnodup : ((t.rows s).map ItemRow.id).Nodup)
    (h : ifSet list (fun items => updatePoolItems t owner (items.map item)) s = (.ok (), s')) :
    Changed t owner (list.map (List.map item)) s s' := by
  cases list with
  | none => exact (congrArg Prod.snd h).symm
  | some items => exact updatePoolItems_returned ht hnodup h

section

variable {list : Option (List (Item κ))}

/-- What does not depend on the table stays. -/
theorem Changed.frame {γ : Type} (h : Changed t owner list s s') (f : State → γ)
    (hf : ∀ rows s k, f (t.withRows rows (State.advance s k)) = f s) : f s' = f s := by
  cases list with
  | none => exact congrArg f h
  | some items =>
    obtain ⟨cs, -, rfl⟩ := h
    exact hf _ _ _

theorem Changed.nextId_le (h : Changed t owner list s s') :
    s.world.nextId ≤ s'.world.nextId := by
  cases list with
  | none => exact Nat.le_of_eq (congrArg (fun s => s.world.nextId) h.symm)
  | some items =>
    obtain ⟨cs, -, rfl⟩ := h
    rw [t.world]
    exact Nat.le_add_right _ _

/-- **A list that names rows of its owner only has been reconciled.** -/
theorem Changed.reconciles (ht : t.Lawful) (hnodup : ((t.rows s).map ItemRow.id).Nodup)
    (h : Changed t owner list s s') (hnames : NamesOwnRows owner list (t.rows s)) :
    Reconciles t owner list s s' := by
  cases list with
  | none =>
    obtain rfl : s' = s := h
    exact ⟨rfl, rfl⟩
  | some items =>
    obtain ⟨cs, hcs, rfl⟩ := h
    have hown := hnames items rfl
    have hisNone : (items.filter fun item => item.id.isNone) =
        items.filter fun item => !item.id.isSome :=
      List.filter_congr fun item _ => (Option.not_isSome item.id).symm
    have hnone : ∀ item ∈ items.filter fun item => !item.id.isSome, item.id = none := by
      intro item hitem
      simpa using (List.mem_filter.mp hitem).2
    rw [hisNone] at hcs
    -- the items without an identifier, beside the rows made of them
    have hnew : List.Forall₂ (Stands owner s.world.nextId (t.rows s)) _
        (newRows owner s.world.nextId cs) := newRows_stand (Nat.le_refl _) hnone hcs
    obtain ⟨kept, hperm, hkept⟩ := left_writtenBy_own s.world.nextId hnodup hown
    obtain ⟨stored, hjoin, hstored⟩ := pairs_join _ hkept hnew
    constructor
    · refine ⟨stored, ?_, hstored⟩
      have hall : (newRows owner s.world.nextId cs).filter (fun row => row.owner == owner) =
          newRows owner s.world.nextId cs :=
        List.filter_eq_self.mpr fun row hrow => beq_iff_eq.mpr (mem_newRows hrow).1
      unfold ItemTable.of
      rw [ht.rows_withRows, List.filter_append, hall]
      exact (hperm.append_right _).trans hjoin
    · have hnew' : others owner (newRows owner s.world.nextId cs) = [] :=
        List.filter_eq_nil_iff.mpr fun row hrow => by simp [(mem_newRows hrow).1]
      rw [ht.rows_withRows, others_append, hnew', List.append_nil]
      exact left_writtenBy_others hnodup hown

end

end

/-! ## Identifiers stay unique -/

/--
Identifiers are unique in every table, and below the next one. Unlike `Sound`, it says nothing of
the unique columns, so a step keeps it even where it raises in the middle.
-/
structure State.Keyed (s : State) : Prop where
  attributes : KeyedRows s.world.nextId s.attributes
  nsRecords : KeyedRows s.world.nextId s.nsRecords
  nameservers : KeyedRows s.world.nextId s.nameservers
  targets : KeyedRows s.world.nextId s.targets
  targetOptions : KeyedRows s.world.nextId s.targetOptions
  targetMasters : KeyedRows s.world.nextId s.targetMasters
  alsoNotifies : KeyedRows s.world.nextId s.alsoNotifies

theorem State.Sound.keyed {s : State} (h : s.Sound) : s.Keyed :=
  ⟨h.attributes.keyed, h.nsRecords.keyed, h.nameservers.keyed, h.targets.keyed,
    h.targetOptions.keyed, h.targetMasters.keyed, h.alsoNotifies.keyed⟩

theorem State.Keyed.advance {s : State} (h : s.Keyed) (k : Nat) : (s.advance k).Keyed := by
  have hle : s.world.nextId ≤ (s.advance k).world.nextId := Nat.le_add_right _ _
  exact ⟨h.attributes.mono hle, h.nsRecords.mono hle, h.nameservers.mono hle,
    h.targets.mono hle, h.targetOptions.mono hle, h.targetMasters.mono hle,
    h.alsoNotifies.mono hle⟩

section

variable {κ : Type} {t : ItemTable κ}

/-- A table is one of those that are keyed. -/
structure ItemTable.Part (t : ItemTable κ) : Prop where
  keyed : ∀ s : State, s.Keyed → KeyedRows s.world.nextId (t.rows s)
  keep : ∀ rows (s : State), s.Keyed → KeyedRows s.world.nextId rows → (t.withRows rows s).Keyed

/-- So all the statements about it keep the identifiers unique. -/
theorem ItemTable.Part.keeping (h : t.Part) : t.Keeping State.Keyed where
  advance _ hs := hs.advance 1
  remove _ s hs := h.keep _ s hs ((h.keyed s hs).filter _)
  update item id s hs := h.keep _ s hs ((h.keyed s hs).update item id)
  add owner columns s hs := h.keep _ _ (hs.advance 1) ((h.keyed s hs).add owner columns)

end

theorem attributes_part : attributesTable.Part :=
  ⟨fun _ hs => hs.attributes, fun _ _ hs hrows => { hs with attributes := hrows }⟩

theorem nsRecords_part : nsRecordsTable.Part :=
  ⟨fun _ hs => hs.nsRecords, fun _ _ hs hrows => { hs with nsRecords := hrows }⟩

theorem nameservers_part : nameserversTable.Part :=
  ⟨fun _ hs => hs.nameservers, fun _ _ hs hrows => { hs with nameservers := hrows }⟩

theorem targets_part : targetsTable.Part :=
  ⟨fun _ hs => hs.targets, fun _ _ hs hrows => { hs with targets := hrows }⟩

theorem targetOptions_part : targetOptionsTable.Part :=
  ⟨fun _ hs => hs.targetOptions, fun _ _ hs hrows => { hs with targetOptions := hrows }⟩

theorem targetMasters_part : targetMastersTable.Part :=
  ⟨fun _ hs => hs.targetMasters, fun _ _ hs hrows => { hs with targetMasters := hrows }⟩

theorem alsoNotifies_part : alsoNotifiesTable.Part :=
  ⟨fun _ hs => hs.alsoNotifies, fun _ _ hs hrows => { hs with alsoNotifies := hrows }⟩

theorem keyed_targets : TargetsKeeping State.Keyed where
  targets := targets_part.keeping
  options := targetOptions_part.keeping
  masters := targetMasters_part.keeping
  cascade _ _ hs := { hs with
    targetOptions := hs.targetOptions.filter _
    targetMasters := hs.targetMasters.filter _ }

/-- The tables that no statement about targets is on. -/
structure Beside (s s' : State) : Prop where
  attributes : s'.attributes = s.attributes
  nsRecords : s'.nsRecords = s.nsRecords
  nameservers : s'.nameservers = s.nameservers
  alsoNotifies : s'.alsoNotifies = s.alsoNotifies
  nextId : s.world.nextId ≤ s'.world.nextId

theorem Beside.advance {s s' : State} (h : Beside s s') (k : Nat) : Beside s (s'.advance k) :=
  { h with nextId := Nat.le_trans h.nextId (Nat.le_add_right _ _) }

theorem beside_targets (s : State) : TargetsKeeping (Beside s) where
  targets := ⟨fun _ h => h.advance 1, fun _ _ h => { h with }, fun _ _ _ h => { h with },
    fun _ _ _ h => { h.advance 1 with }⟩
  options := ⟨fun _ h => h.advance 1, fun _ _ h => { h with }, fun _ _ _ h => { h with },
    fun _ _ _ h => { h.advance 1 with }⟩
  masters := ⟨fun _ h => h.advance 1, fun _ _ h => { h with }, fun _ _ _ h => { h with },
    fun _ _ _ h => { h.advance 1 with }⟩
  cascade _ _ h := { h with }

end Pools

end Designate
