import Designate.Central.Pools
import Mathlib.Data.List.Pairwise
import Mathlib.Data.Multiset.AddSub

/-!
# The tables of pools, when every item is new

A list of fresh items empties the rows of its owner and fills them again. What the statements
leave is written out as a state: the rows of the other owners, then one row for each item, under
the identifiers that come next.
-/

namespace Designate

namespace Pools

/-! ## States -/

/-- The state when so many identifiers were handed out. -/
def State.advance (s : State) (k : Nat) : State :=
  { s with world := { s.world with nextId := s.world.nextId + k } }

theorem advance_zero (s : State) : s.advance 0 = s := rfl

theorem advance_advance (s : State) (j k : Nat) : (s.advance j).advance k = s.advance (j + k) := by
  unfold State.advance
  simp only [Nat.add_assoc]

section

variable {κ : Type}

/-- A table is a part of the state. -/
structure ItemTable.Lawful (t : ItemTable κ) : Prop where
  rows_withRows : ∀ rows s, t.rows (t.withRows rows s) = rows
  withRows_withRows : ∀ rows rows' s, t.withRows rows (t.withRows rows' s) = t.withRows rows s
  withRows_rows : ∀ s, t.withRows (t.rows s) s = s
  advance_withRows : ∀ rows s k, (t.withRows rows s).advance k = t.withRows rows (s.advance k)
  rows_advance : ∀ s k, t.rows (s.advance k) = t.rows s
  clash_comm : ∀ a b, t.clash a b = t.clash b a

theorem attributes_lawful : attributesTable.Lawful :=
  ⟨fun _ _ => rfl, fun _ _ _ => rfl, fun _ => rfl, fun _ _ _ => rfl, fun _ _ => rfl,
    fun _ _ => rfl⟩

theorem nsRecords_lawful : nsRecordsTable.Lawful :=
  ⟨fun _ _ => rfl, fun _ _ _ => rfl, fun _ => rfl, fun _ _ _ => rfl, fun _ _ => rfl,
    fun _ _ => Bool.beq_comm⟩

theorem nameservers_lawful : nameserversTable.Lawful :=
  ⟨fun _ _ => rfl, fun _ _ _ => rfl, fun _ => rfl, fun _ _ _ => rfl, fun _ _ => rfl,
    fun _ _ => Bool.beq_comm⟩

theorem targets_lawful : targetsTable.Lawful :=
  ⟨fun _ _ => rfl, fun _ _ _ => rfl, fun _ => rfl, fun _ _ _ => rfl, fun _ _ => rfl,
    fun _ _ => rfl⟩

theorem targetOptions_lawful : targetOptionsTable.Lawful :=
  ⟨fun _ _ => rfl, fun _ _ _ => rfl, fun _ => rfl, fun _ _ _ => rfl, fun _ _ => rfl,
    fun _ _ => Bool.beq_comm⟩

theorem targetMasters_lawful : targetMastersTable.Lawful :=
  ⟨fun _ _ => rfl, fun _ _ _ => rfl, fun _ => rfl, fun _ _ _ => rfl, fun _ _ => rfl,
    fun _ _ => Bool.beq_comm⟩

theorem alsoNotifies_lawful : alsoNotifiesTable.Lawful :=
  ⟨fun _ _ => rfl, fun _ _ _ => rfl, fun _ => rfl, fun _ _ _ => rfl, fun _ _ => rfl,
    fun _ _ => Bool.beq_comm⟩

/-! ## Rows -/

/-- The rows of the other owners. -/
def others (owner : Nat) (rows : List (ItemRow κ)) : List (ItemRow κ) :=
  rows.filter fun row => row.owner != owner

/-- One row for each of the columns, under the identifiers from `id` on. -/
def newRows (owner : Nat) : Nat → List κ → List (ItemRow κ)
  | _, [] => []
  | id, c :: cs => ⟨id, owner, c⟩ :: newRows owner (id + 1) cs

theorem newRows_columns (owner id : Nat) (cs : List κ) :
    (newRows owner id cs).map ItemRow.columns = cs := by
  induction cs generalizing id with
  | nil => rfl
  | cons c cs ih => rw [newRows, List.map_cons, ih]

theorem mem_newRows {owner id : Nat} {cs : List κ} {row : ItemRow κ}
    (h : row ∈ newRows owner id cs) :
    row.owner = owner ∧ id ≤ row.id ∧ row.id < id + cs.length ∧ row.columns ∈ cs := by
  induction cs generalizing id with
  | nil => exact absurd h List.not_mem_nil
  | cons c cs ih =>
    rcases List.mem_cons.mp h with rfl | htail
    · exact ⟨rfl, Nat.le_refl _, by simp, List.mem_cons_self⟩
    · obtain ⟨howner, hlow, hhigh, hcolumns⟩ := ih htail
      rw [List.length_cons]
      exact ⟨howner, by omega, by omega, List.mem_cons_of_mem _ hcolumns⟩

theorem newRows_nodup {owner id : Nat} {cs : List κ} :
    ((newRows owner id cs).map ItemRow.id).Nodup := by
  induction cs generalizing id with
  | nil => exact List.nodup_nil
  | cons c cs ih =>
    rw [newRows, List.map_cons, List.nodup_cons]
    refine ⟨fun hmem => ?_, ih⟩
    obtain ⟨row, hrow, hid⟩ := List.mem_map.mp hmem
    have hlow : id + 1 ≤ row.id := (mem_newRows hrow).2.1
    have hsame : row.id = id := hid
    omega

/-- The rows of an owner among the others' and new ones. -/
theorem filter_others_newRows (owner id q : Nat) (rows : List (ItemRow κ)) (cs : List κ) :
    (others owner rows ++ newRows owner id cs).filter (fun row => row.owner == q) =
      if q = owner then newRows owner id cs else rows.filter fun row => row.owner == q := by
  have hnew : ∀ row ∈ newRows owner id cs, row.owner = owner := fun row h => (mem_newRows h).1
  rw [List.filter_append, others, List.filter_filter]
  by_cases hq : q = owner
  · subst hq
    rw [if_pos rfl]
    have hold : rows.filter (fun row => row.owner == q && row.owner != q) = [] :=
      List.filter_eq_nil_iff.mpr fun row _ => by simp
    have hall : (newRows q id cs).filter (fun row => row.owner == q) = newRows q id cs :=
      List.filter_eq_self.mpr fun row h => by simp [hnew row h]
    rw [hold, hall, List.nil_append]
  · rw [if_neg hq]
    have hnone : (newRows owner id cs).filter (fun row => row.owner == q) = [] :=
      List.filter_eq_nil_iff.mpr fun row h => by
        rw [hnew row h]
        simpa using Ne.symm hq
    rw [hnone, List.append_nil]
    refine List.filter_congr fun row _ => ?_
    by_cases howner : row.owner = q
    · have hne : row.owner ≠ owner := by rw [howner]; exact hq
      simp [howner, hq]
    · simp [howner]

/-! ## The rows of a table -/

/-- What the constraints of a table say of its rows, with the next identifier to hand out. -/
structure Sound (clash : κ → κ → Bool) (next : Nat) (rows : List (ItemRow κ)) : Prop where
  nodup : (rows.map ItemRow.id).Nodup
  below : ∀ row ∈ rows, row.id < next
  unique : ∀ row ∈ rows, ∀ row' ∈ rows, row.id ≠ row'.id → row.owner = row'.owner →
    clash row.columns row'.columns = false

section

variable {clash : κ → κ → Bool} {next next' owner id : Nat} {rows : List (ItemRow κ)}
  {cs : List κ}

theorem Sound.mono (h : Sound clash next rows) (hle : next ≤ next') : Sound clash next' rows :=
  ⟨h.nodup, fun row hrow => Nat.lt_of_lt_of_le (h.below row hrow) hle, h.unique⟩

theorem Sound.filter (h : Sound clash next rows) (p : ItemRow κ → Bool) :
    Sound clash next (rows.filter p) where
  nodup := (List.filter_sublist.map ItemRow.id).nodup h.nodup
  below row hrow := h.below row (List.mem_of_mem_filter hrow)
  unique row hrow row' hrow' := h.unique row (List.mem_of_mem_filter hrow) row'
    (List.mem_of_mem_filter hrow')

/-- New rows, that clash neither with the old ones nor among themselves. -/
theorem Sound.append_newRows (h : Sound clash next rows) (hid : next ≤ id)
    (hcomm : ∀ a b, clash a b = clash b a) (hapart : cs.Pairwise fun a b => clash a b = false)
    (hfree : ∀ c ∈ cs, ∀ row ∈ rows, row.owner = owner → clash row.columns c = false) :
    Sound clash (id + cs.length) (rows ++ newRows owner id cs) where
  nodup := by
    rw [List.map_append, List.nodup_append]
    refine ⟨h.nodup, newRows_nodup, ?_⟩
    intro i hi j hj heq
    obtain ⟨row, hrow, rfl⟩ := List.mem_map.mp hi
    obtain ⟨row', hrow', rfl⟩ := List.mem_map.mp hj
    have hlow := h.below row hrow
    have hhigh := (mem_newRows hrow').2.1
    omega
  below row hrow := by
    rcases List.mem_append.mp hrow with hold | hnew
    · have hlow := h.below row hold
      omega
    · exact (mem_newRows hnew).2.2.1
  unique := by
    -- among themselves the new rows are as far apart as their columns
    have hnews : (newRows owner id cs).Pairwise fun row row' =>
        clash row.columns row'.columns = false := by
      have hcolumns := hapart
      rw [← newRows_columns owner id cs] at hcolumns
      exact List.pairwise_map.mp hcolumns
    intro row hrow row' hrow' hne howner
    rcases List.mem_append.mp hrow with hold | hnew
    · rcases List.mem_append.mp hrow' with hold' | hnew'
      · exact h.unique row hold row' hold' hne howner
      · obtain ⟨hown, _, _, hcs⟩ := mem_newRows hnew'
        exact hfree _ hcs row hold (howner.trans hown)
    · rcases List.mem_append.mp hrow' with hold' | hnew'
      · obtain ⟨hown, _, _, hcs⟩ := mem_newRows hnew
        rw [hcomm]
        exact hfree _ hcs row' hold' (howner.symm.trans hown)
      · have hsymm : Std.Symm fun row row' : ItemRow κ =>
            clash row.columns row'.columns = false :=
          ⟨fun a b hab => by rw [hcomm]; exact hab⟩
        exact hnews.forall hnew hnew' fun heq => hne (by rw [heq])

/-- The columns of the rows of one owner do not clash. -/
theorem Sound.own_apart (h : Sound clash next rows) (owner : Nat) :
    ((rows.filter fun row => row.owner == owner).map ItemRow.columns).Pairwise
      fun a b => clash a b = false := by
  have hfiltered := h.filter fun row => row.owner == owner
  refine List.pairwise_map.mpr ?_
  refine (List.pairwise_map.mp hfiltered.nodup).imp_of_mem fun hmem hmem' hne => ?_
  have hown := List.mem_filter.mp hmem
  have hown' := List.mem_filter.mp hmem'
  refine h.unique _ hown.1 _ hown'.1 hne ?_
  rw [beq_iff_eq.mp hown.2, beq_iff_eq.mp hown'.2]

end

/-- The columns of an owner's rows. -/
def columnsOf (rows : List (ItemRow κ)) (owner : Nat) : Multiset κ :=
  ((rows.filter fun row => row.owner == owner).map ItemRow.columns : List κ)

theorem columnsOf_append (rows rows' : List (ItemRow κ)) (owner : Nat) :
    columnsOf (rows ++ rows') owner = columnsOf rows owner + columnsOf rows' owner := by
  unfold columnsOf
  rw [List.filter_append, List.map_append, Multiset.coe_add]

theorem columnsOf_newRows {owner id q : Nat} {cs : List κ} :
    columnsOf (newRows owner id cs) q = if q = owner then (cs : Multiset κ) else 0 := by
  have h := filter_others_newRows owner id q [] cs
  rw [others, List.filter_nil, List.nil_append] at h
  unfold columnsOf
  rw [h]
  by_cases hq : q = owner
  · rw [if_pos hq, if_pos hq, newRows_columns]
  · rw [if_neg hq, if_neg hq]
    rfl

theorem columnsOf_replaced {owner id q : Nat} {rows : List (ItemRow κ)} {cs : List κ} :
    columnsOf (others owner rows ++ newRows owner id cs) q =
      if q = owner then (cs : Multiset κ) else columnsOf rows q := by
  unfold columnsOf
  rw [filter_others_newRows]
  by_cases hq : q = owner
  · rw [if_pos hq, if_pos hq, newRows_columns]
  · rw [if_neg hq, if_neg hq]

end

/-! ## Statements -/

section

variable {κ ι : Type} {t : ItemTable κ} {s : State} {owner : Nat}

theorem forEach_cons {α : Type} {f : α → PoolCall Unit} {a : α} {as : List α} {s₁ : State}
    (h : f a s = (.ok (), s₁)) : Exec.forEach f (a :: as) s = Exec.forEach f as s₁ := by
  show (f a >>= fun _ => Exec.forEach f as) s = _
  rw [Exec.bind_ok h]

/-- A row that clashes with none of its owner's is made under the next identifier. -/
theorem createItem_ok (ht : t.Lawful) {item : Item κ} {c : κ} (hnew : item.new = some c)
    (hfree : ∀ row ∈ t.rows s, row.owner = owner → t.clash row.columns c = false) :
    createItem t owner item s =
      (.ok s.world.nextId,
        t.withRows (t.rows s ++ [⟨s.world.nextId, owner, c⟩]) (s.advance 1)) := by
  have htaken : t.taken ⟨s.world.nextId, owner, c⟩ (s.advance 1) = false := by
    unfold ItemTable.taken
    rw [ht.rows_advance]
    refine List.any_eq_false.mpr fun row hrow => ?_
    by_cases howner : row.owner = owner
    · simp [hfree row hrow howner]
    · simp [howner]
  have hid : (onWorld generateUuid : PoolCall Nat) s = (.ok s.world.nextId, s.advance 1) := rfl
  unfold createItem
  rw [Exec.bind_ok hid]
  unfold Exec.write
  simp only [hnew, htaken, Bool.false_eq_true, if_false, ht.rows_advance]

/-- Items that clash neither with a row of their owner nor among themselves. -/
theorem createItems_ok (ht : t.Lawful) {item : ι → Item κ} {items : List ι} {cs : List κ}
    (hnew : List.Forall₂ (fun i c => (item i).new = some c) items cs)
    (hapart : cs.Pairwise fun a b => t.clash a b = false)
    (hfree : ∀ c ∈ cs, ∀ row ∈ t.rows s, row.owner = owner → t.clash row.columns c = false) :
    Exec.forEach (fun i => do let _ ← createItem t owner (item i)) items s =
      (.ok (), t.withRows (t.rows s ++ newRows owner s.world.nextId cs)
        (s.advance cs.length)) := by
  induction hnew generalizing s with
  | nil =>
    show (Except.ok (), s) = _
    rw [newRows, List.append_nil, List.length_nil, advance_zero, ht.withRows_rows]
  | @cons i c items cs hi _ ih =>
    rw [List.pairwise_cons] at hapart
    have hcreate := createItem_ok ht hi (hfree c List.mem_cons_self)
    -- what was free for the whole list is free for its head
    have hstep : (do let _ ← createItem t owner (item i) : PoolCall Unit) s =
        (.ok (), t.withRows (t.rows s ++ [⟨s.world.nextId, owner, c⟩]) (s.advance 1)) := by
      rw [Exec.bind_ok hcreate]
      rfl
    refine (forEach_cons (f := fun i => (do let _ ← createItem t owner (item i) : PoolCall Unit))
      hstep).trans ?_
    rw [ih hapart.2 ?_]
    · rw [ht.rows_withRows, ht.advance_withRows, ht.withRows_withRows, advance_advance, newRows,
        List.append_assoc, List.singleton_append, t.world, List.length_cons, Nat.add_comm 1]
      rfl
    · intro c' hc' row hrow howner
      rw [ht.rows_withRows] at hrow
      -- the next item meets the rows of before and the one just written
      rcases List.mem_append.mp hrow with hold | hadded
      · exact hfree c' (List.mem_cons_of_mem _ hc') row hold howner
      · rw [List.mem_singleton.mp hadded]
        exact hapart.1 c' hc'

theorem deleteItem_ok {row : ItemRow κ} (hnodup : ((t.rows s).map ItemRow.id).Nodup)
    (hrow : row ∈ t.rows s) :
    deleteItem t row.id s =
      (.ok (), t.withRows (Table.remove ItemRow.id row.id (t.rows s)) s) := by
  have hfind : Table.find ItemRow.id row.id (fun _ => true) (PoolExc.notFound t.kind) (t.rows s) =
      .ok row := Table.find_of_mem hnodup hrow rfl rfl
  unfold deleteItem Exec.write
  simp only [hfind]

/-- The rows of an owner go one by one. -/
theorem deleteItems_ok (ht : t.Lawful) {gone : List (ItemRow κ)}
    (hnodup : ((t.rows s).map ItemRow.id).Nodup) (hgone : (gone.map ItemRow.id).Nodup)
    (hrows : ∀ row ∈ gone, row ∈ t.rows s) :
    Exec.forEach (deleteItem t) (gone.map ItemRow.id) s =
      (.ok (), t.withRows ((t.rows s).filter fun row => row.id ∉ gone.map ItemRow.id) s) := by
  induction gone generalizing s with
  | nil =>
    show (Except.ok (), s) = _
    simp [ht.withRows_rows]
  | cons row gone ih =>
    rw [List.map_cons, List.nodup_cons] at hgone
    rw [List.map_cons, forEach_cons (deleteItem_ok hnodup (hrows row List.mem_cons_self)),
      ih ?_ hgone.2 ?_]
    · -- removing one row and then the rest is removing them all
      rw [ht.rows_withRows, ht.withRows_withRows, Table.remove, List.filter_filter]
      congr 3
      funext r
      by_cases hr : r.id = row.id
      · simp [hr]
      · simp [hr]
    · rw [ht.rows_withRows]
      exact Table.remove_nodup hnodup
    · intro row' hrow'
      rw [ht.rows_withRows, Table.mem_remove]
      refine ⟨hrows row' (List.mem_cons_of_mem _ hrow'), fun heq => hgone.1 ?_⟩
      rw [← heq]
      exact List.mem_map_of_mem hrow'

/-- With an item for none of the rows, they all go, and every item is made. -/
theorem updateItems_fresh {have_ : State → List Nat} {id : ι → Option Nat}
    {delete : Nat → PoolCall Unit} {update create : ι → PoolCall Unit} {items : List ι}
    (hfresh : ∀ i ∈ items, id i = none) :
    updateItems have_ id delete update create items s =
      (do Exec.forEach delete (have_ s); Exec.forEach create items : PoolCall Unit) s := by
  have hgone : (have_ s).filter (fun i => !items.any fun item => id item == some i) = have_ s :=
    List.filter_eq_self.mpr fun i _ => by
      have hnone : items.any (fun item => id item == some i) = false :=
        List.any_eq_false.mpr fun item hitem => by simp [hfresh item hitem]
      rw [hnone]
      rfl
  have hkept : items.filter (fun item => (id item).isSome) = [] :=
    List.filter_eq_nil_iff.mpr fun item hitem => by simp [hfresh item hitem]
  have hnew : items.filter (fun item => (id item).isNone) = items :=
    List.filter_eq_self.mpr fun item hitem => by simp [hfresh item hitem]
  have hread : (Exec.read fun s => .ok (have_ s) : PoolCall (List Nat)) s = (.ok (have_ s), s) :=
    rfl
  unfold updateItems
  rw [Exec.bind_ok hread, hgone, hkept, hnew]
  rfl

/-- The rows of an owner, and those that are not. -/
theorem filter_not_mem_own (hnodup : ((t.rows s).map ItemRow.id).Nodup) :
    (t.rows s).filter (fun row => row.id ∉ (t.of owner s).map ItemRow.id) =
      others owner (t.rows s) := by
  refine List.filter_congr fun row hrow => ?_
  by_cases howner : row.owner = owner
  · have hmem : row.id ∈ (t.of owner s).map ItemRow.id :=
      List.mem_map_of_mem (List.mem_filter.mpr ⟨hrow, by simpa using howner⟩)
    simp [hmem, howner]
  · have hmem : row.id ∉ (t.of owner s).map ItemRow.id := by
      intro hmem
      obtain ⟨row', hrow', hid⟩ := List.mem_map.mp hmem
      have hown := List.mem_filter.mp hrow'
      have heq := Table.eq_of_key hnodup hown.1 hrow hid
      rw [heq] at hown
      exact howner (by simpa using hown.2)
    simp [hmem, howner]

theorem own_nodup (owner : Nat) (hnodup : ((t.rows s).map ItemRow.id).Nodup) :
    ((t.of owner s).map ItemRow.id).Nodup :=
  (List.filter_sublist.map ItemRow.id).nodup hnodup

/-- **Fresh items take the place of the rows of their owner.** -/
theorem updatePoolItems_fresh (ht : t.Lawful) (hnodup : ((t.rows s).map ItemRow.id).Nodup)
    {items : List (Item κ)} {cs : List κ}
    (hfresh : ∀ item ∈ items, item.id = none)
    (hnew : List.Forall₂ (fun item c => item.new = some c) items cs)
    (hapart : cs.Pairwise fun a b => t.clash a b = false) :
    updatePoolItems t owner items s =
      (.ok (), t.withRows (others owner (t.rows s) ++ newRows owner s.world.nextId cs)
        (s.advance cs.length)) := by
  have hloops : updatePoolItems t owner items s =
      (do
        Exec.forEach (deleteItem t) ((t.of owner s).map ItemRow.id)
        Exec.forEach (fun item => do let _ ← createItem t owner item) items : PoolCall Unit) s :=
    updateItems_fresh hfresh
  have hdelete := deleteItems_ok ht hnodup (own_nodup owner hnodup)
    fun row hrow => (List.mem_filter.mp hrow).1
  rw [filter_not_mem_own hnodup] at hdelete
  rw [hloops, Exec.bind_ok hdelete]
  -- no row of the owner is left to clash with
  have hfree : ∀ c ∈ cs, ∀ row ∈ t.rows (t.withRows (others owner (t.rows s)) s),
      row.owner = owner → t.clash row.columns c = false := by
    intro c _ row hrow howner
    rw [ht.rows_withRows] at hrow
    exact absurd howner (by simpa [others] using (List.mem_filter.mp hrow).2)
  refine (createItems_ok ht hnew hapart hfree).trans ?_
  rw [ht.rows_withRows, ht.advance_withRows, ht.withRows_withRows, t.world]

end

end Pools

end Designate
