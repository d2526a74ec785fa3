import Designate.Exec
import Designate.Table

/-!
# Reconciling a child table with a list of items

The rows of an owner are brought in line with the items an object carries: rows no
item names go, items with an identifier write the columns they have changed over
their rows, items without one become new rows. Each step is a statement of its own,
so that what was done before a step raises stays done.
-/

namespace Designate

namespace Reconcile

open Exec

variable {α β : Type}

/-- A row of a child table with two columns. -/
structure Row (α β : Type) where
  id : Nat
  owner : Nat
  fst : α
  snd : β
  deriving DecidableEq, Repr

/-- An item of the list an object carries: a column is `none` where the item would not write it. -/
structure Item (α β : Type) where
  id : Option Nat
  fst : Option α
  snd : Option β
  deriving DecidableEq, Repr

/-- Why a statement is refused. -/
inductive Refusal where
  | notFound
  | duplicate
  | incomplete
  deriving DecidableEq, Repr

/-- A child table, with the next identifier to hand out. -/
structure Child (α β : Type) where
  rows : List (Row α β)
  nextId : Nat

/-- The columns an item writes, over a row. -/
def Item.over (item : Item α β) (row : Row α β) : Row α β :=
  { row with fst := item.fst.getD row.fst, snd := item.snd.getD row.snd }

/-- The identifiers of an owner's rows. -/
def have_ (owner : Nat) (rows : List (Row α β)) : List Nat :=
  (rows.filter fun row => row.owner == owner).map Row.id

/-- Some item names the row. -/
def keeps (items : List (Item α β)) (id : Nat) : Bool := items.any fun item => item.id == some id

/-- DELETE of one row. -/
def deleteRow (id : Nat) : Exec (Child α β) Refusal Unit :=
  Exec.write fun s =>
    match Table.find Row.id id (fun _ => true) Refusal.notFound s.rows with
    | .error e => .error e
    | .ok _ => .ok ((), { s with rows := Table.remove Row.id id s.rows })

variable [DecidableEq α] [DecidableEq β]

/-- Another row of the owner has these columns. -/
def taken (rows : List (Row α β)) (row : Row α β) : Bool :=
  rows.any fun r => r.id ≠ row.id && r.owner == row.owner && r.fst == row.fst && r.snd == row.snd

/-- UPDATE of the row an item names. A row that keeps its columns is no duplicate. -/
def updateRow (item : Item α β) : Exec (Child α β) Refusal Unit :=
  Exec.write fun s =>
    match item.id with
    | none => .error .notFound
    | some id =>
      match Table.find Row.id id (fun _ => true) Refusal.notFound s.rows with
      | .error e => .error e
      | .ok row =>
        if item.over row ≠ row ∧ taken s.rows (item.over row) then .error .duplicate
        else .ok ((), { s with rows := Table.update Row.id id item.over s.rows })

/-- INSERT of an item that has all its columns. -/
def insertRow (owner : Nat) (item : Item α β) : Exec (Child α β) Refusal Unit :=
  Exec.write fun s =>
    match item.fst, item.snd with
    | some a, some b =>
      if taken s.rows ⟨s.nextId, owner, a, b⟩ then .error .duplicate
      else .ok ((), { rows := s.rows ++ [⟨s.nextId, owner, a, b⟩], nextId := s.nextId + 1 })
    | _, _ => .error .incomplete

/-- Bring the rows of `owner` in line with the items. -/
def reconcile (owner : Nat) (items : List (Item α β)) : Exec (Child α β) Refusal Unit := do
  let have_ ← Exec.read fun s => .ok (have_ owner s.rows)
  Exec.forEach deleteRow (have_.filter fun id => !keeps items id)
  Exec.forEach updateRow (items.filter fun item => item.id.isSome)
  Exec.forEach (insertRow owner) (items.filter fun item => item.id.isNone)

/-! ## The statements -/

section

variable {s s' : Child α β} {owner : Nat}

omit [DecidableEq α] [DecidableEq β] in
theorem deleteRow_eq_ok {id : Nat} : deleteRow id s = (.ok (), s') ↔
    (∃ row, Table.find Row.id id (fun _ => true) Refusal.notFound s.rows = .ok row) ∧
      s' = { s with rows := Table.remove Row.id id s.rows } := by
  unfold deleteRow
  rw [write_eq_ok]
  cases Table.find Row.id id (fun _ => true) Refusal.notFound s.rows with
  | error e => simp
  | ok row => simp [eq_comm]

theorem updateRow_eq_ok {item : Item α β} : updateRow item s = (.ok (), s') ↔
    ∃ id row, item.id = some id ∧
      Table.find Row.id id (fun _ => true) Refusal.notFound s.rows = .ok row ∧
      ¬ (item.over row ≠ row ∧ taken s.rows (item.over row)) ∧
      s' = { s with rows := Table.update Row.id id item.over s.rows } := by
  unfold updateRow
  rw [write_eq_ok]
  cases hid : item.id with
  | none => simp
  | some id =>
    cases hf : Table.find Row.id id (fun _ => true) Refusal.notFound s.rows with
    | error e => simp [hf]
    | ok row =>
      -- writing what is there already is never refused
      by_cases ht : item.over row ≠ row ∧ taken s.rows (item.over row)
      · simp only [hf]
        rw [if_pos ht]
        refine iff_of_false (by simp) ?_
        rintro ⟨id', row', he, hf', hfree, -⟩
        obtain rfl := Option.some.inj he
        obtain rfl := Except.ok.inj (hf.symm.trans hf')
        exact hfree ht
      · simp only [hf]
        rw [if_neg ht]
        constructor
        · intro h
          exact ⟨id, row, rfl, hf, ht, (congrArg Prod.snd (Except.ok.inj h)).symm⟩
        · rintro ⟨id', row', he, hf', -, rfl⟩
          obtain rfl := Option.some.inj he
          rfl

theorem insertRow_eq_ok {item : Item α β} : insertRow owner item s = (.ok (), s') ↔
    ∃ a b, item.fst = some a ∧ item.snd = some b ∧ ¬ taken s.rows ⟨s.nextId, owner, a, b⟩ ∧
      s' = { rows := s.rows ++ [⟨s.nextId, owner, a, b⟩], nextId := s.nextId + 1 } := by
  unfold insertRow
  rw [write_eq_ok]
  cases ha : item.fst with
  | none => simp
  | some a =>
    cases hb : item.snd with
    | none => simp
    | some b =>
      -- the one thing that can be refused is a row that another is in the way of
      by_cases ht : taken s.rows ⟨s.nextId, owner, a, b⟩ = true
      · dsimp only
        rw [if_pos ht]
        refine iff_of_false (by simp) ?_
        rintro ⟨a', b', he, he', hfree, -⟩
        obtain rfl := Option.some.inj he
        obtain rfl := Option.some.inj he'
        exact hfree ht
      · dsimp only
        rw [if_neg ht]
        constructor
        · intro h
          exact ⟨a, b, rfl, rfl, ht, (congrArg Prod.snd (Except.ok.inj h)).symm⟩
        · rintro ⟨a', b', he, he', -, rfl⟩
          obtain rfl := Option.some.inj he
          obtain rfl := Option.some.inj he'
          rfl

/-! ## The three loops -/

omit [DecidableEq α] [DecidableEq β] in
/-- The rows no deletion named. -/
theorem forEach_deleteRow_ok {ids : List Nat} (h : forEach deleteRow ids s = (.ok (), s')) :
    s' = { s with rows := s.rows.filter fun r => r.id ∉ ids } := by
  induction ids generalizing s with
  | nil =>
    obtain rfl : s = s' := congrArg Prod.snd h
    simp
  | cons id ids ih =>
    obtain ⟨⟨⟩, s₁, h₁, h₂⟩ := bind_eq_ok.mp h
    obtain ⟨-, rfl⟩ := deleteRow_eq_ok.mp h₁
    rw [ih h₂]
    simp only [Table.remove, List.filter_filter, List.mem_cons, not_or, Child.mk.injEq, and_true]
    refine List.filter_congr fun r _ => ?_
    by_cases hr : r.id = id <;> simp [hr]

omit [DecidableEq α] [DecidableEq β] in
/-- Deletions of rows that are there return. -/
theorem forEach_deleteRow_of (ids : List Nat) (hids : ids.Nodup)
    (hrows : (s.rows.map Row.id).Nodup) (hmem : ∀ id ∈ ids, ∃ r ∈ s.rows, r.id = id) :
    ∃ s', forEach deleteRow ids s = (.ok (), s') := by
  induction ids generalizing s with
  | nil => exact ⟨s, rfl⟩
  | cons id ids ih =>
    rw [List.nodup_cons] at hids
    obtain ⟨row, hr, hrid⟩ := hmem id List.mem_cons_self
    have hone : deleteRow id s = (.ok (), { s with rows := Table.remove Row.id id s.rows }) :=
      deleteRow_eq_ok.mpr ⟨⟨row, Table.find_of_mem hrows hr hrid rfl⟩, rfl⟩
    obtain ⟨s', hs'⟩ := ih (s := { s with rows := Table.remove Row.id id s.rows }) hids.2
      (Table.remove_nodup hrows) fun id' hid' => by
        obtain ⟨r, hr, he⟩ := hmem id' (List.mem_cons_of_mem _ hid')
        exact ⟨r, Table.mem_remove.mpr ⟨hr, fun hx => hids.1 ((hx.symm.trans he) ▸ hid')⟩, he⟩
    exact ⟨s', (bind_ok hone).trans hs'⟩

/-- What the items make of a row. -/
def written (items : List (Item α β)) (row : Row α β) : Row α β :=
  items.foldl (fun r item => if item.id = some r.id then item.over r else r) row

omit [DecidableEq α] [DecidableEq β] in
@[simp] theorem written_id (items : List (Item α β)) (row : Row α β) :
    (written items row).id = row.id ∧ (written items row).owner = row.owner := by
  induction items generalizing row with
  | nil => exact ⟨rfl, rfl⟩
  | cons item items ih =>
    have ih := ih (if item.id = some row.id then item.over row else row)
    have hsame : (if item.id = some row.id then item.over row else row).id = row.id ∧
        (if item.id = some row.id then item.over row else row).owner = row.owner := by
      split <;> exact ⟨rfl, rfl⟩
    exact ⟨ih.1.trans hsame.1, ih.2.trans hsame.2⟩

omit [DecidableEq α] [DecidableEq β] in
/-- The items set some columns of a row, whatever these held before. -/
theorem written_columns (items : List (Item α β)) (id : Nat) :
    ∃ (a : Option α) (b : Option β), ∀ row : Row α β, row.id = id →
      written items row = { row with fst := a.getD row.fst, snd := b.getD row.snd } := by
  induction items with
  | nil => exact ⟨none, none, fun row _ => rfl⟩
  | cons item items ih =>
    obtain ⟨a, b, hab⟩ := ih
    by_cases hid : item.id = some id
    · refine ⟨a.or item.fst, b.or item.snd, fun row hrow => ?_⟩
      show written items (if item.id = some row.id then item.over row else row) = _
      rw [if_pos (hrow ▸ hid), hab (item.over row) hrow]
      cases a <;> cases b <;> rfl
    · refine ⟨a, b, fun row hrow => ?_⟩
      show written items (if item.id = some row.id then item.over row else row) = _
      rw [if_neg (hrow ▸ hid), hab _ hrow]

omit [DecidableEq α] [DecidableEq β] in
/-- Writing the same items again changes nothing. -/
theorem written_written (items : List (Item α β)) (row : Row α β) :
    written items (written items row) = written items row := by
  obtain ⟨a, b, hab⟩ := written_columns items row.id
  rw [hab _ (written_id items row).1, hab row rfl]
  cases a <;> cases b <;> rfl

/-- The rows with the items written over them. -/
theorem forEach_updateRow_ok {items : List (Item α β)}
    (h : forEach updateRow items s = (.ok (), s')) :
    s' = { s with rows := s.rows.map (written items) } := by
  induction items generalizing s with
  | nil =>
    obtain rfl : s = s' := congrArg Prod.snd h
    have hid : s.rows.map (written ([] : List (Item α β))) = s.rows := List.map_id _
    rw [hid]
  | cons item items ih =>
    obtain ⟨⟨⟩, s₁, h₁, h₂⟩ := bind_eq_ok.mp h
    obtain ⟨id, row, hid, -, -, rfl⟩ := updateRow_eq_ok.mp h₁
    rw [ih h₂]
    simp only [Table.update, List.map_map, Child.mk.injEq, and_true]
    refine List.map_congr_left fun r _ => ?_
    show written items (if r.id = id then item.over r else r) =
      written items (if item.id = some r.id then item.over r else r)
    by_cases hr : r.id = id
    · rw [if_pos hr, if_pos (hr ▸ hid)]
    · rw [if_neg hr, if_neg fun he => hr (Option.some.inj (he.symm.trans hid))]

/-- Items that change no column return, if their rows are there. -/
theorem forEach_updateRow_of {items : List (Item α β)} (hrows : (s.rows.map Row.id).Nodup)
    (hitems : ∀ item ∈ items, (∃ r ∈ s.rows, item.id = some r.id) ∧ item.fst = none ∧
      item.snd = none) :
    forEach updateRow items s = (.ok (), s) := by
  induction items with
  | nil => rfl
  | cons item items ih =>
    obtain ⟨⟨r, hr, hid⟩, ha, hb⟩ := hitems item List.mem_cons_self
    have hf : Table.find Row.id r.id (fun _ => true) Refusal.notFound s.rows = .ok r :=
      Table.find_of_mem hrows hr rfl rfl
    have hover : ∀ row : Row α β, item.over row = row := by
      intro row
      unfold Item.over
      rw [ha, hb]
      rfl
    have hone : updateRow item s = (.ok (), s) := by
      refine updateRow_eq_ok.mpr ⟨r.id, r, hid, hf, fun h => h.1 (hover r), ?_⟩
      rw [Table.update_id fun row _ _ => hover row]
    exact (bind_ok hone).trans (ih fun i hi => hitems i (List.mem_cons_of_mem _ hi))

/-- The rows with new ones after them, under the next identifiers. -/
theorem forEach_insertRow_ok {items : List (Item α β)}
    (h : forEach (insertRow owner) items s = (.ok (), s')) :
    ∃ news, s'.rows = s.rows ++ news ∧ s'.nextId = s.nextId + items.length ∧
      news.map Row.id = List.range' s.nextId items.length ∧ ∀ n ∈ news, n.owner = owner := by
  induction items generalizing s with
  | nil =>
    obtain rfl : s = s' := congrArg Prod.snd h
    exact ⟨[], by simp⟩
  | cons item items ih =>
    obtain ⟨⟨⟩, s₁, h₁, h₂⟩ := bind_eq_ok.mp h
    obtain ⟨a, b, -, -, -, rfl⟩ := insertRow_eq_ok.mp h₁
    obtain ⟨news, hrows, hnext, hids, hall⟩ := ih h₂
    refine ⟨⟨s.nextId, owner, a, b⟩ :: news, by rw [hrows, List.append_assoc]; rfl,
      by rw [hnext, List.length_cons]; dsimp only; omega,
      by rw [List.map_cons, hids, List.length_cons, List.range'_succ], fun n hn => ?_⟩
    rcases List.mem_cons.mp hn with rfl | hn
    · rfl
    · exact hall n hn

/-! ## The whole -/

/-- Identifiers are unique and below the next one. -/
structure Child.Wf (s : Child α β) : Prop where
  ids : (s.rows.map Row.id).Nodup
  below : ∀ r ∈ s.rows, r.id < s.nextId

/-- The rows of an owner. -/
def Child.own (s : Child α β) (owner : Nat) : List (Row α β) :=
  s.rows.filter fun row => row.owner == owner

/-- The rows that are not deleted. -/
def Child.left (s : Child α β) (owner : Nat) (items : List (Item α β)) : List (Row α β) :=
  s.rows.filter fun r => decide (r.owner ≠ owner) || keeps items r.id

omit [DecidableEq α] [DecidableEq β] in
theorem mem_own {r : Row α β} : r ∈ s.own owner ↔ r ∈ s.rows ∧ r.owner = owner := by
  simp [Child.own]

omit [DecidableEq α] [DecidableEq β] in
theorem left_eq (hwf : s.Wf) (items : List (Item α β)) :
    (s.rows.filter fun r => r.id ∉ (have_ owner s.rows).filter fun id => !keeps items id) =
      s.left owner items := by
  refine List.filter_congr fun r hr => ?_
  have hown : r.id ∈ have_ owner s.rows ↔ r.owner = owner := by
    unfold have_
    constructor
    · intro h
      obtain ⟨r', hr', he⟩ := List.mem_map.mp h
      obtain ⟨hr', ho⟩ := List.mem_filter.mp hr'
      rw [← Table.eq_of_key hwf.ids hr' hr he]
      exact eq_of_beq ho
    · intro h
      exact List.mem_map_of_mem (List.mem_filter.mpr ⟨hr, beq_iff_eq.mpr h⟩)
  rw [Bool.eq_iff_iff]
  simp only [decide_eq_true_eq, List.mem_filter, hown, Bool.or_eq_true, ne_eq, Bool.not_eq_true']
  cases keeps items r.id <;> simp

/-- How many items are new. -/
def newItems (items : List (Item α β)) : Nat := (items.filter fun item => item.id.isNone).length

theorem reconcile_apply (items : List (Item α β)) :
    reconcile owner items s = (do
      forEach deleteRow ((have_ owner s.rows).filter fun id => !keeps items id)
      forEach updateRow (items.filter fun item => item.id.isSome)
      forEach (insertRow owner) (items.filter fun item => item.id.isNone)) s := rfl

/-- What a reconciliation that returns leaves. -/
theorem reconcile_ok {items : List (Item α β)} (hwf : s.Wf)
    (h : reconcile owner items s = (.ok (), s')) :
    ∃ news, s'.rows = (s.left owner items).map (written items) ++ news ∧
      s'.nextId = s.nextId + newItems items ∧
      news.map Row.id = List.range' s.nextId (newItems items) ∧ ∀ n ∈ news, n.owner = owner := by
  rw [reconcile_apply] at h
  obtain ⟨⟨⟩, s₁, h₁, h⟩ := bind_eq_ok.mp h
  obtain ⟨⟨⟩, s₂, h₂, h₃⟩ := bind_eq_ok.mp h
  obtain rfl := forEach_deleteRow_ok h₁
  obtain rfl := forEach_updateRow_ok h₂
  obtain ⟨news, hrows, hnext, hids, hall⟩ := forEach_insertRow_ok h₃
  -- an item without an identifier writes over no row
  have hsame : ∀ (l : List (Item α β)) (row : Row α β),
      written (l.filter fun item => item.id.isSome) row = written l row := by
    intro l
    induction l with
    | nil => exact fun row => rfl
    | cons item l ih =>
      intro row
      cases hid : item.id with
      | none =>
        rw [List.filter_cons_of_neg (by simp [hid]), ih]
        show written l row = written l (if item.id = some row.id then item.over row else row)
        rw [hid, if_neg (by simp)]
      | some id =>
        rw [List.filter_cons_of_pos (by simp [hid])]
        exact ih _
  refine ⟨news, ?_, hnext, hids, hall⟩
  rw [hrows, left_eq hwf]
  exact congrArg₂ _ (List.map_congr_left fun r _ => hsame items r) rfl

omit [DecidableEq α] [DecidableEq β] in
theorem mem_news {news : List (Row α β)} {start k : Nat} (h : news.map Row.id = List.range' start k)
    {n : Row α β} (hn : n ∈ news) : start ≤ n.id ∧ n.id < start + k := by
  have := h ▸ List.mem_map_of_mem (f := Row.id) hn
  simpa using this

omit [DecidableEq α] [DecidableEq β] in
theorem mem_left {items : List (Item α β)} {r : Row α β} :
    r ∈ s.left owner items ↔ r ∈ s.rows ∧ (r.owner = owner → keeps items r.id) := by
  unfold Child.left
  rw [List.mem_filter]
  simp only [Bool.or_eq_true, decide_eq_true_eq]
  constructor
  · rintro ⟨h, ho⟩
    exact ⟨h, fun he => ho.resolve_left fun hne => hne he⟩
  · rintro ⟨h, ho⟩
    refine ⟨h, ?_⟩
    by_cases he : r.owner = owner
    · exact Or.inr (ho he)
    · exact Or.inl he

theorem reconcile_wf {items : List (Item α β)} (hwf : s.Wf)
    (h : reconcile owner items s = (.ok (), s')) : s'.Wf := by
  obtain ⟨news, hrows, hnext, hids, -⟩ := reconcile_ok hwf h
  have hall := fun n (hn : n ∈ news) => mem_news hids hn
  -- writing keeps the identifiers, and the new rows have those from the counter on
  have hmap : ((s.left owner items).map (written items)).map Row.id =
      (s.left owner items).map Row.id := by
    rw [List.map_map]
    exact List.map_congr_left fun r _ => (written_id items r).1
  constructor
  · rw [hrows, List.map_append, hmap, List.nodup_append]
    refine ⟨hwf.ids.sublist (List.Sublist.map _ List.filter_sublist),
      hids ▸ List.nodup_range', ?_⟩
    intro x hx y hy he
    obtain ⟨r, hr, rfl⟩ := List.mem_map.mp hx
    obtain ⟨n, hn, rfl⟩ := List.mem_map.mp hy
    have := hwf.below r (mem_left.mp hr).1
    have := hall n hn
    omega
  · intro r hr
    rw [hrows] at hr
    rcases List.mem_append.mp hr with hr | hr
    · obtain ⟨r', hr', rfl⟩ := List.mem_map.mp hr
      have := hwf.below r' (mem_left.mp hr').1
      rw [(written_id items r').1]
      omega
    · have := hall r hr
      omega

/-- Items that name rows of the owner and change no column only take the other rows away. -/
theorem reconcile_of {items : List (Item α β)} (hwf : s.Wf)
    (hitems : ∀ item ∈ items, (∃ r ∈ s.own owner, item.id = some r.id) ∧ item.fst = none ∧
      item.snd = none) :
    reconcile owner items s = (.ok (), { s with rows := s.left owner items }) := by
  -- the deletions get through, as each is of a row that is there
  obtain ⟨s₁, h₁⟩ := forEach_deleteRow_of (s := s)
    ((have_ owner s.rows).filter fun id => !keeps items id)
    ((hwf.ids.sublist (List.Sublist.map _ List.filter_sublist)).filter _) hwf.ids fun id hid => by
      obtain ⟨r, hr, he⟩ := List.mem_map.mp (List.mem_filter.mp hid).1
      exact ⟨r, (List.mem_filter.mp hr).1, he⟩
  have hs₁ := forEach_deleteRow_ok h₁
  rw [left_eq hwf] at hs₁
  subst hs₁
  have hall : items.filter (fun item => item.id.isSome) = items :=
    List.filter_eq_self.mpr fun item hi => by
      obtain ⟨⟨r, -, he⟩, -⟩ := hitems item hi
      rw [he]
      rfl
  -- every item names a row, so nothing is inserted
  have hnone : items.filter (fun item => item.id.isNone) = [] :=
    List.filter_eq_nil_iff.mpr fun item hi => by
      obtain ⟨⟨r, -, he⟩, -⟩ := hitems item hi
      rw [he]
      simp
  -- and no item changes a column, so nothing is updated
  have h₂ : forEach updateRow items { s with rows := s.left owner items } =
      (.ok (), { s with rows := s.left owner items }) := by
    refine forEach_updateRow_of (hwf.ids.sublist (List.Sublist.map _ List.filter_sublist))
      fun item hi => ?_
    obtain ⟨⟨r, hr, he⟩, hcols⟩ := hitems item hi
    refine ⟨⟨r, mem_left.mpr ⟨(mem_own.mp hr).1, fun _ => ?_⟩, he⟩, hcols⟩
    exact List.any_eq_true.mpr ⟨item, hi, beq_iff_eq.mpr he⟩
  rw [reconcile_apply, bind_ok h₁, hall, hnone, bind_ok h₂]
  rfl

end

/-! ## The items afterwards -/

/-- The items once they are stored: new ones have got their identifiers, and none has changes. -/
def numbered : Nat → List (Item α β) → List (Item α β)
  | _, [] => []
  | n, item :: items =>
    match item.id with
    | some id => ⟨some id, none, none⟩ :: numbered n items
    | none => ⟨some n, none, none⟩ :: numbered (n + 1) items

section

variable {s s₁ : Child α β} {owner : Nat}

omit [DecidableEq α] [DecidableEq β] in
/-- The identifiers of the stored items are the old ones and those handed out. -/
theorem numbered_id {n id : Nat} {items : List (Item α β)} :
    (∃ i ∈ numbered n items, i.id = some id) ↔
      (∃ i ∈ items, i.id = some id) ∨ n ≤ id ∧ id < n + newItems items := by
  induction items generalizing n with
  | nil =>
    refine iff_of_false (by simp [numbered]) ?_
    rintro (⟨i, hi, -⟩ | ⟨h₁, h₂⟩)
    · exact absurd hi List.not_mem_nil
    · exact absurd h₂ (by simp [newItems]; omega)
  | cons item items ih =>
    cases hid : item.id with
    -- an item that has its identifier keeps it
    | some k =>
      have hnew : newItems (item :: items) = newItems items := by simp [newItems, hid]
      rw [numbered, hid, hnew]
      simp only [List.mem_cons, exists_eq_or_imp, ih, hid, or_assoc]
    -- a new item takes the next one, and the counter goes up
    | none =>
      have hnew : newItems (item :: items) = newItems items + 1 := by simp [newItems, hid]
      rw [numbered, hid, hnew]
      simp only [List.mem_cons, exists_eq_or_imp, ih, hid, reduceCtorEq, false_or,
        Option.some.injEq]
      constructor
      · rintro (rfl | h | h)
        · exact Or.inr (by omega)
        · exact Or.inl h
        · exact Or.inr (by omega)
      · rintro (h | h)
        · exact Or.inr (Or.inl h)
        · by_cases he : n = id
          · exact Or.inl he
          · exact Or.inr (Or.inr (by omega))

omit [DecidableEq α] [DecidableEq β] in
theorem numbered_blank {n : Nat} {items : List (Item α β)} {i : Item α β}
    (hi : i ∈ numbered n items) : (∃ id, i.id = some id) ∧ i.fst = none ∧ i.snd = none := by
  induction items generalizing n with
  | nil => exact absurd hi List.not_mem_nil
  | cons item items ih =>
    unfold numbered at hi
    split at hi
    all_goals
      rcases List.mem_cons.mp hi with rfl | hi
      · exact ⟨⟨_, rfl⟩, rfl, rfl⟩
      · exact ih hi

end

/-! ## Taking a reconciliation back -/

section

variable {s s₁ : Child α β} {owner : Nat} {items : List (Item α β)}

/-- Every row of the owner is named, and stays as it is. -/
def Unharmed (owner : Nat) (items : List (Item α β)) (s : Child α β) : Prop :=
  ∀ r ∈ s.own owner, keeps items r.id = true ∧ written items r = r

/-- Every identifier is that of a row of the owner. -/
def Owned (owner : Nat) (items : List (Item α β)) (s : Child α β) : Prop :=
  ∀ item ∈ items, ∀ id, item.id = some id → ∃ r ∈ s.own owner, r.id = id

/-- The item a row is loaded as. -/
def Row.item (row : Row α β) : Item α β := ⟨some row.id, none, none⟩

omit [DecidableEq α] [DecidableEq β] in
theorem keeps_iff {id : Nat} : keeps items id = true ↔ ∃ item ∈ items, item.id = some id := by
  simp [keeps]

omit [DecidableEq α] [DecidableEq β] in
/-- A row no item names stays as it is. -/
theorem written_of_not_keeps {r : Row α β} (h : ¬ keeps items r.id = true) :
    written items r = r := by
  induction items with
  | nil => rfl
  | cons item items ih =>
    have hne : ¬ item.id = some r.id := fun he => h (keeps_iff.mpr ⟨item, List.mem_cons_self, he⟩)
    show written items (if item.id = some r.id then item.over r else r) = r
    rw [if_neg hne]
    refine ih fun hk => h ?_
    obtain ⟨i, hi, he⟩ := keeps_iff.mp hk
    exact keeps_iff.mpr ⟨i, List.mem_cons_of_mem _ hi, he⟩

omit [DecidableEq α] [DecidableEq β] in
/-- Loaded rows write nothing. -/
theorem written_rows (l : List (Row α β)) (r : Row α β) : written (l.map Row.item) r = r := by
  induction l with
  | nil => rfl
  | cons row l ih =>
    show written (l.map Row.item) (if row.item.id = some r.id then row.item.over r else r) = r
    have hover : row.item.over r = r := rfl
    rw [hover, ite_self]
    exact ih

/-- Items that harm no row of the owner leave all rows, and add the new ones. -/
theorem reconcile_unharmed (hwf : s.Wf) (howned : Owned owner items s)
    (hun : Unharmed owner items s) (h : reconcile owner items s = (.ok (), s₁)) :
    ∃ news, s₁.rows = s.rows ++ news ∧ s₁.nextId = s.nextId + newItems items ∧
      news.map Row.id = List.range' s.nextId (newItems items) ∧ ∀ n ∈ news, n.owner = owner := by
  obtain ⟨news, hrows, hnext, hids, hall⟩ := reconcile_ok hwf h
  have hleft : s.left owner items = s.rows := by
    refine List.filter_eq_self.mpr fun r hr => ?_
    exact (List.mem_filter.mp (mem_left.mpr ⟨hr, fun ho => (hun r (mem_own.mpr ⟨hr, ho⟩)).1⟩)).2
  have hmap : s.rows.map (written items) = s.rows := by
    refine (List.map_congr_left fun r hr => ?_).trans (List.map_id _)
    by_cases hk : keeps items r.id = true
    · obtain ⟨item, hi, he⟩ := keeps_iff.mp hk
      obtain ⟨r', hr', hid⟩ := howned item hi r.id he
      rw [← Table.eq_of_key hwf.ids (mem_own.mp hr').1 hr hid]
      exact (hun r' hr').2
    · exact written_of_not_keeps hk
  rw [hleft, hmap] at hrows
  exact ⟨news, hrows, hnext, hids, hall⟩

/-- A row from before that is there afterwards was kept and is what the items wrote. -/
theorem mem_reconciled (hwf : s.Wf) (h : reconcile owner items s = (.ok (), s₁)) {r : Row α β}
    (hr : r ∈ s₁.rows) (hlt : r.id < s.nextId) :
    ∃ r₀ ∈ s.left owner items, r₀.id = r.id ∧ r₀.owner = r.owner ∧ written items r₀ = r := by
  obtain ⟨news, hrows, -, hids, -⟩ := reconcile_ok hwf h
  rw [hrows] at hr
  rcases List.mem_append.mp hr with hr | hr
  · obtain ⟨r₀, hr₀, rfl⟩ := List.mem_map.mp hr
    obtain ⟨hid, ho⟩ := written_id items r₀
    exact ⟨r₀, hr₀, hid.symm, ho.symm, rfl⟩
  · have := mem_news hids hr
    omega

/-- The stored items are in line with the table. -/
theorem reconcile_numbered (hwf : s.Wf) (howned : Owned owner items s)
    (h₁ : reconcile owner items s = (.ok (), s₁)) :
    reconcile owner (numbered s.nextId items) s₁ = (.ok (), s₁) := by
  have hwf₁ := reconcile_wf hwf h₁
  obtain ⟨news, hrows, -, hids, howner⟩ := reconcile_ok hwf h₁
  -- the owner's rows and the stored items have the same identifiers
  have hmem : ∀ id, (∃ r ∈ s₁.own owner, r.id = id) ↔
      ∃ i ∈ numbered s.nextId items, i.id = some id := by
    intro id
    rw [numbered_id]
    constructor
    · rintro ⟨r, hr, rfl⟩
      obtain ⟨hr, ho⟩ := mem_own.mp hr
      rw [hrows] at hr
      rcases List.mem_append.mp hr with hr | hr
      · obtain ⟨r₀, hr₀, rfl⟩ := List.mem_map.mp hr
        obtain ⟨hid, ho₀⟩ := written_id items r₀
        rw [hid]
        exact Or.inl (keeps_iff.mp ((mem_left.mp hr₀).2 (ho₀.symm.trans ho)))
      · exact Or.inr (mem_news hids hr)
    · rintro (⟨i, hi, he⟩ | hrange)
      · -- an item that named an own row: the row was written, not deleted
        obtain ⟨r, hr, rfl⟩ := howned i hi id he
        obtain ⟨hid, ho⟩ := written_id items r
        refine ⟨written items r, mem_own.mpr ⟨?_, ho.trans (mem_own.mp hr).2⟩, hid⟩
        rw [hrows]
        refine List.mem_append_left _ (List.mem_map_of_mem (mem_left.mpr ⟨(mem_own.mp hr).1, ?_⟩))
        exact fun _ => keeps_iff.mpr ⟨i, hi, he⟩
      · have hmem : id ∈ news.map Row.id := by
          rw [hids]
          simpa using hrange
        obtain ⟨n, hn, rfl⟩ := List.mem_map.mp hmem
        exact ⟨n, mem_own.mpr ⟨hrows ▸ List.mem_append_right _ hn, howner n hn⟩, rfl⟩
  -- so nothing is to be deleted
  have hleft : s₁.left owner (numbered s.nextId items) = s₁.rows := by
    refine List.filter_eq_self.mpr fun r hr => ?_
    refine (List.mem_filter.mp (mem_left.mpr ⟨hr, fun ho => ?_⟩)).2
    exact keeps_iff.mpr ((hmem r.id).mp ⟨r, mem_own.mpr ⟨hr, ho⟩, rfl⟩)
  rw [reconcile_of hwf₁ fun i hi => ?_, hleft]
  obtain ⟨⟨id, hid⟩, hcols⟩ := numbered_blank hi
  obtain ⟨r, hr, he⟩ := (hmem id).mpr ⟨i, hi, hid⟩
  exact ⟨⟨r, hr, he ▸ hid⟩, hcols⟩

/--
**Writing the same items a second time restores the rows exactly if the first time
harmed none and added none.**
-/
theorem twice_iff (hwf : s.Wf) (howned : Owned owner items s)
    (h₁ : reconcile owner items s = (.ok (), s₁)) :
    (∃ s₂, reconcile owner items s₁ = (.ok (), s₂) ∧ s₂.own owner = s.own owner) ↔
      Unharmed owner items s ∧ newItems items = 0 := by
  have hwf₁ := reconcile_wf hwf h₁
  constructor
  · rintro ⟨s₂, h₂, hown⟩
    obtain ⟨-, -, hnext₁, -, -⟩ := reconcile_ok hwf h₁
    obtain ⟨news, hrows, -, hids, howner⟩ := reconcile_ok hwf₁ h₂
    refine ⟨fun r hr => ?_, ?_⟩
    · have hlt := hwf.below r (mem_own.mp hr).1
      have hr₂ := (mem_own.mp (hown ▸ hr)).1
      obtain ⟨r₁, hr₁, hid₁, -, hw₁⟩ := mem_reconciled hwf₁ h₂ hr₂ (by omega)
      obtain ⟨r₀, hr₀, hid₀, -, hw₀⟩ :=
        mem_reconciled hwf h₁ (mem_left.mp hr₁).1 (by omega)
      obtain rfl := Table.eq_of_key hwf.ids (mem_left.mp hr₀).1 (mem_own.mp hr).1
        (hid₀.trans hid₁)
      refine ⟨(mem_left.mp hr₀).2 (mem_own.mp hr).2, ?_⟩
      calc written items r₀ = written items (written items r₀) := (written_written items r₀).symm
        _ = written items r₁ := by rw [hw₀]
        _ = r₀ := hw₁
    · -- a row that is added the second time was not there before
      by_contra hne
      have hlen : news.length = newItems items := by
        have := congrArg List.length hids
        simpa using this
      obtain ⟨n, hn⟩ := List.exists_mem_of_length_pos (l := news) (by omega)
      have hge := (mem_news hids hn).1
      have hnr : n ∈ s.own owner := hown ▸ mem_own.mpr
        ⟨hrows ▸ List.mem_append_right _ hn, howner n hn⟩
      have := hwf.below n (mem_own.mp hnr).1
      omega
  · rintro ⟨hun, hnew⟩
    obtain ⟨news, hrows, hnext, hids, -⟩ := reconcile_unharmed hwf howned hun h₁
    rw [hnew] at hids hnext
    have hsame : s₁ = s := by
      rw [List.map_eq_nil_iff.mp hids, List.append_nil] at hrows
      cases s₁
      cases s
      simp_all
    rw [hsame] at h₁ ⊢
    exact ⟨s, h₁, rfl⟩

/--
**Writing loaded rows back restores the rows exactly if all of them were loaded and
the first time harmed none.**
-/
theorem back_iff (hwf : s.Wf) (howned : Owned owner items s) (loaded : Row α β → Bool)
    (h₁ : reconcile owner items s = (.ok (), s₁)) :
    (∃ s₂, reconcile owner (((s.own owner).filter loaded).map Row.item) s₁ = (.ok (), s₂) ∧
        s₂.own owner = s.own owner) ↔
      Unharmed owner items s ∧ ∀ r ∈ s.own owner, loaded r = true := by
  have hwf₁ := reconcile_wf hwf h₁
  obtain ⟨-, -, hnext₁, -, -⟩ := reconcile_ok hwf h₁
  have hkeeps : ∀ id, keeps (((s.own owner).filter loaded).map Row.item) id = true ↔
      ∃ r ∈ s.own owner, loaded r = true ∧ r.id = id := by
    intro id
    rw [keeps_iff]
    constructor
    · rintro ⟨item, hi, he⟩
      obtain ⟨r, hr, rfl⟩ := List.mem_map.mp hi
      obtain ⟨hr, hl⟩ := List.mem_filter.mp hr
      exact ⟨r, hr, hl, Option.some.inj he⟩
    · rintro ⟨r, hr, hl, rfl⟩
      exact ⟨r.item, List.mem_map_of_mem (List.mem_filter.mpr ⟨hr, hl⟩), rfl⟩
  have hblank : ∀ r : Row α β, written (((s.own owner).filter loaded).map Row.item) r = r :=
    written_rows _
  constructor
  · rintro ⟨s₂, h₂, hown⟩
    suffices hall : ∀ r ∈ s.own owner, (keeps items r.id = true ∧ written items r = r) ∧
        loaded r = true from ⟨fun r hr => (hall r hr).1, fun r hr => (hall r hr).2⟩
    intro r hr
    have hlt := hwf.below r (mem_own.mp hr).1
    have hr₂ := (mem_own.mp (hown ▸ hr)).1
    obtain ⟨r₁, hr₁, hid₁, ho₁, hw₁⟩ := mem_reconciled hwf₁ h₂ hr₂ (by omega)
    rw [hblank] at hw₁
    subst hw₁
    obtain ⟨r₀, hr₀, hid₀, -, hw₀⟩ := mem_reconciled hwf h₁ (mem_left.mp hr₁).1 (by omega)
    obtain rfl := Table.eq_of_key hwf.ids (mem_left.mp hr₀).1 (mem_own.mp hr).1 hid₀
    refine ⟨⟨(mem_left.mp hr₀).2 (mem_own.mp hr).2, hw₀⟩, ?_⟩
    obtain ⟨r', hr', hl, he⟩ := (hkeeps _).mp ((mem_left.mp hr₁).2 (mem_own.mp hr).2)
    exact Table.eq_of_key hwf.ids (mem_own.mp hr').1 (mem_own.mp hr).1 he ▸ hl
  · rintro ⟨hun, hloaded⟩
    obtain ⟨news, hrows, -, hids, howner⟩ := reconcile_unharmed hwf howned hun h₁
    refine ⟨_, reconcile_of hwf₁ fun item hi => ?_, ?_⟩
    · obtain ⟨r, hr, rfl⟩ := List.mem_map.mp hi
      obtain ⟨hm, ho⟩ := mem_own.mp (List.mem_filter.mp hr).1
      exact ⟨⟨r, mem_own.mpr ⟨hrows ▸ List.mem_append_left _ hm, ho⟩, rfl⟩, rfl, rfl⟩
    · -- of the rows of the owner those that were there before are left
      show List.filter (fun row => row.owner == owner) (List.filter (fun r =>
        decide (r.owner ≠ owner) || keeps (((s.own owner).filter loaded).map Row.item) r.id) s₁.rows) =
          s.rows.filter fun row => row.owner == owner
      rw [List.filter_filter, hrows, List.filter_append]
      have hnews : news.filter (fun r => (r.owner == owner) && (decide (r.owner ≠ owner) ||
          keeps (((s.own owner).filter loaded).map Row.item) r.id)) = [] := by
        refine List.filter_eq_nil_iff.mpr fun n hn hk => ?_
        simp only [howner n hn, Bool.and_eq_true, Bool.or_eq_true, decide_eq_true_eq, ne_eq,
          not_true_eq_false, false_or] at hk
        obtain ⟨r, hr, -, he⟩ := (hkeeps n.id).mp hk.2
        have := hwf.below r (mem_own.mp hr).1
        have := (mem_news hids hn).1
        omega
      rw [hnews, List.append_nil]
      refine List.filter_congr fun r hr => ?_
      by_cases ho : r.owner = owner
      · have hk := (hkeeps r.id).mpr ⟨r, mem_own.mpr ⟨hr, ho⟩, hloaded r (mem_own.mpr ⟨hr, ho⟩), rfl⟩
        simp [ho, hk]
      · simp [ho]

end

end Reconcile

end Designate
