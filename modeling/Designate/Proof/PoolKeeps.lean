import Designate.Proof.PoolTables

/-!
# What the statements about pools keep

An invariant of the tables below `pools` is kept by `storage.update_pool` if it is kept by the
few things a statement can do to one table: a row goes, a row is written over, a row comes, and
an identifier is handed out. The loops and the branches add nothing to that.
-/

namespace Designate

namespace Pools

section

variable {κ : Type} {t : ItemTable κ} {I : State → Prop}

/-- What an item makes of the row it names. -/
def Item.over (item : Item κ) (row : ItemRow κ) : ItemRow κ :=
  { row with columns := item.update row.columns }

/-- What the statements about one table keep. -/
structure ItemTable.Keeping (t : ItemTable κ) (I : State → Prop) : Prop where
  advance : ∀ s, I s → I (s.advance 1)
  remove : ∀ id s, I s → I (t.withRows (Table.remove ItemRow.id id (t.rows s)) s)
  update : ∀ (item : Item κ) id s, I s →
    I (t.withRows (Table.update ItemRow.id id item.over (t.rows s)) s)
  add : ∀ owner columns s, I s →
    I (t.withRows (t.rows s ++ [⟨s.world.nextId, owner, columns⟩]) (s.advance 1))

theorem keeps_deleteItem (ht : t.Keeping I) (id : Nat) : Exec.Keeps I (deleteItem t id) := by
  refine Exec.Keeps.write fun s a s' hs h => ?_
  split at h
  · exact absurd h (by simp)
  · obtain ⟨-, rfl⟩ := Prod.mk.inj (Except.ok.inj h)
    exact ht.remove id s hs

theorem keeps_updateItem (ht : t.Keeping I) (item : Item κ) :
    Exec.Keeps I (updateItem t item) := by
  refine Exec.Keeps.write fun s a s' hs h => ?_
  split at h
  · exact absurd h (by simp)
  · rename_i id hid
    split at h
    · exact absurd h (by simp)
    · split at h
      · exact absurd h (by simp)
      · obtain ⟨-, rfl⟩ := Prod.mk.inj (Except.ok.inj h)
        exact ht.update item id s hs

/-- The identifier is handed out before the row is refused or made. -/
theorem keeps_createItem (ht : t.Keeping I) (htable : t.Lawful) (owner : Nat) (item : Item κ) :
    Exec.Keeps I (createItem t owner item) := by
  intro s hs
  have hid : (onWorld generateUuid : PoolCall Nat) s = (.ok s.world.nextId, s.advance 1) := rfl
  unfold createItem
  rw [Exec.bind_ok hid]
  unfold Exec.write
  cases hnew : item.new with
  | none => exact ht.advance s hs
  | some columns =>
    dsimp only
    cases htaken : t.taken ⟨s.world.nextId, owner, columns⟩ (s.advance 1) with
    | true => exact ht.advance s hs
    | false =>
      show I (t.withRows (t.rows (s.advance 1) ++ _) (s.advance 1))
      rw [htable.rows_advance]
      exact ht.add owner columns s hs

theorem keeps_createItem_ (ht : t.Keeping I) (htable : t.Lawful) (owner : Nat) (item : Item κ) :
    Exec.Keeps I (do let _ ← createItem t owner item) :=
  Exec.Keeps.bind (keeps_createItem ht htable owner item) fun _ => Exec.Keeps.pure _

theorem keeps_updateItems {ι : Type} {have_ : State → List Nat} {id : ι → Option Nat}
    {delete : Nat → PoolCall Unit} {update create : ι → PoolCall Unit} (items : List ι)
    (hdelete : ∀ i, Exec.Keeps I (delete i)) (hupdate : ∀ i, Exec.Keeps I (update i))
    (hcreate : ∀ i, Exec.Keeps I (create i)) :
    Exec.Keeps I (updateItems have_ id delete update create items) :=
  Exec.Keeps.bind (Exec.Keeps.read _) fun _ =>
    Exec.Keeps.bind (Exec.Keeps.forEach fun i _ => hdelete i) fun _ =>
    Exec.Keeps.bind (Exec.Keeps.forEach fun i _ => hupdate i) fun _ =>
    Exec.Keeps.forEach fun i _ => hcreate i

theorem keeps_updatePoolItems (ht : t.Keeping I) (htable : t.Lawful) (owner : Nat)
    (items : List (Item κ)) : Exec.Keeps I (updatePoolItems t owner items) :=
  keeps_updateItems items (keeps_deleteItem ht) (keeps_updateItem ht)
    (keeps_createItem_ ht htable owner)

theorem keeps_ifSet {ι : Type} {list : Option (List ι)} {update : List ι → PoolCall Unit}
    (h : ∀ items, Exec.Keeps I (update items)) : Exec.Keeps I (ifSet list update) := by
  cases list with
  | none => exact Exec.Keeps.pure _
  | some items => exact h items

/-- What the statements about targets, and about what is below them, keep. -/
structure TargetsKeeping (I : State → Prop) : Prop where
  targets : targetsTable.Keeping I
  options : targetOptionsTable.Keeping I
  masters : targetMastersTable.Keeping I
  /-- The foreign keys take what is below a target along. -/
  cascade : ∀ id s, I s → I { s with
    targetOptions := Table.remove ItemRow.owner id s.targetOptions
    targetMasters := Table.remove ItemRow.owner id s.targetMasters }

theorem keeps_deletePoolTarget (h : TargetsKeeping I) (id : Nat) :
    Exec.Keeps I (deletePoolTarget id) :=
  Exec.Keeps.bind (keeps_deleteItem h.targets id) fun _ => Exec.Keeps.modify (h.cascade id)

theorem keeps_updatePoolTarget (h : TargetsKeeping I) (target : TargetObject) :
    Exec.Keeps I (updatePoolTarget target) :=
  Exec.Keeps.bind (keeps_updateItem h.targets _) fun _ =>
    Exec.Keeps.bind (keeps_ifSet fun _ =>
      keeps_updatePoolItems h.options targetOptions_lawful _ _) fun _ =>
    keeps_ifSet fun _ => keeps_updatePoolItems h.masters targetMasters_lawful _ _

theorem keeps_createPoolTarget (h : TargetsKeeping I) (poolId : Nat) (target : TargetObject) :
    Exec.Keeps I (createPoolTarget poolId target) :=
  Exec.Keeps.bind (keeps_createItem h.targets targets_lawful _ _) fun _ =>
    Exec.Keeps.bind (keeps_ifSet fun _ => Exec.Keeps.forEach fun _ _ =>
      keeps_createItem_ h.options targetOptions_lawful _ _) fun _ =>
    keeps_ifSet fun _ => Exec.Keeps.forEach fun _ _ =>
      keeps_createItem_ h.masters targetMasters_lawful _ _

/-- The loops over the targets of a pool. -/
theorem keeps_updatePoolTargets (h : TargetsKeeping I) (poolId : Nat)
    (targets : List TargetObject) :
    Exec.Keeps I (updateItems (fun s => (targetsTable.of poolId s).map ItemRow.id) TargetObject.id
      deletePoolTarget updatePoolTarget (createPoolTarget poolId) targets) :=
  keeps_updateItems targets (keeps_deletePoolTarget h) (keeps_updatePoolTarget h)
    (keeps_createPoolTarget h poolId)

/-- What the statements of `storage.update_pool` keep. -/
structure PoolKeeping (I : State → Prop) : Prop extends TargetsKeeping I where
  pools : ∀ pools s, I s → I { s with pools := pools }
  attributes : attributesTable.Keeping I
  nsRecords : nsRecordsTable.Keeping I
  nameservers : nameserversTable.Keeping I
  alsoNotifies : alsoNotifiesTable.Keeping I

theorem keeps_updatePoolRow (h : PoolKeeping I) (ctx : Context) (pool : Pool) :
    Exec.Keeps I (updatePoolRow ctx pool) := by
  refine Exec.Keeps.bind (Exec.Keeps.read _) fun row => Exec.Keeps.write fun s a s' hs hrow => ?_
  split at hrow
  · exact absurd hrow (by simp)
  · obtain ⟨-, rfl⟩ := Prod.mk.inj (Except.ok.inj hrow)
    exact h.pools _ s hs

/-- **What every statement keeps, an update of a pool keeps.** -/
theorem keeps_updatePoolInStorage (h : PoolKeeping I) (ctx : Context) (pool : Pool) :
    Exec.Keeps I (updatePoolInStorage ctx pool) :=
  Exec.Keeps.bind (keeps_updatePoolRow h ctx pool) fun _ =>
    Exec.Keeps.bind (keeps_ifSet fun _ =>
      keeps_updatePoolItems h.attributes attributes_lawful _ _) fun _ =>
    Exec.Keeps.bind (keeps_ifSet fun _ =>
      keeps_updatePoolItems h.nsRecords nsRecords_lawful _ _) fun _ =>
    Exec.Keeps.bind (keeps_ifSet fun _ =>
      keeps_updatePoolItems h.nameservers nameservers_lawful _ _) fun _ =>
    Exec.Keeps.bind (keeps_ifSet (keeps_updatePoolTargets h.toTargetsKeeping _)) fun _ =>
    Exec.Keeps.bind (keeps_ifSet fun _ =>
      keeps_updatePoolItems h.alsoNotifies alsoNotifies_lawful _ _) fun _ =>
    Exec.Keeps.read _

/-! ## What is not about pools -/

/-- What the statements do to everything else is to hand out identifiers. -/
theorem ItemTable.keeping_world (t : ItemTable κ) {J : World → Prop}
    (h : ∀ w, J w → J { w with nextId := w.nextId + 1 }) : t.Keeping fun s => J s.world where
  advance s hs := h s.world hs
  remove _ s hs := by
    rw [t.world]
    exact hs
  update _ _ s hs := by
    rw [t.world]
    exact hs
  add _ _ s hs := by
    rw [t.world]
    exact h s.world hs

theorem keeping_world {J : World → Prop} (h : ∀ w, J w → J { w with nextId := w.nextId + 1 }) :
    PoolKeeping fun s => J s.world where
  targets := targetsTable.keeping_world h
  options := targetOptionsTable.keeping_world h
  masters := targetMastersTable.keeping_world h
  cascade _ _ hs := hs
  pools _ _ hs := hs
  attributes := attributesTable.keeping_world h
  nsRecords := nsRecordsTable.keeping_world h
  nameservers := nameserversTable.keeping_world h
  alsoNotifies := alsoNotifiesTable.keeping_world h

end

end Pools

end Designate
