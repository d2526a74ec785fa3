import Designate.Proof.PoolItems
import Designate.Sample

/-!
# Reconciling a pool with its lists

`storage.update_pool` brings five tables in line with the lists of a pool, and with the targets
the options and masters below them. It goes wrong only where an item names what is not its
owner's: the row of another pool is written over, and the pool is left without the item.
-/

namespace Designate

namespace Pools

/-! ## Targets and what is below them -/

/-- A new item, whatever identifier it comes with. -/
def Item.anew {κ : Type} (item : Item κ) : Item κ := { item with id := none }

/-- What the list of a target says: below a new target everything is new. -/
def TargetObject.below {κ : Type} (target : TargetObject) (items : Option (List (Item κ))) :
    Option (List (Item κ)) :=
  match target.id with
  | none => items.map (List.map Item.anew)
  | some _ => items

def TargetObject.optionItems (target : TargetObject) : Option (List (Item KeyValue)) :=
  target.below (target.options.map (List.map KeyValueObject.item))

def TargetObject.masterItems (target : TargetObject) : Option (List (Item HostPort)) :=
  target.below (target.masters.map (List.map HostPortObject.item))

/-- The row that stands for a target, with what is below it. -/
structure TargetStands (poolId : Nat) (s s' : State) (target : TargetObject)
    (row : ItemRow Target) : Prop where
  stands : Stands poolId s.world.nextId s.targets target.item row
  options : Lists targetOptionsTable row.id target.optionItems s s'
  masters : Lists targetMastersTable row.id target.masterItems s s'

/-- What is below a target has not changed. -/
structure SameBelow (id : Nat) (s s' : State) : Prop where
  options : targetOptionsTable.of id s' = targetOptionsTable.of id s
  masters : targetMastersTable.of id s' = targetMastersTable.of id s

/-- Nothing is below a target. -/
structure NothingBelow (id : Nat) (s : State) : Prop where
  options : targetOptionsTable.of id s = []
  masters : targetMastersTable.of id s = []

/-- The targets of the pool have come to be the list, in some order. -/
def TargetLists (poolId : Nat) (list : Option (List TargetObject)) (s s' : State) : Prop :=
  match list with
  | none => targetsTable.of poolId s' = targetsTable.of poolId s ∧
      ∀ row ∈ targetsTable.of poolId s, SameBelow row.id s s'
  | some targets => ∃ stored, (targetsTable.of poolId s').Perm stored ∧
      List.Forall₂ (TargetStands poolId s s') targets stored

/--
The targets of the other pools stand as they did, with what is below them, and a target that
has gone leaves nothing behind.
-/
structure TargetsReconcile (poolId : Nat) (list : Option (List TargetObject)) (s s' : State) :
    Prop where
  own : TargetLists poolId list s s'
  others : others poolId s'.targets = others poolId s.targets
  othersBelow : ∀ row ∈ Pools.others poolId s.targets, SameBelow row.id s s'
  gone : ∀ row ∈ targetsTable.of poolId s, row.id ∉ s'.targets.map ItemRow.id →
    NothingBelow row.id s'

/-- The lists of a target name what is below it only. -/
structure NamesBelow (id : Nat) (target : TargetObject) (s : State) : Prop where
  options : NamesOwnRows id target.optionItems s.targetOptions
  masters : NamesOwnRows id target.masterItems s.targetMasters

/-- The targets name targets of the pool only, and these what is below them. -/
def TargetsNameOwn (poolId : Nat) (list : Option (List TargetObject)) (s : State) : Prop :=
  ∀ targets, list = some targets →
    OwnIds poolId (targets.map TargetObject.item) s.targets ∧
      ∀ target ∈ targets, ∀ id, target.id = some id → NamesBelow id target s

section

variable {s s' s'' : State} {poolId id : Nat} {target : TargetObject}
  {targets : List TargetObject}

theorem SameBelow.refl (id : Nat) (s : State) : SameBelow id s s := ⟨rfl, rfl⟩

theorem SameBelow.trans (h : SameBelow id s s') (h' : SameBelow id s' s'') :
    SameBelow id s s'' :=
  ⟨h'.options.trans h.options, h'.masters.trans h.masters⟩

theorem NothingBelow.same (h : NothingBelow id s) (hsame : SameBelow id s s') :
    NothingBelow id s' :=
  ⟨hsame.options.trans h.options, hsame.masters.trans h.masters⟩

theorem optionItems_named (hid : target.id = some id) :
    target.optionItems = target.options.map (List.map KeyValueObject.item) := by
  unfold TargetObject.optionItems TargetObject.below
  rw [hid]

theorem masterItems_named (hid : target.id = some id) :
    target.masterItems = target.masters.map (List.map HostPortObject.item) := by
  unfold TargetObject.masterItems TargetObject.below
  rw [hid]

/-- **Where the targets have been reconciled, they named what is the pool's own.** -/
theorem TargetsReconcile.nameOwn {list : Option (List TargetObject)}
    (h : TargetsReconcile poolId list s s') (hkeyed : s'.Keyed) :
    TargetsNameOwn poolId list s := by
  rintro targets rfl
  obtain ⟨stored, hperm, hstored⟩ := h.own
  have hnodup : (stored.map ItemRow.id).Nodup :=
    (hperm.map ItemRow.id).nodup_iff.mp (own_nodup (t := targetsTable) poolId hkeyed.targets.nodup)
  refine ⟨ownIds_of_stands hnodup (List.forall₂_map_left_iff.mpr
    (hstored.imp fun _ _ hrow => hrow.stands)), fun target htarget id hid => ?_⟩
  obtain ⟨row, -, hrow⟩ := pair_left hstored htarget
  obtain rfl : row.id = id := hrow.stands.id hid
  exact ⟨hrow.options.namesOwnRows hkeyed.targetOptions.nodup,
    hrow.masters.namesOwnRows hkeyed.targetMasters.nodup⟩

/-! ### Targets that go -/

theorem deletePoolTarget_returned {id : Nat} (h : deletePoolTarget id s = (.ok (), s')) :
    s' = s.without [id] := by
  unfold deletePoolTarget at h
  obtain ⟨⟨⟩, s₁, hdelete, hcascade⟩ := Exec.bind_eq_ok.mp h
  obtain rfl := deleteItem_returned hdelete
  rw [Exec.modify_apply] at hcascade
  refine (congrArg Prod.snd hcascade).symm.trans ?_
  unfold State.without targetsTable Table.remove
  simp

theorem deletePoolTargets_returned {ids : List Nat}
    (h : Exec.forEach deletePoolTarget ids s = (.ok (), s')) : s' = s.without ids := by
  induction ids generalizing s with
  | nil =>
    rw [without_nil]
    exact (congrArg Prod.snd h).symm
  | cons id ids ih =>
    obtain ⟨⟨⟩, s₁, hfirst, hrest⟩ := Exec.bind_eq_ok.mp h
    obtain rfl := deletePoolTarget_returned hfirst
    rw [ih hrest, without_cons]

/-- What is below a target that does not go stays. -/
theorem without_sameBelow {ids : List Nat} (hid : id ∉ ids) : SameBelow id s (s.without ids) := by
  have hsame : ∀ {κ : Type} (rows : List (ItemRow κ)),
      (rows.filter fun row => row.owner ∉ ids).filter (fun row => row.owner == id) =
        rows.filter fun row => row.owner == id := by
    intro κ rows
    rw [List.filter_filter]
    refine List.filter_congr fun row _ => ?_
    by_cases howner : row.owner = id
    · simp [howner, hid]
    · simp [howner]
  exact ⟨hsame s.targetOptions, hsame s.targetMasters⟩

theorem without_nothingBelow {ids : List Nat} (hid : id ∈ ids) :
    NothingBelow id (s.without ids) := by
  have hnone : ∀ {κ : Type} (rows : List (ItemRow κ)),
      (rows.filter fun row => row.owner ∉ ids).filter (fun row => row.owner == id) = [] := by
    intro κ rows
    refine List.filter_eq_nil_iff.mpr fun row hrow howner => ?_
    have hkept : row.owner ∉ ids := by simpa using (List.mem_filter.mp hrow).2
    rw [beq_iff_eq.mp howner] at hkept
    exact hkept hid
  exact ⟨hnone s.targetOptions, hnone s.targetMasters⟩

/-! ### Targets that stay -/

theorem NamesOwnRows.congr {κ : Type} {t : ItemTable κ} {owner : Nat}
    {list : Option (List (Item κ))} (h : NamesOwnRows owner list (t.rows s))
    (hrows : t.of owner s' = t.of owner s) : NamesOwnRows owner list (t.rows s') := by
  intro items hitems
  refine ⟨(h items hitems).nodup, fun item hitem id hid => ?_⟩
  obtain ⟨row, hrow, howner, hsame⟩ := (h items hitems).own item hitem id hid
  have hmem : row ∈ t.of owner s' := hrows ▸ List.mem_filter.mpr ⟨hrow, beq_iff_eq.mpr howner⟩
  exact ⟨row, (List.mem_filter.mp hmem).1, howner, hsame⟩

theorem NamesBelow.same (h : NamesBelow id target s) (hsame : SameBelow id s s') :
    NamesBelow id target s' :=
  ⟨NamesOwnRows.congr (t := targetOptionsTable) h.options hsame.options,
    NamesOwnRows.congr (t := targetMastersTable) h.masters hsame.masters⟩

/-- What lists say of a target does not depend on what happens below others. -/
theorem lists_below {s₁ s₂ : State}
    (h : Lists targetOptionsTable id target.optionItems s₁ s₂ ∧
      Lists targetMastersTable id target.masterItems s₁ s₂)
    (hbefore : SameBelow id s s₁) (hafter : SameBelow id s₂ s')
    (hnext : s.world.nextId ≤ s₁.world.nextId) :
    Lists targetOptionsTable id target.optionItems s s' ∧
      Lists targetMastersTable id target.masterItems s s' :=
  ⟨h.1.congr hbefore.options hafter.options hnext, h.2.congr hbefore.masters hafter.masters hnext⟩

/-- What the UPDATE of a target, and of the lists it has set, has done. -/
structure TargetUpdated (target : TargetObject) (id : Nat) (s s' : State) : Prop where
  named : target.id = some id
  found : ∃ row ∈ s.targets, row.id = id
  targets : s'.targets = Table.update ItemRow.id id target.item.over s.targets
  options : Reconciles targetOptionsTable id target.optionItems s s'
  masters : Reconciles targetMastersTable id target.masterItems s s'
  nextId : s.world.nextId ≤ s'.world.nextId

theorem updatePoolTarget_returned (hkeyed : s.Keyed)
    (hnames : ∀ id, target.id = some id → NamesBelow id target s)
    (h : updatePoolTarget target s = (.ok (), s')) : ∃ id, TargetUpdated target id s s' := by
  unfold updatePoolTarget at h
  obtain ⟨⟨⟩, s₁, htarget, h⟩ := Exec.bind_eq_ok.mp h
  obtain ⟨⟨⟩, s₂, hoptions, hmasters⟩ := Exec.bind_eq_ok.mp h
  have hkeyed₁ : s₁.Keyed := (keeps_updateItem targets_part.keeping _).run hkeyed htarget
  have hkeyed₂ : s₂.Keyed := (keeps_ifSet fun _ => keeps_updatePoolItems
    targetOptions_part.keeping targetOptions_lawful _ _).run hkeyed₁ hoptions
  obtain ⟨id, hid, hfound, hset⟩ := updateItem_returned htarget
  have hid' : target.id = some id := hid
  have hbelow := hnames id hid'
  have hoptions₁ : s₁.targetOptions = s.targetOptions := by rw [hset]; rfl
  have hmasters₁ : s₁.targetMasters = s.targetMasters := by rw [hset]; rfl
  have htargets₁ : s₁.targets = Table.update ItemRow.id id target.item.over s.targets := by
    rw [hset]; rfl
  have hnext₁ : s₁.world.nextId = s.world.nextId := by rw [hset]; rfl
  -- what is below it goes by the identifier of the target
  rw [hid', Option.getD_some] at hoptions hmasters
  have hchanged := ifSet_returned targetOptions_lawful hkeyed₁.targetOptions.nodup hoptions
  have hchanged' := ifSet_returned targetMasters_lawful hkeyed₂.targetMasters.nodup hmasters
  rw [← optionItems_named hid'] at hchanged
  rw [← masterItems_named hid'] at hchanged'
  have hmasters₂ : s₂.targetMasters = s.targetMasters :=
    (hchanged.frame State.targetMasters fun _ _ _ => rfl).trans hmasters₁
  have hnext₂ : s.world.nextId ≤ s₂.world.nextId := by
    have hle := hchanged.nextId_le
    omega
  have hnames₁ : NamesOwnRows id target.optionItems s₁.targetOptions := by
    rw [hoptions₁]
    exact hbelow.options
  have hnames₂ : NamesOwnRows id target.masterItems s₂.targetMasters := by
    rw [hmasters₂]
    exact hbelow.masters
  have hreconciles := hchanged.reconciles targetOptions_lawful hkeyed₁.targetOptions.nodup hnames₁
  have hreconciles' := hchanged'.reconciles targetMasters_lawful hkeyed₂.targetMasters.nodup hnames₂
  refine ⟨id, hid', hfound, ?_, ?_, ?_, Nat.le_trans hnext₂ hchanged'.nextId_le⟩
  · rw [hchanged'.frame State.targets fun _ _ _ => rfl,
      hchanged.frame State.targets fun _ _ _ => rfl, htargets₁]
  · exact hreconciles.congr hoptions₁ (hchanged'.frame State.targetOptions fun _ _ _ => rfl)
      (Nat.le_of_eq hnext₁.symm)
  · exact hreconciles'.congr hmasters₂ rfl hnext₂

/-- What is below another target stays. -/
theorem TargetUpdated.sameBelow {named : Nat} (h : TargetUpdated target named s s')
    (hid : id ≠ named) : SameBelow id s s' :=
  ⟨h.options.of_other hid, h.masters.of_other hid⟩

/-- **Targets that name what is their own are each reconciled.** -/
theorem updatePoolTargets_returned (hkeyed : s.Keyed)
    (hnodup : (targets.filterMap TargetObject.id).Nodup)
    (hnames : ∀ target ∈ targets, ∀ id, target.id = some id → NamesBelow id target s)
    (h : Exec.forEach updatePoolTarget targets s = (.ok (), s')) :
    s'.targets = s.targets.map (writtenBy (targets.map TargetObject.item)) ∧
      (∀ target ∈ targets, ∀ id, target.id = some id →
        Lists targetOptionsTable id target.optionItems s s' ∧
          Lists targetMastersTable id target.masterItems s s') ∧
      ∀ id, id ∉ targets.filterMap TargetObject.id → SameBelow id s s' := by
  induction targets generalizing s with
  | nil =>
    obtain rfl : s = s' := congrArg Prod.snd h
    exact ⟨(List.map_id _).symm, fun _ htarget => absurd htarget List.not_mem_nil,
      fun id _ => SameBelow.refl id s⟩
  | cons target targets ih =>
    obtain ⟨⟨⟩, s₁, hfirst, hrest⟩ := Exec.bind_eq_ok.mp h
    have hkeyed₁ : s₁.Keyed := (keeps_updatePoolTarget keyed_targets target).run hkeyed hfirst
    obtain ⟨named, hfirst⟩ := updatePoolTarget_returned hkeyed (hnames target List.mem_cons_self)
      hfirst
    rw [List.filterMap_cons_some hfirst.named, List.nodup_cons] at hnodup
    -- the rest of the list is about other targets
    have hapart : ∀ target' ∈ targets, ∀ id, target'.id = some id → id ≠ named := by
      rintro target' htarget' id hid rfl
      exact hnodup.1 (List.mem_filterMap.mpr ⟨target', htarget', hid⟩)
    obtain ⟨hrows, hlists, hsame⟩ := ih hkeyed₁ hnodup.2 (fun target' htarget' id hid =>
      (hnames target' (List.mem_cons_of_mem _ htarget') id hid).same
        (hfirst.sameBelow (hapart target' htarget' id hid))) hrest
    refine ⟨?_, ?_, ?_⟩
    · rw [hrows, hfirst.targets, map_writtenBy_update hfirst.named]
      rfl
    · intro target' htarget' id hid
      rcases List.mem_cons.mp htarget' with rfl | htail
      · obtain rfl : named = id := Option.some.inj (hfirst.named.symm.trans hid)
        exact lists_below ⟨hfirst.options.own, hfirst.masters.own⟩ (SameBelow.refl _ _)
          (hsame _ hnodup.1) (Nat.le_refl _)
      · exact lists_below (hlists target' htail id hid)
          (hfirst.sameBelow (hapart target' htail id hid)) (SameBelow.refl _ _) hfirst.nextId
    · intro id hid
      rw [List.filterMap_cons_some hfirst.named, List.mem_cons, not_or] at hid
      exact (hfirst.sameBelow hid.1).trans (hsame id hid.2)

/-! ### Targets that come -/

/-- Nothing is below an identifier that is still to be handed out. -/
structure Unowned (s : State) : Prop where
  options : ∀ row ∈ s.targetOptions, row.owner < s.world.nextId
  masters : ∀ row ∈ s.targetMasters, row.owner < s.world.nextId

theorem State.Sound.unowned (h : s.Sound) : Unowned s :=
  ⟨fun _ hrow => owner_below h h.optionOf hrow, fun _ hrow => owner_below h h.masterOf hrow⟩

theorem Unowned.nothingBelow (h : Unowned s) (hid : s.world.nextId ≤ id) : NothingBelow id s := by
  have hnone : ∀ {κ : Type} {rows : List (ItemRow κ)},
      (∀ row ∈ rows, row.owner < s.world.nextId) →
        rows.filter (fun row => row.owner == id) = [] := by
    intro κ rows hbelow
    refine List.filter_eq_nil_iff.mpr fun row hrow howner => ?_
    have hlt := hbelow row hrow
    rw [beq_iff_eq.mp howner] at hlt
    omega
  exact ⟨hnone h.options, hnone h.masters⟩

/-- Rows come to be below identifiers that were handed out. -/
theorem Unowned.after {p : Nat → Prop} (h : Unowned s) (hsame : ∀ id, ¬ p id → SameBelow id s s')
    (hnext : s.world.nextId ≤ s'.world.nextId) (hbelow : ∀ id, p id → id < s'.world.nextId) :
    Unowned s' := by
  have hrows : ∀ {κ : Type} {t : ItemTable κ}, (∀ id, ¬ p id → t.of id s' = t.of id s) →
      (∀ row ∈ t.rows s, row.owner < s.world.nextId) →
      ∀ row ∈ t.rows s', row.owner < s'.world.nextId := by
    intro κ t hof hold row hrow
    by_cases hp : p row.owner
    · exact hbelow row.owner hp
    · have hmem : row ∈ t.of row.owner s' := List.mem_filter.mpr ⟨hrow, beq_self_eq_true _⟩
      rw [hof row.owner hp] at hmem
      exact Nat.lt_of_lt_of_le (hold row (List.mem_filter.mp hmem).1) hnext
  exact ⟨hrows (t := targetOptionsTable) (fun id hid => (hsame id hid).options) h.options,
    hrows (t := targetMastersTable) (fun id hid => (hsame id hid).masters) h.masters⟩

theorem Unowned.without (h : Unowned s) (ids : List Nat) : Unowned (s.without ids) :=
  ⟨fun row hrow => h.options row (List.mem_of_mem_filter hrow),
    fun row hrow => h.masters row (List.mem_of_mem_filter hrow)⟩

/-- Items made for an owner of no rows are its list, made anew. -/
theorem createItems_changed {κ ι : Type} {t : ItemTable κ} {item : ι → Item κ} {owner : Nat}
    {list : Option (List ι)} (ht : t.Lawful) (hnone : t.of owner s = [])
    (h : ifSet list (fun items => Exec.forEach
      (fun i => do let _ ← createItem t owner (item i)) items) s = (.ok (), s')) :
    Changed t owner ((list.map (List.map item)).map (List.map Item.anew)) s s' := by
  cases list with
  | none => exact (congrArg Prod.snd h).symm
  | some items =>
    obtain ⟨cs, hcs, rfl⟩ := createItems_returned ht h
    have hfresh : ∀ i ∈ (items.map item).map Item.anew, i.id = none := by
      intro i hi
      obtain ⟨_, -, rfl⟩ := List.mem_map.mp hi
      rfl
    have hnew : ((items.map item).map Item.anew).filter (fun i => i.id.isNone) =
        (items.map item).map Item.anew :=
      List.filter_eq_self.mpr fun i hi => by rw [hfresh i hi]; rfl
    -- nothing goes and nothing is written over
    have hleft : left owner ((items.map item).map Item.anew) (t.rows s) = t.rows s := by
      refine List.filter_eq_self.mpr fun row hrow => ?_
      have hne : row.owner ≠ owner := by
        intro howner
        have hmem : row ∈ t.of owner s := List.mem_filter.mpr ⟨hrow, beq_iff_eq.mpr howner⟩
        rw [hnone] at hmem
        exact absurd hmem List.not_mem_nil
      rw [bne_iff_ne.mpr hne, Bool.true_or]
    have hwritten : (t.rows s).map (writtenBy ((items.map item).map Item.anew)) = t.rows s :=
      (List.map_congr_left fun row _ => writtenBy_unnamed fun i hi hid => by
        rw [hfresh i hi] at hid
        exact absurd hid nofun).trans (List.map_id _)
    refine ⟨cs, ?_, ?_⟩
    · rw [hnew]
      exact List.forall₂_map_left_iff.mpr (List.forall₂_map_left_iff.mpr hcs)
    · rw [hleft, hwritten]

theorem namesOwnRows_anew {κ : Type} {owner : Nat} {list : Option (List (Item κ))}
    (rows : List (ItemRow κ)) : NamesOwnRows owner (list.map (List.map Item.anew)) rows := by
  intro items hitems
  obtain ⟨old, -, rfl⟩ := Option.map_eq_some_iff.mp hitems
  have hfresh : ∀ item ∈ old.map Item.anew, item.id = none := by
    intro item hitem
    obtain ⟨_, -, rfl⟩ := List.mem_map.mp hitem
    rfl
  refine ⟨?_, fun item hitem id hid => ?_⟩
  · rw [List.filterMap_eq_nil_iff.mpr hfresh]
    exact List.nodup_nil
  · rw [hfresh item hitem] at hid
    exact absurd hid nofun

theorem optionItems_new (hid : target.id = none) : target.optionItems =
    (target.options.map (List.map KeyValueObject.item)).map (List.map Item.anew) := by
  unfold TargetObject.optionItems TargetObject.below
  rw [hid]

theorem masterItems_new (hid : target.id = none) : target.masterItems =
    (target.masters.map (List.map HostPortObject.item)).map (List.map Item.anew) := by
  unfold TargetObject.masterItems TargetObject.below
  rw [hid]

/-- What the INSERT of a target, and of what is below it, has done. -/
structure TargetCreated (poolId : Nat) (target : TargetObject) (row : ItemRow Target)
    (s s' : State) : Prop where
  new : target.item.new = some row.columns
  owner : row.owner = poolId
  id : row.id = s.world.nextId
  targets : s'.targets = s.targets ++ [row]
  options : Reconciles targetOptionsTable row.id target.optionItems s s'
  masters : Reconciles targetMastersTable row.id target.masterItems s s'
  nextId : s.world.nextId < s'.world.nextId

theorem createPoolTarget_returned (hkeyed : s.Keyed) (hunowned : Unowned s)
    (hid : target.id = none) (h : createPoolTarget poolId target s = (.ok (), s')) :
    ∃ row, TargetCreated poolId target row s s' := by
  unfold createPoolTarget at h
  obtain ⟨id, s₁, htarget, h⟩ := Exec.bind_eq_ok.mp h
  obtain ⟨⟨⟩, s₂, hoptions, hmasters⟩ := Exec.bind_eq_ok.mp h
  have hkeyed₁ : s₁.Keyed :=
    (keeps_createItem targets_part.keeping targets_lawful _ _).run hkeyed htarget
  have hkeyed₂ : s₂.Keyed := (keeps_ifSet fun _ => Exec.Keeps.forEach fun _ _ =>
    keeps_createItem_ targetOptions_part.keeping targetOptions_lawful _ _).run hkeyed₁ hoptions
  obtain ⟨columns, hnew, rfl, hset⟩ := createItem_returned targets_lawful htarget
  have hoptions₁ : s₁.targetOptions = s.targetOptions := by rw [hset]; rfl
  have hmasters₁ : s₁.targetMasters = s.targetMasters := by rw [hset]; rfl
  have htargets₁ : s₁.targets = s.targets ++ [⟨s.world.nextId, poolId, columns⟩] := by
    rw [hset]; rfl
  have hnext₁ : s₁.world.nextId = s.world.nextId + 1 := by rw [hset]; rfl
  -- nothing is below the new identifier yet
  have hnothing := hunowned.nothingBelow (Nat.le_refl _)
  have hnone₁ : targetOptionsTable.of s.world.nextId s₁ = [] := by
    rw [← hnothing.options]
    exact of_congr (t := targetOptionsTable) _ hoptions₁
  have hchanged := createItems_changed targetOptions_lawful hnone₁ hoptions
  have hmasters₂ : s₂.targetMasters = s.targetMasters :=
    (hchanged.frame State.targetMasters fun _ _ _ => rfl).trans hmasters₁
  have hnone₂ : targetMastersTable.of s.world.nextId s₂ = [] := by
    rw [← hnothing.masters]
    exact of_congr (t := targetMastersTable) _ hmasters₂
  have hchanged' := createItems_changed targetMasters_lawful hnone₂ hmasters
  have hreconciles := hchanged.reconciles targetOptions_lawful hkeyed₁.targetOptions.nodup
    (namesOwnRows_anew _)
  have hreconciles' := hchanged'.reconciles targetMasters_lawful hkeyed₂.targetMasters.nodup
    (namesOwnRows_anew _)
  rw [← optionItems_new hid] at hreconciles
  rw [← masterItems_new hid] at hreconciles'
  have hle := hchanged.nextId_le
  have hle' := hchanged'.nextId_le
  refine ⟨⟨s.world.nextId, poolId, columns⟩, hnew, rfl, rfl, ?_, ?_, ?_, by omega⟩
  · rw [hchanged'.frame State.targets fun _ _ _ => rfl,
      hchanged.frame State.targets fun _ _ _ => rfl, htargets₁]
  · exact hreconciles.congr hoptions₁ (hchanged'.frame State.targetOptions fun _ _ _ => rfl)
      (by omega)
  · exact hreconciles'.congr hmasters₂ rfl (by omega)

theorem TargetCreated.sameBelow {row : ItemRow Target}
    (h : TargetCreated poolId target row s s') (hid : id ≠ row.id) : SameBelow id s s' :=
  ⟨h.options.of_other hid, h.masters.of_other hid⟩

theorem TargetCreated.unowned {row : ItemRow Target} (h : TargetCreated poolId target row s s')
    (hunowned : Unowned s) : Unowned s' := by
  refine hunowned.after (fun id hid => h.sameBelow hid) (Nat.le_of_lt h.nextId) ?_
  rintro id rfl
  rw [h.id]
  exact h.nextId

/-- **New targets come with what is below them.** -/
theorem createPoolTargets_returned (hkeyed : s.Keyed) (hunowned : Unowned s)
    (hfresh : ∀ target ∈ targets, target.id = none)
    (h : Exec.forEach (createPoolTarget poolId) targets s = (.ok (), s')) :
    ∃ added, s'.targets = s.targets ++ added ∧
      List.Forall₂ (fun target row => s.world.nextId ≤ row.id ∧ row.owner = poolId ∧
        target.item.new = some row.columns ∧
        Lists targetOptionsTable row.id target.optionItems s s' ∧
        Lists targetMastersTable row.id target.masterItems s s') targets added ∧
      ∀ id < s.world.nextId, SameBelow id s s' := by
  induction targets generalizing s with
  | nil =>
    obtain rfl : s = s' := congrArg Prod.snd h
    exact ⟨[], (List.append_nil _).symm, List.Forall₂.nil, fun id _ => SameBelow.refl id s⟩
  | cons target targets ih =>
    obtain ⟨⟨⟩, s₁, hfirst, hrest⟩ := Exec.bind_eq_ok.mp h
    have hkeyed₁ : s₁.Keyed :=
      (keeps_createPoolTarget keyed_targets poolId target).run hkeyed hfirst
    obtain ⟨row, hfirst⟩ := createPoolTarget_returned hkeyed hunowned
      (hfresh target List.mem_cons_self) hfirst
    have hnext := hfirst.nextId
    have hid := hfirst.id
    obtain ⟨added, hrows, hadded, hsame⟩ := ih hkeyed₁ (hfirst.unowned hunowned)
      (fun target' htarget' => hfresh target' (List.mem_cons_of_mem _ htarget')) hrest
    refine ⟨row :: added, ?_, List.Forall₂.cons ?_ (hadded.imp fun target' row' hrow => ?_), ?_⟩
    · rw [hrows, hfirst.targets, List.append_assoc, List.singleton_append]
    -- the targets after it leave what is below it alone
    · refine ⟨Nat.le_of_eq hid.symm, hfirst.owner, hfirst.new, ?_⟩
      exact lists_below ⟨hfirst.options.own, hfirst.masters.own⟩ (SameBelow.refl _ _)
        (hsame row.id (by omega)) (Nat.le_refl _)
    · obtain ⟨hlow, howner, hnew, hlists⟩ := hrow
      refine ⟨by omega, howner, hnew, ?_⟩
      exact lists_below hlists (hfirst.sameBelow (by omega)) (SameBelow.refl _ _) (by omega)
    · intro q hq
      exact (hfirst.sameBelow (by omega)).trans (hsame q (by omega))

/-! ### The whole list -/

/-- The targets of the pool that no target of the list names. -/
def unnamed (poolId : Nat) (targets : List TargetObject) (s : State) : List Nat :=
  ((targetsTable.of poolId s).map ItemRow.id).filter fun i =>
    !targets.any fun target => target.id == some i

theorem mem_unnamed : id ∈ unnamed poolId targets s ↔
    id ∈ (targetsTable.of poolId s).map ItemRow.id ∧ ∀ target ∈ targets, target.id ≠ some id := by
  unfold unnamed
  rw [List.mem_filter, Bool.not_eq_true', List.any_eq_false]
  simp only [beq_iff_eq, ne_eq]

theorem not_mem_unnamed (htarget : target ∈ targets) (hid : target.id = some id) :
    id ∉ unnamed poolId targets s := fun hmem => (mem_unnamed.mp hmem).2 target htarget hid

theorem without_unnamed (hkeyed : s.Keyed) (targets : List TargetObject) :
    (s.without (unnamed poolId targets s)).targets =
      left poolId (targets.map TargetObject.item) s.targets := by
  have hfilter := filter_unnamed poolId (t := targetsTable) hkeyed.targets.nodup
    (targets.map TargetObject.item)
  simp only [List.any_map] at hfilter
  exact hfilter

theorem filter_named (targets : List TargetObject) :
    (targets.filter fun target => target.id.isSome).map TargetObject.item =
      (targets.map TargetObject.item).filter fun item => item.id.isSome := by
  rw [List.filter_map]
  rfl

theorem filterMap_item (targets : List TargetObject) :
    (targets.map TargetObject.item).filterMap Item.id = targets.filterMap TargetObject.id := by
  rw [List.filterMap_map]
  rfl

/-- What the three loops leave of the targets, and of what is below them. -/
structure TargetsUpdated (poolId : Nat) (targets : List TargetObject) (s s' : State)
    (added : List (ItemRow Target)) : Prop where
  rows : s'.targets = (left poolId (targets.map TargetObject.item) s.targets).map
    (writtenBy (targets.map TargetObject.item)) ++ added
  kept : ∀ target ∈ targets, ∀ id, target.id = some id →
    Lists targetOptionsTable id target.optionItems s s' ∧
      Lists targetMastersTable id target.masterItems s s'
  added : List.Forall₂ (fun target row => s.world.nextId ≤ row.id ∧ row.owner = poolId ∧
    target.item.new = some row.columns ∧
    Lists targetOptionsTable row.id target.optionItems s s' ∧
    Lists targetMastersTable row.id target.masterItems s s')
    (targets.filter fun target => !target.id.isSome) added
  same : ∀ id < s.world.nextId, id ∉ unnamed poolId targets s →
    (∀ target ∈ targets, target.id ≠ some id) → SameBelow id s s'
  gone : ∀ id ∈ unnamed poolId targets s, NothingBelow id s'

theorem updatePoolTargets_loops (hkeyed : s.Keyed) (hunowned : Unowned s)
    (hown : OwnIds poolId (targets.map TargetObject.item) s.targets)
    (hnames : ∀ target ∈ targets, ∀ id, target.id = some id → NamesBelow id target s)
    (h : updateItems (fun s => (targetsTable.of poolId s).map ItemRow.id) TargetObject.id
      deletePoolTarget updatePoolTarget (createPoolTarget poolId) targets s = (.ok (), s')) :
    ∃ added, TargetsUpdated poolId targets s s' added := by
  obtain ⟨s₁, s₂, hdelete, hupdate, hcreate⟩ := updateItems_loops h
  have hkeyed₁ : s₁.Keyed :=
    (Exec.Keeps.forEach fun id _ => keeps_deletePoolTarget keyed_targets id).run hkeyed hdelete
  have hkeyed₂ : s₂.Keyed :=
    (Exec.Keeps.forEach fun _ _ => keeps_updatePoolTarget keyed_targets _).run hkeyed₁ hupdate
  have hbeside : Beside s₁ s₂ := (Exec.Keeps.forEach fun _ _ =>
    keeps_updatePoolTarget (beside_targets s₁) _).run ⟨rfl, rfl, rfl, rfl, Nat.le_refl _⟩ hupdate
  have hset : s₁ = s.without (unnamed poolId targets s) := deletePoolTargets_returned hdelete
  have hnext₁ : s₁.world.nextId = s.world.nextId := by rw [hset]; rfl
  have hnext₂ := hbeside.nextId
  have hlive : ∀ target ∈ targets, ∀ id, target.id = some id → SameBelow id s s₁ := by
    intro target htarget id hid
    rw [hset]
    exact without_sameBelow (not_mem_unnamed htarget hid)
  have hmem : ∀ target ∈ targets.filter fun target => target.id.isSome, target ∈ targets :=
    fun target htarget => (List.mem_filter.mp htarget).1
  -- the updates
  have hnodup : ((targets.filter fun target => target.id.isSome).filterMap
      TargetObject.id).Nodup := by
    rw [← filterMap_item, filter_named, filterMap_filter_isSome]
    exact hown.nodup
  obtain ⟨hrows₂, hkept, hsame⟩ := updatePoolTargets_returned hkeyed₁ hnodup
    (fun target htarget id hid => (hnames target (hmem target htarget) id hid).same
      (hlive target (hmem target htarget) id hid)) hupdate
  rw [filter_named, writtenBy_filter, hset, without_unnamed hkeyed] at hrows₂
  have hbelow : ∀ target ∈ targets, ∀ id, target.id = some id → id < s.world.nextId := by
    intro target htarget id hid
    obtain ⟨row, hrow, -, rfl⟩ := hown.own target.item (List.mem_map_of_mem htarget) id hid
    exact hkeyed.targets.below row hrow
  have hsame₂ : ∀ id, (∀ target ∈ targets, target.id ≠ some id) → SameBelow id s₁ s₂ := by
    intro id hid
    refine hsame id fun hlisted => ?_
    obtain ⟨target, htarget, hnamed⟩ := List.mem_filterMap.mp hlisted
    exact hid target (hmem target htarget) hnamed
  have hunowned₁ : Unowned s₁ := hset ▸ hunowned.without _
  have hunowned₂ : Unowned s₂ := by
    refine hunowned₁.after (p := fun id => ∃ target ∈ targets, target.id = some id)
      (fun id hid => hsame₂ id fun target htarget hnamed => hid ⟨target, htarget, hnamed⟩)
      hnext₂ ?_
    rintro id ⟨target, htarget, hid⟩
    have hlt := hbelow target htarget id hid
    omega
  -- the new ones
  have hisNone : (targets.filter fun target => target.id.isNone) =
      targets.filter fun target => !target.id.isSome :=
    List.filter_congr fun target _ => (Option.not_isSome target.id).symm
  rw [hisNone] at hcreate
  obtain ⟨added, hrows', hadded, hsame'⟩ := createPoolTargets_returned hkeyed₂ hunowned₂
    (fun target htarget => by simpa using (List.mem_filter.mp htarget).2) hcreate
  refine ⟨added, by rw [hrows', hrows₂], ?_, ?_, ?_, ?_⟩
  · intro target htarget id hid
    have hlt := hbelow target htarget id hid
    have hlisted : target ∈ targets.filter fun target => target.id.isSome :=
      List.mem_filter.mpr ⟨htarget, by rw [hid]; rfl⟩
    exact lists_below (hkept target hlisted id hid) (hlive target htarget id hid)
      (hsame' id (by omega)) (Nat.le_of_eq hnext₁.symm)
  · refine hadded.imp fun target row hrow => ?_
    obtain ⟨hlow, howner, hnew, hlists⟩ := hrow
    have hbefore : NothingBelow row.id s := hunowned.nothingBelow (by omega)
    have hbefore₂ : NothingBelow row.id s₂ := hunowned₂.nothingBelow hlow
    refine ⟨by omega, howner, hnew, lists_below hlists ⟨?_, ?_⟩ (SameBelow.refl _ _) (by omega)⟩
    · rw [hbefore.options, hbefore₂.options]
    · rw [hbefore.masters, hbefore₂.masters]
  · intro id hid hstays hunlisted
    have hsame₁ : SameBelow id s s₁ := hset ▸ without_sameBelow hstays
    exact (hsame₁.trans (hsame₂ id hunlisted)).trans (hsame' id (by omega))
  · intro id hid
    have hnothing : NothingBelow id s₁ := hset ▸ without_nothingBelow hid
    have hgone := mem_unnamed.mp hid
    obtain ⟨row, hrow, rfl⟩ := List.mem_map.mp hgone.1
    have hlt := hkeyed.targets.below row (List.mem_filter.mp hrow).1
    exact (hnothing.same (hsame₂ row.id hgone.2)).same (hsame' row.id (by omega))

/-- The row of a target that was made stands for it. -/
theorem targetStands_added {row : ItemRow Target} (hnew : target.item.new = some row.columns)
    (howner : row.owner = poolId) (hlow : s.world.nextId ≤ row.id) (hid : target.id = none)
    (hlists : Lists targetOptionsTable row.id target.optionItems s s' ∧
      Lists targetMastersTable row.id target.masterItems s s') :
    TargetStands poolId s s' target row :=
  ⟨(stands_none (show target.item.id = none from hid)).mpr ⟨hnew, howner, hlow⟩,
    hlists.1, hlists.2⟩

theorem TargetsUpdated.own {added : List (ItemRow Target)}
    (h : TargetsUpdated poolId targets s s' added) (hkeyed : s.Keyed)
    (hown : OwnIds poolId (targets.map TargetObject.item) s.targets) :
    TargetLists poolId (some targets) s s' := by
  obtain ⟨kept, hperm, hkept⟩ := left_writtenBy_own s.world.nextId hkeyed.targets.nodup hown
  rw [← filter_named] at hkept
  have hkept' : List.Forall₂ (TargetStands poolId s s')
      (targets.filter fun target => target.id.isSome) kept := by
    refine pairs_imp (List.forall₂_map_left_iff.mp hkept) fun target htarget row hrow => ?_
    obtain ⟨hmem, hsome⟩ := List.mem_filter.mp htarget
    obtain ⟨id, hid⟩ := Option.isSome_iff_exists.mp hsome
    have hlists := h.kept target hmem id hid
    obtain rfl : row.id = id := hrow.id hid
    exact ⟨hrow, hlists.1, hlists.2⟩
  have hadded : List.Forall₂ (TargetStands poolId s s')
      (targets.filter fun target => !target.id.isSome) added := by
    refine pairs_imp h.added fun target htarget row hrow => ?_
    obtain ⟨hlow, howner, hnew, hlists⟩ := hrow
    have hid : target.id = none := by simpa using (List.mem_filter.mp htarget).2
    exact targetStands_added hnew howner hlow hid hlists
  obtain ⟨stored, hjoin, hstored⟩ := pairs_join _ hkept' hadded
  refine ⟨stored, ?_, hstored⟩
  -- those that were made are the pool's
  have hall : added.filter (fun row => row.owner == poolId) = added := by
    refine List.filter_eq_self.mpr fun row hrow => ?_
    obtain ⟨target, -, -, howner, -⟩ := pair_right h.added hrow
    exact beq_iff_eq.mpr howner
  have hrows : targetsTable.rows s' = s'.targets := rfl
  unfold ItemTable.of
  rw [hrows, h.rows, List.filter_append, hall]
  exact (hperm.append_right _).trans hjoin

/-- **Targets that name what is their own are reconciled with the list.** -/
theorem TargetsUpdated.reconcile {added : List (ItemRow Target)}
    (h : TargetsUpdated poolId targets s s' added) (hkeyed : s.Keyed)
    (hown : OwnIds poolId (targets.map TargetObject.item) s.targets) :
    TargetsReconcile poolId (some targets) s s' := by
  -- no target of another pool is named
  have hunnamed : ∀ row ∈ s.targets, row.owner ≠ poolId →
      ∀ target ∈ targets, target.id ≠ some row.id := by
    intro row hrow howner target htarget hid
    obtain ⟨row', hrow', howner', hsame⟩ :=
      hown.own target.item (List.mem_map_of_mem htarget) row.id hid
    rw [Table.eq_of_key hkeyed.targets.nodup hrow' hrow hsame] at howner'
    exact howner howner'
  refine ⟨h.own hkeyed hown, ?_, ?_, ?_⟩
  · have hnone : others poolId added = [] := by
      refine List.filter_eq_nil_iff.mpr fun row hrow => ?_
      obtain ⟨target, -, -, howner, -⟩ := pair_right h.added hrow
      simp [howner]
    rw [h.rows, others_append, hnone, List.append_nil]
    exact left_writtenBy_others hkeyed.targets.nodup hown
  · intro row hrow
    obtain ⟨hmem, hother⟩ := List.mem_filter.mp hrow
    have howner : row.owner ≠ poolId := bne_iff_ne.mp hother
    refine h.same row.id (hkeyed.targets.below row hmem) ?_ (hunnamed row hmem howner)
    intro hlisted
    obtain ⟨row', hrow', hid⟩ := List.mem_map.mp (mem_unnamed.mp hlisted).1
    obtain ⟨hmem', howner'⟩ := List.mem_filter.mp hrow'
    rw [Table.eq_of_key hkeyed.targets.nodup hmem' hmem hid] at howner'
    exact howner (beq_iff_eq.mp howner')
  · intro row hrow hgone
    refine h.gone row.id (mem_unnamed.mpr ⟨List.mem_map_of_mem hrow, ?_⟩)
    intro target htarget hid
    -- a row that is named is still there
    have hmem : row ∈ left poolId (targets.map TargetObject.item) s.targets :=
      mem_left.mpr ⟨(List.mem_filter.mp hrow).1, fun _ =>
        ⟨target.item, List.mem_map_of_mem htarget, hid⟩⟩
    refine hgone ?_
    rw [h.rows, List.map_append, map_writtenBy_id]
    exact List.mem_append_left _ (List.mem_map_of_mem hmem)

/-- The same of a list that may not be set. -/
theorem targets_reconcile {list : Option (List TargetObject)} (hkeyed : s.Keyed)
    (hunowned : Unowned s) (hnames : TargetsNameOwn poolId list s)
    (h : ifSet list (updateItems (fun s => (targetsTable.of poolId s).map ItemRow.id)
      TargetObject.id deletePoolTarget updatePoolTarget (createPoolTarget poolId)) s =
        (.ok (), s')) :
    TargetsReconcile poolId list s s' := by
  cases list with
  | none =>
    obtain rfl : s' = s := (congrArg Prod.snd h).symm
    refine ⟨⟨rfl, fun row _ => SameBelow.refl row.id s'⟩, rfl,
      fun row _ => SameBelow.refl row.id s', fun row hrow hgone => ?_⟩
    exact absurd (List.mem_map_of_mem (List.mem_filter.mp hrow).1) hgone
  | some targets =>
    obtain ⟨hown, hbelow⟩ := hnames targets rfl
    obtain ⟨added, hupdated⟩ := updatePoolTargets_loops hkeyed hunowned hown hbelow h
    exact hupdated.reconcile hkeyed hown

/-- The three tables of the targets are the same. -/
structure SameTargets (s s' : State) : Prop where
  targets : s'.targets = s.targets
  options : s'.targetOptions = s.targetOptions
  masters : s'.targetMasters = s.targetMasters

theorem SameTargets.trans (h : SameTargets s s') (h' : SameTargets s' s'') : SameTargets s s'' :=
  ⟨h'.targets.trans h.targets, h'.options.trans h.options, h'.masters.trans h.masters⟩

theorem SameTargets.below (h : SameTargets s s') (id : Nat) : SameBelow id s s' :=
  ⟨of_congr (t := targetOptionsTable) id h.options,
    of_congr (t := targetMastersTable) id h.masters⟩

theorem SameTargets.of (h : SameTargets s s') (poolId : Nat) :
    targetsTable.of poolId s' = targetsTable.of poolId s :=
  of_congr (t := targetsTable) poolId h.targets

theorem TargetsNameOwn.same {list : Option (List TargetObject)} (h : TargetsNameOwn poolId list s)
    (hsame : SameTargets s s') : TargetsNameOwn poolId list s' := by
  intro targets htargets
  obtain ⟨hown, hbelow⟩ := h targets htargets
  refine ⟨hsame.targets ▸ hown, fun target htarget id hid => ?_⟩
  exact (hbelow target htarget id hid).same (hsame.below id)

/-- It is the three tables alone that count, and that identifiers are handed out upwards. -/
theorem TargetsReconcile.congr {list : Option (List TargetObject)} {s₁ s₂ : State}
    (h : TargetsReconcile poolId list s₁ s₂) (hbefore : SameTargets s s₁)
    (hafter : SameTargets s₂ s') (hnext : s.world.nextId ≤ s₁.world.nextId) :
    TargetsReconcile poolId list s s' := by
  refine ⟨?_, ?_, fun row hrow => ?_, fun row hrow hgone => ?_⟩
  · cases list with
    | none =>
      obtain ⟨hrows, hbelow⟩ := h.own
      refine ⟨(hafter.of poolId).trans (hrows.trans (hbefore.of poolId)), fun row hrow => ?_⟩
      rw [← hbefore.of poolId] at hrow
      exact ((hbefore.below row.id).trans (hbelow row hrow)).trans (hafter.below row.id)
    | some targets =>
      obtain ⟨stored, hperm, hstored⟩ := h.own
      refine ⟨stored, by rw [hafter.of poolId]; exact hperm, hstored.imp fun target row hrow => ?_⟩
      obtain ⟨hoptions, hmasters⟩ := lists_below ⟨hrow.options, hrow.masters⟩
        (hbefore.below row.id) (hafter.below row.id) hnext
      exact ⟨(hbefore.targets ▸ hrow.stands).mono hnext, hoptions, hmasters⟩
  · rw [hafter.targets, ← hbefore.targets]
    exact h.others
  · rw [← hbefore.targets] at hrow
    exact ((hbefore.below row.id).trans (h.othersBelow row hrow)).trans (hafter.below row.id)
  · rw [← hbefore.of poolId] at hrow
    rw [hafter.targets] at hgone
    exact (h.gone row hrow hgone).same (hafter.below row.id)

end

/-! ## The pool -/

/-- Of each kind the pool has come to own its list, and nothing of another pool has changed. -/
structure PoolReconciled (pool : Pool) (s s' : State) : Prop where
  attributes : Reconciles attributesTable pool.id
    (pool.attributes.map (List.map KeyValueObject.item)) s s'
  nsRecords : Reconciles nsRecordsTable pool.id
    (pool.nsRecords.map (List.map NsRecordObject.item)) s s'
  nameservers : Reconciles nameserversTable pool.id
    (pool.nameservers.map (List.map HostPortObject.item)) s s'
  targets : TargetsReconcile pool.id pool.targets s s'
  alsoNotifies : Reconciles alsoNotifiesTable pool.id
    (pool.alsoNotifies.map (List.map HostPortObject.item)) s s'

/-- The lists of the pool name rows of the pool only, and none twice. -/
structure NamesOwnItems (pool : Pool) (s : State) : Prop where
  attributes : NamesOwnRows pool.id (pool.attributes.map (List.map KeyValueObject.item))
    s.attributes
  nsRecords : NamesOwnRows pool.id (pool.nsRecords.map (List.map NsRecordObject.item))
    s.nsRecords
  nameservers : NamesOwnRows pool.id (pool.nameservers.map (List.map HostPortObject.item))
    s.nameservers
  targets : TargetsNameOwn pool.id pool.targets s
  alsoNotifies : NamesOwnRows pool.id (pool.alsoNotifies.map (List.map HostPortObject.item))
    s.alsoNotifies

section

variable {ctx : Context} {pool updated : Pool} {s s' : State}

theorem updatePoolRow_returned (h : updatePoolRow ctx pool s = (.ok (), s')) :
    ∃ pools, s' = { s with pools := pools } := by
  unfold updatePoolRow at h
  obtain ⟨row, -, h⟩ := Exec.of_read_bind h
  rw [Exec.write_eq_ok] at h
  split at h
  · exact absurd h (by simp)
  · exact ⟨_, (congrArg Prod.snd (Except.ok.inj h)).symm⟩

/-- The steps of `storage.update_pool`, one for each kind. -/
theorem updatePoolInStorage_steps (h : updatePoolInStorage ctx pool s = (.ok updated, s')) :
    ∃ pools s₁ s₂ s₃ s₄,
      ifSet pool.attributes (fun items => updatePoolItems attributesTable pool.id
        (items.map KeyValueObject.item)) { s with pools := pools } = (.ok (), s₁) ∧
      ifSet pool.nsRecords (fun items => updatePoolItems nsRecordsTable pool.id
        (items.map NsRecordObject.item)) s₁ = (.ok (), s₂) ∧
      ifSet pool.nameservers (fun items => updatePoolItems nameserversTable pool.id
        (items.map HostPortObject.item)) s₂ = (.ok (), s₃) ∧
      ifSet pool.targets (updateItems (fun s => (targetsTable.of pool.id s).map ItemRow.id)
        TargetObject.id deletePoolTarget updatePoolTarget (createPoolTarget pool.id)) s₃ =
          (.ok (), s₄) ∧
      ifSet pool.alsoNotifies (fun items => updatePoolItems alsoNotifiesTable pool.id
        (items.map HostPortObject.item)) s₄ = (.ok (), s') := by
  unfold updatePoolInStorage at h
  obtain ⟨⟨⟩, s₀, hrow, h⟩ := Exec.bind_eq_ok.mp h
  obtain ⟨⟨⟩, s₁, hattributes, h⟩ := Exec.bind_eq_ok.mp h
  obtain ⟨⟨⟩, s₂, hnsRecords, h⟩ := Exec.bind_eq_ok.mp h
  obtain ⟨⟨⟩, s₃, hnameservers, h⟩ := Exec.bind_eq_ok.mp h
  obtain ⟨⟨⟩, s₄, htargets, h⟩ := Exec.bind_eq_ok.mp h
  obtain ⟨⟨⟩, s₅, halsoNotifies, hget⟩ := Exec.bind_eq_ok.mp h
  obtain rfl : s₅ = s' := congrArg Prod.snd hget
  obtain ⟨pools, rfl⟩ := updatePoolRow_returned hrow
  exact ⟨pools, s₁, s₂, s₃, s₄, hattributes, hnsRecords, hnameservers, htargets, halsoNotifies⟩

theorem keyed_keeping : PoolKeeping State.Keyed where
  toTargetsKeeping := keyed_targets
  pools _ _ hs := { hs with }
  attributes := attributes_part.keeping
  nsRecords := nsRecords_part.keeping
  nameservers := nameservers_part.keeping
  alsoNotifies := alsoNotifies_part.keeping

/-- Where every list has been reconciled, it named what is the pool's own. -/
theorem PoolReconciled.namesOwn (h : PoolReconciled pool s s') (hkeyed : s'.Keyed) :
    NamesOwnItems pool s where
  attributes := h.attributes.own.namesOwnRows hkeyed.attributes.nodup
  nsRecords := h.nsRecords.own.namesOwnRows hkeyed.nsRecords.nodup
  nameservers := h.nameservers.own.namesOwnRows hkeyed.nameservers.nodup
  targets := h.targets.nameOwn hkeyed
  alsoNotifies := h.alsoNotifies.own.namesOwnRows hkeyed.alsoNotifies.nodup

/--
The lists are reconciled one after the other, each in a table of its own: a list finds its table
as it was before the update, and no later list changes what it has made of it.
-/
theorem poolReconciled_of_namesOwn (hsound : s.Sound)
    (h : updatePoolInStorage ctx pool s = (.ok updated, s')) (hnames : NamesOwnItems pool s) :
    PoolReconciled pool s s' := by
  obtain ⟨pools, s₁, s₂, s₃, s₄, hattributes, hnsRecords, hnameservers, htargets, halsoNotifies⟩ :=
    updatePoolInStorage_steps h
  -- the lists come one after the other, and after each the tables still have their keys
  have hkeyed : State.Keyed { s with pools := pools } := { hsound.keyed with }
  have hkeyed₁ : s₁.Keyed := (keeps_ifSet fun _ =>
    keeps_updatePoolItems attributes_part.keeping attributes_lawful _ _).run hkeyed hattributes
  have hkeyed₂ : s₂.Keyed := (keeps_ifSet fun _ =>
    keeps_updatePoolItems nsRecords_part.keeping nsRecords_lawful _ _).run hkeyed₁ hnsRecords
  have hkeyed₃ : s₃.Keyed := (keeps_ifSet fun _ =>
    keeps_updatePoolItems nameservers_part.keeping nameservers_lawful _ _).run hkeyed₂ hnameservers
  have hkeyed₄ : s₄.Keyed :=
    (keeps_ifSet (keeps_updatePoolTargets keyed_targets _)).run hkeyed₃ htargets
  -- what the reconciliation of one list has done, and what it leaves alone
  have hnodup : ((attributesTable.rows { s with pools := pools }).map ItemRow.id).Nodup :=
    hkeyed.attributes.nodup
  have h₁ := ifSet_returned attributes_lawful hnodup hattributes
  have h₂ := ifSet_returned nsRecords_lawful hkeyed₁.nsRecords.nodup hnsRecords
  have h₃ := ifSet_returned nameservers_lawful hkeyed₂.nameservers.nodup hnameservers
  have h₄ : Beside s₃ s₄ := (keeps_ifSet (keeps_updatePoolTargets (beside_targets s₃) _)).run
    ⟨rfl, rfl, rfl, rfl, Nat.le_refl _⟩ htargets
  have h₅ := ifSet_returned alsoNotifies_lawful hkeyed₄.alsoNotifies.nodup halsoNotifies
  -- identifiers are only handed out, so a row that one list inserts no later one names
  have hnext₁ : s.world.nextId ≤ s₁.world.nextId := h₁.nextId_le
  have hnext₂ := Nat.le_trans hnext₁ h₂.nextId_le
  have hnext₃ := Nat.le_trans hnext₂ h₃.nextId_le
  have hnext₄ := Nat.le_trans hnext₃ h₄.nextId
  -- each list finds its table as it was
  have hnsRecords₁ : s₁.nsRecords = s.nsRecords := h₁.frame State.nsRecords fun _ _ _ => rfl
  have hnameservers₂ : s₂.nameservers = s.nameservers :=
    (h₂.frame State.nameservers fun _ _ _ => rfl).trans
      (h₁.frame State.nameservers fun _ _ _ => rfl)
  have hsame₁ : SameTargets s s₁ := ⟨h₁.frame State.targets fun _ _ _ => rfl,
    h₁.frame State.targetOptions fun _ _ _ => rfl, h₁.frame State.targetMasters fun _ _ _ => rfl⟩
  have hsame₂ : SameTargets s₁ s₂ := ⟨h₂.frame State.targets fun _ _ _ => rfl,
    h₂.frame State.targetOptions fun _ _ _ => rfl, h₂.frame State.targetMasters fun _ _ _ => rfl⟩
  have hsame₃ : SameTargets s₂ s₃ := ⟨h₃.frame State.targets fun _ _ _ => rfl,
    h₃.frame State.targetOptions fun _ _ _ => rfl, h₃.frame State.targetMasters fun _ _ _ => rfl⟩
  have hbefore := (hsame₁.trans hsame₂).trans hsame₃
  have halsoNotifies₄ : s₄.alsoNotifies = s.alsoNotifies :=
    h₄.alsoNotifies.trans ((h₃.frame State.alsoNotifies fun _ _ _ => rfl).trans
      ((h₂.frame State.alsoNotifies fun _ _ _ => rfl).trans
        (h₁.frame State.alsoNotifies fun _ _ _ => rfl)))
  -- and none changes it afterwards
  have hafter : SameTargets s₄ s' := ⟨h₅.frame State.targets fun _ _ _ => rfl,
    h₅.frame State.targetOptions fun _ _ _ => rfl, h₅.frame State.targetMasters fun _ _ _ => rfl⟩
  have hnameservers₃ : s'.nameservers = s₃.nameservers :=
    (h₅.frame State.nameservers fun _ _ _ => rfl).trans h₄.nameservers
  have hnsRecords₂ : s'.nsRecords = s₂.nsRecords :=
    (h₅.frame State.nsRecords fun _ _ _ => rfl).trans
      (h₄.nsRecords.trans (h₃.frame State.nsRecords fun _ _ _ => rfl))
  have hattributes₁ : s'.attributes = s₁.attributes :=
    (h₅.frame State.attributes fun _ _ _ => rfl).trans (h₄.attributes.trans
      ((h₃.frame State.attributes fun _ _ _ => rfl).trans
        (h₂.frame State.attributes fun _ _ _ => rfl)))
  -- the targets come with options and masters, which must not belong to a target that is gone
  have hunowned₃ : Unowned s₃ := hsound.unowned.after (fun id _ => hbefore.below id) hnext₃
    fun _ hfalse => False.elim hfalse
  -- so each list may be judged between the tables before all and after all
  constructor
  · exact (h₁.reconciles attributes_lawful hnodup hnames.attributes).congr
      rfl hattributes₁ (Nat.le_refl _)
  · have hown : NamesOwnRows pool.id _ s₁.nsRecords := hnsRecords₁.symm ▸ hnames.nsRecords
    exact (h₂.reconciles nsRecords_lawful hkeyed₁.nsRecords.nodup hown).congr
      hnsRecords₁ hnsRecords₂ hnext₁
  · have hown : NamesOwnRows pool.id _ s₂.nameservers := hnameservers₂.symm ▸ hnames.nameservers
    exact (h₃.reconciles nameservers_lawful hkeyed₂.nameservers.nodup hown).congr
      hnameservers₂ hnameservers₃ hnext₂
  · exact (targets_reconcile hkeyed₃ hunowned₃ (hnames.targets.same hbefore) htargets).congr
      hbefore hafter hnext₃
  · have hown : NamesOwnRows pool.id _ s₄.alsoNotifies :=
      halsoNotifies₄.symm ▸ hnames.alsoNotifies
    exact (h₅.reconciles alsoNotifies_lawful hkeyed₄.alsoNotifies.nodup hown).congr
      halsoNotifies₄ rfl hnext₄

/-- Two pools, with an NS record each. -/
def twoPools : State where
  world := { nextId := 4 }
  pools := [⟨0, "default", none, none, ""⟩, ⟨1, "other", none, none, ""⟩]
  nsRecords := [⟨2, 0, ⟨1, "ns1.example.net."⟩⟩, ⟨3, 1, ⟨1, "ns1.example.com."⟩⟩]

theorem twoPools_sound : twoPools.Sound where
  pools := by decide
  names := by decide
  attributes := ⟨by decide, by decide, by decide⟩
  nsRecords := ⟨by decide, by decide, by decide⟩
  nameservers := ⟨by decide, by decide, by decide⟩
  targets := ⟨by decide, by decide, by decide⟩
  targetOptions := ⟨by decide, by decide, by decide⟩
  targetMasters := ⟨by decide, by decide, by decide⟩
  alsoNotifies := ⟨by decide, by decide, by decide⟩
  optionOf := by decide
  masterOf := by decide

/-- The first of them, whose one NS record has this identifier and a new hostname. -/
def renamed (id : Nat) : Pool where
  id := 0
  name := .loaded "default"
  description := .loaded none
  tenantId := .loaded none
  provisioner := .loaded ""
  attributes := none
  nsRecords := some [⟨some id, .loaded 1, "ns2.example.net.", true⟩]
  nameservers := none
  targets := none
  alsoNotifies := none

theorem renamed_own : NamesOwnItems (renamed 2) twoPools where
  attributes _ h := absurd h nofun
  nsRecords items h := by
    obtain rfl := Option.some.inj h
    refine ⟨by decide, fun item hitem id hid => ?_⟩
    obtain rfl := List.mem_singleton.mp hitem
    obtain rfl : 2 = id := Option.some.inj hid
    exact ⟨⟨2, 0, ⟨1, "ns1.example.net."⟩⟩, by decide, rfl, rfl⟩
  nameservers _ h := absurd h nofun
  targets _ h := absurd h nofun
  alsoNotifies _ h := absurd h nofun

end

end Pools

end Designate
