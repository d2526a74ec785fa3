import Designate.Proof.PoolTables

/-!
# What a pool holds

The contents of a pool are what its lists hold, the identifiers and the order aside. Filling a
list again with fresh items replaces that part of the contents of its pool and touches no other
pool. Targets take their options and masters along: those of a target that goes have no owner
any more, and those of a new one are the only ones under its identifier.
-/

namespace Designate

namespace Pools

/-! ## Contents -/

/-- A target with what is below it. -/
structure TargetContent where
  columns : Target
  options : Multiset KeyValue
  masters : Multiset HostPort

/-- What the lists of a pool hold. -/
structure Content where
  attributes : Multiset KeyValue
  nsRecords : Multiset NsRecord
  nameservers : Multiset HostPort
  targets : Multiset TargetContent
  alsoNotifies : Multiset HostPort

/-- The target of a row, with what is below it. -/
def targetContent (options : List (ItemRow KeyValue)) (masters : List (ItemRow HostPort))
    (row : ItemRow Target) : TargetContent :=
  ⟨row.columns, columnsOf options row.id, columnsOf masters row.id⟩

/-- The targets of a pool. -/
def targetsOf (s : State) (owner : Nat) : Multiset TargetContent :=
  ((s.targets.filter fun row => row.owner == owner).map
    (targetContent s.targetOptions s.targetMasters) : List TargetContent)

def State.content (s : State) (poolId : Nat) : Content where
  attributes := columnsOf s.attributes poolId
  nsRecords := columnsOf s.nsRecords poolId
  nameservers := columnsOf s.nameservers poolId
  targets := targetsOf s poolId
  alsoNotifies := columnsOf s.alsoNotifies poolId

/-- What the constraints of the database say. -/
structure State.Sound (s : State) : Prop where
  pools : (s.pools.map PoolRow.id).Nodup
  names : (s.pools.map PoolRow.name).Nodup
  attributes : Pools.Sound attributesTable.clash s.world.nextId s.attributes
  nsRecords : Pools.Sound nsRecordsTable.clash s.world.nextId s.nsRecords
  nameservers : Pools.Sound nameserversTable.clash s.world.nextId s.nameservers
  targets : Pools.Sound targetsTable.clash s.world.nextId s.targets
  targetOptions : Pools.Sound targetOptionsTable.clash s.world.nextId s.targetOptions
  targetMasters : Pools.Sound targetMastersTable.clash s.world.nextId s.targetMasters
  alsoNotifies : Pools.Sound alsoNotifiesTable.clash s.world.nextId s.alsoNotifies
  /-- The foreign keys of the options and of the masters. -/
  optionOf : ∀ row ∈ s.targetOptions, ∃ target ∈ s.targets, target.id = row.owner
  masterOf : ∀ row ∈ s.targetMasters, ∃ target ∈ s.targets, target.id = row.owner

/-- From a state to another the pool comes to hold `c`, and everything else stays. -/
structure Moves (poolId : Nat) (c : Content) (s s' : State) : Prop where
  sound : s'.Sound
  pools : s'.pools = s.pools
  world : s'.world = { s.world with nextId := s'.world.nextId }
  content : s'.content poolId = c
  others : ∀ q, q ≠ poolId → s'.content q = s.content q

theorem Moves.trans {poolId : Nat} {c c' : Content} {s s' s'' : State} (h : Moves poolId c s s')
    (h' : Moves poolId c' s' s'') : Moves poolId c' s s'' where
  sound := h'.sound
  pools := h'.pools.trans h.pools
  world := by
    rw [h'.world, h.world]
  content := h'.content
  others q hq := (h'.others q hq).trans (h.others q hq)

theorem Moves.refl {s : State} (h : s.Sound) (poolId : Nat) : Moves poolId (s.content poolId) s s :=
  ⟨h, rfl, rfl, rfl, fun _ _ => rfl⟩

theorem State.Sound.advance {s : State} (h : s.Sound) (k : Nat) : (s.advance k).Sound := by
  have hle : s.world.nextId ≤ (s.advance k).world.nextId := Nat.le_add_right _ _
  exact ⟨h.pools, h.names, h.attributes.mono hle, h.nsRecords.mono hle, h.nameservers.mono hle,
    h.targets.mono hle, h.targetOptions.mono hle, h.targetMasters.mono hle,
    h.alsoNotifies.mono hle, h.optionOf, h.masterOf⟩

/-! ## Lists with nothing below them -/

section

variable {κ : Type} {t : ItemTable κ} {put : Multiset κ → Content → Content}

/-- A table whose rows have nothing below them, and the part of the contents they are. -/
structure ItemTable.Leaf (t : ItemTable κ) (put : Multiset κ → Content → Content) : Prop where
  lawful : t.Lawful
  pools : ∀ rows s, (t.withRows rows s).pools = s.pools
  content : ∀ rows s q, (t.withRows rows s).content q = put (columnsOf rows q) (s.content q)
  same : ∀ s q, put (columnsOf (t.rows s) q) (s.content q) = s.content q
  rows_sound : ∀ s, s.Sound → Pools.Sound t.clash s.world.nextId (t.rows s)
  sound : ∀ rows s, s.Sound → Pools.Sound t.clash s.world.nextId rows → (t.withRows rows s).Sound

theorem attributes_leaf : attributesTable.Leaf fun m c => { c with attributes := m } where
  lawful := attributes_lawful
  pools _ _ := rfl
  content _ _ _ := rfl
  same _ _ := rfl
  rows_sound _ h := h.attributes
  sound _ _ h hrows := { h with attributes := hrows }

theorem nsRecords_leaf : nsRecordsTable.Leaf fun m c => { c with nsRecords := m } where
  lawful := nsRecords_lawful
  pools _ _ := rfl
  content _ _ _ := rfl
  same _ _ := rfl
  rows_sound _ h := h.nsRecords
  sound _ _ h hrows := { h with nsRecords := hrows }

theorem nameservers_leaf : nameserversTable.Leaf fun m c => { c with nameservers := m } where
  lawful := nameservers_lawful
  pools _ _ := rfl
  content _ _ _ := rfl
  same _ _ := rfl
  rows_sound _ h := h.nameservers
  sound _ _ h hrows := { h with nameservers := hrows }

theorem alsoNotifies_leaf : alsoNotifiesTable.Leaf fun m c => { c with alsoNotifies := m } where
  lawful := alsoNotifies_lawful
  pools _ _ := rfl
  content _ _ _ := rfl
  same _ _ := rfl
  rows_sound _ h := h.alsoNotifies
  sound _ _ h hrows := { h with alsoNotifies := hrows }

/-- **A list of fresh items becomes this part of what the pool holds.** -/
theorem updatePoolItems_moves (poolId : Nat) (hleaf : t.Leaf put) {s : State}
    (hsound : s.Sound) {items : List (Item κ)} {cs : List κ} (hfresh : ∀ item ∈ items, item.id = none)
    (hnew : List.Forall₂ (fun item c => item.new = some c) items cs)
    (hapart : cs.Pairwise fun a b => t.clash a b = false) :
    ∃ s', updatePoolItems t poolId items s = (.ok (), s') ∧
      Moves poolId (put cs (s.content poolId)) s s' := by
  have hrows := hleaf.rows_sound s hsound
  refine ⟨_, updatePoolItems_fresh hleaf.lawful hrows.nodup hfresh hnew hapart, ?_⟩
  -- the old rows of the pool have gone by the time the new ones come, so none of these clashes
  have hreplaced : Pools.Sound t.clash (s.advance cs.length).world.nextId
      (others poolId (t.rows s) ++ newRows poolId s.world.nextId cs) := by
    refine (hrows.filter _).append_newRows (Nat.le_refl _) hleaf.lawful.clash_comm hapart ?_
    intro c _ row hrow howner
    exact absurd howner (by simpa using (List.mem_filter.mp hrow).2)
  refine ⟨hleaf.sound _ _ (hsound.advance _) hreplaced, hleaf.pools _ _, ?_, ?_, ?_⟩
  · rw [t.world]
    rfl
  · rw [hleaf.content, columnsOf_replaced, if_pos rfl]
    rfl
  · intro q hq
    rw [hleaf.content, columnsOf_replaced, if_neg hq]
    exact hleaf.same s q

end

/-! ## Targets -/

/-- The state without these targets, and without what was below them. -/
def State.without (s : State) (ids : List Nat) : State :=
  { s with
    targets := s.targets.filter fun row => row.id ∉ ids
    targetOptions := s.targetOptions.filter fun row => row.owner ∉ ids
    targetMasters := s.targetMasters.filter fun row => row.owner ∉ ids }

theorem without_nil (s : State) : s.without [] = s := by
  unfold State.without
  simp

theorem without_cons (s : State) (id : Nat) (ids : List Nat) :
    (s.without [id]).without ids = s.without (id :: ids) := by
  unfold State.without
  simp only [List.filter_filter, List.mem_cons, List.not_mem_nil, or_false, not_or,
    Bool.decide_and, Bool.and_comm]

theorem deletePoolTarget_ok {s : State} {row : ItemRow Target}
    (hnodup : (s.targets.map ItemRow.id).Nodup) (hrow : row ∈ s.targets) :
    deletePoolTarget row.id s = (.ok (), s.without [row.id]) := by
  have hdelete := deleteItem_ok (t := targetsTable) hnodup hrow
  unfold deletePoolTarget
  rw [Exec.bind_ok hdelete, Exec.modify_apply]
  unfold State.without targetsTable Table.remove
  simp

/-- The targets go one by one, with what is below them. -/
theorem deletePoolTargets_ok {gone : List (ItemRow Target)} {s : State}
    (hnodup : (s.targets.map ItemRow.id).Nodup) (hgone : (gone.map ItemRow.id).Nodup)
    (hrows : ∀ row ∈ gone, row ∈ s.targets) :
    Exec.forEach deletePoolTarget (gone.map ItemRow.id) s =
      (.ok (), s.without (gone.map ItemRow.id)) := by
  induction gone generalizing s with
  | nil => rw [List.map_nil, without_nil]; rfl
  | cons row gone ih =>
    rw [List.map_cons, List.nodup_cons] at hgone
    rw [List.map_cons, forEach_cons (deletePoolTarget_ok hnodup (hrows row List.mem_cons_self)),
      ih ?_ hgone.2 ?_, without_cons]
    · exact (List.filter_sublist.map ItemRow.id).nodup hnodup
    · intro row' hrow'
      refine List.mem_filter.mpr ⟨hrows row' (List.mem_cons_of_mem _ hrow'), ?_⟩
      -- the target that has gone is another one
      have hne : row'.id ≠ row.id := by
        intro heq
        rw [← heq] at hgone
        exact hgone.1 (List.mem_map_of_mem hrow')
      simpa using hne

/-- The rows of other owners are not concerned when these go. -/
theorem columnsOf_filter {κ : Type} (rows : List (ItemRow κ)) {ids : List Nat} {q : Nat}
    (hq : q ∉ ids) : columnsOf (rows.filter fun row => row.owner ∉ ids) q = columnsOf rows q := by
  unfold columnsOf
  rw [List.filter_filter]
  congr 2
  refine List.filter_congr fun row _ => ?_
  by_cases howner : row.owner = q
  · simp [howner, hq]
  · simp [howner]

section

variable {s : State} {poolId : Nat}

/-- The identifiers of a pool's targets belong to no target of another pool. -/
theorem not_mem_own (hsound : s.Sound) {row : ItemRow Target} (hrow : row ∈ s.targets)
    (howner : row.owner ≠ poolId) : row.id ∉ (targetsTable.of poolId s).map ItemRow.id := by
  intro hmem
  obtain ⟨row', hrow', hid⟩ := List.mem_map.mp hmem
  have hown := List.mem_filter.mp hrow'
  have heq := Table.eq_of_key hsound.targets.nodup hown.1 hrow hid
  rw [heq] at hown
  exact howner (by simpa using hown.2)

theorem targetsOf_without (hsound : s.Sound) (q : Nat) :
    targetsOf (s.without ((targetsTable.of poolId s).map ItemRow.id)) q =
      if q = poolId then 0 else targetsOf s q := by
  have hothers : (s.without ((targetsTable.of poolId s).map ItemRow.id)).targets =
      others poolId s.targets := filter_not_mem_own hsound.targets.nodup
  have hfilter := filter_others_newRows poolId 0 q s.targets []
  rw [newRows, List.append_nil] at hfilter
  unfold targetsOf
  rw [hothers, hfilter]
  by_cases hq : q = poolId
  · rw [if_pos hq, if_pos hq]
    rfl
  · rw [if_neg hq, if_neg hq]
    refine congrArg _ (List.map_congr_left fun row hrow => ?_)
    have hmem := List.mem_filter.mp hrow
    -- what is below the target of another pool stays
    have hnot : row.id ∉ (targetsTable.of poolId s).map ItemRow.id := by
      refine not_mem_own hsound hmem.1 ?_
      rw [beq_iff_eq.mp hmem.2]
      exact hq
    unfold targetContent
    rw [← columnsOf_filter s.targetOptions hnot,
      ← columnsOf_filter s.targetMasters hnot]
    rfl

/-- **Without its targets, a pool holds none.** -/
theorem without_moves (hsound : s.Sound) (poolId : Nat) :
    Moves poolId { s.content poolId with targets := 0 } s
      (s.without ((targetsTable.of poolId s).map ItemRow.id)) := by
  -- an option or a master that is left has its target left, too
  have hkept : ∀ id, (∃ target ∈ s.targets, target.id = id) →
      id ∉ (targetsTable.of poolId s).map ItemRow.id →
      ∃ target ∈ (s.without ((targetsTable.of poolId s).map ItemRow.id)).targets,
        target.id = id := by
    rintro id ⟨target, htarget, rfl⟩ hnot
    exact ⟨target, List.mem_filter.mpr ⟨htarget, by simpa using hnot⟩, rfl⟩
  refine ⟨⟨hsound.pools, hsound.names, hsound.attributes, hsound.nsRecords, hsound.nameservers,
    hsound.targets.filter _, hsound.targetOptions.filter _, hsound.targetMasters.filter _,
    hsound.alsoNotifies, ?_, ?_⟩, rfl, rfl, ?_, ?_⟩
  · intro row hrow
    have hmem := List.mem_filter.mp hrow
    exact hkept row.owner (hsound.optionOf row hmem.1) (by simpa using hmem.2)
  · intro row hrow
    have hmem := List.mem_filter.mp hrow
    exact hkept row.owner (hsound.masterOf row hmem.1) (by simpa using hmem.2)
  · unfold State.content
    rw [targetsOf_without hsound, if_pos rfl]
    rfl
  · intro q hq
    unfold State.content
    rw [targetsOf_without hsound, if_neg hq]
    rfl

end

/-! ## New targets -/

/-- What a target is made of. -/
structure TargetSpec where
  columns : Target
  options : List KeyValue
  masters : List HostPort

def TargetSpec.content (spec : TargetSpec) : TargetContent :=
  ⟨spec.columns, spec.options, spec.masters⟩

/-- The unique constraints let it in. -/
structure TargetSpec.Apart (spec : TargetSpec) : Prop where
  options : spec.options.Pairwise fun a b => targetOptionsTable.clash a b = false
  masters : spec.masters.Pairwise fun a b => targetMastersTable.clash a b = false

/-- A fresh object for such a target. -/
structure TargetObject.Makes (target : TargetObject) (spec : TargetSpec) : Prop where
  fresh : target.id = none
  new : target.item.new = some spec.columns
  options : ∃ items, target.options = some items ∧
    List.Forall₂ (fun i c => (KeyValueObject.item i).new = some c) items spec.options
  masters : ∃ items, target.masters = some items ∧
    List.Forall₂ (fun i c => (HostPortObject.item i).new = some c) items spec.masters

section

variable {s : State} {poolId : Nat} {spec : TargetSpec}

/-- The state with one more target. -/
def State.withTarget (s : State) (poolId : Nat) (spec : TargetSpec) : State :=
  { s with
    world := { s.world with
      nextId := s.world.nextId + 1 + spec.options.length + spec.masters.length }
    targets := s.targets ++ [⟨s.world.nextId, poolId, spec.columns⟩]
    targetOptions := s.targetOptions ++
      newRows s.world.nextId (s.world.nextId + 1) spec.options
    targetMasters := s.targetMasters ++
      newRows s.world.nextId (s.world.nextId + 1 + spec.options.length) spec.masters }

/-- Nothing is below an identifier that is still to be handed out. -/
theorem owner_below {κ : Type} {rows : List (ItemRow κ)} (hsound : s.Sound)
    (hof : ∀ row ∈ rows, ∃ target ∈ s.targets, target.id = row.owner) {row : ItemRow κ}
    (hrow : row ∈ rows) : row.owner < s.world.nextId := by
  obtain ⟨target, htarget, hid⟩ := hof row hrow
  rw [← hid]
  exact hsound.targets.below target htarget

theorem createPoolTarget_ok (hsound : s.Sound) {target : TargetObject} (hmakes : target.Makes spec)
    (hapart : spec.Apart) :
    createPoolTarget poolId target s = (.ok (), s.withTarget poolId spec) := by
  obtain ⟨options, hoptions, hnewOptions⟩ := hmakes.options
  obtain ⟨masters, hmasters, hnewMasters⟩ := hmakes.masters
  have htarget : createItem targetsTable poolId target.item s = (.ok s.world.nextId,
      targetsTable.withRows (s.targets ++ [⟨s.world.nextId, poolId, spec.columns⟩])
        (s.advance 1)) := createItem_ok targets_lawful hmakes.new fun _ _ _ => rfl
  have hloop := createItems_ok targetOptions_lawful
    (s := targetsTable.withRows (targetsTable.rows s ++ [⟨s.world.nextId, poolId, spec.columns⟩])
      (s.advance 1)) hnewOptions hapart.options
    fun _ _ row hrow howner => absurd howner (Nat.ne_of_lt (owner_below hsound hsound.optionOf hrow))
  have hloop' := createItems_ok targetMasters_lawful
    (s := targetOptionsTable.withRows (s.targetOptions ++
        newRows s.world.nextId (s.world.nextId + 1) spec.options)
      ((targetsTable.withRows (targetsTable.rows s ++ [⟨s.world.nextId, poolId, spec.columns⟩])
        (s.advance 1)).advance spec.options.length)) hnewMasters hapart.masters
    fun _ _ row hrow howner => absurd howner (Nat.ne_of_lt (owner_below hsound hsound.masterOf hrow))
  unfold createPoolTarget
  rw [Exec.bind_ok htarget, hoptions, hmasters]
  exact (Exec.bind_ok hloop).trans hloop'

theorem withTarget_sound (hsound : s.Sound) (hapart : spec.Apart) :
    (s.withTarget poolId spec).Sound := by
  have hle : s.world.nextId ≤ (s.withTarget poolId spec).world.nextId := by
    show s.world.nextId ≤ s.world.nextId + 1 + spec.options.length + spec.masters.length
    omega
  -- the identifiers are given out to the target first, then to its options and its masters
  have htargets : Pools.Sound targetsTable.clash (s.world.nextId + 1)
      (s.targets ++ newRows poolId s.world.nextId [spec.columns]) :=
    hsound.targets.append_newRows (Nat.le_refl _) targets_lawful.clash_comm
      (List.pairwise_singleton _ _) fun _ _ _ _ _ => rfl
  have hoptions := hsound.targetOptions.append_newRows
    (Nat.le_succ s.world.nextId) targetOptions_lawful.clash_comm hapart.options
    fun _ _ row hrow howner => absurd howner (Nat.ne_of_lt (owner_below hsound hsound.optionOf hrow))
  have hmasters := hsound.targetMasters.append_newRows
    (show s.world.nextId ≤ s.world.nextId + 1 + spec.options.length by omega)
    targetMasters_lawful.clash_comm
    hapart.masters fun _ _ row hrow howner => absurd howner (Nat.ne_of_lt (owner_below hsound hsound.masterOf hrow))
  refine ⟨hsound.pools, hsound.names, hsound.attributes.mono hle, hsound.nsRecords.mono hle,
    hsound.nameservers.mono hle, htargets.mono ?_, hoptions.mono ?_, hmasters,
    hsound.alsoNotifies.mono hle, ?_, ?_⟩
  · -- each table is sound up to where the identifiers of the next one begin
    show s.world.nextId + 1 ≤ s.world.nextId + 1 + spec.options.length + spec.masters.length
    omega
  · show s.world.nextId + 1 + spec.options.length ≤
      s.world.nextId + 1 + spec.options.length + spec.masters.length
    omega
  · intro row hrow
    rcases List.mem_append.mp hrow with hold | hnew
    · obtain ⟨target, htarget, hid⟩ := hsound.optionOf row hold
      exact ⟨target, List.mem_append_left _ htarget, hid⟩
    · exact ⟨_, List.mem_append_right _ (List.mem_singleton_self _), (mem_newRows hnew).1.symm⟩
  · intro row hrow
    rcases List.mem_append.mp hrow with hold | hnew
    · obtain ⟨target, htarget, hid⟩ := hsound.masterOf row hold
      exact ⟨target, List.mem_append_left _ htarget, hid⟩
    · exact ⟨_, List.mem_append_right _ (List.mem_singleton_self _), (mem_newRows hnew).1.symm⟩

/-- Nothing has the columns of an owner that has no rows. -/
theorem columnsOf_eq_zero {κ : Type} {rows : List (ItemRow κ)} {q : Nat}
    (h : ∀ row ∈ rows, row.owner ≠ q) : columnsOf rows q = 0 := by
  unfold columnsOf
  rw [List.filter_eq_nil_iff.mpr fun row hrow => by simpa using h row hrow]
  rfl

/-- What is below the old targets stays there, and what is new is below the new one. -/
theorem targetContent_withTarget (hsound : s.Sound) {row : ItemRow Target}
    (hrow : row ∈ s.targets) :
    targetContent (s.withTarget poolId spec).targetOptions
        (s.withTarget poolId spec).targetMasters row =
      targetContent s.targetOptions s.targetMasters row := by
  have hne : row.id ≠ s.world.nextId := Nat.ne_of_lt (hsound.targets.below row hrow)
  unfold targetContent State.withTarget
  rw [columnsOf_append, columnsOf_append, columnsOf_newRows, columnsOf_newRows, if_neg hne,
    if_neg hne, Multiset.add_zero, Multiset.add_zero]

theorem targetContent_new (poolId : Nat) (spec : TargetSpec) (hsound : s.Sound) :
    targetContent (s.withTarget poolId spec).targetOptions
        (s.withTarget poolId spec).targetMasters ⟨s.world.nextId, poolId, spec.columns⟩ =
      spec.content := by
  have hoptions : columnsOf s.targetOptions s.world.nextId = 0 :=
    columnsOf_eq_zero fun row hrow => Nat.ne_of_lt (owner_below hsound hsound.optionOf hrow)
  have hmasters : columnsOf s.targetMasters s.world.nextId = 0 :=
    columnsOf_eq_zero fun row hrow => Nat.ne_of_lt (owner_below hsound hsound.masterOf hrow)
  unfold targetContent State.withTarget TargetSpec.content
  rw [columnsOf_append, columnsOf_append, columnsOf_newRows, columnsOf_newRows, if_pos rfl,
    if_pos rfl, hoptions, hmasters, Multiset.zero_add, Multiset.zero_add]

theorem targetsOf_withTarget (hsound : s.Sound) (q : Nat) :
    targetsOf (s.withTarget poolId spec) q =
      targetsOf s q + if q = poolId then {spec.content} else 0 := by
  have hnew := targetContent_new poolId spec hsound
  -- the options and masters of the old targets are the ones of before
  have hold : (s.targets.filter fun row => row.owner == q).map
      (targetContent (s.withTarget poolId spec).targetOptions
        (s.withTarget poolId spec).targetMasters) =
      (s.targets.filter fun row => row.owner == q).map
        (targetContent s.targetOptions s.targetMasters) :=
    List.map_congr_left fun row hrow =>
      targetContent_withTarget hsound (List.mem_filter.mp hrow).1
  have hrows : (s.withTarget poolId spec).targets =
      s.targets ++ [⟨s.world.nextId, poolId, spec.columns⟩] := rfl
  unfold targetsOf
  rw [hrows, List.filter_append, List.map_append, hold, ← Multiset.coe_add]
  congr 1
  -- the new target counts for its own pool only
  by_cases hq : q = poolId
  · have hone : [(⟨s.world.nextId, poolId, spec.columns⟩ : ItemRow Target)].filter
        (fun row => row.owner == q) = [⟨s.world.nextId, poolId, spec.columns⟩] := by simp [hq]
    rw [if_pos hq, hone, List.map_cons, hnew]
    rfl
  · have hnone : [(⟨s.world.nextId, poolId, spec.columns⟩ : ItemRow Target)].filter
        (fun row => row.owner == q) = [] := by simp [Ne.symm hq]
    rw [if_neg hq, hnone]
    rfl

theorem withTarget_moves (poolId : Nat) (hsound : s.Sound) (hapart : spec.Apart) :
    Moves poolId { s.content poolId with
      targets := (s.content poolId).targets + {spec.content} } s (s.withTarget poolId spec) := by
  refine ⟨withTarget_sound hsound hapart, rfl, rfl, ?_, ?_⟩
  · unfold State.content
    rw [targetsOf_withTarget hsound, if_pos rfl]
    rfl
  · intro q hq
    unfold State.content
    rw [targetsOf_withTarget hsound, if_neg hq, Multiset.add_zero]
    rfl

/-- Target after target. -/
theorem createPoolTargets_moves {targets : List TargetObject} {specs : List TargetSpec}
    (hmakes : List.Forall₂ TargetObject.Makes targets specs)
    (hapart : ∀ spec ∈ specs, spec.Apart) (hsound : s.Sound) :
    ∃ s', Exec.forEach (createPoolTarget poolId) targets s = (.ok (), s') ∧
      Moves poolId { s.content poolId with targets :=
        (s.content poolId).targets + (specs.map TargetSpec.content : List TargetContent) } s s' := by
  induction hmakes generalizing s with
  | nil =>
    refine ⟨s, rfl, ?_⟩
    -- without a target the pool holds what it held
    have hrefl := Moves.refl hsound poolId
    rw [List.map_nil, Multiset.coe_nil, Multiset.add_zero]
    exact hrefl
  | @cons target spec targets specs hmake _ ih =>
    have hspec := hapart spec List.mem_cons_self
    have hmoves := withTarget_moves poolId hsound hspec
    obtain ⟨s', hrest, hmoves'⟩ := ih (fun spec' hmem => hapart spec' (List.mem_cons_of_mem _ hmem))
      hmoves.sound
    refine ⟨s', (forEach_cons (createPoolTarget_ok hsound hmake hspec)).trans hrest, ?_⟩
    have htrans := hmoves.trans hmoves'
    rw [hmoves.content] at htrans
    rw [List.map_cons, ← Multiset.cons_coe, ← Multiset.singleton_add, ← Multiset.add_assoc]
    exact htrans

/-- **A list of fresh targets becomes the targets of the pool.** -/
theorem updatePoolTargets_moves (poolId : Nat) {targets : List TargetObject}
    {specs : List TargetSpec}
    (hmakes : List.Forall₂ TargetObject.Makes targets specs)
    (hapart : ∀ spec ∈ specs, spec.Apart) (hsound : s.Sound) :
    ∃ s', updateItems (fun s => (targetsTable.of poolId s).map ItemRow.id) TargetObject.id
        deletePoolTarget updatePoolTarget (createPoolTarget poolId) targets s = (.ok (), s') ∧
      Moves poolId { s.content poolId with targets :=
        (specs.map TargetSpec.content : List TargetContent) } s s' := by
  have hfresh : ∀ target ∈ targets, target.id = none :=
    ((List.forall₂_and_left (p := fun target => target.id = none) _ _).mp
      (hmakes.imp fun _ _ hmake => ⟨hmake.fresh, hmake⟩)).1
  have hdelete := deletePoolTargets_ok hsound.targets.nodup
    (own_nodup (t := targetsTable) poolId hsound.targets.nodup)
    fun row hrow => (List.mem_filter.mp hrow).1
  have hempty := without_moves hsound poolId
  obtain ⟨s', hcreate, hmoves⟩ := createPoolTargets_moves hmakes hapart
    hempty.sound
  refine ⟨s', ?_, ?_⟩
  · rw [updateItems_fresh hfresh, Exec.bind_ok hdelete]
    exact hcreate
  · have htrans := hempty.trans hmoves
    rw [hempty.content, Multiset.zero_add] at htrans
    exact htrans

end

end Pools

end Designate
