import Designate.Central.PoolFiles
import Designate.Proof.PoolContents
import Designate.Sample

/-!
# A file of pools, written and read back

What a pool is stored with is written as a document, the document is read as it was written, but
for the order of the maps in it, and makes the fresh items that the rows of the pool are replaced
by. The contents of every pool are then what they were. No zone changes, because the hostnames of
the pool are the same before and after.
-/

namespace Designate

namespace Pools

/-! ## Documents of what is stored -/

/-- What the lists of a pool are made of. -/
structure PoolSpec where
  attributes : List KeyValue
  nsRecords : List NsRecord
  nameservers : List HostPort
  targets : List TargetSpec
  alsoNotifies : List HostPort

def PoolSpec.content (spec : PoolSpec) : Content where
  attributes := spec.attributes
  nsRecords := spec.nsRecords
  nameservers := spec.nameservers
  targets := (spec.targets.map TargetSpec.content : List TargetContent)
  alsoNotifies := spec.alsoNotifies

/-- The unique constraints let the lists in. -/
structure PoolSpec.Apart (spec : PoolSpec) : Prop where
  nsRecords : spec.nsRecords.Pairwise fun a b => nsRecordsTable.clash a b = false
  nameservers : spec.nameservers.Pairwise fun a b => nameserversTable.clash a b = false
  targets : ∀ target ∈ spec.targets, target.Apart
  alsoNotifies : spec.alsoNotifies.Pairwise fun a b => alsoNotifiesTable.clash a b = false

def KeyValue.entry (c : KeyValue) : String × String := (c.key, c.value)

def HostPort.doc (c : HostPort) : HostPortDoc := ⟨some c.host, some c.port⟩

def NsRecord.doc (c : NsRecord) : NsRecordDoc := ⟨some c.priority, some c.hostname⟩

def TargetSpec.doc (spec : TargetSpec) : TargetDoc :=
  ⟨some spec.columns.type, spec.columns.tsigkeyId.map some, spec.columns.description.map some,
    some (spec.options.map KeyValue.entry), some (spec.masters.map HostPort.doc)⟩

def PoolSpec.doc (spec : PoolSpec) (row : PoolRow) : PoolDoc :=
  ⟨some row.id, some row.name, row.description.map some,
    some (spec.attributes.map KeyValue.entry), some (spec.nsRecords.map NsRecord.doc),
    some (spec.nameservers.map HostPort.doc), some (spec.targets.map TargetSpec.doc),
    some (spec.alsoNotifies.map HostPort.doc)⟩

/-- The columns of the rows of an owner, one after another. -/
def ownColumns {κ : Type} (rows : List (ItemRow κ)) (owner : Nat) : List κ :=
  (rows.filter fun row => row.owner == owner).map ItemRow.columns

def targetSpec (s : State) (row : ItemRow Target) : TargetSpec :=
  ⟨row.columns, ownColumns s.targetOptions row.id, ownColumns s.targetMasters row.id⟩

/-- What a pool is stored with. -/
def State.spec (s : State) (poolId : Nat) : PoolSpec where
  attributes := ownColumns s.attributes poolId
  nsRecords := ownColumns s.nsRecords poolId
  nameservers := ownColumns s.nameservers poolId
  targets := (s.targets.filter fun row => row.owner == poolId).map (targetSpec s)
  alsoNotifies := ownColumns s.alsoNotifies poolId

theorem spec_content (s : State) (poolId : Nat) : (s.spec poolId).content = s.content poolId := by
  unfold PoolSpec.content State.spec State.content targetsOf
  rw [List.map_map]
  rfl

theorem spec_apart {s : State} (h : s.Sound) (poolId : Nat) : (s.spec poolId).Apart where
  nsRecords := h.nsRecords.own_apart poolId
  nameservers := h.nameservers.own_apart poolId
  targets := by
    intro target hmem
    obtain ⟨row, _, rfl⟩ := List.mem_map.mp hmem
    exact ⟨h.targetOptions.own_apart row.id, h.targetMasters.own_apart row.id⟩
  alsoNotifies := h.alsoNotifies.own_apart poolId

/-! ## Rendering -/

theorem foldl_assign (dict : List (String × String)) {entries : List (String × String)}
    (hnodup : (entries.map Prod.fst).Nodup)
    (hnew : ∀ p ∈ entries, dict.lookup p.1 = none) :
    entries.foldl (fun dict p => Objects.assign dict p.1 p.2) dict = dict ++ entries := by
  induction entries generalizing dict with
  | nil => rw [List.foldl_nil, List.append_nil]
  | cons p entries ih =>
    rw [List.map_cons, List.nodup_cons] at hnodup
    -- a new key goes to the end
    have hassign : Objects.assign dict p.1 p.2 = dict ++ [p] := by
      unfold Objects.assign
      rw [hnew p List.mem_cons_self]
      rfl
    rw [List.foldl_cons, hassign, ih _ hnodup.2 ?_, List.append_assoc, List.singleton_append]
    intro q hq
    have hne : (q.1 == p.1) = false := by
      have hmem : q.1 ∈ entries.map Prod.fst := List.mem_map_of_mem hq
      refine beq_eq_false_iff_ne.mpr fun heq => hnodup.1 ?_
      rw [← heq]
      exact hmem
    rw [List.lookup_append, hnew q (List.mem_cons_of_mem _ hq), List.lookup_cons, hne]
    rfl

/-- Under distinct keys the map has all of the list. -/
theorem renderMap_rows {rows : List (ItemRow KeyValue)}
    (hkeys : (rows.map fun row => row.columns.key).Nodup) :
    renderMap (rows.map KeyValueObject.ofRow) =
      (rows.map ItemRow.columns).map KeyValue.entry := by
  have hentries : ((rows.map ItemRow.columns).map KeyValue.entry).map Prod.fst =
      rows.map fun row => row.columns.key := by
    rw [List.map_map, List.map_map]
    rfl
  have hfold := foldl_assign [] (by rw [hentries]; exact hkeys) fun _ _ => rfl
  unfold renderMap
  rw [List.foldl_map]
  rw [List.map_map, List.foldl_map, List.nil_append] at hfold
  rw [List.map_map]
  exact hfold

theorem mapM_rendered {α β γ : Type} {f : α → β} {g : β → Option γ} {h : α → γ} (l : List α)
    (hall : ∀ a ∈ l, g (f a) = some (h a)) : (l.map f).mapM g = some (l.map h) := by
  induction l with
  | nil => rfl
  | cons a l ih =>
    rw [List.map_cons, List.mapM_cons, hall a List.mem_cons_self,
      ih fun b hb => hall b (List.mem_cons_of_mem _ hb)]
    rfl

theorem render_hostPorts (rows : List (ItemRow HostPort)) :
    (rows.map HostPortObject.ofRow).mapM HostPortObject.render =
      some ((rows.map ItemRow.columns).map HostPort.doc) := by
  rw [List.map_map]
  exact mapM_rendered rows fun _ _ => rfl

theorem render_nsRecords (rows : List (ItemRow NsRecord)) :
    (rows.map NsRecordObject.ofRow).mapM NsRecordObject.render =
      some ((rows.map ItemRow.columns).map NsRecord.doc) := by
  rw [List.map_map]
  exact mapM_rendered rows fun _ _ => rfl

section

variable {s : State}

/-- Options have distinct keys. -/
theorem option_keys (hsound : s.Sound) (targetId : Nat) :
    ((targetOptionsTable.of targetId s).map fun row => row.columns.key).Nodup := by
  have hapart := hsound.targetOptions.own_apart targetId
  rw [List.pairwise_map] at hapart
  refine List.pairwise_map.mpr (hapart.imp fun hclash => ?_)
  exact beq_eq_false_iff_ne.mp hclash

theorem render_target (hsound : s.Sound) (row : ItemRow Target) :
    (targetOf s row).render = some (targetSpec s row).doc := by
  have hmasters := render_hostPorts (targetMastersTable.of row.id s)
  have hoptions := renderMap_rows (option_keys hsound row.id)
  unfold TargetObject.render targetOf
  simp only [Option.bind_eq_bind, Option.bind_some, hmasters, hoptions]
  rfl

/-- A pool whose attributes have distinct keys is written as it is stored. -/
theorem render_pool (hsound : s.Sound) {row : PoolRow}
    (hkeys : ((s.spec row.id).attributes.map KeyValue.key).Nodup) :
    (poolOf s row).render = some ((s.spec row.id).doc row) := by
  have hattributes : renderMap ((attributesTable.of row.id s).map KeyValueObject.ofRow) =
      (s.spec row.id).attributes.map KeyValue.entry := by
    refine renderMap_rows ?_
    rw [State.spec, ownColumns, List.map_map] at hkeys
    exact hkeys
  have hnsRecords := render_nsRecords (nsRecordsTable.of row.id s)
  have hnameservers := render_hostPorts (nameserversTable.of row.id s)
  have htargets : ((targetsTable.of row.id s).map (targetOf s)).mapM TargetObject.render =
      some (((targetsTable.of row.id s).map (targetSpec s)).map TargetSpec.doc) := by
    rw [List.map_map]
    exact mapM_rendered _ fun target _ => render_target hsound target
  have halsoNotifies := render_hostPorts (alsoNotifiesTable.of row.id s)
  unfold Pool.render poolOf
  simp only [Option.bind_eq_bind, Option.bind_some, hattributes, hnsRecords, hnameservers,
    htargets, halsoNotifies]
  rfl

end

/-! ## What is read -/

/-- A document that differs from another by the order in which its maps are gone through. -/
structure TargetDoc.Reordered (doc doc' : TargetDoc) : Prop where
  type : doc'.type = doc.type
  tsigkeyId : doc'.tsigkeyId = doc.tsigkeyId
  description : doc'.description = doc.description
  options : Option.Rel List.Perm doc.options doc'.options
  masters : doc'.masters = doc.masters

structure PoolDoc.Reordered (doc doc' : PoolDoc) : Prop where
  id : doc'.id = doc.id
  name : doc'.name = doc.name
  description : doc'.description = doc.description
  attributes : Option.Rel List.Perm doc.attributes doc'.attributes
  nsRecords : doc'.nsRecords = doc.nsRecords
  nameservers : doc'.nameservers = doc.nameservers
  targets : Option.Rel (List.Forall₂ TargetDoc.Reordered) doc.targets doc'.targets
  alsoNotifies : doc'.alsoNotifies = doc.alsoNotifies

/-- What was dumped is loaded again. -/
def Yaml.Keeps (yaml : Yaml) (docs : List PoolDoc) : Prop :=
  ∃ docs', yaml.safeLoad (yaml.dump docs) = some docs' ∧
    List.Forall₂ PoolDoc.Reordered docs docs'

/-- What is read of a map of entries has the same entries. -/
theorem entries_of_perm {cs : List KeyValue} {entries : List (String × String)}
    (h : (cs.map KeyValue.entry).Perm entries) :
    ∃ cs', entries = cs'.map KeyValue.entry ∧ cs.Perm cs' := by
  refine ⟨entries.map fun p => ⟨p.1, p.2⟩, ?_, ?_⟩
  · rw [List.map_map]
    exact (List.map_id _).symm
  · have hperm := h.map fun p => (⟨p.1, p.2⟩ : KeyValue)
    rw [List.map_map] at hperm
    exact (List.Perm.of_eq (List.map_id cs).symm).trans hperm

theorem reordered_target {spec : TargetSpec} {doc : TargetDoc}
    (h : spec.doc.Reordered doc) (hapart : spec.Apart) :
    ∃ spec' : TargetSpec, doc = spec'.doc ∧ spec'.content = spec.content ∧ spec'.Apart := by
  obtain ⟨type, tsigkeyId, description, options, masters⟩ := doc
  obtain ⟨htype, htsigkeyId, hdescription, hoptions, hmasters⟩ := h
  cases hoptions with
  | some hperm =>
    obtain ⟨cs, rfl, hcs⟩ := entries_of_perm hperm
    -- only the options may have been gone through in another order
    refine ⟨⟨spec.columns, cs, spec.masters⟩, ?_, ?_, ⟨?_, hapart.masters⟩⟩
    · cases htype
      cases htsigkeyId
      cases hdescription
      cases hmasters
      rfl
    · unfold TargetSpec.content
      rw [Multiset.coe_eq_coe.mpr hcs.symm]
    · refine (hcs.pairwise_iff fun {a b} hab => ?_).mp hapart.options
      rw [targetOptions_lawful.clash_comm]
      exact hab

theorem reordered_targets {specs : List TargetSpec} {docs : List TargetDoc}
    (h : List.Forall₂ TargetDoc.Reordered (specs.map TargetSpec.doc) docs)
    (hapart : ∀ spec ∈ specs, spec.Apart) :
    ∃ specs' : List TargetSpec, docs = specs'.map TargetSpec.doc ∧
      specs'.map TargetSpec.content = specs.map TargetSpec.content ∧
      ∀ spec ∈ specs', spec.Apart := by
  induction specs generalizing docs with
  | nil =>
    cases h
    exact ⟨[], rfl, rfl, fun _ hmem => absurd hmem List.not_mem_nil⟩
  | cons spec specs ih =>
    cases h with
    | cons hdoc hdocs =>
      obtain ⟨spec', rfl, hcontent, hspec⟩ := reordered_target hdoc (hapart spec List.mem_cons_self)
      obtain ⟨specs', rfl, hcontents, hspecs⟩ := ih hdocs
        fun other hmem => hapart other (List.mem_cons_of_mem _ hmem)
      refine ⟨spec' :: specs', rfl, ?_, ?_⟩
      · rw [List.map_cons, List.map_cons, hcontent, hcontents]
      · intro other hmem
        rcases List.mem_cons.mp hmem with rfl | htail
        · exact hspec
        · exact hspecs other htail

/-- **A document is read with the contents it was written with.** -/
theorem reordered_pool {spec : PoolSpec} {row : PoolRow} {doc : PoolDoc}
    (h : (spec.doc row).Reordered doc) (hapart : spec.Apart) :
    ∃ spec' : PoolSpec, doc = spec'.doc row ∧ spec'.content = spec.content ∧ spec'.Apart ∧
      spec'.nsRecords = spec.nsRecords := by
  obtain ⟨id, name, description, attributes, nsRecords, nameservers, targets, alsoNotifies⟩ := doc
  obtain ⟨hid, hname, hdescription, hattributes, hnsRecords, hnameservers, htargets,
    halsoNotifies⟩ := h
  cases hattributes with
  | some hperm =>
    cases htargets with
    | some htargets =>
      obtain ⟨cs, rfl, hcs⟩ := entries_of_perm hperm
      obtain ⟨specs, rfl, hcontents, hspecs⟩ := reordered_targets htargets hapart.targets
      refine ⟨⟨cs, spec.nsRecords, spec.nameservers, specs, spec.alsoNotifies⟩, ?_, ?_,
        ⟨hapart.nsRecords, hapart.nameservers, hspecs, hapart.alsoNotifies⟩, rfl⟩
      · cases hid
        cases hname
        cases hdescription
        cases hnsRecords
        cases hnameservers
        cases halsoNotifies
        rfl
      · unfold PoolSpec.content
        rw [Multiset.coe_eq_coe.mpr hcs.symm, hcontents]

/-! ## Fresh items -/

/-- The pool with items that were read. -/
def PoolSpec.fresh (spec : PoolSpec) (pool : Pool) : Pool :=
  { pool with
    attributes := some (spec.attributes.map fun c => KeyValueObject.parse c.entry)
    nsRecords := some (spec.nsRecords.map fun c =>
      ⟨none, Tracked.unset.set c.priority, c.hostname, true⟩)
    nameservers := some (spec.nameservers.map fun c => HostPortObject.parse c.doc)
    targets := some (spec.targets.map fun target => TargetObject.parse target.doc)
    alsoNotifies := some (spec.alsoNotifies.map fun c => HostPortObject.parse c.doc) }

theorem set_loaded {α : Type} [DecidableEq α] (a : α) :
    (Tracked.loaded a).set a = Tracked.loaded a := by
  simp [Tracked.set, Tracked.loaded]

theorem setIf_description (description : Option String) :
    setIf (description.map some) (Tracked.loaded description) = Tracked.loaded description := by
  cases description with
  | none => rfl
  | some text => exact set_loaded (some text)

theorem parse_nsRecords (cs : List NsRecord) :
    (cs.map NsRecord.doc).mapM NsRecordObject.parse =
      some (cs.map fun c => ⟨none, Tracked.unset.set c.priority, c.hostname, true⟩) :=
  mapM_rendered cs fun _ _ => rfl

/-- The document of a pool put into the pool as it is stored. -/
theorem parse_pool (s : State) (row : PoolRow) (spec : PoolSpec) :
    (poolOf s row).parse (spec.doc row) = some (spec.fresh (poolOf s row)) := by
  unfold Pool.parse PoolSpec.doc
  simp only [parse_nsRecords, Option.map_some, Option.bind_eq_bind, Option.bind_some]
  have hname : setIf (some row.name) (poolOf s row).name = (poolOf s row).name :=
    set_loaded row.name
  have hdescription : setIf (row.description.map some) (poolOf s row).description =
      (poolOf s row).description := setIf_description row.description
  rw [hname, hdescription]
  unfold parseList PoolSpec.fresh
  simp only [Option.map_some, List.map_map, Option.some_or]
  rfl

/-- Items that are made of columns are made of them again. -/
theorem made_new {α κ : Type} {make : κ → α} {item : α → Item κ}
    (h : ∀ c, (item (make c)).new = some c) (cs : List κ) :
    List.Forall₂ (fun item c => item.new = some c) ((cs.map make).map item) cs := by
  rw [List.map_map]
  exact List.forall₂_map_left_iff.mpr (List.forall₂_same.mpr fun c _ => h c)

theorem made_fresh {α κ : Type} {make : κ → α} {item : α → Item κ}
    (h : ∀ c, (item (make c)).id = none) (cs : List κ) :
    ∀ i ∈ (cs.map make).map item, i.id = none := by
  rw [List.map_map]
  exact List.forall_mem_map.mpr fun c _ => h c

theorem attributes_new (cs : List KeyValue) :
    List.Forall₂ (fun item c => item.new = some c)
      ((cs.map fun c => KeyValueObject.parse c.entry).map KeyValueObject.item) cs :=
  made_new (fun _ => rfl) cs

theorem hostPorts_new (cs : List HostPort) :
    List.Forall₂ (fun item c => item.new = some c)
      ((cs.map fun c => HostPortObject.parse c.doc).map HostPortObject.item) cs :=
  made_new (fun _ => rfl) cs

theorem nsRecords_new (cs : List NsRecord) :
    List.Forall₂ (fun item c => item.new = some c)
      ((cs.map fun c => (⟨none, Tracked.unset.set c.priority, c.hostname, true⟩ :
        NsRecordObject)).map NsRecordObject.item) cs :=
  made_new (fun _ => rfl) cs

theorem attributes_fresh (cs : List KeyValue) : ∀ item ∈
    (cs.map fun c => KeyValueObject.parse c.entry).map KeyValueObject.item, item.id = none :=
  made_fresh (fun _ => rfl) cs

theorem hostPorts_fresh (cs : List HostPort) : ∀ item ∈
    (cs.map fun c => HostPortObject.parse c.doc).map HostPortObject.item, item.id = none :=
  made_fresh (fun _ => rfl) cs

theorem nsRecords_fresh (cs : List NsRecord) : ∀ item ∈
    (cs.map fun c => (⟨none, Tracked.unset.set c.priority, c.hostname, true⟩ :
      NsRecordObject)).map NsRecordObject.item, item.id = none :=
  made_fresh (fun _ => rfl) cs

theorem targets_make (specs : List TargetSpec) :
    List.Forall₂ TargetObject.Makes
      (specs.map fun target => TargetObject.parse target.doc) specs := by
  refine List.forall₂_map_left_iff.mpr (List.forall₂_same.mpr fun target _ => ?_)
  refine ⟨rfl, ?_, ⟨_, rfl, ?_⟩, ⟨_, rfl, ?_⟩⟩
  · obtain ⟨⟨type, tsigkeyId, description⟩, options, masters⟩ := target
    cases tsigkeyId with
    | none => cases description with
      | none => rfl
      | some text => rfl
    | some id => cases description with
      | none => rfl
      | some text => rfl
  · refine List.forall₂_map_left_iff.mpr ?_
    exact List.forall₂_map_left_iff.mpr (List.forall₂_same.mpr fun _ _ => rfl)
  · refine List.forall₂_map_left_iff.mpr ?_
    exact List.forall₂_map_left_iff.mpr (List.forall₂_same.mpr fun _ _ => rfl)

section

variable {ctx : Context} {s : State} {row : PoolRow} {spec : PoolSpec}

theorem findPool_ok (hsound : s.Sound) (hrow : row ∈ s.pools)
    (hsees : ctx.sees row.tenantId = true) : findPool ctx row.id s = .ok row :=
  Table.find_of_mem hsound.pools hrow rfl hsees

theorem getPool_ok (hsound : s.Sound) (hrow : row ∈ s.pools)
    (hsees : ctx.sees row.tenantId = true) : getPool ctx row.id s = (.ok (poolOf s row), s) := by
  unfold getPool
  rw [Exec.read_apply, findPool_ok hsound hrow hsees]
  rfl

/-- The row of a pool that keeps its columns. -/
theorem updatePoolRow_ok (hsound : s.Sound) (hrow : row ∈ s.pools)
    (hsees : ctx.sees row.tenantId = true) {pool : Pool} (hid : pool.id = row.id)
    (hover : pool.over row = row) : updatePoolRow ctx pool s = (.ok (), s) := by
  have hfind : (Exec.read (findPool ctx pool.id) : PoolCall PoolRow) s = (.ok row, s) := by
    rw [Exec.read_apply, hid, findPool_ok hsound hrow hsees]
  -- no other pool has the name, and the row is written as it is
  have hunique : s.pools.any (fun other => other.id != row.id &&
      other.name == (pool.over row).name) = false := by
    refine List.any_eq_false.mpr fun other hother => ?_
    rw [hover]
    by_cases hname : other.name = row.name
    · have heq := Table.eq_of_key hsound.names hother hrow hname
      simp [heq]
    · simp [hname]
  have hupdate : Table.update PoolRow.id row.id pool.over s.pools = s.pools := by
    refine Table.update_id fun other hother hsame => ?_
    rw [Table.eq_of_key hsound.pools hother hrow hsame]
    exact hover
  unfold updatePoolRow
  rw [Exec.bind_ok hfind]
  unfold Exec.write
  simp only [hunique, hupdate, Bool.false_eq_true, if_false]

/-- **The fresh items of a document become what the pool holds.** -/
theorem updatePoolInStorage_moves (hsound : s.Sound) (hrow : row ∈ s.pools)
    (hsees : ctx.sees row.tenantId = true) (hapart : spec.Apart) :
    ∃ s' updated, updatePoolInStorage ctx (spec.fresh (poolOf s row)) s = (.ok updated, s') ∧
      Moves row.id spec.content s s' := by
  have hstored : updatePoolRow ctx (spec.fresh (poolOf s row)) s = (.ok (), s) :=
    updatePoolRow_ok hsound hrow hsees rfl rfl
  -- attributes may have a key twice
  have hnoClash : spec.attributes.Pairwise fun a b => attributesTable.clash a b = false :=
    List.pairwise_of_forall fun _ _ => rfl
  obtain ⟨s₁, hattributes, h₁⟩ := updatePoolItems_moves row.id attributes_leaf hsound
    (attributes_fresh spec.attributes) (attributes_new spec.attributes) hnoClash
  obtain ⟨s₂, hnsRecords, h₂⟩ := updatePoolItems_moves row.id nsRecords_leaf h₁.sound
    (nsRecords_fresh spec.nsRecords) (nsRecords_new spec.nsRecords) hapart.nsRecords
  obtain ⟨s₃, hnameservers, h₃⟩ := updatePoolItems_moves row.id nameservers_leaf
    h₂.sound (hostPorts_fresh spec.nameservers) (hostPorts_new spec.nameservers)
    hapart.nameservers
  obtain ⟨s₄, htargets, h₄⟩ := updatePoolTargets_moves row.id
    (targets_make spec.targets) hapart.targets h₃.sound
  obtain ⟨s₅, halsoNotifies, h₅⟩ := updatePoolItems_moves row.id alsoNotifies_leaf
    h₄.sound (hostPorts_fresh spec.alsoNotifies) (hostPorts_new spec.alsoNotifies)
    hapart.alsoNotifies
  have hmoves := (((h₁.trans h₂).trans h₃).trans h₄).trans h₅
  have hget : getPool ctx row.id s₅ = (.ok (poolOf s₅ row), s₅) :=
    getPool_ok hmoves.sound (by rw [hmoves.pools]; exact hrow) hsees
  refine ⟨s₅, poolOf s₅ row, ?_, ?_⟩
  · unfold updatePoolInStorage
    rw [Exec.bind_ok hstored]
    refine (Exec.bind_ok hattributes).trans ?_
    refine (Exec.bind_ok hnsRecords).trans ?_
    refine (Exec.bind_ok hnameservers).trans ?_
    refine (Exec.bind_ok htargets).trans ?_
    exact (Exec.bind_ok halsoNotifies).trans hget
  · rw [h₄.content, h₃.content, h₂.content, h₁.content] at hmoves
    exact hmoves

/-! ## The update of a pool -/

/-- Every pool holds what it held, and nothing but identifiers has come and gone. -/
structure Same (s s' : State) : Prop where
  sound : s'.Sound
  pools : s'.pools = s.pools
  world : s'.world = { s.world with nextId := s'.world.nextId }
  content : ∀ q, s'.content q = s.content q

theorem Same.refl (hsound : s.Sound) : Same s s := ⟨hsound, rfl, rfl, fun _ => rfl⟩

theorem Same.trans {s' s'' : State} (h : Same s s') (h' : Same s' s'') : Same s s'' where
  sound := h'.sound
  pools := h'.pools.trans h.pools
  world := by
    rw [h'.world, h.world]
  content q := (h'.content q).trans (h.content q)

theorem Moves.same {s' : State} {q : Nat} (h : Moves q (s.content q) s s') : Same s s' where
  sound := h.sound
  pools := h.pools
  world := h.world
  content q' := by
    by_cases hq : q' = q
    · rw [hq]
      exact h.content
    · exact h.others q' hq

theorem difference_nil {order : List String → List String} (horder : ∀ l, (order l).Perm l)
    {l l' : List String} (h : ∀ x ∈ l, x ∈ l') : difference order l l' = [] := by
  unfold difference
  have hnone : l.dedup.filter (fun x => x ∉ l') = [] :=
    List.filter_eq_nil_iff.mpr fun x hx => by simpa using h x (List.mem_dedup.mp hx)
  rw [hnone]
  exact (horder []).eq_nil

/-- The hostnames that are asked for are those the pool has. -/
theorem hostnames_perm (hcontent : spec.content = s.content row.id) :
    (spec.nsRecords.map NsRecord.hostname).Perm (hostnames row.id s) := by
  have hrecords : (spec.nsRecords : Multiset NsRecord) = columnsOf s.nsRecords row.id :=
    congrArg Content.nsRecords hcontent
  have hperm := (Multiset.coe_eq_coe.mp hrecords).map NsRecord.hostname
  rw [List.map_map] at hperm
  exact hperm

/-- An update that no hostname comes or goes with. -/
theorem updatePool_ok {conf : Conf} {order : List String → List String} {s' : State}
    {pool updated : Pool} {nsRecords : List NsRecordObject} {existing : List String}
    (hset : pool.nsRecords = some nsRecords)
    (hexisting : getPoolNsRecords ctx pool.id s = (.ok existing, s))
    (hstored : updatePoolInStorage ctx pool s = (.ok updated, s'))
    (hcome : difference order (nsRecords.map NsRecordObject.hostname) existing = [])
    (hgo : difference order existing (nsRecords.map NsRecordObject.hostname) = []) :
    updatePool ctx conf order pool s = (.ok updated, s') := by
  unfold updatePool transaction Exec.rollback
  simp only [hset]
  rw [Exec.bind_ok hexisting, Exec.bind_ok hstored, hcome, hgo]
  rfl

/-- **A document with what the pool holds leaves every pool as it is, and every zone.** -/
theorem updatePool_same {conf : Conf} {order : List String → List String}
    (horder : ∀ l, (order l).Perm l) (hsound : s.Sound) (hrow : row ∈ s.pools)
    (hsees : ctx.sees row.tenantId = true) (hapart : spec.Apart)
    (hcontent : spec.content = s.content row.id) :
    ∃ s' updated, updatePool ctx conf order (spec.fresh (poolOf s row)) s = (.ok updated, s') ∧
      Same s s' := by
  obtain ⟨s', updated, hstored, hmoves⟩ :=
    updatePoolInStorage_moves hsound hrow hsees hapart
  rw [hcontent] at hmoves
  refine ⟨s', updated, ?_, hmoves.same⟩
  have helevated : ctx.elevated.sees row.tenantId = true := rfl
  have hexisting : getPoolNsRecords ctx row.id s = (.ok (hostnames row.id s), s) := by
    unfold getPoolNsRecords
    rw [Exec.bind_ok (getPool_ok hsound hrow helevated)]
    rfl
  -- the hostnames stay, so that no NS record of a zone comes or goes
  have hperm := hostnames_perm hcontent
  have hrequested : (spec.nsRecords.map fun c => (⟨none, Tracked.unset.set c.priority, c.hostname,
      true⟩ : NsRecordObject)).map NsRecordObject.hostname =
      spec.nsRecords.map NsRecord.hostname := by
    rw [List.map_map]
    rfl
  have hcome : difference order (spec.nsRecords.map NsRecord.hostname) (hostnames row.id s) = [] :=
    difference_nil horder fun x hx => hperm.subset hx
  have hgo : difference order (hostnames row.id s) (spec.nsRecords.map NsRecord.hostname) = [] :=
    difference_nil horder fun x hx => hperm.symm.subset hx
  refine updatePool_ok rfl hexisting hstored ?_ ?_
  · rw [hrequested]
    exact hcome
  · rw [hrequested]
    exact hgo

/-! ## The commands -/

/-- A document says what a pool holds that the context sees, and its NS records are valid. -/
structure Describes (ctx : Context) (valid : NsRecord → Bool) (s : State) (row : PoolRow)
    (spec : PoolSpec) : Prop where
  mem : row ∈ s.pools
  sees : ctx.sees row.tenantId = true
  apart : spec.Apart
  content : spec.content = s.content row.id
  valid : ∀ c ∈ spec.nsRecords, valid c = true

variable {conf : Conf} {order : List String → List String} {valid : NsRecord → Bool}

theorem called_ok {α : Type} {m : PoolCall α} {a : α} {s' : State} (h : m s = (.ok a, s')) :
    called m s = (.ok a, s') := by
  unfold called
  rw [h]

theorem foundPool_ok (hsound : s.Sound) (hdescribes : Describes ctx valid s row spec) :
    foundPool ctx (spec.doc row) s = (.ok (some (poolOf s row)), s) := by
  have hget := getPool_ok hsound hdescribes.mem hdescribes.sees
  unfold foundPool PoolSpec.doc
  simp only [hget]

theorem parsed_ok (hdescribes : Describes ctx valid s row spec) :
    parsed valid (spec.doc row) (poolOf s row) s = (.ok (spec.fresh (poolOf s row)), s) := by
  have hvalid : (spec.nsRecords.map fun c => (⟨none, Tracked.unset.set c.priority, c.hostname,
      true⟩ : NsRecordObject)).all (NsRecordObject.validates valid) = true := by
    rw [List.all_map]
    exact List.all_eq_true.mpr fun c hc => hdescribes.valid c hc
  unfold parsed
  rw [parse_pool]
  unfold PoolSpec.fresh
  simp only [hvalid, if_true]
  rfl

theorem updateEntry_same (horder : ∀ l, (order l).Perm l) (hsound : s.Sound)
    (hdescribes : Describes ctx valid s row spec) :
    ∃ s', updateEntry ctx conf order valid (spec.doc row) s = (.ok (), s') ∧ Same s s' := by
  obtain ⟨s', updated, hupdate, hsame⟩ := updatePool_same horder hsound hdescribes.mem
    hdescribes.sees hdescribes.apart hdescribes.content
  refine ⟨s', ?_, hsame⟩
  unfold updateEntry
  rw [Exec.bind_ok (foundPool_ok hsound hdescribes)]
  refine (Exec.bind_ok (parsed_ok hdescribes)).trans ?_
  refine (Exec.bind_ok (called_ok hupdate)).trans ?_
  rfl

theorem Describes.of_same {s' : State} (hdescribes : Describes ctx valid s row spec)
    (hsame : Same s s') : Describes ctx valid s' row spec where
  mem := by
    rw [hsame.pools]
    exact hdescribes.mem
  sees := hdescribes.sees
  apart := hdescribes.apart
  content := hdescribes.content.trans (hsame.content row.id).symm
  valid := hdescribes.valid

/-- Entry after entry. -/
theorem updateEntries_same (horder : ∀ l, (order l).Perm l) {docs : List PoolDoc}
    (hsound : s.Sound)
    (hdescribes : ∀ doc ∈ docs, ∃ row spec, doc = PoolSpec.doc spec row ∧
      Describes ctx valid s row spec) :
    ∃ s', Exec.forEach (fun doc => Exec.catching (fun e => decide (e = .pool .PoolNotFound))
        (updateEntry ctx conf order valid doc) (createEntry ctx valid doc)) docs s =
      (.ok (), s') ∧ Same s s' := by
  induction docs generalizing s with
  | nil => exact ⟨s, rfl, Same.refl hsound⟩
  | cons doc docs ih =>
    obtain ⟨row, spec, rfl, hdoc⟩ := hdescribes _ List.mem_cons_self
    obtain ⟨s₁, hentry, hsame⟩ := updateEntry_same horder hsound hdoc
    obtain ⟨s', hrest, hsame'⟩ := ih hsame.sound fun other hmem => by
      obtain ⟨row', spec', hother, hdescribes'⟩ := hdescribes other (List.mem_cons_of_mem _ hmem)
      exact ⟨row', spec', hother, hdescribes'.of_same hsame⟩
    -- the pool is there, and none is created
    have hcaught : Exec.catching (fun e => decide (e = CommandExc.pool .PoolNotFound))
        (updateEntry ctx conf order valid (spec.doc row)) (createEntry ctx valid (spec.doc row)) s =
        (.ok (), s₁) := by
      unfold Exec.catching
      rw [hentry]
    exact ⟨s', (Exec.bind_ok hcaught).trans hrest, hsame.trans hsame'⟩

/-- What the command writes. -/
def fileDocs (ctx : Context) (s : State) : List PoolDoc :=
  (s.pools.filter fun row => ctx.sees row.tenantId).map fun row => (s.spec row.id).doc row

/-- The pools that are written have attributes with distinct keys, and valid NS records. -/
structure Writable (ctx : Context) (valid : NsRecord → Bool) (s : State) : Prop where
  keys : ∀ row ∈ s.pools, ctx.sees row.tenantId = true →
    ((s.spec row.id).attributes.map KeyValue.key).Nodup
  valid : ∀ row ∈ s.pools, ctx.sees row.tenantId = true →
    ∀ c ∈ (s.spec row.id).nsRecords, valid c = true

theorem render_pools (hsound : s.Sound) (hwritable : Writable ctx valid s) :
    ((s.pools.filter fun row => ctx.sees row.tenantId).map (poolOf s)).mapM Pool.render =
      some (fileDocs ctx s) := by
  refine mapM_rendered _ fun row hrow => ?_
  have hmem := List.mem_filter.mp hrow
  exact render_pool hsound (hwritable.keys row hmem.1 hmem.2)

theorem generateFile_ok {yaml : Yaml} (hsound : s.Sound) (hwritable : Writable ctx valid s) :
    generateFile ctx yaml s = (.ok (yaml.dump (fileDocs ctx s)), s) := by
  have hfind : called (findPools ctx) s =
      (.ok ((s.pools.filter fun row => ctx.sees row.tenantId).map (poolOf s)), s) := rfl
  unfold generateFile
  rw [Exec.bind_ok hfind, render_pools hsound hwritable]
  rfl

theorem paired_right {α β : Type} {R : α → β → Prop} {l : List α} {l' : List β}
    (h : List.Forall₂ R l l') {b : β} (hb : b ∈ l') : ∃ a ∈ l, R a b := by
  induction h with
  | nil => exact absurd hb List.not_mem_nil
  | cons hab _ ih =>
    rcases List.mem_cons.mp hb with rfl | htail
    · exact ⟨_, List.mem_cons_self, hab⟩
    · obtain ⟨a, ha, hR⟩ := ih htail
      exact ⟨a, List.mem_cons_of_mem _ ha, hR⟩

/-- What is read says what the pools hold. -/
theorem read_describes {docs : List PoolDoc} (hsound : s.Sound) (hwritable : Writable ctx valid s)
    (hread : List.Forall₂ PoolDoc.Reordered (fileDocs ctx s) docs) :
    ∀ doc ∈ docs, ∃ row spec, doc = PoolSpec.doc spec row ∧ Describes ctx valid s row spec := by
  intro doc hdoc
  obtain ⟨written, hwritten, hreordered⟩ := paired_right hread hdoc
  obtain ⟨row, hrow, rfl⟩ := List.mem_map.mp hwritten
  have hmem := List.mem_filter.mp hrow
  obtain ⟨spec, rfl, hcontent, hapart, hnsRecords⟩ :=
    reordered_pool hreordered (spec_apart hsound row.id)
  refine ⟨row, spec, rfl, hmem.1, hmem.2, hapart, hcontent.trans (spec_content s row.id), ?_⟩
  rw [hnsRecords]
  exact hwritable.valid row hmem.1 hmem.2

/--
**A file that is written and read back changes nothing**: what every pool holds is what it held,
and nothing outside the tables of the pools is touched. The same holds when it is read again.
-/
theorem updateFile_generated (horder : ∀ l, (order l).Perm l) {yaml : Yaml} (hsound : s.Sound)
    (hwritable : Writable ctx valid s)
    (hyaml : ∀ docs, ((s.pools.filter fun row => ctx.sees row.tenantId).map (poolOf s)).mapM
      Pool.render = some docs → yaml.Keeps docs) :
    ∃ text s' s'', generateFile ctx yaml s = (.ok text, s) ∧
      updateFile ctx conf order yaml valid text s = (.ok (), s') ∧ Same s s' ∧
      updateFile ctx conf order yaml valid text s' = (.ok (), s'') ∧ Same s' s'' := by
  obtain ⟨docs, hload, hread⟩ := hyaml _ (render_pools hsound hwritable)
  have hdescribes := read_describes hsound hwritable hread
  obtain ⟨s', hfirst, hsame⟩ := updateEntries_same horder hsound hdescribes
  obtain ⟨s'', hsecond, hsame'⟩ := updateEntries_same horder hsame.sound
    fun doc hdoc => by
      obtain ⟨row, spec, hspec, hrow⟩ := hdescribes doc hdoc
      exact ⟨row, spec, hspec, hrow.of_same hsame⟩
  refine ⟨_, s', s'', generateFile_ok hsound hwritable, ?_, hsame, ?_, hsame'⟩
  · unfold updateFile
    rw [hload]
    exact hfirst
  · unfold updateFile
    rw [hload]
    exact hsecond

/-! ## A pool in a file -/

/-- A pool with these attributes and an NS record of this priority. -/
def filePool (attributes : List (ItemRow KeyValue)) (priority : Nat) : State where
  world := { nextId := 20 }
  pools := [⟨0, "default", none, none, "UNMANAGED"⟩]
  attributes := attributes
  nsRecords := [⟨3, 0, ⟨priority, "ns1.example.net."⟩⟩]
  nameservers := [⟨4, 0, ⟨"192.0.2.1", 53⟩⟩]
  targets := [⟨5, 0, ⟨"bind9", none, some "first"⟩⟩]
  targetOptions := [⟨6, 5, ⟨"host", "192.0.2.1"⟩⟩, ⟨7, 5, ⟨"port", "53"⟩⟩]
  targetMasters := [⟨8, 5, ⟨"192.0.2.9", 5354⟩⟩]
  alsoNotifies := [⟨9, 0, ⟨"192.0.2.8", 53⟩⟩]

/-- The file of such a pool, given the lines of its attributes. Keys are in order, and a text that
looks like a number is quoted. -/
def fileText (attributes : String) (priority : Nat) : String :=
  "- also_notifies:\n  - host: 192.0.2.8\n    port: 53\n" ++ attributes ++
    "  id: 00000000-0000-0000-0000-000000000000\n  name: default\n" ++
    "  nameservers:\n  - host: 192.0.2.1\n    port: 53\n" ++
    "  ns_records:\n  - hostname: ns1.example.net.\n    priority: " ++ toString priority ++ "\n" ++
    "  targets:\n  - description: first\n    masters:\n    - host: 192.0.2.9\n      port: 5354\n" ++
    "    options:\n      host: 192.0.2.1\n      port: '53'\n    type: bind9\n"

/-- What is dumped to a text and loaded from it. -/
def yamlOf (text : String) (docs : List PoolDoc) : Yaml where
  dump _ := text
  safeLoad t := if t = text then some docs else none

theorem yamlOf_loads (text : String) (docs dumped : List PoolDoc) :
    (yamlOf text docs).safeLoad ((yamlOf text docs).dump dumped) = some docs := if_pos rfl

/-- The bounds of a priority. -/
def validPriority (c : NsRecord) : Bool := 1 ≤ c.priority && c.priority ≤ 10000

theorem PoolDoc.Reordered.refl (spec : PoolSpec) (row : PoolRow) :
    (spec.doc row).Reordered (spec.doc row) where
  id := rfl
  name := rfl
  description := rfl
  attributes := .some (List.Perm.refl _)
  nsRecords := rfl
  nameservers := rfl
  targets := .some (List.forall₂_same.mpr fun doc hdoc => by
    obtain ⟨target, _, rfl⟩ := List.mem_map.mp hdoc
    exact ⟨rfl, rfl, rfl, .some (List.Perm.refl _), rfl⟩)
  alsoNotifies := rfl

theorem filePool_sound : (filePool [⟨1, 0, ⟨"tier", "gold"⟩⟩, ⟨2, 0, ⟨"zone", "eu"⟩⟩] 1).Sound where
  pools := by decide
  names := by decide
  attributes := ⟨by decide, by decide, by decide⟩
  nsRecords := ⟨by decide, by decide, by decide⟩
  nameservers := ⟨by decide, by decide, by decide⟩
  targets := ⟨by decide, by decide, by decide⟩
  targetOptions := ⟨by decide, by decide, by decide⟩
  targetMasters := ⟨by decide, by decide, by decide⟩
  alsoNotifies := ⟨by decide, by decide, by decide⟩
  optionOf := by decide
  masterOf := by decide

/-- A pool with an attribute under each of two keys. -/
def twoKeys : State := filePool [⟨1, 0, ⟨"tier", "gold"⟩⟩, ⟨2, 0, ⟨"zone", "eu"⟩⟩] 1

/-- The file of that pool. -/
def twoKeysYaml : Yaml :=
  yamlOf (fileText "  attributes:\n    tier: gold\n    zone: eu\n" 1) (fileDocs Sample.ctx twoKeys)

/-- A pool with two attributes under one key, of which a file has the second. -/
def oneKey : State := filePool [⟨1, 0, ⟨"tier", "gold"⟩⟩, ⟨2, 0, ⟨"tier", "silver"⟩⟩] 1

/-- A pool with an NS record that its schema refuses. -/
def noPriority : State := filePool [] 0

/-- `update` after `generate_file`, where the documents of the file are read as they were written. -/
def rewritten (s : State) (text : String) : Except CommandExc Unit × State :=
  let yaml := yamlOf text (((s.pools.map (poolOf s)).mapM Pool.render).getD [])
  (do
    let text ← generateFile Sample.ctx yaml
    updateFile Sample.ctx Sample.conf id yaml validPriority text : Command Unit) s

theorem updateFile_generated_sample :
    ∃ text s' s'', generateFile Sample.ctx twoKeysYaml twoKeys = (.ok text, twoKeys) ∧
      updateFile Sample.ctx Sample.conf id twoKeysYaml validPriority text twoKeys = (.ok (), s') ∧
      Same twoKeys s' ∧
      updateFile Sample.ctx Sample.conf id twoKeysYaml validPriority text s' = (.ok (), s'') ∧
      Same s' s'' := by
  have hwritable : Writable Sample.ctx validPriority twoKeys := ⟨by decide, by decide⟩
  refine updateFile_generated (fun _ => List.Perm.refl _) filePool_sound hwritable ?_
  intro docs hdocs
  have hrender := render_pools filePool_sound hwritable
  cases hdocs.symm.trans hrender
  refine ⟨_, yamlOf_loads _ _ _, List.forall₂_same.mpr fun doc hdoc => ?_⟩
  obtain ⟨row, _, rfl⟩ := List.mem_map.mp hdoc
  exact PoolDoc.Reordered.refl _ _

theorem attribute_lost :
    ((rewritten oneKey (fileText "  attributes:\n    tier: silver\n" 1)).1 = .ok () ∧
      ((rewritten oneKey (fileText "  attributes:\n    tier: silver\n" 1)).2.content 0).attributes ≠
        (oneKey.content 0).attributes) ∧
    (rewritten noPriority (fileText "  attributes: {}\n" 0)).1 = .error .SystemExit := by
  refine ⟨⟨by decide +kernel, fun heq => ?_⟩, by decide +kernel⟩
  have hcard := congrArg Multiset.card heq
  revert hcard
  decide +kernel

end

end Pools

end Designate
