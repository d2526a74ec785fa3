import Designate.Central.Purge
import Designate.Nearest
import Designate.Sample
import Mathlib.Data.List.Chain
import Mathlib.Data.List.Perm.Subperm
import Mathlib.Logic.Relation

/-!
# What a purge makes of the tree

The zones below a purged one are given to the zone that a walk upwards ends at, and the walk
goes by the parents as they were read before the purge began. It does not matter in which
order the zones are purged: after every turn the zones left have the parents that they had,
but for those already purged, which the walk from them stands for.
-/

namespace Designate

namespace Purge

variable {zones selected purged : List Zone}

/-! ## The tree -/

/-- The zone `x` has the parent `y`. -/
def Parent (zones : List Zone) (x y : Nat) : Prop :=
  ∃ z ∈ zones, z.id = x ∧ z.parentZoneId = some y

/-- The ancestors of a zone, of which the closest is its parent. -/
abbrev Above (zones : List Zone) : Nat → Nat → Prop := Relation.TransGen (Parent zones)

/-- A parent chain: every zone is the parent of the one before it. -/
structure IsParentChain (zones chain : List Zone) : Prop where
  zones : ∀ z ∈ chain, z ∈ zones
  parents : List.IsChain (fun z parent => z.parentZoneId = some parent.id) chain

/--
A forest whose parent chains are not deeper than zones may be. The walk up gives up at that
depth. A chain may repeat a zone, so a bound on all chains also says that there is no cycle.
-/
structure Forest (zones : List Zone) : Prop where
  ids : (zones.map Zone.id).Nodup
  shallow : ∀ chain, IsParentChain zones chain → chain.length ≤ maximumSubzoneDepth

theorem IsParentChain.cons {z parent : Zone} {chain : List Zone}
    (h : IsParentChain zones (parent :: chain)) (hz : z ∈ zones)
    (hparent : z.parentZoneId = some parent.id) : IsParentChain zones (z :: parent :: chain) where
  zones y hy := by
    rcases List.mem_cons.mp hy with rfl | hy
    · exact hz
    · exact h.zones y hy
  parents := List.isChain_cons_cons.mpr ⟨hparent, h.parents⟩

/-- The parent is the closest of all. -/
theorem Forest.nearest_parent (h : Forest zones) {z : Zone} (hz : z ∈ zones) :
    Nearest (Above zones) Set.univ z.id z.parentZoneId where
  mem y hy := ⟨trivial, .single ⟨z, hz, rfl, hy⟩⟩
  closest y _ hy := by
    obtain ⟨p, ⟨z', hz', hid, hp⟩, hpy⟩ := Relation.TransGen.head'_iff.mp hy
    obtain rfl : z' = z := Table.eq_of_key h.ids hz' hz hid
    refine ⟨p, hp, ?_⟩
    rcases Relation.reflTransGen_iff_eq_or_transGen.mp hpy with rfl | hpy
    · exact .inl rfl
    · exact .inr hpy

/-! ## The walk -/

/-- One more step: the walk ends at a parent that is not walked over. -/
theorem walkUpZones_succ (selected : List Zone) (steps : Nat) (z : Zone) :
    walkUpZones selected (steps + 1) z =
      match selected.find? fun q => z.parentZoneId == some q.id with
      | none => .ok z.parentZoneId
      | some parent => walkUpZones selected steps parent := by
  unfold walkUpZones
  rw [Table.walkUp]
  cases selected.find? fun q => z.parentZoneId == some q.id <;> rfl

/-- A walk that is cut off has gone along a chain that long. By induction on the steps. -/
theorem chain_of_walk (hsub : selected ⊆ zones) {steps : Nat} : ∀ {z : Zone} {e : Exc}, z ∈ zones →
    walkUpZones selected steps z = .error e →
    ∃ chain, chain.length = steps ∧ IsParentChain zones (z :: chain) := by
  induction steps with
  | zero =>
    intro z e hz _
    exact ⟨[], rfl, by simpa using hz, List.isChain_singleton _⟩
  | succ steps ih =>
    intro z e hz h
    rw [walkUpZones_succ] at h
    split at h
    · cases h
    · next parent hfind =>
      have hmem := hsub (List.mem_of_find?_eq_some hfind)
      have hparent := List.find?_some hfind
      obtain ⟨chain, hlength, hchain⟩ := ih hmem h
      exact ⟨parent :: chain, by simp [hlength], hchain.cons hz (by simpa using hparent)⟩

/-- A walk comes to the closest zone above that is not walked over. By induction on the steps. -/
theorem Forest.walk_nearest (h : Forest zones) (hsub : selected ⊆ zones) {steps : Nat} :
    ∀ {z : Zone} {o : Option Nat}, z ∈ zones → walkUpZones selected steps z = .ok o →
      Nearest (Above zones) {y | y ∉ selected.map Zone.id} z.id o := by
  induction steps with
  | zero => intro z o _ hwalk; cases hwalk
  | succ steps ih =>
    intro z o hz hwalk
    have hparent := h.nearest_parent hz
    rw [walkUpZones_succ] at hwalk
    split at hwalk
    · next hfind =>
      cases hwalk
      refine hparent.subset (Set.subset_univ _) fun y hy hmem => ?_
      obtain ⟨p, hp, rfl⟩ := List.mem_map.mp hmem
      exact List.find?_eq_none.mp hfind p hp (by simpa using hy)
    · next p hfind =>
      have hp := List.mem_of_find?_eq_some hfind
      have hzp : z.parentZoneId = some p.id := by simpa using List.find?_some hfind
      rw [hzp] at hparent
      -- the parent is walked over: what is closest above it takes its place
      refine hparent.through Relation.TransGen.trans (Set.subset_univ _) ?_ (ih (hsub hp) hwalk)
      exact fun hnot => hnot (List.mem_map_of_mem hp)

/-- Every walk ends, and not because it is cut off. -/
theorem Forest.walk_ends (h : Forest zones) (hsub : selected ⊆ zones) {z : Zone} (hz : z ∈ zones) :
    ∃ o, walkUpZones selected maximumSubzoneDepth z = .ok o := by
  cases hwalk : walkUpZones selected maximumSubzoneDepth z with
  | ok o => exact ⟨o, rfl⟩
  | error e =>
    obtain ⟨chain, hlength, hchain⟩ := chain_of_walk hsub hz hwalk
    have := h.shallow _ hchain
    rw [List.length_cons, hlength] at this
    omega

/-! ## The turns -/

/-- `surviving_parent_id`. -/
def survivingParentId (selected : List Zone) (zone : Zone) : Option Nat :=
  match walkUpZones selected maximumSubzoneDepth zone with
  | .ok o => o
  | .error _ => none

/-- A parent, or what the walk from it comes to once it is purged. -/
def settled (selected purged : List Zone) (parentId : Option Nat) : Option Nat :=
  parentId.bind fun p =>
    (purged.find? fun z => z.id == p).elim (some p) (survivingParentId selected)

/-- The zones that are left, with their parents. -/
def rest (zones selected purged : List Zone) : List Zone :=
  (zones.filter fun z => !purged.any fun q => q.id == z.id).map fun z =>
    { z with parentZoneId := settled selected purged z.parentZoneId }

theorem rest_nil (zones selected : List Zone) : rest zones selected [] = zones := by
  have hsame : ∀ o, settled selected [] o = o := by
    intro o
    cases o <;> rfl
  simp [rest, hsame]

theorem rest_ids (zones selected purged : List Zone) :
    (rest zones selected purged).map Zone.id =
      (zones.map Zone.id).filter fun id => !purged.any fun q => q.id == id := by
  unfold rest
  rw [List.map_map, List.filter_map]
  rfl

/-- The walk from a zone does not end at one that is walked over. -/
theorem Forest.survivingParentId_ne (h : Forest zones) (hsub : selected ⊆ zones) {z q : Zone}
    (hz : z ∈ zones) (hq : q ∈ selected) : survivingParentId selected z ≠ some q.id := by
  obtain ⟨o, hwalk⟩ := h.walk_ends hsub hz
  unfold survivingParentId
  rw [hwalk]
  rintro rfl
  exact ((h.walk_nearest hsub hz hwalk).mem q.id rfl).1 (List.mem_map_of_mem hq)

/-- One more zone purged: its children get the zone that survives, and the others keep theirs. -/
theorem Forest.settled_append (h : Forest zones) (hsub : selected ⊆ zones)
    (hpurged : purged ⊆ selected) {q : Zone} (hq : q ∈ selected) (o : Option Nat) :
    settled selected (purged ++ [q]) o =
      if settled selected purged o = some q.id then survivingParentId selected q
      else settled selected purged o := by
  cases o with
  | none => rfl
  | some p =>
    unfold settled
    rw [Option.bind_some, Option.bind_some, List.find?_append]
    cases hfind : purged.find? fun z => z.id == p with
    | some z =>
      -- the parent was purged before, and the zone is where the walk from it has ended
      have hz := hpurged (List.mem_of_find?_eq_some hfind)
      exact (if_neg (h.survivingParentId_ne hsub (hsub hz) hq)).symm
    | none =>
      rw [Option.none_or, List.find?_singleton, Option.elim_none]
      by_cases hp : q.id = p
      · simp [hp]
      · simp [hp, Ne.symm hp]

/-- What a turn makes of the zones that are left. -/
theorem Forest.rest_append (h : Forest zones) (hsub : selected ⊆ zones)
    (hpurged : purged ⊆ selected) {q : Zone} (hq : q ∈ selected) :
    Table.update Zone.parentZoneId (some q.id) (fun z => { z with parentZoneId := none })
        (Table.remove Zone.id q.id (Table.update Zone.parentZoneId (some q.id)
          (fun z => { z with parentZoneId := survivingParentId selected q })
          (rest zones selected purged))) =
      rest zones selected (purged ++ [q]) := by
  have hparents := h.settled_append hsub hpurged hq
  have hsurvives := h.survivingParentId_ne hsub (hsub hq) hq
  unfold Table.update Table.remove rest
  rw [List.map_map, List.filter_map, List.map_map, List.filter_filter]
  -- what is left and not this zone is what is left with this zone purged
  have hkept : (fun z : Zone => !(purged ++ [q]).any fun z' => z'.id == z.id) =
      fun z => decide (z.id ≠ q.id) && !purged.any fun z' => z'.id == z.id := by
    funext z
    by_cases hz : z.id = q.id
    · simp [hz]
    · simp [hz, Ne.symm hz]
  rw [hkept]
  refine congrArg₂ List.map ?_ ?_
  · funext z
    simp only [Function.comp_apply, hparents]
    by_cases hz : settled selected purged z.parentZoneId = some q.id
    · simp [hz, hsurvives]
    · simp [hz]
  · refine List.filter_congr fun z _ => ?_
    simp only [Function.comp_apply]
    split <;> rfl

/-- The parent a zone is left with is where a walk from it would end. -/
theorem Forest.walk_settled (h : Forest zones) (hsub : selected ⊆ zones) (z : Zone) :
    walkUpZones selected (maximumSubzoneDepth + 1) z =
      .ok (settled selected selected z.parentZoneId) := by
  rw [walkUpZones_succ]
  unfold settled
  cases hparent : z.parentZoneId with
  | none =>
    have hnone : (selected.find? fun q => (none : Option Nat) == some q.id) = none := by
      simp
    rw [hnone]
    rfl
  | some p =>
    have hsame : (fun q : Zone => some p == some q.id) = fun q => q.id == p := by
      funext q
      exact BEq.comm (a := p) (b := q.id)
    rw [hsame, Option.bind_some]
    cases hfind : selected.find? fun q => q.id == p with
    | none => rfl
    | some q =>
      obtain ⟨o, hwalk⟩ := h.walk_ends hsub (hsub (List.mem_of_find?_eq_some hfind))
      simp only [Option.elim_some, survivingParentId, hwalk]

section Run

variable {ctx : Context} {criterion : PurgeCriterion} {w : World}

/-- One turn: the zone goes, and what was below it goes up. -/
theorem Forest.purgeOne_run (h : Forest zones) (hsub : selected ⊆ zones)
    (hpurged : purged ⊆ selected) {q : Zone} (hq : q ∈ selected)
    (hnew : q.id ∉ purged.map Zone.id) (hshows : criterion.shows q = true)
    (hsees : ctx.sees q.tenantId = true) (hw : w.db.zones = rest zones selected purged) :
    ∃ w', purgeOne ctx criterion selected q w = (.ok (), w') ∧
      w'.db.zones = rest zones selected (purged ++ [q]) := by
  obtain ⟨o, hwalk⟩ := h.walk_ends hsub (hsub hq)
  have ho : survivingParentId selected q = o := by
    unfold survivingParentId
    rw [hwalk]
  have hread : (Exec.read fun _ => walkUpZones selected maximumSubzoneDepth q : Call _) w =
      (.ok o, w) := congrArg (fun result => (result, w)) hwalk
  unfold purgeOne purgeTurn
  rw [Exec.bind_ok hread]
  -- the zone itself is still there, as it was but for its parent
  let moved := Table.update Zone.parentZoneId (some q.id)
    (fun z => { z with parentZoneId := o }) w.db.zones
  have hids : moved.map Zone.id = (rest zones selected purged).map Zone.id := by
    show (Table.update _ _ _ w.db.zones).map Zone.id = _
    unfold Table.update
    rw [hw, List.map_map]
    refine List.map_congr_left fun z _ => ?_
    simp only [Function.comp_apply]
    split <;> rfl
  have hmem : ∃ z ∈ moved, z.id = q.id ∧ z.tenantId = q.tenantId ∧ z.deleted = q.deleted := by
    have hleft : ({ q with parentZoneId := settled selected purged q.parentZoneId } : Zone) ∈
        rest zones selected purged := by
      refine List.mem_map.mpr ⟨q, List.mem_filter.mpr ⟨hsub hq, ?_⟩, rfl⟩
      rw [Bool.not_eq_true', List.any_eq_false]
      exact fun z hz hid => hnew (List.mem_map.mpr ⟨z, hz, by simpa using hid⟩)
    refine ⟨_, List.mem_map_of_mem (hw ▸ hleft), ?_⟩
    split
    · exact ⟨rfl, rfl, rfl⟩
    · exact ⟨rfl, rfl, rfl⟩
  obtain ⟨z, hz, hid, htenant, hdeleted⟩ := hmem
  have hfind : Table.find Zone.id q.id (fun z => ctx.sees z.tenantId && criterion.shows z)
      Exc.ZoneNotFound moved = .ok z := by
    refine Table.find_of_mem ?_ hz hid ?_
    · rw [hids, rest_ids]
      exact h.ids.filter _
    · unfold PurgeCriterion.shows at hshows ⊢
      rw [htenant, hsees, hdeleted, hshows]
      rfl
  refine ⟨{ w with db := ({ w.db with zones := moved } : Db).withoutZone q.id }, ?_, ?_⟩
  · show purgeZone ctx criterion q.id { w with db := { w.db with zones := moved } } = _
    unfold purgeZone Exec.write
    dsimp only
    rw [hfind]
  · rw [← h.rest_append hsub hpurged hq, ho]
    show Table.update _ _ _ (Table.remove _ _ (Table.update _ _ _ w.db.zones)) = _
    rw [hw]

/-- The turns that are left. By induction on them. -/
theorem Forest.forEach_run (h : Forest zones) (hsub : selected ⊆ zones)
    (hids : (selected.map Zone.id).Nodup)
    (hpicked : ∀ q ∈ selected, criterion.shows q = true ∧ ctx.sees q.tenantId = true)
    {later : List Zone} : ∀ {purged : List Zone} {w : World}, purged ++ later = selected →
      w.db.zones = rest zones selected purged →
      ∃ w', Exec.forEach (purgeOne ctx criterion selected) later w = (.ok (), w') ∧
        w'.db.zones = rest zones selected selected := by
  induction later with
  | nil =>
    intro purged w hsplit hw
    rw [List.append_nil] at hsplit
    exact ⟨w, rfl, by rw [hw, hsplit]⟩
  | cons q later ih =>
    intro purged w hsplit hw
    have hpurged : purged ⊆ selected := hsplit ▸ List.subset_append_left _ _
    have hq : q ∈ selected := hsplit ▸ List.mem_append_right _ List.mem_cons_self
    have hnew : q.id ∉ purged.map Zone.id := by
      rw [← hsplit, List.map_append, List.map_cons] at hids
      exact fun hmem => (List.nodup_append.mp hids).2.2 _ hmem _ List.mem_cons_self rfl
    obtain ⟨w₁, hone, hw₁⟩ := h.purgeOne_run hsub hpurged hq hnew (hpicked q hq).1
      (hpicked q hq).2 hw
    obtain ⟨w', hrest, hw'⟩ := ih (by simpa using hsplit) hw₁
    exact ⟨w', (Exec.bind_ok hone).trans hrest, hw'⟩

end Run

/-- The zones that a purge picks. -/
def picked (ctx : Context) (criterion : PurgeCriterion) (limit : Option Nat) (w : World) :
    List Zone :=
  let found := w.db.zones.filter fun z => criterion.picks z && ctx.sees z.tenantId
  limit.elim found found.take

theorem picked_sublist (ctx : Context) (criterion : PurgeCriterion) (limit : Option Nat)
    (w : World) : (picked ctx criterion limit w).Sublist
      (w.db.zones.filter fun z => criterion.picks z && ctx.sees z.tenantId) := by
  cases limit with
  | none => exact List.Sublist.refl _
  | some n => exact List.take_sublist n _

/--
**A purge takes away the zones it picks and nothing else**, and leaves every other zone below
the closest of its ancestors that is left. The walks that find it all come to an end.
-/
theorem purgeZones_keeps_hierarchy (ctx : Context) (criterion : PurgeCriterion)
    (limit : Option Nat) {w : World} (h : Forest w.db.zones) :
    ∃ result w', purgeZones ctx criterion limit w = (.ok result, w') ∧
      w'.db.zones.map Zone.id =
        (w.db.zones.map Zone.id).filter
          (fun id => decide (id ∉ (picked ctx criterion limit w).map Zone.id)) ∧
      (∀ z' ∈ w'.db.zones, ∃ z ∈ w.db.zones, z' = { z with parentZoneId := z'.parentZoneId } ∧
        Nearest (Above w.db.zones) {y | y ∉ (picked ctx criterion limit w).map Zone.id} z.id
          z'.parentZoneId) ∧
      ∀ z ∈ w.db.zones, ∃ o,
        walkUpZones (picked ctx criterion limit w) maximumSubzoneDepth z = .ok o := by
  have hsublist := picked_sublist ctx criterion limit w
  have hpicked : ∀ q ∈ picked ctx criterion limit w, q ∈ w.db.zones ∧
      criterion.picks q = true ∧ ctx.sees q.tenantId = true := by
    intro q hq
    obtain ⟨hmem, hpicks⟩ := List.mem_filter.mp (hsublist.subset hq)
    exact ⟨hmem, by simpa using hpicks⟩
  have hsub : picked ctx criterion limit w ⊆ w.db.zones := fun q hq => (hpicked q hq).1
  have hids : ((picked ctx criterion limit w).map Zone.id).Nodup :=
    h.ids.sublist ((hsublist.trans List.filter_sublist).map Zone.id)
  -- the loop, with the zones still to come as what is left of the pick
  obtain ⟨w', hrun, hw'⟩ := h.forEach_run hsub hids
    (fun q hq => by
      obtain ⟨_, hpicks, hsees⟩ := hpicked q hq
      unfold PurgeCriterion.picks at hpicks
      simp only [Bool.and_eq_true] at hpicks
      exact ⟨hpicks.1.2, hsees⟩) (w := w) (List.nil_append _) (rest_nil _ _).symm
  -- the limit only decides what is answered
  have hresult : ∃ result, purgeZones ctx criterion limit w = (.ok result, w') := by
    cases limit with
    | none => exact ⟨_, Exec.bind_ok hrun⟩
    | some n => exact ⟨_, Exec.bind_ok hrun⟩
  obtain ⟨result, hresult⟩ := hresult
  refine ⟨result, w', hresult, ?_, ?_, fun z hz => h.walk_ends hsub hz⟩
  · rw [hw', rest_ids]
    refine List.filter_congr fun id _ => ?_
    rw [Bool.eq_iff_iff]
    simp
  · intro z' hz'
    rw [hw'] at hz'
    -- a zone that is left has at most its parent changed, to where the walk came out
    obtain ⟨z, hz, rfl⟩ := List.mem_map.mp hz'
    have hmem := (List.mem_filter.mp hz).1
    exact ⟨z, hmem, rfl, h.walk_nearest hsub hmem (h.walk_settled hsub z)⟩

/-- Zones that are older than those below them are a forest, and no deeper than there are zones. -/
theorem forest_of_older (hids : (zones.map Zone.id).Nodup)
    (holder : ∀ z ∈ zones, ∀ p, z.parentZoneId = some p → p < z.id)
    (hlength : zones.length ≤ maximumSubzoneDepth) : Forest zones where
  ids := hids
  shallow chain hchain := by
    -- up a chain the identifiers get smaller, so no zone is there twice
    have hdescends : chain.Pairwise fun z z' => z'.id < z.id := by
      have : List.IsChain (fun z z' : Zone => z'.id < z.id) chain := by
        refine List.IsChain.imp_of_mem_imp ?_ hchain.parents
        intro z z' hz _ hparent
        exact holder z (hchain.zones z hz) _ hparent
      exact List.isChain_iff_pairwise.mp this
    have hnodup : chain.Nodup := hdescends.imp fun hlt heq => by
      rw [heq] at hlt
      exact Nat.lt_irrefl _ hlt
    exact Nat.le_trans (List.Nodup.subperm hnodup hchain.zones).length_le hlength

/-- A zone below a deleted one, which is below a live one. -/
def sampleWorld : World :=
  { Sample.world with
    db := { Sample.world.db with
      zones := [Sample.zone,
        { Sample.zone with id := 12, name := "b.example.com.", parentZoneId := some 2, deleted := true },
        { Sample.zone with id := 13, name := "a.b.example.com.", parentZoneId := some 12 }] } }

/-- With the deleted zone purged, the one below it is below the live one. -/
theorem purgeZones_keeps_hierarchy_sample :
    ∃ result w', purgeZones Sample.ctx ⟨some id, fun _ => true⟩ none sampleWorld = (.ok result, w') ∧
      w'.db.zones.map Zone.id = [2, 13] := by
  have hforest : Forest sampleWorld.db.zones := forest_of_older (by decide) (by decide) (by decide)
  obtain ⟨result, w', hrun, hids, _⟩ :=
    purgeZones_keeps_hierarchy Sample.ctx ⟨some id, fun _ => true⟩ none hforest
  exact ⟨result, w', hrun, hids.trans (by decide)⟩

end Purge

end Designate
