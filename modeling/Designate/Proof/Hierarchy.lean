import Designate.Proof.Purge
import Designate.Proof.Superzone
import Designate.Proof.ZoneTree

/-!
# A zone is longer than the zone above it

Whatever calls are under way, and whatever becomes of them, the parent of a zone has a
name that is shorter by a label at least. It may not be the closest zone above: the
search for the zones below a new one takes others for them, and a call may come too
late. It may be deleted. But it is never below the zone itself, so that the zones are
a forest, and no deeper than the longest name has labels. A purge counts on that when
it walks up.
-/

namespace Designate

open Exec

namespace Hierarchy

/-- What can happen to the zones: a step of a call that is under way, or a purge. -/
inductive Step where
  | tree (step : TreeStep)
  | purge (ctx : Context) (criterion : PurgeCriterion) (limit : Option Nat)

/-- The name asked for has the format of one, which the schema of a zone sees to. -/
def Step.Admitted : Step → Prop
  | .tree (.createCheck _ zone) => Format.isZonename zone.name = true
  | _ => True

/-- What becomes of everything in one step. -/
def next (conf : Conf) (step : Step) (s : Central) : Central :=
  match step with
  | .tree step => s.next conf step
  | .purge ctx criterion limit => { s with world := (purgeZones ctx criterion limit s.world).2 }

/-- Central before the first zone. -/
def start (w : World) : Central := { world := { w with db := { w.db with zones := [] } } }

/-- The characters of a name. -/
def width (name : String) : Nat := name.toList.length

/-! ## Names -/

/-- What ends in a dot and a name has a label in front. -/
theorem width_of_suffix {name : String} (hname : Format.isZonename name = true) {cs : List Char}
    (h : '.' :: cs <:+ name.toList) : cs.length + 2 ≤ width name := by
  obtain ⟨front, hfront⟩ := h
  have hlen := congrArg List.length hfront
  rw [List.length_append, List.length_cons] at hlen
  cases front with
  | nil => exact absurd hfront.symm (Format.isZonename_head hname cs)
  | cons c front =>
    rw [List.length_cons] at hlen
    unfold width
    omega

theorem width_of_below {name above : String} (hname : Format.isZonename name = true)
    (h : Below name above) : width above + 2 ≤ width name :=
  width_of_suffix hname (below_iff.mp h)

/-- What the search for zones below finds is longer, underscores or not. -/
theorem width_of_like {conf : Conf} {name above : String} (hname : Format.isZonename name = true)
    (habove : Format.isZonename above = true)
    (h : conf.like ('%' :: '.' :: above.toList) name.toList = true) :
    width above + 2 ≤ width name := by
  obtain ⟨t, ht, hfits⟩ := (like_superzone_iff habove _).mp h
  cases hfits with
  | @cons _ c _ cs hfit hrest =>
    obtain rfl := dot_of_fits hfit
    have hwidth := width_of_suffix hname ht
    rwa [← hrest.length_eq] at hwidth

/-- The zone that `create_zone` finds above the new one is above it. -/
theorem createZoneChecks_parent {ctx : Context} {conf : Conf} {zone : NewZone}
    {parent : Option Nat} {subzones : List Zone} {w w' : World} {p : Nat}
    (h : createZoneChecks ctx conf zone w = (.ok (parent, subzones), w')) (hp : parent = some p) :
    ∃ y ∈ w.db.zones, y.id = p ∧ Below zone.name y.name := by
  -- quota, name and TTL are checked first; none of them decides the parent
  obtain ⟨-, -, h⟩ := of_read_bind h
  obtain ⟨-, -, h⟩ := of_read_bind h
  obtain ⟨-, -, h⟩ := of_read_bind h
  obtain ⟨found, hfound, h⟩ := of_read_bind h
  obtain ⟨_, _, h⟩ := of_read_bind h
  obtain ⟨-, h⟩ := of_raiseIf_bind h
  obtain ⟨-, h⟩ := of_raiseIf_bind h
  obtain ⟨hparent, -⟩ := Prod.mk.inj (Except.ok.inj (Prod.mk.inj h).1)
  rw [hparent, hp] at hfound
  unfold parentZoneId at hfound
  split at hfound
  · cases hfound
  · next y hy =>
    split at hfound
    · -- one of the names above was found, and it is the stored zone's name
      obtain ⟨above, habove, hone⟩ := List.exists_of_findSome?_eq_some hy
      have hone : findZoneByName above conf.poolId w.db = .ok y := by
        cases he : findZoneByName above conf.poolId w.db with
        | error e => rw [he] at hone; cases hone
        | ok y' => rw [he] at hone; cases hone; rfl
      have hfiltered := Table.one_eq_ok.mp hone
      obtain ⟨hmem, hcond⟩ := List.mem_filter.mp (hfiltered ▸ List.mem_singleton_self y)
      simp only [Bool.and_eq_true, beq_iff_eq] at hcond
      exact ⟨y, hmem, Option.some.inj (Except.ok.inj hfound),
        hcond.1.1 ▸ mem_parentNames.mp habove⟩
    · cases hfound

theorem width_le {name : String} (h : Format.isZonename name = true) : width name ≤ 254 :=
  (Format.isZonename_iff.mp h).1

theorem width_pos {name : String} (h : Format.isZonename name = true) : 0 < width name :=
  List.length_pos_of_mem (Format.dot_mem_zonename h)

/-! ## Rows -/

/-- Whatever rows there are of the zones `c` and `p`, that of `c` has the longer name. -/
structure Lower (zs : List Zone) (n c p : Nat) : Prop where
  child : c < n
  parent : p < n
  wider : ∀ x ∈ zs, x.id = c → ∀ y ∈ zs, y.id = p → width y.name + 2 ≤ width x.name

/-- Identifiers were handed out once, names have their format, and parents have shorter ones. -/
structure Rows (zs : List Zone) (n : Nat) : Prop where
  ids : (zs.map Zone.id).Nodup
  used : ∀ z ∈ zs, z.id < n
  named : ∀ z ∈ zs, Format.isZonename z.name = true
  parents : ∀ z ∈ zs, ∀ p, z.parentZoneId = some p → Lower zs n z.id p

/-- The old rows that are left have the names they had. -/
structure Later (zs : List Zone) (n : Nat) (zs' : List Zone) (n' : Nat) : Prop where
  counter : n ≤ n'
  names : ∀ x' ∈ zs', x'.id < n → ∃ x ∈ zs, x.id = x'.id ∧ x.name = x'.name

section

variable {zs zs' : List Zone} {n n' c p id : Nat} {f : Zone → Zone}

theorem Later.refl (zs : List Zone) (n : Nat) : Later zs n zs n :=
  ⟨Nat.le_refl n, fun x hx _ => ⟨x, hx, rfl, rfl⟩⟩

theorem Lower.later (h : Lower zs n c p) (hl : Later zs n zs' n') : Lower zs' n' c p where
  child := Nat.lt_of_lt_of_le h.child hl.counter
  parent := Nat.lt_of_lt_of_le h.parent hl.counter
  wider x' hx' hxc y' hy' hyp := by
    obtain ⟨x, hx, hxid, hxname⟩ := hl.names x' hx' (hxc ▸ h.child)
    obtain ⟨y, hy, hyid, hyname⟩ := hl.names y' hy' (hyp ▸ h.parent)
    rw [← hxname, ← hyname]
    exact h.wider x hx (hxid.trans hxc) y hy (hyid.trans hyp)

/-- The row of the new zone is in nobody's way. -/
theorem Lower.inserted {z : Zone} (hz : z.id = n) (hc : c < n)
    (h : ∀ x ∈ zs, x.id = c → width z.name + 2 ≤ width x.name)
    (hused : ∀ x ∈ zs, x.id < n) : Lower (zs ++ [z]) (n + 1) c z.id where
  child := Nat.lt_succ_of_lt hc
  parent := hz ▸ Nat.lt_succ_self _
  wider x hx hxc y hy hyz := by
    have hold : x ∈ zs := by
      rcases List.mem_append.mp hx with hx | hx
      · exact hx
      · rw [List.mem_singleton.mp hx] at hxc
        omega
    have hnew : y = z := by
      rcases List.mem_append.mp hy with hy | hy
      · have := hused y hy
        omega
      · exact List.mem_singleton.mp hy
    rw [hnew]
    exact h x hold hxc

theorem Rows.start (n : Nat) : Rows [] n :=
  ⟨List.nodup_nil, fun _ h => absurd h List.not_mem_nil, fun _ h => absurd h List.not_mem_nil,
    fun _ h => absurd h List.not_mem_nil⟩

/-- More identifiers may have been handed out meanwhile. -/
theorem Rows.counted (h : Rows zs n) (hn : n ≤ n') : Rows zs n' where
  ids := h.ids
  used z hz := Nat.lt_of_lt_of_le (h.used z hz) hn
  named := h.named
  parents z hz p hp := (h.parents z hz p hp).later ⟨hn, (Later.refl zs n).names⟩

/-- An update of a row that leaves its identifier and its name alone. -/
structure Unnamed (f : Zone → Zone) : Prop where
  id : ∀ z, (f z).id = z.id
  name : ∀ z, (f z).name = z.name

theorem later_update (hf : Unnamed f) : Later zs n (Table.update Zone.id id f zs) n := by
  refine ⟨Nat.le_refl n, fun x' hx' _ => ?_⟩
  rcases Table.mem_update.mp hx' with ⟨hx, -⟩ | ⟨x, hx, -, rfl⟩
  · exact ⟨x', hx, rfl, rfl⟩
  · exact ⟨x, hx, (hf.id x).symm, (hf.name x).symm⟩

/-- **A row gets a parent with a shorter name, or keeps its own.** -/
theorem Rows.updated (h : Rows zs n) (hf : Unnamed f)
    (hp : ∀ z ∈ zs, z.id = id → ∀ p, (f z).parentZoneId = some p →
      z.parentZoneId = some p ∨ Lower zs n id p) :
    Rows (Table.update Zone.id id f zs) n where
  ids := by
    rw [Table.map_update fun z _ _ => hf.id z]
    exact h.ids
  used z hz := by
    rcases Table.mem_update.mp hz with ⟨hz, -⟩ | ⟨x, hx, -, rfl⟩
    · exact h.used z hz
    · -- the row that is written has the parent of before, or the new one that is promised to be
      -- lower
      rw [hf.id]
      exact h.used x hx
  named z hz := by
    rcases Table.mem_update.mp hz with ⟨hz, -⟩ | ⟨x, hx, -, rfl⟩
    · exact h.named z hz
    · rw [hf.name]
      exact h.named x hx
  parents z hz p hzp := by
    rcases Table.mem_update.mp hz with ⟨hz, -⟩ | ⟨x, hx, rfl, rfl⟩
    · exact (h.parents z hz p hzp).later (later_update hf)
    · rw [hf.id]
      rcases hp x hx rfl p hzp with hold | hnew
      · exact (h.parents x hx p hold).later (later_update hf)
      · exact hnew.later (later_update hf)

/-- **A new zone below one with a shorter name.** -/
theorem Rows.inserted {z : Zone} (h : Rows zs n) (hz : z.id = n)
    (hname : Format.isZonename z.name = true)
    (hp : ∀ p, z.parentZoneId = some p →
      p < n ∧ ∀ y ∈ zs, y.id = p → width y.name + 2 ≤ width z.name) :
    Rows (zs ++ [z]) (n + 1) ∧ Later zs n (zs ++ [z]) (n + 1) := by
  -- the new zone has an identifier that was not given before, so no promise speaks of it
  have hlater : Later zs n (zs ++ [z]) (n + 1) := by
    refine ⟨Nat.le_succ n, fun x hx hlt => ?_⟩
    rcases List.mem_append.mp hx with hx | hx
    · exact ⟨x, hx, rfl, rfl⟩
    · rw [List.mem_singleton.mp hx] at hlt
      omega
  refine ⟨⟨?_, fun x hx => ?_, fun x hx => ?_, fun x hx p hxp => ?_⟩, hlater⟩
  · refine Table.append_nodup h.ids fun x hx => ?_
    have := h.used x hx
    omega
  · rcases List.mem_append.mp hx with hx | hx
    · exact Nat.lt_succ_of_lt (h.used x hx)
    · rw [List.mem_singleton.mp hx, hz]
      exact Nat.lt_succ_self n
  · rcases List.mem_append.mp hx with hx | hx
    · exact h.named x hx
    · rw [List.mem_singleton.mp hx]
      exact hname
  · rcases List.mem_append.mp hx with hx | hx
    · exact (h.parents x hx p hxp).later hlater
    · rw [List.mem_singleton.mp hx] at hxp ⊢
      obtain ⟨hlt, hwider⟩ := hp p hxp
      refine ⟨by omega, Nat.lt_succ_of_lt hlt, fun x' hx' hxz y hy hyp => ?_⟩
      -- the identifier is the new zone's alone, and its parent is an older row
      have hnew : x' = z := by
        rcases List.mem_append.mp hx' with hx' | hx'
        · have := h.used x' hx'
          omega
        · exact List.mem_singleton.mp hx'
      have hold : y ∈ zs := by
        rcases List.mem_append.mp hy with hy | hy
        · exact hy
        · rw [List.mem_singleton.mp hy] at hyp
          omega
      rw [hnew]
      exact hwider y hold hyp

/-! ## The forest -/

/-- Up a chain the names get shorter by two characters a zone. By induction on the chain. -/
theorem Rows.chain_width (h : Rows zs n) {z : Zone} {chain : List Zone}
    (hchain : Purge.IsParentChain zs (z :: chain)) : 2 * (z :: chain).length ≤ width z.name + 1 := by
  induction chain generalizing z with
  | nil =>
    have := width_pos (h.named z (hchain.zones z List.mem_cons_self))
    simp only [List.length_cons, List.length_nil]
    omega
  | cons parent chain ih =>
    obtain ⟨hparent, hrest⟩ := List.isChain_cons_cons.mp hchain.parents
    have hz := hchain.zones z List.mem_cons_self
    have hp := hchain.zones parent (List.mem_cons_of_mem _ List.mem_cons_self)
    have hwider := (h.parents z hz _ hparent).wider z hz rfl parent hp rfl
    have := ih ⟨fun y hy => hchain.zones y (List.mem_cons_of_mem _ hy), hrest⟩
    simp only [List.length_cons] at this ⊢
    omega

/-- **Such rows are a forest that a walk up gets to the end of.** -/
theorem Rows.forest (h : Rows zs n) : Purge.Forest zs where
  ids := h.ids
  shallow chain hchain := by
    cases chain with
    | nil => exact Nat.zero_le _
    | cons z chain =>
      have := h.chain_width hchain
      have := width_le (h.named z (hchain.zones z List.mem_cons_self))
      unfold maximumSubzoneDepth
      omega

/-- Every zone above another has a shorter name. By induction on the way up. -/
theorem Rows.above (h : Rows zs n) {c p : Nat} (hab : Purge.Above zs c p) : Lower zs n c p := by
  induction hab with
  | single hstep =>
    obtain ⟨z, hz, rfl, hp⟩ := hstep
    exact h.parents z hz _ hp
  | @tail q p _ hstep ih =>
    obtain ⟨z, hz, rfl, hp⟩ := hstep
    have hupper := h.parents z hz _ hp
    refine ⟨ih.child, hupper.parent, fun x hx hxc y hy hyp => ?_⟩
    have := ih.wider x hx hxc z hz rfl
    have := hupper.wider z hz rfl y hy hyp
    omega

end

/-! ## The calls under way -/

/--
A `create_zone` that has passed its checks. The names it has read may go meanwhile and do not
come back under the same identifier, so the comparison is asked of those rows that are still
there.
-/
structure Fitting (zs : List Zone) (n : Nat) (c : Creation) : Prop where
  named : Format.isZonename c.zone.name = true
  above : ∀ p, c.parent = some p →
    p < n ∧ ∀ y ∈ zs, y.id = p → width y.name + 2 ≤ width c.zone.name
  below : ∀ z ∈ c.subzones,
    z.id < n ∧ ∀ x ∈ zs, x.id = z.id → width c.zone.name + 2 ≤ width x.name

/-- Every parent that a call under way is still to set has the shorter name. -/
structure Promised (zs : List Zone) (n : Nat) (s : Central) : Prop where
  creating : ∀ c ∈ s.creating, Fitting zs n c
  adopting : ∀ a ∈ s.adopting, Lower zs n a.2.id a.1
  working : ∀ work ∈ s.working, ∀ z ∈ work.subzones, Lower zs n z.id work.zoneId
  updating : ∀ u ∈ s.updating, ∀ p, u.2.parentZoneId = some p → Lower zs n u.1 p

/--
**The invariant.** The rows in the table are layered by the lengths of their names, and no call
under way will break this when it writes.
-/
structure Layered (s : Central) : Prop where
  rows : Rows s.world.db.zones s.world.nextId
  promised : Promised s.world.db.zones s.world.nextId s

section

variable {zs zs' : List Zone} {n n' id : Nat} {f : Zone → Zone} {s s' : Central} {conf : Conf}
  {ctx : Context}

theorem Fitting.later {c : Creation} (h : Fitting zs n c) (hl : Later zs n zs' n') :
    Fitting zs' n' c where
  named := h.named
  above p hp := by
    obtain ⟨hlt, hwider⟩ := h.above p hp
    refine ⟨Nat.lt_of_lt_of_le hlt hl.counter, fun y' hy' hid => ?_⟩
    obtain ⟨y, hy, hyid, hyname⟩ := hl.names y' hy' (hid ▸ hlt)
    rw [← hyname]
    exact hwider y hy (hyid.trans hid)
  below z hz := by
    obtain ⟨hlt, hwider⟩ := h.below z hz
    refine ⟨Nat.lt_of_lt_of_le hlt hl.counter, fun x' hx' hid => ?_⟩
    obtain ⟨x, hx, hxid, hxname⟩ := hl.names x' hx' (hid ▸ hlt)
    rw [← hxname]
    exact hwider x hx (hxid.trans hid)

theorem Promised.later (h : Promised zs n s) (hl : Later zs n zs' n') : Promised zs' n' s where
  creating c hc := (h.creating c hc).later hl
  adopting a ha := (h.adopting a ha).later hl
  working work hwork z hz := (h.working work hwork z hz).later hl
  updating u hu p hp := (h.updating u hu p hp).later hl

/-- The rows are good ones again, and the promises still good. -/
theorem layered_of (hr : Rows zs' n') (hl : Later zs n zs' n') (hp : Promised zs n s')
    (hw : ZonesAt zs' n' s'.world) : Layered s' := by
  obtain ⟨rfl, hn⟩ := hw
  exact ⟨hr.counted hn, hp.later ⟨Nat.le_trans hl.counter hn, hl.names⟩⟩

/-- A step that leaves the zones alone. -/
theorem Layered.idle (h : Layered s) (hp : Promised s.world.db.zones s.world.nextId s')
    (hw : ZonesAt s.world.db.zones s.world.nextId s'.world) : Layered s' :=
  layered_of h.rows (Later.refl _ _) hp hw

/-- A step that updates a row. -/
theorem Layered.updated (h : Layered s) (hp : Promised s.world.db.zones s.world.nextId s')
    (hf : Unnamed f) (hparent : ∀ z ∈ s.world.db.zones, z.id = id →
      ∀ p, (f z).parentZoneId = some p →
        z.parentZoneId = some p ∨ Lower s.world.db.zones s.world.nextId id p)
    (hw : ZonesAt (Table.update Zone.id id f s.world.db.zones) s.world.nextId s'.world) :
    Layered s' :=
  layered_of (h.rows.updated hf hparent) (later_update hf) hp hw

/-- A step that may have updated a row, and left its parent alone. -/
theorem Layered.touched (h : Layered s) (hp : Promised s.world.db.zones s.world.nextId s')
    (hf : Unnamed f) (hparent : ∀ z, (f z).parentZoneId = z.parentZoneId)
    (hw : ZonesChanged s.world.db.zones s.world.nextId id f s'.world) : Layered s' :=
  hw.elim (h.idle hp) (h.updated hp hf fun z _ _ _ hzp => .inl ((hparent z).symm.trans hzp))

/-! ## The steps -/

/-- What `create_zone` has found above and below the new zone is shorter and longer than it. -/
theorem fitting_of_checks {zone : NewZone} {viewId : Nat} {parent : Option Nat}
    {subzones : List Zone} {w w' : World} (hrows : Rows w.db.zones w.nextId)
    (hname : Format.isZonename zone.name = true)
    (h : createZoneChecks ctx conf zone w = (.ok (parent, subzones), w')) :
    Fitting w.db.zones w.nextId ⟨ctx, zone, viewId, parent, subzones⟩ where
  named := hname
  above p hp := by
    obtain ⟨y, hy, hid, hbelow⟩ := createZoneChecks_parent h hp
    refine ⟨hid ▸ hrows.used y hy, fun y' hy' hid' => ?_⟩
    rw [Table.eq_of_key hrows.ids hy' hy (hid'.trans hid.symm)]
    exact width_of_below hname hbelow
  below z hz := by
    have hfound : z ∈ isSuperzone conf zone.name conf.poolId w.db := createZoneChecks_subzones h ▸ hz
    obtain ⟨hmem, hlike⟩ := List.mem_filter.mp hfound
    simp only [Bool.and_eq_true] at hlike
    refine ⟨hrows.used z hmem, fun x hx hid => ?_⟩
    rw [Table.eq_of_key hrows.ids hx hmem hid]
    exact width_of_like (hrows.named z hmem) hname hlike.1.1

/--
What a deletion writes is neither a name nor a parent, and the work it asks for has no zones to
adopt.
-/
theorem Layered.deleteStore (h : Layered s) (k : Nat) :
    Layered (s.next conf (.deleteStore k)) := by
  unfold Central.next
  dsimp only
  cases hk : s.deleting[k]? with
  | none => exact h
  | some d =>
    -- abandoned or not, a deletion changes neither a name nor a parent
    have hf : Unnamed d.change := by
      unfold Deletion.change
      split <;> exact ⟨fun _ => rfl, fun _ => rfl⟩
    have hparent : ∀ z, (d.change z).parentZoneId = z.parentZoneId := by
      unfold Deletion.change
      split <;> exact fun _ => rfl
    have hzones := storeDeletion_zones (n := s.world.nextId) d s.world (zonesAt_self s.world)
    dsimp only
    cases hr : storeDeletion d.ctx d.zone s.world with
    | mk r w =>
      rw [hr] at hzones
      cases r with
      | error e =>
        exact h.idle ⟨h.promised.creating, h.promised.adopting, h.promised.working,
          h.promised.updating⟩ hzones
      | ok zone =>
        refine h.touched ⟨h.promised.creating, h.promised.adopting, fun work hwork => ?_,
          h.promised.updating⟩ hf hparent (Or.inr hzones.2)
        dsimp only at hwork
        split at hwork
        · exact h.promised.working work hwork
        · rcases List.mem_append.mp hwork with hwork | hwork
          · exact h.promised.working work hwork
          · -- the work of a deletion has no zones to adopt
            rw [List.mem_singleton.mp hwork]
            exact fun z hz => absurd hz List.not_mem_nil

theorem Layered.createCheck (h : Layered s) {zone : NewZone}
    (hname : Format.isZonename zone.name = true) :
    Layered (s.next conf (.createCheck ctx zone)) := by
  unfold Central.next
  dsimp only
  split
  · next parent subzones w viewId hr hview =>
    split
    · refine h.idle ⟨fun c hc => ?_, h.promised.adopting, h.promised.working,
        h.promised.updating⟩ (zonesAt_self s.world)
      rcases List.mem_append.mp hc with hc | hc
      · exact h.promised.creating c hc
      · rw [List.mem_singleton.mp hc]
        exact fitting_of_checks h.rows hname hr
    · exact h
  · exact h

theorem Layered.createStore (h : Layered s) (k : Nat) :
    Layered (s.next conf (.createStore k)) := by
  unfold Central.next
  dsimp only
  cases hk : s.creating[k]? with
  | none => exact h
  | some c =>
    have hc : Fitting s.world.db.zones s.world.nextId c :=
      h.promised.creating c (List.mem_of_getElem? hk)
    have hrest : ∀ c' ∈ s.creating.eraseIdx k, Fitting s.world.db.zones s.world.nextId c' :=
      fun c' hc' => h.promised.creating c' (List.eraseIdx_subset hc')
    dsimp only
    rcases createZoneInStorage_cases c.ctx conf c.zone c.viewId c.parent s.world with
      ⟨e, hr⟩ | hr
    · rw [hr]
      exact h.idle ⟨hrest, h.promised.adopting, h.promised.working, h.promised.updating⟩
        ⟨rfl, Nat.le_succ _⟩
    · rw [hr]
      let z := c.zone.row c.ctx conf s.world.nextId c.viewId c.parent
      obtain ⟨hrows, hlater⟩ := h.rows.inserted (z := z) rfl hc.named hc.above
      have hold := h.promised.later hlater
      refine ⟨hrows, fun c' hc' => (hrest c' hc').later hlater, hold.adopting,
        fun work hwork x hx => ?_, hold.updating⟩
      rcases List.mem_append.mp hwork with hwork | hwork
      · exact hold.working work hwork x hx
      · -- the zones below the new one
        rw [List.mem_singleton.mp hwork] at hx ⊢
        obtain ⟨hlt, hwider⟩ := hc.below x hx
        exact Lower.inserted rfl hlt hwider h.rows.used

/--
Adopting a subzone: the parent it gets was promised by the `create_zone` that found it below the
new zone, and the one it may have to be given back to is its own.
-/
theorem Layered.adopt (h : Layered s) (k : Nat) : Layered (s.next conf (.adopt k ctx)) := by
  unfold Central.next
  dsimp only
  cases hk : s.adopting[k]? with
  | none => exact h
  | some a =>
    obtain ⟨zoneId, subzone⟩ := a
    -- that the new parent has the shorter name was promised when the call was checked
    have hlower : Lower s.world.db.zones s.world.nextId subzone.id zoneId :=
      h.promised.adopting _ (List.mem_of_getElem? hk)
    -- the other adoptions keep their promises, whether this one fails or not
    have hrest : ∀ a ∈ s.adopting.eraseIdx k,
        Lower s.world.db.zones s.world.nextId a.2.id a.1 :=
      fun a ha => h.promised.adopting a (List.eraseIdx_subset ha)
    have hzones := @storeAdoption_zones ctx conf _ _ subzone zoneId s.world (zonesAt_self s.world)
    dsimp only
    cases hr : storeAdoption ctx conf subzone zoneId s.world with
    | mk r w =>
      rw [hr] at hzones
      cases r with
      | error e =>
        exact h.idle ⟨h.promised.creating, hrest, h.promised.working, h.promised.updating⟩ hzones
      | ok pair =>
        obtain ⟨stored, zone⟩ := pair
        obtain ⟨hid, hw⟩ := hzones
        -- the row gets the promised parent, and its old one may have to go back
        refine h.updated (f := subzone.adopted zoneId ctx.now)
          ⟨h.promised.creating, hrest, fun work hwork z hz => ?_, fun u hu p hp => ?_⟩
          ⟨fun _ => rfl, fun _ => rfl⟩ (fun _ _ _ p hp => .inr (Option.some.inj hp ▸ hlower)) hw
        · rcases List.mem_append.mp hwork with hwork | hwork
          · exact h.promised.working work hwork z hz
          · rw [List.mem_singleton.mp hwork] at hz
            exact absurd hz List.not_mem_nil
        · rcases List.mem_append.mp hu with hu | hu
          · exact h.promised.updating u hu p hp
          · -- what was stored is a row as it was read
            rw [List.mem_singleton.mp hu] at hp ⊢
            obtain ⟨found, hfound, hrun⟩ := of_read_bind hr
            obtain ⟨_, _, -, hpure⟩ := bind_eq_ok.mp hrun
            obtain ⟨rfl, -⟩ := Prod.mk.inj (Except.ok.inj (Prod.mk.inj hpure).1)
            obtain ⟨hmem, hfid, -⟩ := findZone_mem hfound
            have hown := h.rows.parents _ hmem p hp
            rw [hfid] at hown
            exact hid ▸ hown

/-- When the worker cannot be told, the subzone gets back what it had. -/
theorem Layered.takeBack (h : Layered s) (k : Nat) :
    Layered (s.next conf (.takeBack k ctx)) := by
  unfold Central.next
  dsimp only
  cases hk : s.updating[k]? with
  | none => exact h
  | some u =>
    -- giving the parent back is a promise too: it was the row's own when it was read
    have hpromised : Promised s.world.db.zones s.world.nextId
        { s with updating := s.updating.eraseIdx k,
                 world := (Designate.takeBack ctx u.1 u.2 s.world).2 } :=
      ⟨h.promised.creating, h.promised.adopting, h.promised.working,
        fun u' hu' => h.promised.updating u' (List.eraseIdx_subset hu')⟩
    rcases @takeBack_zones ctx u.1 u.2 s.world with hw | hw
    · exact h.idle hpromised hw
    · exact h.updated (f := fun z => { z with ttl := u.2.ttl, parentZoneId := u.2.parentZoneId })
        hpromised ⟨fun _ => rfl, fun _ => rfl⟩
        (fun _ _ _ p hp => .inr (h.promised.updating u (List.mem_of_getElem? hk) p hp)) hw

/--
Where the worker has created a zone, the zones below it are to be adopted now, as was promised
with the work.
-/
theorem Layered.report (h : Layered s) (k : Nat) (faults : StatusSite → Bool) (status : Status) :
    Layered (s.next conf (.report k ctx faults status)) := by
  unfold Central.next
  dsimp only
  cases hk : s.working[k]? with
  | none => exact h
  | some work =>
    have hwork := h.promised.working work (List.mem_of_getElem? hk)
    have hrest : ∀ work ∈ s.working.eraseIdx k, ∀ z ∈ work.subzones,
        Lower s.world.db.zones s.world.nextId z.id work.zoneId :=
      fun work hwork => h.promised.working work (List.eraseIdx_subset hwork)
    -- what is reported about a zone ends its action, and moves it nowhere
    have hf : Unnamed (Zone.ending work.action status) := by
      unfold Zone.ending
      split <;> exact ⟨fun _ => rfl, fun _ => rfl⟩
    have hparent : ∀ z, (Zone.ending work.action status z).parentZoneId = z.parentZoneId := by
      unfold Zone.ending
      split <;> exact fun _ => rfl
    have hzones := @updateZoneStatus_zones ctx conf faults work.zoneId work.action status s.world
    dsimp only
    cases hr : updateZoneStatus ctx conf faults work.zoneId work.action status s.world with
    | mk r w =>
      rw [hr] at hzones
      cases r with
      | ok u =>
        refine h.touched ⟨h.promised.creating, fun a ha => ?_, hrest, h.promised.updating⟩
          hf hparent hzones
        dsimp only at ha
        split at ha
        · rcases List.mem_append.mp ha with ha | ha
          · exact h.promised.adopting a ha
          · -- only now are the subzones handed over to be adopted, as promised
            obtain ⟨z, hz, rfl⟩ := List.mem_map.mp ha
            exact hwork z hz
        · exact h.promised.adopting a ha
      | error e =>
        refine h.touched ⟨h.promised.creating, h.promised.adopting, fun work' hwork' => ?_,
          h.promised.updating⟩ hf hparent hzones
        dsimp only at hwork'
        split at hwork'
        · exact h.promised.working work' hwork'
        · exact hrest work' hwork'

theorem Layered.poolReport (h : Layered s) (zoneId : Nat) (message : PoolStatus) :
    Layered (s.next conf (.poolReport ctx zoneId message)) := by
  have hpromised : Promised s.world.db.zones s.world.nextId
      (s.next conf (.poolReport ctx zoneId message)) :=
    ⟨h.promised.creating, h.promised.adopting, h.promised.working, h.promised.updating⟩
  rcases @updateStatus_zones ctx conf message zoneId s.world with hw | ⟨z, -, hw⟩
  · exact h.idle hpromised hw
  · -- even where the zone goes, its row keeps the name and the parent
    have hchange : ∀ row, (message.zoneChange z row).id = row.id ∧
        (message.zoneChange z row).name = row.name ∧
        (message.zoneChange z row).parentZoneId = row.parentZoneId := by
      intro row
      unfold PoolStatus.zoneChange
      generalize updateZoneOrRecordStatus message z.action z.status z.serial = u
      obtain ⟨action, status, deleted⟩ := u
      cases deleted <;> exact ⟨rfl, rfl, rfl⟩
    exact h.touched hpromised ⟨fun row => (hchange row).1, fun row => (hchange row).2.1⟩
      (fun row => (hchange row).2.2) (.inr hw)

theorem Layered.accept (h : Layered s) (zoneId : Nat) (tenantId : Option String) :
    Layered (s.next conf (.accept ctx zoneId tenantId)) := by
  have hpromised : Promised s.world.db.zones s.world.nextId
      (s.next conf (.accept ctx zoneId tenantId)) :=
    ⟨h.promised.creating, h.promised.adopting, h.promised.working, h.promised.updating⟩
  exact h.touched (f := fun z => { z with tenantId := tenantId }) hpromised
    ⟨fun _ => rfl, fun _ => rfl⟩ (fun _ => rfl) (acceptTransfer_zones zoneId tenantId s.world)

/-! ## Purges -/

/-- What a purge leaves of the zones, if they are a forest. -/
theorem purgeZones_rest (ctx : Context) (criterion : PurgeCriterion) (limit : Option Nat)
    {w : World} (h : Purge.Forest w.db.zones) :
    Purge.picked ctx criterion limit w ⊆ w.db.zones ∧
      ∃ result w', purgeZones ctx criterion limit w = (.ok result, w') ∧
        w'.db.zones = Purge.rest w.db.zones (Purge.picked ctx criterion limit w)
          (Purge.picked ctx criterion limit w) := by
  have hsublist := Purge.picked_sublist ctx criterion limit w
  have hsub : Purge.picked ctx criterion limit w ⊆ w.db.zones :=
    (hsublist.trans List.filter_sublist).subset
  have hids : ((Purge.picked ctx criterion limit w).map Zone.id).Nodup :=
    h.ids.sublist ((hsublist.trans List.filter_sublist).map Zone.id)
  -- the walk reads through the context and the criterion, which see all that was picked
  have hpicked : ∀ q ∈ Purge.picked ctx criterion limit w,
      criterion.shows q = true ∧ ctx.sees q.tenantId = true := by
    intro q hq
    have hpicks := (List.mem_filter.mp (hsublist.subset hq)).2
    unfold PurgeCriterion.picks at hpicks
    simp only [Bool.and_eq_true] at hpicks
    exact ⟨hpicks.1.1.2, hpicks.2⟩
  obtain ⟨w', hrun, hw'⟩ := h.forEach_run hsub hids hpicked (w := w) (List.nil_append _)
    (Purge.rest_nil _ _).symm
  refine ⟨hsub, ?_⟩
  cases limit with
  | none => exact ⟨_, w', Exec.bind_ok hrun, hw'⟩
  | some k => exact ⟨_, w', Exec.bind_ok hrun, hw'⟩

/-- A purge hands out no identifier. -/
theorem purgeZones_nextId (criterion : PurgeCriterion) (limit : Option Nat) :
    Keeps (fun w => n ≤ w.nextId) (purgeZones ctx criterion limit) := by
  have hone : ∀ zones zone, Keeps (fun w => n ≤ w.nextId) (purgeOne ctx criterion zones zone) :=
    fun zones zone => Keeps.bind (Keeps.read _) fun _ =>
      Keeps.bind (Keeps.modify fun _ h => h) fun _ => Keeps.write fun w a w' hw h => by
        split at h
        · cases h
        · cases h
          exact hw
  refine Keeps.bind (Keeps.read _) fun found => ?_
  cases limit with
  | none => exact Keeps.bind (Keeps.forEach fun zone _ => hone _ zone) fun _ => Keeps.pure _
  | some k => exact Keeps.bind (Keeps.forEach fun zone _ => hone _ zone) fun _ => Keeps.pure _

/-- **A zone that a purge leaves has a zone above it for a parent, which has the shorter name.** -/
theorem Layered.purge (h : Layered s) (ctx : Context) (criterion : PurgeCriterion)
    (limit : Option Nat) : Layered (next conf (.purge ctx criterion limit) s) := by
  have hforest := h.rows.forest
  obtain ⟨hsub, result, w', hrun, hzones⟩ := purgeZones_rest ctx criterion limit hforest
  have hnext : next conf (.purge ctx criterion limit) s = { s with world := w' } := by
    show { s with world := (purgeZones ctx criterion limit s.world).2 } = _
    rw [hrun]
  have hcounter : s.world.nextId ≤ w'.nextId :=
    (purgeZones_nextId criterion limit).run (Nat.le_refl _) hrun
  let selected := Purge.picked ctx criterion limit s.world
  -- every row that is left is an old one, but for its parent
  have hold : ∀ x' ∈ w'.db.zones, ∃ x ∈ s.world.db.zones,
      x' = { x with parentZoneId := Purge.settled selected selected x.parentZoneId } := by
    intro x' hx'
    rw [hzones] at hx'
    obtain ⟨x, hx, rfl⟩ := List.mem_map.mp hx'
    exact ⟨x, (List.mem_filter.mp hx).1, rfl⟩
  have hlater : Later s.world.db.zones s.world.nextId w'.db.zones s.world.nextId := by
    refine ⟨Nat.le_refl _, fun x' hx' _ => ?_⟩
    obtain ⟨x, hx, rfl⟩ := hold x' hx'
    exact ⟨x, hx, rfl, rfl⟩
  have hrows : Rows w'.db.zones s.world.nextId := by
    refine ⟨?_, fun x' hx' => ?_, fun x' hx' => ?_, fun x' hx' p hp => ?_⟩
    · rw [hzones, Purge.rest_ids]
      exact h.rows.ids.filter _
    · obtain ⟨x, hx, rfl⟩ := hold x' hx'
      exact h.rows.used x hx
    · obtain ⟨x, hx, rfl⟩ := hold x' hx'
      exact h.rows.named x hx
    · obtain ⟨x, hx, rfl⟩ := hold x' hx'
      have hnearest := hforest.walk_nearest hsub hx (hforest.walk_settled hsub x)
      exact (h.rows.above (hnearest.mem p hp).2).later hlater
  rw [hnext]
  exact layered_of hrows hlater
    ⟨h.promised.creating, h.promised.adopting, h.promised.working, h.promised.updating⟩
    ⟨rfl, hcounter⟩

/-- **Every step keeps the names getting shorter upwards.** -/
theorem Layered.next (h : Layered s) {step : Step} (ha : step.Admitted) :
    Layered (next conf step s) := by
  cases step with
  | purge ctx criterion limit => exact h.purge ctx criterion limit
  | tree step =>
    show Layered (s.next conf step)
    cases step with
    | deleteCheck ctx zoneId =>
      unfold Central.next
      dsimp only
      -- a deletion that is refused by its checks leaves no call under way
      split
      · exact h.idle ⟨h.promised.creating, h.promised.adopting, h.promised.working,
          h.promised.updating⟩ (zonesAt_self s.world)
      · exact h
    | deleteStore k => exact h.deleteStore k
    | createCheck ctx zone => exact h.createCheck ha
    | createStore k => exact h.createStore k
    | adopt k ctx => exact h.adopt k
    | takeBack k ctx => exact h.takeBack k
    | report k ctx faults status => exact h.report k faults status
    | poolReport ctx zoneId message => exact h.poolReport zoneId message
    | accept ctx zoneId tenantId => exact h.accept zoneId tenantId

theorem layered_start (w : World) : Layered (start w) where
  rows := Rows.start _
  promised := ⟨fun _ h => absurd h List.not_mem_nil, fun _ h => absurd h List.not_mem_nil,
    fun _ h => absurd h List.not_mem_nil, fun _ h => absurd h List.not_mem_nil⟩

/-! ## Runs -/

/--
A forest in which every zone has a longer name than the zones above it. What a reader of the
zones may rely on: the parent pointers form a forest, and every step up shortens the name.
-/
structure Descending (zs : List Zone) : Prop where
  forest : Purge.Forest zs
  shorter : ∀ z ∈ zs, ∀ p ∈ zs, Purge.Above zs z.id p.id →
    p.name.toList.length + 2 ≤ z.name.toList.length

theorem Layered.descending (h : Layered s) : Descending s.world.db.zones :=
  ⟨h.rows.forest, fun z hz p hp habove => (h.rows.above habove).wider z hz rfl p hp rfl⟩

/--
**Names get shorter upwards in every state that calls in any order and purges lead to**: the
zones are a forest, and no purge has a walk cut off.
-/
theorem run_descending (conf : Conf) (w : World) (steps : List Step)
    (admitted : ∀ step ∈ steps, step.Admitted) :
    (∀ t ∈ Run.transitions (Hierarchy.next conf) steps (start w),
      Descending t.before.world.db.zones ∧ Descending t.after.world.db.zones ∧
        ∀ ctx criterion limit, t.input = .purge ctx criterion limit →
          ∃ result, (purgeZones ctx criterion limit t.before.world).1 = .ok result) ∧
      Descending (Run.final (Hierarchy.next conf) steps (start w)).world.db.zones := by
  have guard : ∀ t ∈ Run.transitions (Hierarchy.next conf) steps (start w), t.input.Admitted :=
    fun t ht => admitted _ (Run.input_mem ht)
  -- one step keeps the invariant; the run lemma carries it to every transition
  have hstep : ∀ step s, Layered s → Step.Admitted step → Layered (Hierarchy.next conf step s) :=
    fun step s h ha => h.next ha
  refine ⟨Run.forall_transitions (G := fun (step : Step) _ => step.Admitted)
    (P := fun s step s' => Descending s.world.db.zones ∧ Descending s'.world.db.zones ∧
      ∀ ctx criterion limit, step = .purge ctx criterion limit →
        ∃ result, (purgeZones ctx criterion limit s.world).1 = .ok result)
    hstep (fun step s h ha => ⟨h.descending, (hstep step s h ha).descending, ?_⟩)
    (layered_start w) guard,
    (Run.invariant (G := fun (step : Step) _ => step.Admitted) hstep (layered_start w)
      guard).2.descending⟩
  -- the walks of a purge end, since layered rows are a forest
  intro ctx criterion limit _
  obtain ⟨-, result, w', hrun, -⟩ := purgeZones_rest ctx criterion limit h.rows.forest
  exact ⟨result, congrArg Prod.fst hrun⟩

end

/-- A zone of the tenant is asked for, and stored. -/
def sampleCreation (name : String) : List Step :=
  [.tree (.createCheck Sample.ctx
    { name := name, tenantId := none, type := .PRIMARY, ttl := none, serial := none
      viewId := some 1 }), .tree (.createStore 0)]

/-- Two zones, one below the other, of which the upper one is purged. -/
def samplePlan : List Step :=
  sampleCreation "example.com." ++ sampleCreation "sub.example.com." ++
    [.purge Sample.ctx ⟨none, fun z => z.name == "example.com."⟩ none]

theorem run_descending_sample :
    Descending (Run.final (Hierarchy.next Sample.confNs) samplePlan
      (start Sample.world)).world.db.zones ∧
    (Run.final (Hierarchy.next Sample.confNs) (samplePlan.take 4)
      (start Sample.world)).world.db.zones.map Zone.parentZoneId = [none, some 11] := by
  refine ⟨(run_descending Sample.confNs Sample.world samplePlan ?_).2, by decide +kernel⟩
  intro step hstep
  simp only [samplePlan, sampleCreation, List.cons_append, List.nil_append, List.mem_cons,
    List.not_mem_nil, or_false] at hstep
  rcases hstep with rfl | rfl | rfl | rfl | rfl
  · show Format.isZonename "example.com." = true
    decide
  · trivial
  · show Format.isZonename "sub.example.com." = true
    decide
  · trivial
  · trivial

/-! ## The quota -/

/-- The zones of a tenant that are not deleted. -/
def live (tenantId : Option String) (zs : List Zone) : Nat :=
  zs.countP fun z => z.tenantId == tenantId && !z.deleted

/-- The new zones of a tenant that have passed the checks, and are not stored yet. -/
def pending (tenantId : Option String) (s : Central) : Nat :=
  s.creating.countP fun c => c.zone.tenantId == tenantId

/-- A zone is handed over to the tenant: an accept for it goes through. -/
def Step.gives (tenantId : Option String) (step : Step) (s : Central) : Bool :=
  match step with
  | .tree (.accept ctx zoneId t) =>
    t == tenantId && (acceptTransfer ctx zoneId t s.world).1.toOption.isSome
  | _ => false

/-- Who asks for a zone sees the tenant it is for, without which the quota counts no zones. -/
def Step.Counted : Step → Prop
  | .tree (.createCheck ctx zone) => ctx.sees (zone.owned ctx).tenantId = true
  | _ => True

/-- An update that neither hands a zone over nor brings it back. -/
structure Settled (f : Zone → Zone) : Prop where
  tenant : ∀ z, (f z).tenantId = z.tenantId
  deleted : ∀ z, z.deleted = true → (f z).deleted = true

/-- An update of one row makes one row more satisfy a condition at most. -/
theorem countP_update_le {κ α : Type} [DecidableEq κ] {key : α → κ} {k : κ} {f : α → α}
    {p : α → Bool} {l : List α} (hl : (l.map key).Nodup) :
    (Table.update key k f l).countP p ≤ l.countP p + 1 := by
  induction l with
  | nil => exact Nat.zero_le _
  | cons a l ih =>
    obtain ⟨hnot, hl⟩ := List.nodup_cons.mp hl
    by_cases ha : key a = k
    · have hsame : Table.update key k f l = l := by
        refine Table.update_id fun b hb hbk => ?_
        exact absurd (ha.trans hbk.symm ▸ List.mem_map_of_mem hb) hnot
      show (_ :: Table.update key k f l).countP p ≤ _
      rw [hsame, List.countP_cons, List.countP_cons]
      split <;> split <;> omega
    · show ((if key a = k then f a else a) :: Table.update key k f l).countP p ≤ _
      rw [if_neg ha, List.countP_cons, List.countP_cons]
      have := ih hl
      omega

section

variable {zs : List Zone} {n id : Nat} {f : Zone → Zone} {s s' : Central} {conf : Conf}
  {tenantId : Option String} {given : Nat}

theorem live_update_le (hf : Settled f) :
    live tenantId (Table.update Zone.id id f zs) ≤ live tenantId zs := by
  unfold live Table.update
  rw [List.countP_map]
  refine List.countP_mono_left fun z _ hz => ?_
  simp only [Function.comp_apply, Bool.and_eq_true, Bool.not_eq_true'] at hz ⊢
  by_cases hid : z.id = id
  · rw [if_pos hid, hf.tenant] at hz
    refine ⟨hz.1, ?_⟩
    cases hdeleted : z.deleted with
    | false => rfl
    | true =>
      rw [hf.deleted z hdeleted] at hz
      exact absurd hz.2 (by simp)
  · rwa [if_neg hid] at hz

theorem live_changed_le (hf : Settled f) {w : World} (h : ZonesChanged zs n id f w) :
    live tenantId w.db.zones ≤ live tenantId zs := by
  rcases h with h | h
  · rw [h.zones]
  · rw [h.zones]
    exact live_update_le hf

/-- A zone that is handed over counts for its new tenant. -/
theorem live_accept_le (hids : (zs.map Zone.id).Nodup) (t : Option String) :
    live tenantId (Table.update Zone.id id (fun z => { z with tenantId := t }) zs) ≤
      live tenantId zs + if t = tenantId then 1 else 0 := by
  by_cases ht : t = tenantId
  · rw [if_pos ht]
    exact countP_update_le hids
  · rw [if_neg ht, Nat.add_zero]
    unfold live Table.update
    rw [List.countP_map]
    refine List.countP_mono_left fun z _ hz => ?_
    dsimp only [Function.comp_apply] at hz
    split at hz
    · exact absurd (eq_of_beq (Bool.and_eq_true_iff.mp hz).1) ht
    · exact hz

/-- A transaction that raises leaves the tables as they were. -/
theorem transaction_raised {α : Type} {m : Call α} {e : Exc} {w w' : World}
    (h : transaction m w = (.error e, w')) : w'.db = w.db := by
  unfold transaction Exec.rollback at h
  split at h
  · exact absurd (Prod.mk.inj h).1 (by simp)
  · obtain ⟨-, rfl⟩ := Prod.mk.inj h
    rfl

/-- An accept that fails hands nothing over: its transaction is rolled back. -/
theorem live_acceptTransfer_le (ctx : Context) (zoneId : Nat) (t : Option String) {w : World}
    (hids : (w.db.zones.map Zone.id).Nodup) :
    live tenantId (acceptTransfer ctx zoneId t w).2.db.zones ≤ live tenantId w.db.zones +
      if (t == tenantId && (acceptTransfer ctx zoneId t w).1.toOption.isSome) then 1 else 0 := by
  cases hr : acceptTransfer ctx zoneId t w with
  | mk result w' =>
    cases result with
    | error e =>
      -- a failed accept counts for nobody, whatever it had written
      have hrolled : w'.db = w.db := transaction_raised hr
      rw [hrolled]
      exact Nat.le_add_right _ _
    | ok u =>
      have hchanged := @acceptTransfer_zones ctx zoneId t w
      rw [hr] at hchanged
      have hif : (if (t == tenantId && (Except.ok u : Except Exc Unit).toOption.isSome) then 1
          else 0) = if t = tenantId then 1 else 0 := by simp [Except.toOption]
      rw [hif]
      rcases hchanged with hzones | hzones
      · rw [hzones.zones]
        exact Nat.le_add_right _ _
      · rw [hzones.zones]
        exact live_accept_le hids t

/-- The checks of a new zone count the zones of its tenant. -/
theorem live_lt_quota {ctx : Context} {zone : NewZone} {found : Option Nat × List Zone}
    {w w' : World} (hsees : ctx.sees zone.tenantId = true)
    (h : createZoneChecks ctx conf zone w = (.ok found, w')) :
    live zone.tenantId w.db.zones < conf.quota zone.tenantId .zones := by
  obtain ⟨_, hquota, -⟩ := of_read_bind h
  have hcount : live zone.tenantId w.db.zones = (w.db.zones.filter fun z =>
      z.tenantId == zone.tenantId && ctx.sees z.tenantId && !z.deleted).length := by
    unfold live
    rw [List.countP_eq_length_filter]
    refine congrArg List.length (List.filter_congr fun z _ => ?_)
    by_cases htenant : z.tenantId = zone.tenantId
    · rw [htenant, hsees, Bool.and_true]
    · rw [beq_eq_false_iff_ne.mpr htenant, Bool.false_and, Bool.false_and, Bool.false_and]
  unfold enforceZoneQuota limitCheck at hquota
  rw [hcount]
  split at hquota
  · cases hquota
  · omega

/-- A step that brings the tenant no more than `given` zones, stored or under way. -/
def Accounted (tenantId : Option String) (given : Nat) (s s' : Central) : Prop :=
  live tenantId s'.world.db.zones + pending tenantId s' ≤
    live tenantId s.world.db.zones + pending tenantId s + given

/-- A step that leaves the calls of `create_zone` alone. -/
theorem account_of (hlive : live tenantId s'.world.db.zones ≤ live tenantId s.world.db.zones)
    (hcreating : s'.creating = s.creating) : Accounted tenantId given s s' := by
  unfold Accounted pending
  rw [hcreating]
  omega

theorem account_deleteStore (k : Nat) :
    Accounted tenantId given s (s.next conf (.deleteStore k)) := by
  unfold Central.next
  dsimp only
  cases hk : s.deleting[k]? with
  | none => exact Nat.le_add_right _ _
  | some d =>
    -- a deletion hands no zone to anybody, and brings none back
    have hf : Settled d.change := by
      unfold Deletion.change
      split
      · exact ⟨fun _ => rfl, fun _ _ => rfl⟩
      · exact ⟨fun _ => rfl, fun _ h => h⟩
    have hzones := storeDeletion_zones (n := s.world.nextId) d s.world (zonesAt_self s.world)
    dsimp only
    cases hr : storeDeletion d.ctx d.zone s.world with
    | mk r w =>
      rw [hr] at hzones
      cases r with
      | error e => exact account_of (Nat.le_of_eq (congrArg (live tenantId) hzones.zones)) rfl
      | ok zone => exact account_of (live_changed_le hf (.inr hzones.2)) rfl

/-- A new zone is counted with those that are there. -/
theorem account_createCheck {ctx : Context} {zone : NewZone}
    (hsees : ctx.sees (zone.owned ctx).tenantId = true) :
    Accounted tenantId given s (s.next conf (.createCheck ctx zone)) ∨
    live tenantId (s.next conf (.createCheck ctx zone)).world.db.zones <
      conf.quota tenantId .zones := by
  unfold Central.next
  dsimp only
  split
  · next parent subzones w viewId hr hview =>
    split
    · by_cases htenant : (zone.owned ctx).tenantId = tenantId
      · right
        rw [← htenant]
        exact live_lt_quota hsees hr
      · left
        unfold Accounted pending
        rw [List.countP_append, List.countP_singleton, if_neg (by simpa using htenant)]
        dsimp only
        omega
    · exact .inl (Nat.le_add_right _ _)
  · exact .inl (Nat.le_add_right _ _)

theorem account_adopt {ctx : Context} (k : Nat) :
    Accounted tenantId given s (s.next conf (.adopt k ctx)) := by
  unfold Central.next
  dsimp only
  cases hk : s.adopting[k]? with
  | none => exact Nat.le_add_right _ _
  | some a =>
    obtain ⟨zoneId, subzone⟩ := a
    -- an adoption writes the parent, which no quota is about
    have hf : Settled (subzone.adopted zoneId ctx.now) := ⟨fun _ => rfl, fun _ h => h⟩
    have hzones := @storeAdoption_zones ctx conf _ _ subzone zoneId s.world (zonesAt_self s.world)
    dsimp only
    cases hr : storeAdoption ctx conf subzone zoneId s.world with
    | mk r w =>
      rw [hr] at hzones
      cases r with
      | error e => exact account_of (Nat.le_of_eq (congrArg (live tenantId) hzones.zones)) rfl
      | ok pair => exact account_of (live_changed_le hf (.inr hzones.2)) rfl

theorem account_takeBack {ctx : Context} (k : Nat) :
    Accounted tenantId given s (s.next conf (.takeBack k ctx)) := by
  unfold Central.next
  dsimp only
  cases hk : s.updating[k]? with
  | none => exact Nat.le_add_right _ _
  | some u =>
    have hf : Settled fun z => { z with ttl := u.2.ttl, parentZoneId := u.2.parentZoneId } :=
      ⟨fun _ => rfl, fun _ h => h⟩
    exact account_of (live_changed_le hf (@takeBack_zones ctx u.1 u.2 s.world)) rfl

theorem account_report {ctx : Context} {faults : StatusSite → Bool} {status : Status}
    (k : Nat) :
    Accounted tenantId given s (s.next conf (.report k ctx faults status)) := by
  unfold Central.next
  dsimp only
  cases hk : s.working[k]? with
  | none => exact Nat.le_add_right _ _
  | some work =>
    -- a report may end a zone, and neither begins one nor hands one over
    have hf : Settled (Zone.ending work.action status) := by
      unfold Zone.ending
      split
      · exact ⟨fun _ => rfl, fun _ _ => rfl⟩
      · exact ⟨fun _ => rfl, fun _ h => h⟩
    have hzones := @updateZoneStatus_zones ctx conf faults work.zoneId work.action status s.world
    dsimp only
    cases hr : updateZoneStatus ctx conf faults work.zoneId work.action status s.world with
    | mk r w =>
      rw [hr] at hzones
      cases r with
      | ok u => exact account_of (live_changed_le hf hzones) rfl
      | error e => exact account_of (live_changed_le hf hzones) rfl

theorem account_poolReport {ctx : Context} (zoneId : Nat) (message : PoolStatus) :
    Accounted tenantId given s (s.next conf (.poolReport ctx zoneId message)) := by
  refine account_of ?_ rfl
  show live tenantId (updateStatus ctx conf message zoneId s.world).2.db.zones ≤ _
  rcases @updateStatus_zones ctx conf message zoneId s.world with hw | ⟨z, -, hw⟩
  · rw [hw.zones]
  · have hf : Settled (message.zoneChange z) := by
      unfold PoolStatus.zoneChange
      generalize updateZoneOrRecordStatus message z.action z.status z.serial = u
      obtain ⟨action, status, deleted⟩ := u
      cases deleted
      · exact ⟨fun _ => rfl, fun _ h => h⟩
      · exact ⟨fun _ => rfl, fun _ _ => rfl⟩
    rw [hw.zones]
    exact live_update_le hf

/-- A new zone is stored, and is no longer under way. -/
theorem account_createStore (k : Nat) :
    Accounted tenantId given s (s.next conf (.createStore k)) := by
  unfold Central.next
  dsimp only
  cases hk : s.creating[k]? with
  | none => exact Nat.le_add_right _ _
  | some c =>
    obtain ⟨hlt, hget⟩ := List.getElem?_eq_some_iff.mp hk
    -- counting does not mind the order, so the call may stand first
    have hperm := (List.getElem_cons_eraseIdx_perm hlt).countP_eq
      fun c => c.zone.tenantId == tenantId
    rw [hget, List.countP_cons] at hperm
    dsimp only
    unfold Accounted pending
    rcases createZoneInStorage_cases c.ctx conf c.zone c.viewId c.parent s.world with
      ⟨e, hr⟩ | hr
    · -- the storage refused: one call fewer is under way, and no row more
      rw [hr]
      dsimp only
      omega
    · rw [hr]
      -- one row more, one call fewer
      have hrow : live tenantId (s.world.db.zones ++
          [c.zone.row c.ctx conf s.world.nextId c.viewId c.parent]) =
            live tenantId s.world.db.zones + if c.zone.tenantId == tenantId then 1 else 0 := by
        unfold live
        rw [List.countP_append, List.countP_singleton]
        simp [NewZone.row]
      show live tenantId (s.world.db.zones ++
        [c.zone.row c.ctx conf s.world.nextId c.viewId c.parent]) +
          (s.creating.eraseIdx k).countP (fun c => c.zone.tenantId == tenantId) ≤ _
      rw [hrow]
      omega

/-- What a purge leaves were there before. -/
theorem live_rest_le (selected purged : List Zone) :
    live tenantId (Purge.rest zs selected purged) ≤ live tenantId zs := by
  unfold live Purge.rest
  rw [List.countP_map]
  exact (List.filter_sublist.countP_le (p := fun z : Zone => z.tenantId == tenantId && !z.deleted))

variable (conf) in
/--
**A step adds to the zones of a tenant, stored or under way, only where one is handed over or
where there are fewer than the quota.**
-/
theorem Layered.account (h : Layered s) {step : Step} (hcounted : step.Counted)
    (tenantId : Option String) :
    live tenantId (Hierarchy.next conf step s).world.db.zones +
        pending tenantId (Hierarchy.next conf step s) ≤
      live tenantId s.world.db.zones + pending tenantId s +
        (if step.gives tenantId s then 1 else 0) ∨
    live tenantId (Hierarchy.next conf step s).world.db.zones < conf.quota tenantId .zones := by
  cases step with
  -- a purge only takes zones away; of the other steps `create_zone` alone looks at the quota
  | purge ctx criterion limit =>
    obtain ⟨-, result, w', hrun, hzones⟩ := purgeZones_rest ctx criterion limit h.rows.forest
    have hnext : Hierarchy.next conf (.purge ctx criterion limit) s = { s with world := w' } := by
      show { s with world := (purgeZones ctx criterion limit s.world).2 } = _
      rw [hrun]
    rw [hnext]
    refine .inl (account_of ?_ rfl)
    show live tenantId w'.db.zones ≤ _
    rw [hzones]
    exact live_rest_le _ _
  | tree step =>
    show live tenantId (s.next conf step).world.db.zones + pending tenantId (s.next conf step) ≤ _ ∨
      live tenantId (s.next conf step).world.db.zones < _
    cases step with
    | deleteCheck ctx zoneId =>
      refine .inl (account_of ?_ ?_)
      · unfold Central.next
        dsimp only
        split <;> exact Nat.le_refl _
      · unfold Central.next
        dsimp only
        split <;> rfl
    | deleteStore k => exact .inl (account_deleteStore k)
    | createCheck ctx zone => exact account_createCheck hcounted
    | createStore k => exact .inl (account_createStore k)
    | adopt k ctx => exact .inl (account_adopt k)
    | takeBack k ctx => exact .inl (account_takeBack k)
    | report k ctx faults status => exact .inl (account_report k)
    | poolReport ctx zoneId message => exact .inl (account_poolReport zoneId message)
    -- an accepted transfer brings a zone without looking at the quota
    | accept ctx zoneId t =>
      left
      show live tenantId (acceptTransfer ctx zoneId t s.world).2.db.zones + pending tenantId s ≤ _
      have hlive : live tenantId (acceptTransfer ctx zoneId t s.world).2.db.zones ≤
          live tenantId s.world.db.zones +
            if (Step.tree (.accept ctx zoneId t)).gives tenantId s then 1 else 0 :=
        live_acceptTransfer_le ctx zoneId t h.rows.ids
      omega

/--
By induction on the steps: what is stored and what is under way grow together only where the
quota allows it, or where a zone is handed over.
-/
theorem Layered.account_run {k : Nat} : ∀ (steps : List Step) {s : Central} {given : Nat},
    Layered s → (∀ step ∈ steps, step.Admitted ∧ step.Counted) →
    (∀ t ∈ Run.transitions (Hierarchy.next conf) steps s, pending tenantId t.after ≤ k) →
    live tenantId s.world.db.zones + pending tenantId s ≤
      conf.quota tenantId .zones + (k - 1) + given →
    live tenantId (Run.final (Hierarchy.next conf) steps s).world.db.zones ≤
      conf.quota tenantId .zones + (k - 1) +
        (given + (Run.transitions (Hierarchy.next conf) steps s).countP fun t =>
          t.input.gives tenantId t.before)
  | [], s, given, _, _, _, hbound => by
    show live tenantId s.world.db.zones ≤ _
    show _ ≤ _ + (given + 0)
    omega
  | step :: steps, s, given, h, admitted, hfew, hbound => by
    obtain ⟨hadmitted, hcounted⟩ := admitted step List.mem_cons_self
    -- fewer than `k` others are under way when the quota is looked at
    have hafter : pending tenantId (Hierarchy.next conf step s) ≤ k :=
      hfew ⟨s, step, Hierarchy.next conf step s⟩ List.mem_cons_self
    have hstep : live tenantId (Hierarchy.next conf step s).world.db.zones +
        pending tenantId (Hierarchy.next conf step s) ≤
          conf.quota tenantId .zones + (k - 1) +
            (given + if step.gives tenantId s then 1 else 0) := by
      -- below the quota there is room for what is under way; else nothing grew
      rcases h.account conf hcounted tenantId with hless | hquota
      · omega
      · omega
    have hrest := account_run steps (h.next hadmitted)
      (fun step' hstep' => admitted step' (List.mem_cons_of_mem _ hstep'))
      (fun t ht => hfew t (List.mem_cons_of_mem _ ht)) hstep
    -- the zones given later are counted by the rest of the run
    have hcount : (Run.transitions (Hierarchy.next conf) (step :: steps) s).countP
        (fun t => t.input.gives tenantId t.before) =
          (Run.transitions (Hierarchy.next conf) steps (Hierarchy.next conf step s)).countP
            (fun t => t.input.gives tenantId t.before) +
          if step.gives tenantId s then 1 else 0 := List.countP_cons
    rw [hcount]
    show live tenantId
      (Run.final (Hierarchy.next conf) steps (Hierarchy.next conf step s)).world.db.zones ≤ _
    omega

/--
**However many calls there are, a tenant has no more zones than its quota, the calls under way
at once but one, and the zones it was handed** by accepts that went through.
-/
theorem run_within_quota (conf : Conf) (w : World) (tenantId : Option String) (k : Nat)
    (steps : List Step) (admitted : ∀ step ∈ steps, step.Admitted ∧ step.Counted)
    (hfew : ∀ t ∈ Run.transitions (Hierarchy.next conf) steps (start w),
      pending tenantId t.after ≤ k) :
    live tenantId (Run.final (Hierarchy.next conf) steps (start w)).world.db.zones ≤
      conf.quota tenantId .zones + (k - 1) +
        (Run.transitions (Hierarchy.next conf) steps (start w)).countP fun t =>
          t.input.gives tenantId t.before := by
  have hrun := Layered.account_run steps (layered_start w) admitted hfew
    (Nat.zero_le (conf.quota tenantId .zones + (k - 1) + 0))
  rwa [Nat.zero_add] at hrun

end

/-- Two zones of a tenant that may have one, both of them checked before either is stored. -/
def sampleRace : List Step :=
  [.tree (.createCheck Sample.ctx
      { name := "example.com.", tenantId := none, type := .PRIMARY, ttl := none, serial := none
        viewId := some 1 }),
    .tree (.createCheck Sample.ctx
      { name := "example.org.", tenantId := none, type := .PRIMARY, ttl := none, serial := none
        viewId := some 1 }),
    .tree (.createStore 0), .tree (.createStore 0)]

/-- The two zones under way at once are one more than the quota. -/
theorem run_within_quota_sample :
    live (some "t") (Run.final (Hierarchy.next { Sample.confNs with quota := fun _ _ => 1 })
      sampleRace (start Sample.world)).world.db.zones = 2 ∧
    live (some "t") (Run.final (Hierarchy.next { Sample.confNs with quota := fun _ _ => 1 })
      sampleRace (start Sample.world)).world.db.zones ≤
        1 + (2 - 1) + (Run.transitions (Hierarchy.next { Sample.confNs with quota := fun _ _ => 1 })
          sampleRace (start Sample.world)).countP fun t =>
            t.input.gives (some "t") t.before := by
  refine ⟨by decide +kernel, run_within_quota { Sample.confNs with quota := fun _ _ => 1 }
    Sample.world (some "t") 2 sampleRace ?_ ?_⟩
  · intro step hstep
    simp only [sampleRace, List.mem_cons, List.not_mem_nil, or_false] at hstep
    rcases hstep with rfl | rfl | rfl | rfl
    · exact ⟨show Format.isZonename "example.com." = true by decide, rfl⟩
    · exact ⟨show Format.isZonename "example.org." = true by decide, rfl⟩
    · exact ⟨trivial, trivial⟩
    · exact ⟨trivial, trivial⟩
  · decide +kernel

end Hierarchy

end Designate
