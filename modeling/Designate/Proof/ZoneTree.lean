import Designate.Proof.ZoneRows
import Designate.Sample

/-!
# No zone below one that is gone

A zone that is to go may not get a zone below it any more, and one that has zones
below it may not be told to go. The calls look first and change later, so that the
first is not looked at again when the second happens. The invariant says what the
steps have to be careful about: the parent of a live zone is live and nobody is
removing it.
-/

namespace Designate

open Exec

namespace Central

/-- Some call under way may still remove the zone `p`, or its row says that it is to go. -/
inductive Leaving (s : Central) (p : Nat) : Prop where
  /-- `delete_zone` has checked it. -/
  | checked {d : Deletion} (hd : d ∈ s.deleting) (hp : d.zone.id = p)
  /-- The worker is deleting it, or is at creating it and may fail. -/
  | worked {work : Work} (hw : work ∈ s.working) (hp : work.zoneId = p)
    (ha : work.action = .DELETE ∨ work.action = .CREATE)
  | marked {z : Zone} (hz : z ∈ s.world.db.zones) (hp : z.id = p) (hlive : z.deleted = false)
    (ha : z.action = .DELETE)

/-- There is a zone `p`. -/
def Live (s : Central) (p : Nat) : Prop := ∃ z ∈ s.world.db.zones, z.id = p ∧ z.deleted = false

/-- The zone `p` is live, and nobody is removing it. -/
structure Fine (s : Central) (p : Nat) : Prop where
  live : s.Live p
  stays : ¬ s.Leaving p

/-- No live zone is below the zone `p`. -/
def Childless (s : Central) (p : Nat) : Prop :=
  ∀ z ∈ s.world.db.zones, z.deleted = false → z.parentZoneId ≠ some p

/-- **The parent of a live zone is fine.** Identifiers are unique and were handed out. -/
structure Rooted (s : Central) : Prop where
  ids : (s.world.db.zones.map Zone.id).Nodup
  used : ∀ z ∈ s.world.db.zones, z.id < s.world.nextId
  parent : ∀ z ∈ s.world.db.zones, z.deleted = false → ∀ p, z.parentZoneId = some p → s.Fine p

/-- No live zone has a parent that is deleted or absent. -/
def NoDanglingParent (s : Central) : Prop :=
  ∀ z ∈ s.world.db.zones, z.deleted = false → ∀ p, z.parentZoneId = some p → s.Live p

/-- What a step from `s` leads to: again a rooted state, where no zone with one below it is gone. -/
structure Follows (s s' : Central) : Prop where
  rooted : s'.Rooted
  removed : ∀ p, s.Live p → s'.Live p ∨ s.Childless p

section

variable {s s' : Central} {p id : Nat} {f : Zone → Zone}

theorem Rooted.noDanglingParent (h : s.Rooted) : s.NoDanglingParent :=
  fun z hz hlive p hp => (h.parent z hz hlive p hp).live

theorem Rooted.stays (h : s.Rooted) : s.Follows s := ⟨h, fun _ => Or.inl⟩

/-- A zone that is leaving has no zone below it. -/
theorem Rooted.childless (h : s.Rooted) (hp : s.Leaving p) : s.Childless p :=
  fun z hz hlive he => (h.parent z hz hlive p he).stays hp

/-! ## Rows that change -/

/-- An update of the row `id` that leaves the tree alone where it matters. -/
structure Mild (s : Central) (id : Nat) (f : Zone → Zone) : Prop where
  key : ∀ z, (f z).id = z.id
  /-- A deleted zone stays deleted, and a live one goes only without zones below it. -/
  deleted : ∀ z, z.deleted = true → (f z).deleted = true
  drops : ∀ z, z.deleted = false → (f z).deleted = true → s.Childless id
  /-- A new parent is fine. -/
  parent : ∀ z ∈ s.world.db.zones, z.id = id → ∀ p, (f z).parentZoneId = some p →
    z.parentZoneId = some p ∨ s.Fine p
  /-- Only the row of a zone that is leaving says that it is to go. -/
  action : ∀ z ∈ s.world.db.zones, z.id = id → z.deleted = false → (f z).action = .DELETE →
    s.Leaving id

/-- Calls under way in `s'` that may remove a zone, may do so in `s`. -/
structure Under (s s' : Central) : Prop where
  deleting : ∀ d ∈ s'.deleting, s.Leaving d.zone.id
  working : ∀ work ∈ s'.working, work.action = .DELETE ∨ work.action = .CREATE →
    s.Leaving work.zoneId

theorem Under.leaving (hu : s.Under s') (hz : s'.world.db.zones = s.world.db.zones)
    (h : s'.Leaving p) : s.Leaving p := by
  cases h with
  | checked hd hp => exact hp ▸ hu.deleting _ hd
  | worked hwork hp ha => exact hp ▸ hu.working _ hwork ha
  | marked hm hp hlive ha => exact .marked (hz ▸ hm) hp hlive ha

/-- Nothing happened to the zones, and only childless zones are leaving besides. -/
theorem Rooted.same (h : s.Rooted) (hl : ∀ p, s'.Leaving p → s.Leaving p ∨ s.Childless p)
    (hw : ZonesAt s.world.db.zones s.world.nextId s'.world) : s.Follows s' := by
  have hlive : ∀ p, s.Live p → s'.Live p := fun p h => by unfold Live; rw [hw.zones]; exact h
  refine ⟨⟨hw.zones ▸ h.ids, fun z hz => ?_, fun z hz hzlive p hp => ?_⟩, fun p h => Or.inl (hlive p h)⟩
  · exact Nat.lt_of_lt_of_le (h.used z (hw.zones ▸ hz)) hw.nextId
  · have hfine := h.parent z (hw.zones ▸ hz) hzlive p hp
    refine ⟨hlive p hfine.live, fun hleaving => ?_⟩
    rcases hl p hleaving with hl | hc
    · exact hfine.stays hl
    · exact hc z (hw.zones ▸ hz) hzlive hp

/-- Nothing happened to the zones, and nobody else is leaving. -/
theorem Rooted.idle (h : s.Rooted) (hu : s.Under s')
    (hw : ZonesAt s.world.db.zones s.world.nextId s'.world) : s.Follows s' :=
  h.same (fun _ hl => Or.inl (hu.leaving hw.zones hl)) hw

/-- **A mild update of one row keeps the parents fine.** -/
theorem Rooted.updated (h : s.Rooted) (hu : s.Under s') (hf : s.Mild id f)
    (hw : ZonesAt (Table.update Zone.id id f s.world.db.zones) s.world.nextId s'.world) :
    s.Follows s' := by
  have hleaving : ∀ p, s'.Leaving p → s.Leaving p := by
    intro p hp
    cases hp with
    | checked hd hp => exact hp ▸ hu.deleting _ hd
    | worked hwork hp ha => exact hp ▸ hu.working _ hwork ha
    | marked hz hp hlive ha =>
      rcases Table.mem_update.mp (hw.zones ▸ hz) with ⟨hz, -⟩ | ⟨z, hm, hid, rfl⟩
      · exact .marked hz hp hlive ha
      · have hlive' : z.deleted = false := by
          cases hd : z.deleted with
          | false => rfl
          | true => exact absurd (hf.deleted z hd) (by simp [hlive])
        have hpid : p = id := by rw [← hp, hf.key, hid]
        exact hpid ▸ hf.action z hm hid hlive' ha
  -- what is gone had no zone below it
  have hremoved : ∀ p, s.Live p → s'.Live p ∨ s.Childless p := by
    rintro p ⟨zp, hzp, rfl, hlive⟩
    by_cases hid : zp.id = id
    · cases hd : (f zp).deleted with
      | true => exact Or.inr (hid ▸ hf.drops zp hlive hd)
      | false =>
        exact Or.inl ⟨f zp, hw.zones ▸ Table.mem_update.mpr (Or.inr ⟨zp, hzp, hid, rfl⟩), hf.key zp, hd⟩
    · exact Or.inl ⟨zp, hw.zones ▸ Table.mem_update.mpr (Or.inl ⟨hzp, hid⟩), rfl, hlive⟩
  refine ⟨⟨?_, fun z hz => ?_, fun z hz hlive p hp => ?_⟩, hremoved⟩
  · rw [hw.zones, Table.map_update fun z _ _ => hf.key z]
    exact h.ids
  · refine Nat.lt_of_lt_of_le ?_ hw.nextId
    rcases Table.mem_update.mp (hw.zones ▸ hz) with ⟨hz, -⟩ | ⟨z, hm, -, rfl⟩
    · exact h.used z hz
    · rw [hf.key]; exact h.used z hm
  · -- the parent of a zone that has it already does not go
    have hparent : ∀ c ∈ s.world.db.zones, c.deleted = false → c.parentZoneId = some p →
        s'.Fine p := by
      intro c hc hclive hcp
      have hfine := h.parent c hc hclive p hcp
      refine ⟨(hremoved p hfine.live).resolve_right fun hnone => hnone c hc hclive hcp, fun hl => ?_⟩
      exact hfine.stays (hleaving p hl)
    rcases Table.mem_update.mp (hw.zones ▸ hz) with ⟨hz, -⟩ | ⟨z, hm, hid, rfl⟩
    · exact hparent z hz hlive hp
    · rcases hf.parent z hm hid p hp with hp | hfine
      · have hzlive : z.deleted = false := by
          cases hd : z.deleted with
          | false => rfl
          | true => exact absurd (hf.deleted z hd) (by simp [hlive])
        exact hparent z hm hzlive hp
      · obtain ⟨⟨zp, hzp, rfl, hplive⟩, hstays⟩ := hfine
        refine ⟨?_, fun hl => hstays (hleaving _ hl)⟩
        by_cases hpid : zp.id = id
        · rw [Table.eq_of_key h.ids hzp hm (hpid.trans hid.symm)]
          exact ⟨f z, hz, hf.key z, hlive⟩
        · exact ⟨zp, hw.zones ▸ Table.mem_update.mpr (Or.inl ⟨hzp, hpid⟩), rfl, hplive⟩

/-- A row that may have changed. -/
theorem Rooted.changed (h : s.Rooted) (hu : s.Under s') (hf : s.Mild id f)
    (hw : ZonesChanged s.world.db.zones s.world.nextId id f s'.world) : s.Follows s' :=
  hw.elim (h.idle hu) (h.updated hu hf)

/-- **A new zone below a fine one.** -/
theorem Rooted.inserted {z : Zone} (h : s.Rooted) (hdeleting : ∀ d ∈ s'.deleting, s.Leaving d.zone.id)
    (hworking : ∀ work ∈ s'.working, work.action = .DELETE ∨ work.action = .CREATE →
      s.Leaving work.zoneId ∨ work.zoneId = z.id)
    (hw : s'.world = s.world.withZone z) (hz : z.id = s.world.nextId) (ha : z.action ≠ .DELETE)
    (hp : ∀ p, z.parentZoneId = some p → s.Fine p) : s.Follows s' := by
  have hzones : s'.world.db.zones = s.world.db.zones ++ [z] := by rw [hw]; rfl
  have hleaving : ∀ p, s'.Leaving p → s.Leaving p ∨ p = z.id := by
    intro p hp
    cases hp with
    | checked hd hp => exact Or.inl (hp ▸ hdeleting _ hd)
    | worked hwork hp ha => exact hp ▸ hworking _ hwork ha
    | marked hm hp hlive hdel =>
      rcases List.mem_append.mp (hzones ▸ hm) with hm | hm
      · exact Or.inl (.marked hm hp hlive hdel)
      · rw [List.mem_singleton.mp hm] at hdel
        exact absurd hdel ha
  -- what was fine is another zone than the new one
  have hfine : ∀ p, s.Fine p → s'.Fine p := by
    rintro p ⟨⟨zp, hzp, rfl, hlive⟩, hstays⟩
    refine ⟨⟨zp, hzones ▸ List.mem_append_left _ hzp, rfl, hlive⟩, fun hl => ?_⟩
    rcases hleaving _ hl with hl | hid
    · exact hstays hl
    · have := h.used zp hzp
      omega
  have hremoved : ∀ p, s.Live p → s'.Live p ∨ s.Childless p := fun p ⟨zp, hzp, hid, hlive⟩ =>
    Or.inl ⟨zp, hzones ▸ List.mem_append_left _ hzp, hid, hlive⟩
  refine ⟨⟨?_, fun z' hz' => ?_, fun z' hz' hlive p hp' => ?_⟩, hremoved⟩
  · rw [hzones]
    refine Table.append_nodup h.ids fun z' hz' => ?_
    have := h.used z' hz'
    omega
  · have hnext : s'.world.nextId = s.world.nextId + 1 := by rw [hw]; rfl
    rw [hnext]
    rcases List.mem_append.mp (hzones ▸ hz') with hz' | hz'
    · exact Nat.lt_succ_of_lt (h.used z' hz')
    · rw [List.mem_singleton.mp hz', hz]
      exact Nat.lt_succ_self _
  · rcases List.mem_append.mp (hzones ▸ hz') with hz' | hz'
    · exact hfine p (h.parent z' hz' hlive p hp')
    · exact hfine p (hp p (List.mem_singleton.mp hz' ▸ hp'))

end

/-! ## What the steps have to be careful about -/

/-- The condition on a step, in the state it is taken in. -/
def Careful (s : Central) : TreeStep → Prop
  | .deleteCheck ctx zoneId =>
    -- the caller sees one of the zones below, if there is any
    s.Childless zoneId ∨ ∃ z ∈ s.world.db.zones,
      z.deleted = false ∧ z.parentZoneId = some zoneId ∧ ctx.sees z.tenantId
  -- the parent is still fine when it is stored
  | .createStore n => ∀ c, s.creating[n]? = some c → ∀ p, c.parent = some p → s.Fine p
  | .adopt n _ => ∀ a, s.adopting[n]? = some a → s.Fine a.1
  | .takeBack n _ => ∀ u, s.updating[n]? = some u → ∀ p, u.2.parentZoneId = some p → s.Fine p
  -- the message that makes a zone go whatever its action concerns one with none below
  | .poolReport _ zoneId message => message.status = .NO_ZONE → s.Childless zoneId
  | _ => True

section

variable {s : Central} {conf : Conf} {ctx : Context}

theorem deleteCheck_follows (h : s.Rooted) {zoneId : Nat} (hc : s.Careful (.deleteCheck ctx zoneId)) :
    s.Follows (s.next conf (.deleteCheck ctx zoneId)) := by
  unfold next
  dsimp only
  cases hr : deleteZoneChecks ctx zoneId s.world with
  | mk r w =>
    cases r with
    | error e => exact h.stays
    | ok zone =>
      obtain ⟨hz, hunseen⟩ := deleteZoneChecks_ok hr
      have hid : zone.id = zoneId := (findZone_mem hz).2.1
      -- the check saw no child; by the condition it would have seen one
      have hchildless : s.Childless zoneId := by
        rcases hc with hc | ⟨z, hm, hlive, hp, hsees⟩
        · exact hc
        · rw [hunseen z hm hlive hp] at hsees
          exact absurd hsees (by simp)
      refine h.same (fun p hl => ?_) (zonesAt_self s.world)
      cases hl with
      | checked hd hp =>
        rcases List.mem_append.mp hd with hd | hd
        · exact Or.inl (.checked hd hp)
        · rw [List.mem_singleton.mp hd] at hp
          exact Or.inr (hp ▸ hid ▸ hchildless)
      | worked hwork hp ha => exact Or.inl (.worked hwork hp ha)
      | marked hm hp hlive ha => exact Or.inl (.marked hm hp hlive ha)

/-- Calls that are a part of those in `s`. -/
theorem under_of_subset {s' : Central} (hd : s'.deleting ⊆ s.deleting)
    (hw : s'.working ⊆ s.working) : s.Under s' :=
  ⟨fun _ h => .checked (hd h) rfl, fun _ h ha => .worked (hw h) rfl ha⟩

theorem deleteStore_follows (h : s.Rooted) (n : Nat) : s.Follows (s.next conf (.deleteStore n)) := by
  unfold next
  dsimp only
  cases hn : s.deleting[n]? with
  | none => exact h.stays
  | some d =>
    have hd : d ∈ s.deleting := List.mem_of_getElem? hn
    -- the zone has been leaving since its check, and has no children since
    have hleaving : s.Leaving d.zone.id := .checked hd rfl
    have hmild : s.Mild d.zone.id d.change := by
      unfold Deletion.change
      by_cases ha : d.ctx.abandon
      · rw [if_pos ha]
        exact ⟨fun _ => rfl, fun _ _ => rfl, fun _ _ _ => h.childless hleaving,
          fun _ _ _ _ hp => Or.inl hp, fun _ _ _ _ hdel => absurd hdel Action.noConfusion⟩
      · rw [if_neg ha]
        exact ⟨fun _ => rfl, fun _ hd => hd, fun _ _ _ => h.childless hleaving,
          fun _ _ _ _ hp => Or.inl hp, fun _ _ _ _ _ => hleaving⟩
    have hzones := storeDeletion_zones (n := s.world.nextId) d s.world
      (zonesAt_self s.world)
    dsimp only
    cases hr : storeDeletion d.ctx d.zone s.world with
    | mk r w =>
      rw [hr] at hzones
      cases r with
      | error e =>
        refine h.changed (under_of_subset (List.eraseIdx_subset) (List.Subset.refl _)) hmild ?_
        exact Or.inl hzones
      | ok zone =>
        obtain ⟨hid, hw⟩ := hzones
        refine h.updated ⟨fun d' hd' => .checked (List.eraseIdx_subset hd') rfl,
          fun work hwork ha => ?_⟩ hmild hw
        by_cases hab : d.ctx.abandon
        · simp only [hab, if_true] at hwork
          exact .worked hwork rfl ha
        · simp only [hab] at hwork
          rcases List.mem_append.mp hwork with hwork | hwork
          · exact .worked hwork rfl ha
          · rw [List.mem_singleton.mp hwork]
            exact hid ▸ hleaving

theorem createCheck_follows (h : s.Rooted) (zone : NewZone) :
    s.Follows (s.next conf (.createCheck ctx zone)) := by
  unfold next
  dsimp only
  split
  · split
    · exact h.idle (under_of_subset (List.Subset.refl _) (List.Subset.refl _)) (zonesAt_self s.world)
    · exact h.stays
  · exact h.stays

theorem createStore_follows (h : s.Rooted) {n : Nat} (hc : s.Careful (.createStore n)) :
    s.Follows (s.next conf (.createStore n)) := by
  unfold next
  dsimp only
  cases hn : s.creating[n]? with
  | none => exact h.stays
  | some c =>
    dsimp only
    rcases createZoneInStorage_cases c.ctx conf c.zone c.viewId c.parent s.world with
      ⟨e, hr⟩ | hr
    · rw [hr]
      exact h.idle (under_of_subset (List.Subset.refl _) (List.Subset.refl _))
        ⟨rfl, Nat.le_succ _⟩
    · rw [hr]
      refine h.inserted (fun d hd => .checked hd rfl) (fun work hwork ha => ?_) rfl rfl
        Action.noConfusion (hc c hn)
      rcases List.mem_append.mp hwork with hwork | hwork
      · exact Or.inl (.worked hwork rfl ha)
      · exact Or.inr (by rw [List.mem_singleton.mp hwork])

theorem adopt_follows (h : s.Rooted) {n : Nat} (hc : s.Careful (.adopt n ctx)) :
    s.Follows (s.next conf (.adopt n ctx)) := by
  unfold next
  dsimp only
  cases hn : s.adopting[n]? with
  | none => exact h.stays
  | some a =>
    obtain ⟨zoneId, subzone⟩ := a
    have hfine : s.Fine zoneId := hc _ hn
    -- the one change that gives a parent, and the parent is a zone that stays
    have hmild : s.Mild subzone.id (subzone.adopted zoneId ctx.now) :=
      ⟨fun _ => rfl, fun _ hd => hd, fun z hlive hd => absurd hd (by simp [Zone.adopted, hlive]),
        fun _ _ _ p hp => Or.inr (Option.some.inj hp ▸ hfine),
        fun _ _ _ _ hdel => absurd hdel Action.noConfusion⟩
    have hzones := @storeAdoption_zones ctx conf _ _ subzone zoneId s.world (zonesAt_self s.world)
    dsimp only
    cases hr : storeAdoption ctx conf subzone zoneId s.world with
    | mk r w =>
      rw [hr] at hzones
      cases r with
      | error e =>
        exact h.idle (under_of_subset (List.Subset.refl _) (List.Subset.refl _)) hzones
      | ok p =>
        refine h.updated ⟨fun d hd => .checked hd rfl, fun work hwork ha => ?_⟩ hmild hzones.2
        rcases List.mem_append.mp hwork with hwork | hwork
        · exact .worked hwork rfl ha
        · rw [List.mem_singleton.mp hwork] at ha
          exact absurd ha (by simp)

theorem takeBack_follows (h : s.Rooted) {n : Nat} (hc : s.Careful (.takeBack n ctx)) :
    s.Follows (s.next conf (.takeBack n ctx)) := by
  unfold next
  dsimp only
  cases hn : s.updating[n]? with
  | none => exact h.stays
  | some u =>
    refine h.changed (under_of_subset (List.Subset.refl _) (List.Subset.refl _)) ?_
      (takeBack_zones u.1 u.2 s.world)
    exact ⟨fun _ => rfl, fun _ hd => hd, fun z hlive hd => absurd hd (by simp [hlive]),
      fun _ _ _ p hp => Or.inr (hc _ hn p hp), fun z hm hid hlive hdel => .marked hm hid hlive hdel⟩

theorem report_follows (h : s.Rooted) (n : Nat) (faults : StatusSite → Bool) (status : Status) :
    s.Follows (s.next conf (.report n ctx faults status)) := by
  unfold next
  dsimp only
  cases hn : s.working[n]? with
  | none => exact h.stays
  | some work =>
    have hwork : work ∈ s.working := List.mem_of_getElem? hn
    have hmild : s.Mild work.zoneId (Zone.ending work.action status) := by
      unfold Zone.ending
      -- the two reports that take the zone away are of work that was going on at it
      by_cases hends : work.action = .DELETE ∧ status = .SUCCESS ∨
          work.action = .CREATE ∧ status = .ERROR
      · rw [if_pos hends]
        have hleaving : s.Leaving work.zoneId :=
          .worked hwork rfl (hends.imp And.left And.left)
        exact ⟨fun _ => rfl, fun _ _ => rfl, fun _ _ _ => h.childless hleaving,
          fun _ _ _ _ hp => Or.inl hp, fun _ _ _ _ hdel => absurd hdel Action.noConfusion⟩
      · rw [if_neg hends]
        exact ⟨fun _ => rfl, fun _ hd => hd, fun z hlive hd => absurd hd (by simp [Zone.settle, hlive]),
          fun _ _ _ _ hp => Or.inl hp, fun _ _ _ _ hdel => absurd hdel Action.noConfusion⟩
    have hzones := @updateZoneStatus_zones ctx conf faults work.zoneId work.action status s.world
    dsimp only
    cases hr : updateZoneStatus ctx conf faults work.zoneId work.action status s.world with
    | mk r w =>
      rw [hr] at hzones
      have hrest : s.working.eraseIdx n ⊆ s.working := List.eraseIdx_subset
      cases r with
      | ok u => exact h.changed (under_of_subset (List.Subset.refl _) hrest) hmild hzones
      | error e =>
        refine h.changed (under_of_subset (List.Subset.refl _) ?_) hmild hzones
        dsimp only
        split
        · exact List.Subset.refl _
        · exact hrest

theorem poolReport_follows (h : s.Rooted) {zoneId : Nat} {message : PoolStatus}
    (hc : s.Careful (.poolReport ctx zoneId message)) :
    s.Follows (s.next conf (.poolReport ctx zoneId message)) := by
  unfold next
  dsimp only
  rcases updateStatus_zones message zoneId s.world with hw | ⟨z, hz, hw⟩
  · exact h.idle (under_of_subset (List.Subset.refl _) (List.Subset.refl _)) hw
  · obtain ⟨hm, hid, -, hlive⟩ := findZone_mem hz
    refine h.updated (under_of_subset (List.Subset.refl _) (List.Subset.refl _)) ?_ hw
    have hdel := @updateZoneOrRecordStatus_deleted message z.action z.status z.serial
    have hact := @updateZoneOrRecordStatus_action message z.action .DELETE z.status z.serial
    unfold PoolStatus.zoneChange
    generalize updateZoneOrRecordStatus message z.action z.status z.serial = u at hdel hact ⊢
    obtain ⟨action, status, deleted⟩ := u
    cases deleted with
    | true =>
      refine ⟨fun _ => rfl, fun _ _ => rfl, fun _ _ _ => ?_, fun _ _ _ _ hp => Or.inl hp,
        fun _ _ _ _ ha => absurd ha Action.noConfusion⟩
      rcases (hdel rfl).2 with hno | ha
      · exact hc hno
      · exact h.childless (.marked hm hid hlive ha)
    | false =>
      exact ⟨fun _ => rfl, fun _ hd => hd, fun row hlive hd => absurd hd (by simp [hlive]),
        fun _ _ _ _ hp => Or.inl hp, fun _ _ _ _ ha => .marked hm hid hlive (hact ha (by simp))⟩

theorem accept_follows (h : s.Rooted) (zoneId : Nat) (tenantId : Option String) :
    s.Follows (s.next conf (.accept ctx zoneId tenantId)) := by
  unfold next
  refine h.changed (under_of_subset (List.Subset.refl _) (List.Subset.refl _)) ?_
    (acceptTransfer_zones zoneId tenantId s.world)
  exact ⟨fun _ => rfl, fun _ hd => hd, fun z hlive hd => absurd hd (by simp [hlive]),
    fun _ _ _ _ hp => Or.inl hp, fun z hm hid hlive hdel => .marked hm hid hlive hdel⟩

/-- **A careful step keeps the parents fine, and removes no zone with another below it.** -/
theorem next_follows (h : s.Rooted) {step : TreeStep} (hc : s.Careful step) :
    s.Follows (s.next conf step) := by
  cases step with
  | deleteCheck ctx zoneId => exact deleteCheck_follows h hc
  | deleteStore n => exact deleteStore_follows h n
  | createCheck ctx zone => exact createCheck_follows h zone
  | createStore n => exact createStore_follows h hc
  | adopt n ctx => exact adopt_follows h hc
  | takeBack n ctx => exact takeBack_follows h hc
  | report n ctx faults status => exact report_follows h n faults status
  | poolReport ctx zoneId message => exact poolReport_follows h hc
  | accept ctx zoneId tenantId => exact accept_follows h zoneId tenantId

/-! ## Runs -/

/--
**No live zone has a parent that is gone, in any run whose steps are careful**, and no
step removes a zone that has a live zone below it.
-/
theorem run_no_dangling_parent (conf : Conf) (steps : List TreeStep) (h : s.Rooted)
    (careful : ∀ t ∈ Run.transitions (next conf) steps s,
      t.before.Careful t.input) :
    (∀ t ∈ Run.transitions (next conf) steps s,
      t.before.NoDanglingParent ∧ t.after.NoDanglingParent ∧
        ∀ p, t.before.Live p → t.after.Live p ∨ t.before.Childless p) ∧
      (Run.final (next conf) steps s).NoDanglingParent := by
  have hstep : ∀ step s, Rooted s → s.Careful step → Rooted (next conf step s) :=
    fun step s h hc => (next_follows h hc).rooted
  refine ⟨Run.forall_transitions (G := fun step s => s.Careful step)
    (P := fun s _ s' => s.NoDanglingParent ∧ s'.NoDanglingParent ∧
      ∀ p, s.Live p → s'.Live p ∨ s.Childless p) hstep (fun step s h hc => ?_) h careful,
    (Run.invariant hstep h careful).2.noDanglingParent⟩
  have hfollows : s.Follows (next conf step s) := next_follows h hc
  exact ⟨h.noDanglingParent, hfollows.rooted.noDanglingParent, hfollows.removed⟩

end

end Central

/-- The zone `sub.example.com.`, below `example.com.`. -/
def Sample.subzone : Zone :=
  { Sample.zone with id := 12, name := "sub.example.com.", parentZoneId := some 2 }

/-- Central at rest, with one zone below another. -/
def Sample.central : Central where
  world := { Sample.world with db := { Sample.world.db with zones := [Sample.zone, Sample.subzone] }
                               nextId := 13 }

/-- A caller of the tenant deletes the zone `zoneId`. -/
def Sample.deletion (zoneId : Nat) : List TreeStep :=
  [.deleteCheck Sample.ctx zoneId, .deleteStore 0,
    .report 0 Sample.ctx (fun _ => false) .SUCCESS]

theorem sample_rooted : Sample.central.Rooted where
  ids := by decide
  used := by decide
  parent z hz _ p hp := by
    have hroot : Sample.central.Fine 2 := by
      refine ⟨⟨Sample.zone, List.mem_cons_self, rfl, rfl⟩, fun hl => ?_⟩
      cases hl with
      | checked hd => exact absurd hd List.not_mem_nil
      | worked hw => exact absurd hw List.not_mem_nil
      | marked hz _ _ ha =>
        have hnone : ∀ z ∈ Sample.central.world.db.zones, z.action ≠ .DELETE := by decide
        exact hnone _ hz ha
    have hparents : ∀ z ∈ Sample.central.world.db.zones,
        z.parentZoneId = none ∨ z.parentZoneId = some 2 := by decide
    rcases hparents z hz with hn | hs
    · exact absurd (hn.symm.trans hp) (by simp)
    · exact Option.some.inj (hs.symm.trans hp) ▸ hroot

/-- The zone below goes first. -/
theorem run_no_dangling_parent_sample :
    (Run.final (Central.next Sample.conf) (Sample.deletion 12)
      Sample.central).NoDanglingParent := by
  refine (Central.run_no_dangling_parent Sample.conf (Sample.deletion 12) sample_rooted ?_).2
  intro t ht
  rcases List.mem_cons.mp ht with rfl | ht
  · left
    intro z hz _
    have hnone : ∀ z ∈ Sample.central.world.db.zones, z.parentZoneId ≠ some 12 := by decide
    exact hnone z hz
  · rcases List.mem_cons.mp ht with rfl | ht
    · trivial
    · rw [List.mem_singleton.mp ht]
      trivial

/--
The zone below goes to another tenant, whose zones the caller of `delete_zone` does
not see: the zone above is deleted, and the one below keeps it as its parent.
-/
theorem transferred_zone_left_dangling :
    ¬ (Run.final (Central.next Sample.conf)
      (.accept Sample.ctx 12 (some "u") :: Sample.deletion 2) Sample.central).NoDanglingParent := by
  intro h
  obtain ⟨z, hz, hid, hlive⟩ := h { Sample.subzone with tenantId := some "u" }
    (by decide +kernel) rfl 2 rfl
  have hgone : ∀ z ∈ (Run.final (Central.next Sample.conf)
      (.accept Sample.ctx 12 (some "u") :: Sample.deletion 2) Sample.central).world.db.zones,
      z.id = 2 → z.deleted = true := by decide +kernel
  rw [hgone z hz hid] at hlive
  exact absurd hlive (by simp)

end Designate
