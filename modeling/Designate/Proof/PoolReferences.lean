import Designate.Central.PoolReferences
import Designate.Proof.ZoneRows
import Designate.Sample

/-!
# A zone that stays has its pool

A pool goes once no zone is left in it but those on their way out. Such a zone may still
come back: the worker reports that it could not be deleted, or a report on what was done
before comes late. As long as a zone that comes back finds its pool, every zone has one
that is not on its way out.
-/

namespace Designate

namespace PoolReferences

open Exec

namespace State

/-- Every live zone that is not on its way out is in a pool there is. -/
def NoDanglingPool (s : State) : Prop :=
  ∀ z ∈ s.central.world.db.zones, z.deleted = false → z.action ≠ .DELETE → s.HasPool z.poolId

/-- Identifiers are unique and were handed out, and no zone is without its pool. -/
structure Sound (s : State) : Prop where
  ids : (s.central.world.db.zones.map Zone.id).Nodup
  used : ∀ z ∈ s.central.world.db.zones, z.id < s.central.world.nextId
  noDanglingPool : s.NoDanglingPool

/-- A zone on its way out, if `zoneId` is one of those, has its pool to come back to. -/
def MayReturn (s : State) (among : Zone → Prop) (zoneId : Nat) : Prop :=
  ∀ z ∈ s.central.world.db.zones, z.id = zoneId → z.deleted = false → z.action = .DELETE →
    among z → s.HasPool z.poolId

/-- The condition on a step, in the state it is taken in. -/
def Allowed (s : State) : Event → Prop
  -- a report other than one that makes the zone go
  | .report n _ _ status => ∀ work, s.central.working[n]? = some work →
      ¬ (work.action = .DELETE ∧ status = .SUCCESS ∨ work.action = .CREATE ∧ status = .ERROR) →
      s.MayReturn (fun _ => True) work.zoneId
  -- the update of a primary zone looks its pool up
  | .adopt n _ => ∀ a, s.central.adopting[n]? = some a →
      s.MayReturn (fun z => z.type ≠ .PRIMARY) a.2.id
  | _ => True

section

variable {s s' : State} {conf : Conf} {id : Nat} {f : Zone → Zone} {ctx : Context}

/-- An update of the row `id` that takes no zone out of its pool. -/
structure Harmless (s : State) (id : Nat) (f : Zone → Zone) : Prop where
  key : ∀ z, (f z).id = z.id
  pool : ∀ z, (f z).poolId = z.poolId
  deleted : ∀ z, z.deleted = true → (f z).deleted = true
  /-- A zone that comes back finds its pool. -/
  returns : (∀ z, (f z).deleted = false → (f z).action ≠ .DELETE → z.action ≠ .DELETE) ∨
    s.MayReturn (fun _ => True) id

theorem Sound.same (h : s.Sound) (hp : s'.pools = s.pools)
    (hz : ZonesAt s.central.world.db.zones s.central.world.nextId s'.central.world) : s'.Sound where
  ids := by rw [hz.zones]; exact h.ids
  used z hm := Nat.lt_of_lt_of_le (h.used z (hz.zones ▸ hm)) hz.nextId
  noDanglingPool z hm hlive ha := by
    unfold HasPool
    rw [hp]
    exact h.noDanglingPool z (hz.zones ▸ hm) hlive ha

theorem Sound.updated (h : s.Sound) (hf : s.Harmless id f) (hp : s'.pools = s.pools)
    (hz : ZonesAt (Table.update Zone.id id f s.central.world.db.zones) s.central.world.nextId
      s'.central.world) : s'.Sound where
  ids := by
    rw [hz.zones, Table.map_update fun z _ _ => hf.key z]
    exact h.ids
  used z hm := by
    refine Nat.lt_of_lt_of_le ?_ hz.nextId
    rcases Table.mem_update.mp (hz.zones ▸ hm) with ⟨hrow, -⟩ | ⟨z, hrow, -, rfl⟩
    · exact h.used z hrow
    · rw [hf.key]
      exact h.used z hrow
  noDanglingPool z hm hlive ha := by
    unfold HasPool
    rw [hp]
    rcases Table.mem_update.mp (hz.zones ▸ hm) with ⟨hrow, -⟩ | ⟨z, hrow, hid, rfl⟩
    · exact h.noDanglingPool z hrow hlive ha
    · have hlive' : z.deleted = false := by
        cases hd : z.deleted with
        | false => rfl
        | true => exact absurd (hf.deleted z hd) (by simp [hlive])
      rw [hf.pool]
      -- a zone that was going on to be deleted may come back, and then its pool has to be there
      by_cases hdel : z.action = .DELETE
      · rcases hf.returns with hstays | hreturn
        · exact absurd hdel (hstays z hlive ha)
        · exact hreturn z hrow hid hlive' hdel trivial
      · exact h.noDanglingPool z hrow hlive' hdel

/-- A row that may have changed. -/
theorem Sound.changed (h : s.Sound) (hf : s.Harmless id f) (hp : s'.pools = s.pools)
    (hz : ZonesChanged s.central.world.db.zones s.central.world.nextId id f s'.central.world) :
    s'.Sound :=
  hz.elim (h.same hp) (h.updated hf hp)

/-! ## The steps -/

theorem createCheck_keeps (h : s.Sound) (zone : NewZone) (poolId : Nat) :
    (s.createCheck conf ctx zone poolId).Sound := by
  unfold createCheck
  dsimp only
  split
  · split
    · split
      · exact h.same rfl (zonesAt_self _)
      · exact h
    · exact h
  · exact h

theorem createStore_keeps (h : s.Sound) (n : Nat) : (s.createStore conf n).Sound := by
  unfold createStore
  cases hn : s.creating[n]? with
  | none => exact h
  | some entry =>
    obtain ⟨c, poolId⟩ := entry
    dsimp only
    rcases createZoneInStorage_cases c.ctx { conf with poolId := poolId } c.zone c.viewId c.parent
      s.central.world with ⟨e, hr⟩ | hr
    · rw [hr]
      exact h.same rfl ⟨rfl, Nat.le_succ _⟩
    · rw [hr]
      dsimp only
      split
      · -- the new zone has the pool that was looked up with it
        rename_i hpool
        refine ⟨?_, fun z hm => ?_, fun z hm hlive ha => ?_⟩
        · refine Table.append_nodup h.ids fun z hm => ?_
          have := h.used z hm
          exact Nat.ne_of_lt this
        · rcases List.mem_append.mp hm with hm | hm
          · exact Nat.lt_succ_of_lt (h.used z hm)
          · rw [List.mem_singleton.mp hm]
            exact Nat.lt_succ_self _
        · rcases List.mem_append.mp hm with hm | hm
          · exact h.noDanglingPool z hm hlive ha
          · rw [List.mem_singleton.mp hm]
            exact hpool
      · exact h.same rfl ⟨rfl, Nat.le_succ _⟩

theorem deletePool_keeps (h : s.Sound) (ctx : Context) (poolId : Nat) :
    (s.deletePool ctx poolId).Sound := by
  unfold deletePool
  split
  · rename_i w hnone
    refine ⟨h.ids, h.used, fun z hm hlive ha => ?_⟩
    obtain ⟨pool, hpool, hid⟩ := h.noDanglingPool z hm hlive ha
    refine ⟨pool, Table.mem_remove.mpr ⟨hpool, fun he => ?_⟩, hid⟩
    -- the zone would have been found
    have hfound := Except.ok.inj (Prod.mk.inj hnone).1
    have hmem : z ∉ s.central.world.db.zones.filter fun z =>
        (z.poolId == poolId && z.action != .DELETE) && ctx.elevated.sees z.tenantId && !z.deleted := by
      rw [hfound]
      exact List.not_mem_nil
    refine hmem (List.mem_filter.mpr ⟨hm, ?_⟩)
    have hsees : ctx.elevated.sees z.tenantId = true := by simp [Context.sees, Context.elevated]
    simp [← hid, he, ha, hlive, hsees]
  · exact h

/-- A primary zone gets no new serial if its pool is not there. -/
theorem incrementZoneSerial_primary (zone : Zone) {w : World} {row : Zone} {f : Zone → Zone}
    (hrow : findZone ctx zone.id w.db = .ok row) (htype : (f row).type = .PRIMARY)
    (hpool : (f row).poolId ≠ conf.poolId) :
    ∃ w', incrementZoneSerial ctx conf zone f w = (.error .PoolNotFound, w') := by
  have hsoa : ∀ (zone : Zone) (w : World), zone.type = .PRIMARY → zone.poolId ≠ conf.poolId →
      updateSoa ctx conf zone w = (.error .PoolNotFound, w) := by
    intro zone w ht hp
    unfold updateSoa
    rw [if_pos ht]
    exact bind_error (raiseIf_of (by simp [hp]) _ _)
  exact ⟨_, (bind_ok (updateZoneRow_ok hrow)).trans (bind_error (hsoa _ _ htype hpool))⟩

/-- So its update fails as a whole. -/
theorem storeAdoption_primary {w w' : World} {subzone row : Zone} {zoneId : Nat} {p : Zone × Zone}
    (hrow : findZone ctx subzone.id w.db = .ok row) (htype : row.type = .PRIMARY)
    (h : storeAdoption ctx conf subzone zoneId w = (.ok p, w')) : row.poolId = conf.poolId := by
  by_contra hpool
  obtain ⟨stored, w₁, hstored, h⟩ := bind_eq_ok.mp h
  obtain ⟨-, rfl⟩ := Prod.mk.inj hstored
  obtain ⟨zone, w₂, hzone, -⟩ := bind_eq_ok.mp h
  obtain ⟨w₃, hraises⟩ := incrementZoneSerial_primary
    { subzone with parentZoneId := some zoneId }
    (f := ({ subzone with parentZoneId := some zoneId } : Zone).updating) hrow htype hpool
  unfold updateZoneInStorage transaction rollback at hzone
  simp only [if_true] at hzone
  rw [hraises] at hzone
  exact absurd (Prod.mk.inj hzone).1 (by simp)

theorem adopt_keeps (h : s.Sound) {n : Nat} {a : Nat × Zone}
    (hn : s.central.adopting[n]? = some a)
    (hreturn : s.MayReturn (fun z => z.type ≠ .PRIMARY) a.2.id) :
    (s.zoneStep conf (.adopt n ctx) a.2.id).Sound := by
  obtain ⟨zoneId, subzone⟩ := a
  have hzones := @storeAdoption_zones ctx (s.confOf conf (s.poolOf subzone.id)) _ _ subzone zoneId
    s.central.world (zonesAt_self s.central.world)
  unfold zoneStep Central.next
  dsimp only
  rw [hn]
  dsimp only
  cases hr : storeAdoption ctx (s.confOf conf (s.poolOf subzone.id)) subzone zoneId
      s.central.world with
  | mk r w =>
    rw [hr] at hzones
    cases r with
    | error e => exact h.same rfl hzones
    | ok p =>
      have hf : s.Harmless subzone.id (subzone.adopted zoneId ctx.now) := by
        refine ⟨fun _ => rfl, fun _ => rfl, fun _ hd => hd, Or.inr fun z hm hid hlive hdel _ => ?_⟩
        by_contra hpool
        -- the row the update has found
        obtain ⟨stored, w₁, hstored, -⟩ := bind_eq_ok.mp hr
        obtain ⟨hrow, -⟩ := Prod.mk.inj hstored
        obtain rfl : stored = z :=
          Table.eq_of_key h.ids (findZone_mem hrow).1 hm ((findZone_mem hrow).2.1.trans hid.symm)
        have hof : s.poolOf subzone.id = stored.poolId := by
          unfold poolOf
          rw [← hid, Table.find?_of_mem h.ids hm]
          rfl
        have hconf : (s.confOf conf stored.poolId).poolId = stored.poolId + 1 := by
          unfold confOf
          have hnone : s.pools.find? (fun pool => pool.id == stored.poolId) = none := by
            rw [List.find?_eq_none]
            exact fun pool hpm he => hpool ⟨pool, hpm, eq_of_beq he⟩
          rw [hnone]
        by_cases htype : stored.type = .PRIMARY
        · have := storeAdoption_primary hrow htype hr
          rw [hof, hconf] at this
          omega
        · exact hpool (hreturn stored hm hid hlive hdel htype)
      exact h.updated hf rfl hzones.2

theorem takeBack_keeps (h : s.Sound) (n zoneId : Nat) :
    (s.zoneStep conf (.takeBack n ctx) zoneId).Sound := by
  unfold zoneStep Central.next
  dsimp only
  cases s.central.updating[n]? with
  | none => exact h
  | some u =>
    have hf : s.Harmless u.1
        (fun z => { z with ttl := u.2.ttl, parentZoneId := u.2.parentZoneId }) :=
      ⟨fun _ => rfl, fun _ => rfl, fun _ hd => hd, Or.inl fun _ _ ha => ha⟩
    exact h.changed hf rfl (takeBack_zones u.1 u.2 s.central.world)

theorem deleteCheck_keeps (h : s.Sound) (zoneId : Nat) :
    (s.zoneStep conf (.deleteCheck ctx zoneId) zoneId).Sound := by
  unfold zoneStep Central.next
  dsimp only
  cases deleteZoneChecks ctx zoneId s.central.world with
  | mk r w =>
    cases r with
    | error e => exact h
    | ok zone => exact h.same rfl (zonesAt_self _)

theorem deleteStore_keeps (h : s.Sound) (n zoneId : Nat) :
    (s.zoneStep conf (.deleteStore n) zoneId).Sound := by
  unfold zoneStep Central.next
  dsimp only
  cases s.central.deleting[n]? with
  | none => exact h
  | some d =>
    -- the zone goes, or is on its way out now
    have hf : s.Harmless d.zone.id d.change := by
      unfold Deletion.change
      by_cases ha : d.ctx.abandon
      · rw [if_pos ha]
        exact ⟨fun _ => rfl, fun _ => rfl, fun _ _ => rfl,
          Or.inl fun z hd => absurd hd (by simp [Zone.drop])⟩
      · rw [if_neg ha]
        exact ⟨fun _ => rfl, fun _ => rfl, fun _ hd => hd, Or.inl fun _ _ ha => absurd rfl ha⟩
    have hzones := storeDeletion_zones (n := s.central.world.nextId) d s.central.world
      (zonesAt_self s.central.world)
    dsimp only
    cases hr : storeDeletion d.ctx d.zone s.central.world with
    | mk r w =>
      rw [hr] at hzones
      cases r with
      | error e => exact h.same rfl hzones
      | ok zone => exact h.updated hf rfl hzones.2

theorem report_keeps (h : s.Sound) {n : Nat} {faults : StatusSite → Bool}
    {status : Status} {work : Work} (hn : s.central.working[n]? = some work)
    (hreturn : ¬ (work.action = .DELETE ∧ status = .SUCCESS ∨
      work.action = .CREATE ∧ status = .ERROR) → s.MayReturn (fun _ => True) work.zoneId) :
    (s.zoneStep conf (.report n ctx faults status) work.zoneId).Sound := by
  have hf : s.Harmless work.zoneId (Zone.ending work.action status) := by
    unfold Zone.ending
    -- the zone goes, or it stays and its action ends, which brings a deleted one back
    by_cases hends : work.action = .DELETE ∧ status = .SUCCESS ∨
        work.action = .CREATE ∧ status = .ERROR
    · rw [if_pos hends]
      exact ⟨fun _ => rfl, fun _ => rfl, fun _ _ => rfl,
        Or.inl fun z hd => absurd hd (by simp [Zone.drop])⟩
    · rw [if_neg hends]
      exact ⟨fun _ => rfl, fun _ => rfl, fun _ hd => hd, Or.inr (hreturn hends)⟩
  have hzones := @updateZoneStatus_zones ctx (s.confOf conf (s.poolOf work.zoneId)) faults
    work.zoneId work.action status s.central.world
  unfold zoneStep Central.next
  dsimp only
  rw [hn]
  dsimp only
  cases hr : updateZoneStatus ctx (s.confOf conf (s.poolOf work.zoneId)) faults work.zoneId
      work.action status s.central.world with
  | mk r w =>
    rw [hr] at hzones
    cases r with
    | ok u => exact h.changed hf rfl hzones
    | error e => exact h.changed hf rfl hzones

/-- **An allowed step leaves no zone without its pool.** -/
theorem next_keeps (h : s.Sound) {event : Event} (hallowed : s.Allowed event) :
    (s.next conf event).Sound := by
  -- of the events an adoption and a report may bring a deleted zone back; for them the step is
  -- allowed
  cases event with
  | createCheck ctx zone poolId => exact createCheck_keeps h zone poolId
  | createStore n => exact createStore_keeps h n
  | adopt n ctx =>
    unfold next
    dsimp only
    cases hn : s.central.adopting[n]? with
    | none => exact h
    | some a => exact adopt_keeps h hn (hallowed a hn)
  | takeBack n ctx =>
    unfold next
    dsimp only
    cases s.central.updating[n]? with
    | none => exact h
    | some u => exact takeBack_keeps h n u.1
  | deleteCheck ctx zoneId => exact deleteCheck_keeps h zoneId
  | deleteStore n =>
    unfold next
    dsimp only
    cases s.central.deleting[n]? with
    | none => exact h
    | some d => exact deleteStore_keeps h n d.zone.id
  | report n ctx faults status =>
    unfold next
    dsimp only
    cases hn : s.central.working[n]? with
    | none => exact h
    | some work => exact report_keeps h hn (hallowed work hn)
  | deletePool ctx poolId => exact deletePool_keeps h ctx poolId

/--
**No zone that is not on its way out is without its pool, in any run in which a zone that
comes back finds its pool.**
-/
theorem run_no_dangling_pool (conf : Conf) (events : List Event) (h : s.Sound)
    (allowed : ∀ t ∈ Run.transitions (next conf) events s, t.before.Allowed t.input) :
    (∀ t ∈ Run.transitions (next conf) events s,
      t.before.NoDanglingPool ∧ t.after.NoDanglingPool) ∧
      (Run.final (next conf) events s).NoDanglingPool := by
  have hstep : ∀ event s, Sound s → s.Allowed event → Sound (next conf event s) :=
    fun _ _ h hallowed => next_keeps h hallowed
  refine ⟨Run.forall_transitions (G := fun event s => s.Allowed event)
    (P := fun s _ s' => s.NoDanglingPool ∧ s'.NoDanglingPool) hstep (fun event s h ha => ?_) h
    allowed, (Run.invariant hstep h allowed).2.noDanglingPool⟩
  exact ⟨h.noDanglingPool, (hstep event s h ha).noDanglingPool⟩

end

end State

/-! ## A zone that comes back -/

/-- One zone, in the one pool. -/
def sample : State where
  central := { world := Sample.world }
  pools := [⟨0, ["ns.example.net."]⟩]

/-- The zone is told to go, and its pool is deleted before the worker reports. -/
def deletedUnder (status : Status) : List Event :=
  [.deleteCheck Sample.ctx 2, .deleteStore 0, .deletePool Sample.ctx 0,
    .report 0 Sample.ctx (fun _ => false) status]

theorem sample_sound : sample.Sound where
  ids := by decide
  used := by decide
  noDanglingPool := by
    unfold State.NoDanglingPool
    decide

/-- The zone could not be deleted, and is back before its pool is to be deleted. -/
def backInTime : List Event :=
  [.deleteCheck Sample.ctx 2, .deleteStore 0, .report 0 Sample.ctx (fun _ => false) .ERROR,
    .deletePool Sample.ctx 0]

/-- While it is on its way out its pool is there, and once it is back the pool stays. -/
theorem run_no_dangling_pool_sample :
    (Run.final (State.next Sample.conf) backInTime sample).pools = sample.pools ∧
      (Run.final (State.next Sample.conf) backInTime sample).NoDanglingPool := by
  have hpools : ∀ z ∈ (Run.final (State.next Sample.conf) (backInTime.take 2)
      sample).central.world.db.zones,
        (Run.final (State.next Sample.conf) (backInTime.take 2) sample).HasPool z.poolId := by
    unfold State.HasPool
    decide +kernel
  refine ⟨by decide +kernel,
    (State.run_no_dangling_pool Sample.conf backInTime sample_sound fun t ht => ?_).2⟩
  rcases List.mem_cons.mp ht with rfl | ht
  · trivial
  · rcases List.mem_cons.mp ht with rfl | ht
    · trivial
    · rcases List.mem_pair.mp ht with rfl | rfl
      · intro work _ _ z hz _ _ _ _
        exact hpools z hz
      · trivial

/-- The zone could not be deleted, and comes back to a pool that is gone. -/
theorem zone_back_without_pool :
    sample.NoDanglingPool ∧
      ¬ (Run.final (State.next Sample.conf) (deletedUnder .ERROR) sample).NoDanglingPool := by
  refine ⟨sample_sound.noDanglingPool, fun h => ?_⟩
  have hpool := h Sample.zone (by decide +kernel) rfl (by decide)
  have hgone : (Run.final (State.next Sample.conf) (deletedUnder .ERROR) sample).pools = [] := by
    decide +kernel
  obtain ⟨pool, hm, -⟩ := hpool
  rw [hgone] at hm
  exact absurd hm List.not_mem_nil

end PoolReferences

end Designate
