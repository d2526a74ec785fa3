import Designate.Central.ZoneTree
import Designate.Proof.Requests

/-!
# What calls do to the zone rows

Every call changes at most one zone row, by an update its arguments tell, or adds one
under a new identifier. What happens to records and recordsets on the way does not
matter here, nor does where a call stops.
-/

namespace Designate

open Exec

variable {ctx : Context} {conf : Conf} {zs : List Zone} {n : Nat}

/-- The zones are `zs`, and the identifiers below `n` have been handed out. -/
structure ZonesAt (zs : List Zone) (n : Nat) (w : World) : Prop where
  zones : w.db.zones = zs
  nextId : n ≤ w.nextId

/-- The zones are `zs`, or `f` has been applied to the row `id` of them. -/
def ZonesChanged (zs : List Zone) (n id : Nat) (f : Zone → Zone) (w : World) : Prop :=
  ZonesAt zs n w ∨ ZonesAt (Table.update Zone.id id f zs) n w

theorem zonesAt_self (w : World) : ZonesAt w.db.zones w.nextId w := ⟨rfl, Nat.le_refl _⟩

theorem ZonesAt.still {w w' : World} (h : ZonesAt zs n w) (hs : World.Still w w') :
    ZonesAt zs n w' := ⟨hs.zones.trans h.zones, Nat.le_trans h.nextId hs.nextId⟩

theorem zonesAt_quiet : IgnoresQuiet (ZonesAt zs n) := fun _ _ hq h => h.still hq.still

/-! ## Calls about records -/

namespace ZonesAt

theorem updateRecordRow (record : Record) :
    Keeps (ZonesAt zs n) (updateRecordRow ctx conf record) := by
  intro w hw
  rcases updateRecordRow_cases ctx conf record w with ⟨e, he⟩ | ⟨row, -, -, hok⟩
  · rw [he]; exact hw
  · rw [hok]; exact ⟨hw.zones, hw.nextId⟩

theorem deleteRecordRow (id : Option Nat) : Keeps (ZonesAt zs n) (deleteRecordRow ctx id) := by
  intro w hw
  cases hr : findRecordRow ctx id w.db with
  | error e => rw [deleteRecordRow_missing hr]; exact hw
  | ok row => rw [deleteRecordRow_ok hr]; exact ⟨hw.zones, hw.nextId⟩

theorem deleteRecordsetRow (id : Nat) : Keeps (ZonesAt zs n) (deleteRecordsetRow ctx id) := by
  refine Keeps.write fun w a w' hw h => ?_
  cases hs : findRecordsetRow ctx id w.db with
  | error e => rw [hs] at h; exact absurd h (by simp)
  | ok s =>
    rw [hs] at h
    obtain ⟨-, rfl⟩ := Prod.mk.inj (Except.ok.inj h)
    exact ⟨hw.zones, hw.nextId⟩

theorem dropRecord (fails : Nat → Bool) (row : RecordRow) :
    Keeps (ZonesAt zs n) (dropRecord ctx fails row) :=
  keeps_dropRecord deleteRecordRow deleteRecordsetRow fails row

theorem updateZoneRecords (faults : StatusSite → Bool) (action : Action) (status : Status)
    (k : Nat) (rows : List RecordRow) :
    Keeps (ZonesAt zs n) (updateZoneRecords ctx conf faults action status k rows) :=
  keeps_updateZoneRecords (fun _ _ => updateRecordRow _) dropRecord
    (keeps_deleteRecordWithZoneDelete deleteRecordRow deleteRecordsetRow
      (fun _ => zonesAt_quiet.deleteRecordAssociationRow)
      fun _ => zonesAt_quiet.deleteZdnsRecordRow) faults action status k

theorem updateRecordStatuses (m : PoolStatus) (zoneId : Nat) :
    Keeps (ZonesAt zs n) (updateRecordStatuses ctx conf m zoneId) := by
  refine Keeps.bind (Keeps.read _) fun rows => Keeps.forEach fun row _ => ?_
  have hdrop : ∀ deleted : Bool, Keeps (ZonesAt zs n)
      (if deleted = true then Designate.dropRecord ctx (fun _ => false) row
        else (pure PUnit.unit : Call Unit)) := fun deleted =>
    Keeps.ite (fun _ => dropRecord _ row) fun _ => Keeps.pure _
  exact Keeps.ite (fun _ => Keeps.bind (updateRecordRow _) fun _ => hdrop _) fun _ => hdrop _

end ZonesAt

/-! ## One zone row -/

/-- Writing a zone row: the row it finds is live, and the only one it changes. -/
theorem updateZoneRow_zones (ctx : Context) (id : Nat) (f : Zone → Zone) :
    Triple (ZonesAt zs n) (updateZoneRow ctx id f)
      (fun z w => (∃ z₀ ∈ zs, z = f z₀ ∧ z₀.id = id) ∧
        ZonesAt (Table.update Zone.id id f zs) n w)
      (ZonesAt zs n) := by
  intro w hw
  cases hz : findZone ctx id w.db with
  | error e => rw [updateZoneRow_missing hz]; exact hw
  | ok z =>
    rw [updateZoneRow_ok hz]
    obtain ⟨hm, hid, -⟩ := findZone_mem hz
    have hzones : (w.withDb (w.db.zoneChanged id f)).db.zones =
        Table.update Zone.id id f zs := by rw [← hw.zones]; rfl
    exact ⟨⟨z, hw.zones ▸ hm, rfl, hid⟩, hzones, hw.nextId⟩

theorem updateZoneRow_changes (ctx : Context) (id : Nat) (f : Zone → Zone) :
    Triple (ZonesAt zs n) (updateZoneRow ctx id f) (fun _ => ZonesChanged zs n id f)
      (ZonesChanged zs n id f) :=
  (updateZoneRow_zones ctx id f).weaken (fun _ h => h) (fun _ _ h => Or.inr h.2) fun _ => Or.inl

/-- What a report of the worker makes of the row of a zone. -/
def Zone.ending (action : Action) (status : Status) : Zone → Zone :=
  if action = .DELETE ∧ status = .SUCCESS ∨ action = .CREATE ∧ status = .ERROR then Zone.drop
  else Zone.settle

/-- Where the worker reports that it is done or that it has failed, the row ends. -/
theorem finishZone_ends (zoneId : Nat) (action : Action) {status : Status}
    (hs : status = .SUCCESS ∨ status = .ERROR) :
    Triple (ZonesAt zs n) (finishZone ctx zoneId action status)
      (fun _ => ZonesAt (Table.update Zone.id zoneId (Zone.ending action status) zs) n)
      (ZonesAt zs n) := by
  have hrow : ∀ f, Triple (ZonesAt zs n) (do let _ ← updateZoneRow ctx zoneId f)
      (fun _ => ZonesAt (Table.update Zone.id zoneId f zs) n) (ZonesAt zs n) := fun f =>
    Triple.bind ((updateZoneRow_zones ctx zoneId f).weaken (fun _ h => h) (fun _ _ h => h.2)
      fun _ h => h) fun _ => Triple.pure fun _ h => h
  unfold finishZone
  rcases hs with rfl | rfl
  · by_cases ha : action = .DELETE
    · have he : Zone.ending action .SUCCESS = Zone.drop := if_pos (Or.inl ⟨ha, rfl⟩)
      rw [he]; simp only [ha, if_true]; exact hrow _
    · have he : Zone.ending action .SUCCESS = Zone.settle := if_neg (by simp [ha])
      rw [he]; simp only [ha, if_false]; exact hrow _
  · by_cases ha : action = .CREATE
    · have he : Zone.ending action .ERROR = Zone.drop := if_pos (Or.inr ⟨ha, rfl⟩)
      rw [he]; simp only [ha, if_true]; exact hrow _
    · have he : Zone.ending action .ERROR = Zone.settle := if_neg (by simp [ha])
      rw [he]; simp only [ha, if_false]; exact hrow _

theorem finishZone_zones (zoneId : Nat) (action : Action) (status : Status) :
    Triple (ZonesAt zs n) (finishZone ctx zoneId action status)
      (fun _ => ZonesChanged zs n zoneId (Zone.ending action status))
      (ZonesChanged zs n zoneId (Zone.ending action status)) := by
  have hends : status = .SUCCESS ∨ status = .ERROR →
      Triple (ZonesAt zs n) (finishZone ctx zoneId action status)
        (fun _ => ZonesChanged zs n zoneId (Zone.ending action status))
        (ZonesChanged zs n zoneId (Zone.ending action status)) := fun hs =>
    (finishZone_ends zoneId action hs).weaken (fun _ h => h) (fun _ _ => Or.inr) fun _ => Or.inl
  cases status with
  | SUCCESS => exact hends (Or.inl rfl)
  | ERROR => exact hends (Or.inr rfl)
  | ACTIVE => exact Triple.pure fun _ => Or.inl
  | PENDING => exact Triple.pure fun _ => Or.inl
  | DELETED => exact Triple.pure fun _ => Or.inl
  | NO_ZONE => exact Triple.pure fun _ => Or.inl

/-- **A report of the worker ends the zone row, or leaves it alone.** -/
theorem updateZoneStatus_zones (faults : StatusSite → Bool) (zoneId : Nat) (action : Action)
    (status : Status) (w : World) :
    ZonesChanged w.db.zones w.nextId zoneId (Zone.ending action status)
      (updateZoneStatus ctx conf faults zoneId action status w).2 := by
  have hkeep : ∀ {α : Type} {m : Call α}, Keeps (ZonesAt w.db.zones w.nextId) m →
      Triple (ZonesAt w.db.zones w.nextId) m (fun _ => ZonesAt w.db.zones w.nextId)
        (ZonesChanged w.db.zones w.nextId zoneId (Zone.ending action status)) := fun hm =>
    hm.triple.weaken (fun _ h => h) (fun _ _ h => h) fun _ => Or.inl
  have h : Triple (ZonesAt w.db.zones w.nextId)
      (updateZoneStatus ctx conf faults zoneId action status)
      (fun _ => ZonesChanged w.db.zones w.nextId zoneId (Zone.ending action status))
      (ZonesChanged w.db.zones w.nextId zoneId (Zone.ending action status)) :=
    Triple.bind (hkeep (Keeps.raiseIf _ _)) fun _ =>
      Triple.bind (hkeep (Keeps.read _)) fun _ =>
        Triple.bind (hkeep (ZonesAt.updateZoneRecords faults action status 0 _)) fun _ =>
          Triple.bind (hkeep (Keeps.raiseIf _ _)) fun _ => finishZone_zones zoneId action status
  exact h.ends (zonesAt_self w)

/-! ## A message of the pool -/

/-- What a message of the pool makes of a row, where the zone was found as `z`. -/
def PoolStatus.zoneChange (m : PoolStatus) (z row : Zone) : Zone :=
  let (action, status, deleted) := updateZoneOrRecordStatus m z.action z.status z.serial
  if deleted then row.drop else { row with action := action, status := status }

/-- What a message can do to a zone or a record. -/
theorem updateZoneOrRecordStatus_cases (m : PoolStatus) (action : Action) (status : Status)
    (serial : Nat) :
    updateZoneOrRecordStatus m action status serial = (action, status, false) ∨
    (m.status = .SUCCESS ∧ (action = .CREATE ∨ action = .UPDATE) ∧
      (status = .PENDING ∨ status = .ERROR) ∧ serial ≤ m.serial ∧
      updateZoneOrRecordStatus m action status serial = (.NONE, .ACTIVE, false)) ∨
    (m.status = .SUCCESS ∧ action = .DELETE ∧ (status = .PENDING ∨ status = .ERROR) ∧
      serial ≤ m.serial ∧
      updateZoneOrRecordStatus m action status serial = (.NONE, .DELETED, true)) ∨
    (m.status = .ERROR ∧ status = .PENDING ∧ (serial ≤ m.serial ∨ m.serial = 0) ∧
      updateZoneOrRecordStatus m action status serial = (action, .ERROR, false)) ∨
    (m.status = .NO_ZONE ∧
      updateZoneOrRecordStatus m action status serial = (.NONE, .DELETED, true)) := by
  unfold updateZoneOrRecordStatus
  cases m.status with
  -- what is told of as done: a DELETE is done too, by deleting
  | SUCCESS =>
    dsimp only
    split
    · rename_i h; exact Or.inr (Or.inl ⟨rfl, h.1, h.2.1, h.2.2, rfl⟩)
    · split
      · rename_i h; exact Or.inr (Or.inr (Or.inl ⟨rfl, h.1, h.2.1, h.2.2, rfl⟩))
      · exact Or.inl rfl
  | ERROR =>
    dsimp only
    split
    · rename_i h; exact Or.inr (Or.inr (Or.inr (Or.inl ⟨rfl, h.1, h.2, rfl⟩)))
    · exact Or.inl rfl
  | NO_ZONE => exact Or.inr (Or.inr (Or.inr (Or.inr ⟨rfl, rfl⟩)))
  -- no other status is told of in a message
  | ACTIVE => exact Or.inl rfl
  | PENDING => exact Or.inl rfl
  | DELETED => exact Or.inl rfl

/-- What goes is marked as deleted, and was to be deleted, or unknown to the pool. -/
theorem updateZoneOrRecordStatus_deleted {m : PoolStatus} {action : Action} {status : Status}
    {serial : Nat} (h : (updateZoneOrRecordStatus m action status serial).2.2 = true) :
    (updateZoneOrRecordStatus m action status serial).2.1 = .DELETED ∧
      (m.status = .NO_ZONE ∨ action = .DELETE) := by
  rcases updateZoneOrRecordStatus_cases m action status serial with
    hu | ⟨-, -, -, -, hu⟩ | ⟨-, ha, -, -, hu⟩ | ⟨-, -, -, hu⟩ | ⟨hm, hu⟩
  · rw [hu] at h; exact absurd h (by simp)
  · rw [hu] at h; exact absurd h (by simp)
  · exact ⟨by rw [hu], Or.inr ha⟩
  · rw [hu] at h; exact absurd h (by simp)
  · exact ⟨by rw [hu], Or.inl hm⟩

/-- A message takes an action away or leaves it. -/
theorem updateZoneOrRecordStatus_action {m : PoolStatus} {action a : Action} {status : Status}
    {serial : Nat} (h : (updateZoneOrRecordStatus m action status serial).1 = a)
    (ha : a ≠ .NONE) : action = a := by
  rcases updateZoneOrRecordStatus_cases m action status serial with
    hu | ⟨-, -, -, -, hu⟩ | ⟨-, -, -, -, hu⟩ | ⟨-, -, -, hu⟩ | ⟨-, hu⟩ <;> rw [hu] at h
  · exact h
  · exact absurd h.symm ha
  · exact absurd h.symm ha
  · exact h
  · exact absurd h.symm ha

theorem findZone_congr {id : Nat} {db db' : Db} (h : db'.zones = db.zones) :
    findZone ctx id db' = findZone ctx id db := by
  unfold findZone
  rw [h]

/-- A transaction that raises leaves the zones as they were. -/
theorem transaction_zones {α : Type} {m : Call α} {Q : α → World → Prop}
    (hm : Triple (ZonesAt zs n) m Q fun w => n ≤ w.nextId) :
    Triple (ZonesAt zs n) (transaction m) Q (ZonesAt zs n) := by
  intro w hw
  have h := hm w hw
  unfold transaction Exec.rollback
  cases hr : m w with
  | mk r w' =>
    rw [hr] at h
    cases r with
    | ok a => exact h
    | error e => exact ⟨hw.zones, h⟩

theorem updateOneZoneStatus_zones (ctx : Context) (m : PoolStatus) (zoneId : Nat) (db : Db) :
    Triple (ZonesAt db.zones n) (updateOneZoneStatus ctx m zoneId)
      (fun _ w => ZonesAt db.zones n w ∨ ∃ z, findZone ctx zoneId db = .ok z ∧
        ZonesAt (Table.update Zone.id zoneId (m.zoneChange z) db.zones) n w)
      (fun w => n ≤ w.nextId) := by
  intro w hw
  unfold updateOneZoneStatus getZone
  cases hz : findZone ctx zoneId w.db with
  | error e => rw [bind_error (by rw [read_apply, hz])]; exact hw.nextId
  | ok z =>
    rw [bind_ok (by rw [read_apply, hz])]
    have hzid : z.id = zoneId := (findZone_mem hz).2.1
    have hz' : findZone ctx zoneId db = .ok z := (findZone_congr hw.zones.symm).trans hz
    -- at most one of the two writes below is made, and it makes this change
    have hchange : ∀ f, m.zoneChange z = f → Triple (ZonesAt db.zones n)
        (do let _ ← updateZoneRow ctx z.id f)
        (fun _ w => ZonesAt db.zones n w ∨ ∃ z, findZone ctx zoneId db = .ok z ∧
          ZonesAt (Table.update Zone.id zoneId (m.zoneChange z) db.zones) n w)
        (fun w => n ≤ w.nextId) := by
      intro f hf
      rw [hzid, ← hf]
      exact Triple.bind ((updateZoneRow_zones ctx zoneId _).weaken (fun _ h => h)
        (fun _ _ h => Or.inr ⟨z, hz', h.2⟩) fun _ h => h.nextId) fun _ => Triple.pure fun _ h => h
    have hdel := @updateZoneOrRecordStatus_deleted m z.action z.status z.serial
    unfold PoolStatus.zoneChange at hchange
    generalize updateZoneOrRecordStatus m z.action z.status z.serial = u at hchange hdel ⊢
    obtain ⟨action, status, deleted⟩ := u
    dsimp only at hchange hdel ⊢
    cases deleted with
    | true =>
      rw [if_neg (not_not_intro (hdel rfl).1)]
      exact hchange _ rfl w hw
    | false =>
      by_cases hs : status = .DELETED
      · rw [if_neg (not_not_intro hs)]
        exact Or.inl hw
      · rw [if_pos hs]
        exact hchange _ rfl w hw

/-- **A message of the pool changes the row of the zone it finds, or none.** -/
theorem updateStatus_zones (m : PoolStatus) (zoneId : Nat) (w : World) :
    ZonesAt w.db.zones w.nextId (updateStatus ctx conf m zoneId w).2 ∨
      ∃ z, findZone ctx zoneId w.db = .ok z ∧
        ZonesAt (Table.update Zone.id zoneId (m.zoneChange z) w.db.zones) w.nextId
          (updateStatus ctx conf m zoneId w).2 := by
  have hrecords : Triple (ZonesAt w.db.zones w.nextId) (updateRecordStatuses ctx conf m zoneId)
      (fun _ => ZonesAt w.db.zones w.nextId) fun w' => w.nextId ≤ w'.nextId :=
    (ZonesAt.updateRecordStatuses m zoneId).triple.weaken (fun _ h => h) (fun _ _ h => h)
      fun _ h => h.nextId
  have h := transaction_zones (Triple.bind hrecords fun _ =>
    updateOneZoneStatus_zones ctx m zoneId w.db)
  exact (h.weaken (fun _ h => h) (fun _ _ h => h) fun _ => Or.inl).ends (zonesAt_self w)

/-! ## The calls in steps -/

/-- `delete_zone` is its checks, then its change, then the worker's part. -/
theorem deleteZone_steps (ctx : Context) (conf : Conf) (faults : ZoneFaults) (zoneId : Nat) :
    deleteZone ctx conf faults zoneId = (do
      let zone ← deleteZoneChecks ctx zoneId
      let zone ← storeDeletion ctx zone
      if ctx.abandon then pure zone
      else do
        zoneAction ctx conf faults zone
        pure zone) := by
  unfold deleteZone deleteZoneChecks storeDeletion
  by_cases ha : ctx.abandon
  · simp only [ha, if_true, Exec.bind_assoc, Exec.pure_bind, Exec.bind_pure]
  · simp only [ha, Exec.bind_assoc, Exec.pure_bind]
    rfl

/-- `update_zone` for a zone below a new one, in the same way. -/
theorem updateZone_steps (ctx : Context) (conf : Conf) (faults : ZoneFaults) (subzone : Zone)
    (zoneId : Nat) :
    updateZone ctx conf faults subzone { subzone with parentZoneId := some zoneId } = (do
      let (stored, zone) ← storeAdoption ctx conf subzone zoneId
      Exec.onError (zoneAction ctx conf faults zone) (takeBack ctx zone.id stored)
      getZone ctx zone.id) := by
  unfold updateZone storeAdoption
  simp only [ne_eq, not_true_eq_false, if_false, Exec.bind_assoc, Exec.pure_bind]
  rfl

/-- What the checks of `delete_zone` have seen. -/
theorem deleteZoneChecks_ok {zoneId : Nat} {w w' : World} {zone : Zone}
    (h : deleteZoneChecks ctx zoneId w = (.ok zone, w')) :
    findZone ctx zoneId w.db = .ok zone ∧
      ∀ z ∈ w.db.zones, z.deleted = false → z.parentZoneId = some zoneId →
        ctx.sees z.tenantId = false := by
  obtain ⟨zone', hz, h⟩ := of_read_bind h
  obtain ⟨children, hc, h⟩ := of_read_bind h
  obtain ⟨hempty, h⟩ := of_raiseIf_bind h
  obtain rfl := Except.ok.inj (Prod.mk.inj h).1
  obtain rfl := Except.ok.inj hc
  refine ⟨hz, fun z hm hlive hp => ?_⟩
  simp only [Bool.not_eq_false', List.isEmpty_iff] at hempty
  simpa [hp, hlive] using List.filter_eq_nil_iff.mp hempty z hm

/-- The first change of `delete_zone`. -/
def Deletion.change (d : Deletion) : Zone → Zone :=
  if d.ctx.abandon then Zone.drop else fun z => { z with action := .DELETE, status := .PENDING }

theorem storeDeletion_zones (d : Deletion) :
    Triple (ZonesAt zs n) (storeDeletion d.ctx d.zone)
      (fun z w => z.id = d.zone.id ∧
        ZonesAt (Table.update Zone.id d.zone.id d.change zs) n w)
      (ZonesAt zs n) := by
  unfold storeDeletion Deletion.change
  by_cases ha : d.ctx.abandon
  · simp only [ha, if_true]
    refine (updateZoneRow_zones d.ctx d.zone.id _).weaken (fun _ h => h) (fun z w h => ?_)
      fun _ h => h
    obtain ⟨⟨z₀, -, rfl, hid⟩, hw⟩ := h
    exact ⟨hid, hw⟩
  · simp only [ha]
    refine transaction_zones ((updateZoneRow_zones d.ctx d.zone.id _).weaken (fun _ h => h)
      (fun z w h => ?_) fun _ h => h.nextId)
    obtain ⟨⟨z₀, -, rfl, hid⟩, hw⟩ := h
    exact ⟨hid, hw⟩

/-- What `update_zone` makes of the row of a zone that gets a new parent. -/
def Zone.adopted (subzone : Zone) (zoneId now : Nat) (row : Zone) : Zone :=
  { row with ttl := subzone.ttl, parentZoneId := some zoneId
             action := .UPDATE, status := .PENDING, serial := incrementSerial now subzone.serial }

/-- What an update makes of the row of a zone. -/
theorem updateZoneInStorage_zones (zone : Zone) :
    Triple (ZonesAt zs n) (updateZoneInStorage ctx conf zone true)
      (fun z w => (z.id = zone.id ∧ z.action = .UPDATE) ∧
        ZonesAt (Table.update Zone.id zone.id
          (fun row => { zone.updating row with serial := incrementSerial ctx.now zone.serial }) zs) n w)
      (ZonesAt zs n) := by
  refine transaction_zones ?_
  simp only [if_true]
  refine Triple.bind (Q := fun (z : Zone) w => (z.id = zone.id ∧ z.action = .UPDATE) ∧
    ZonesAt (Table.update Zone.id zone.id
      (fun row => { zone.updating row with serial := incrementSerial ctx.now zone.serial }) zs) n w) ?_
    fun z => ?_
  · refine (updateZoneRow_zones ctx zone.id _).weaken (fun _ h => h) (fun z w h => ?_)
      fun _ h => h.nextId
    obtain ⟨⟨z₀, -, rfl, hid⟩, hw⟩ := h
    exact ⟨⟨hid, rfl⟩, hw⟩
  · have hsoa : Keeps (fun w => (z.id = zone.id ∧ z.action = .UPDATE) ∧
        ZonesAt (Table.update Zone.id zone.id
          (fun row => { zone.updating row with serial := incrementSerial ctx.now zone.serial }) zs) n w)
        (updateSoa ctx conf z) :=
      IgnoresQuiet.updateSoa (fun _ _ hq h => ⟨h.1, h.2.still hq.still⟩) z
    exact Triple.bind (hsoa.triple.weaken (fun _ h => h) (fun _ _ h => h) fun _ h => h.2.nextId)
      fun _ => Triple.pure fun _ h => h

theorem storeAdoption_zones (subzone : Zone) (zoneId : Nat) :
    Triple (ZonesAt zs n) (storeAdoption ctx conf subzone zoneId)
      (fun p w => p.2.id = subzone.id ∧
        ZonesAt (Table.update Zone.id subzone.id (subzone.adopted zoneId ctx.now) zs) n w)
      (ZonesAt zs n) := by
  refine Triple.bind (Q := fun _ => ZonesAt zs n) (Triple.read (fun _ _ h _ => h) fun _ h => h)
    fun stored => ?_
  exact Triple.bind (updateZoneInStorage_zones { subzone with parentZoneId := some zoneId })
    fun zone => Triple.pure fun _ h => ⟨h.1.1, h.2⟩

theorem takeBack_zones (zoneId : Nat) (stored : Zone) (w : World) :
    ZonesChanged w.db.zones w.nextId zoneId
      (fun z => { z with ttl := stored.ttl, parentZoneId := stored.parentZoneId })
      (takeBack ctx zoneId stored w).2 := by
  let f : Zone → Zone := fun z => { z with ttl := stored.ttl, parentZoneId := stored.parentZoneId }
  have h : Triple (ZonesAt w.db.zones w.nextId) (takeBack ctx zoneId stored)
      (fun _ => ZonesChanged w.db.zones w.nextId zoneId f)
      (ZonesChanged w.db.zones w.nextId zoneId f) :=
    Triple.bind (updateZoneRow_changes ctx zoneId f) fun _ => Triple.pure fun _ h => h
  exact h.ends (zonesAt_self w)

theorem acceptTransfer_zones (zoneId : Nat) (tenantId : Option String) (w : World) :
    ZonesChanged w.db.zones w.nextId zoneId (fun z => { z with tenantId := tenantId })
      (acceptTransfer ctx zoneId tenantId w).2 := by
  let f : Zone → Zone := fun z => { z with tenantId := tenantId }
  have hread : Triple (ZonesAt w.db.zones w.nextId) (getZone ctx.elevated zoneId)
      (fun z w' => z.id = zoneId ∧ ZonesAt w.db.zones w.nextId w') fun w' => w.nextId ≤ w'.nextId :=
    Triple.read (fun _ z h hz => ⟨(findZone_mem hz).2.1, h⟩) fun _ h => h.nextId
  refine (transaction_zones (Q := fun _ => ZonesAt (Table.update Zone.id zoneId f w.db.zones) w.nextId)
    (Triple.bind hread fun z => ?_)).weaken (fun _ h => h) (fun _ _ => Or.inr)
    (fun _ => Or.inl) |>.ends (zonesAt_self w)
  refine Triple.bind (Q := fun _ w' => z.id = zoneId ∧ ZonesAt w.db.zones w.nextId w')
    (Triple.raiseIf (fun _ h _ => h) fun _ h _ => h.2.nextId) fun _ => ?_
  rintro w' ⟨rfl, hw'⟩
  have hrow : Triple (ZonesAt w.db.zones w.nextId) (updateZoneRow ctx.elevated z.id f)
      (fun _ => ZonesAt (Table.update Zone.id z.id f w.db.zones) w.nextId)
      fun w' => w.nextId ≤ w'.nextId :=
    (updateZoneRow_zones ctx.elevated z.id f).weaken (fun _ h => h) (fun _ _ h => h.2)
      fun _ h => h.nextId
  exact Triple.bind hrow (fun _ => Triple.modify fun _ h => ⟨h.zones, h.nextId⟩) w' hw'

/-! ## Calls that return -/

variable (ctx conf) in
/-- A status update that returns has ended the row. -/
theorem updateZoneStatus_ends (faults : StatusSite → Bool) (zoneId : Nat) (action : Action) :
    Triple (ZonesAt zs n) (updateZoneStatus ctx conf faults zoneId action .SUCCESS)
      (fun _ => ZonesAt (Table.update Zone.id zoneId (Zone.ending action .SUCCESS) zs) n)
      fun _ => True := by
  have hkeep : ∀ {α : Type} {m : Call α}, Keeps (ZonesAt zs n) m →
      Triple (ZonesAt zs n) m (fun _ => ZonesAt zs n) fun _ => True := fun hm =>
    hm.triple.weaken (fun _ h => h) (fun _ _ h => h) fun _ _ => trivial
  exact Triple.bind (hkeep (Keeps.raiseIf _ _)) fun _ => Triple.bind (hkeep (Keeps.read _)) fun _ =>
    Triple.bind (hkeep (ZonesAt.updateZoneRecords faults action .SUCCESS 0 _)) fun _ =>
    Triple.bind (hkeep (Keeps.raiseIf _ _)) fun _ =>
    (finishZone_ends zoneId action (Or.inl rfl)).weaken (fun _ h => h) (fun _ _ h => h)
      fun _ _ => trivial

end Designate
