import Designate.Proof.Reachable
import Designate.Proof.ZoneRows

/-!
# What status messages finish and what they remove

A message finishes a zone or a record only if it reports success with a serial that has
got there, and removes it only if it was to be deleted. `NO_ZONE` is the exception: it
removes whatever it finds. Records go one by one, and a recordset goes with its last
record, so that nothing goes along with it.
-/

namespace Designate

open Exec

variable {ctx : Context} {conf : Conf} {m : PoolStatus} {zoneId : Nat} {w w₀ : World}

/-- Whoever was waiting and is ACTIVE now was waiting for this message. -/
def PoolStatus.Finishes (m : PoolStatus) (before : Status) (serial : Nat) (after : Status) : Prop :=
  before = .PENDING ∨ before = .ERROR → after = .ACTIVE → m.status = .SUCCESS ∧ serial ≤ m.serial

/-- The message finishes and removes nothing before its time. -/
structure PoolStatus.Honours (m : PoolStatus) (before after : Db) : Prop where
  records : ∀ r ∈ before.records, ∀ r' ∈ after.records, r'.id = r.id →
    m.Finishes r.status r.serial r'.status
  zones : ∀ z ∈ before.zones, ∀ z' ∈ after.zones, z'.id = z.id →
    m.Finishes z.status z.serial z'.status
  recordGoes : ∀ r ∈ before.records, (∀ r' ∈ after.records, r'.id ≠ r.id) → r.action = .DELETE
  zoneGoes : ∀ z ∈ before.zones, z.deleted = false →
    (∀ z' ∈ after.zones, z'.id = z.id → z'.deleted = true) → z.action = .DELETE

/-- A zone that is missing is one that was to be deleted, with all its records. -/
def PoolStatus.Expected (m : PoolStatus) (zoneId : Nat) (db : Db) : Prop :=
  m.status = .NO_ZONE →
    (∀ z ∈ db.zones, z.id = zoneId → z.deleted = false → z.action = .DELETE) ∧
      ∀ r ∈ db.records, r.zoneId = zoneId → r.action = .DELETE

/-! ## One row -/

/-- What the rule makes ACTIVE was waiting for the message, or was ACTIVE. -/
theorem updateZoneOrRecordStatus_finishes (action : Action) (status : Status) (serial : Nat) :
    m.Finishes status serial (updateZoneOrRecordStatus m action status serial).2.1 := by
  intro hwaiting hactive
  rcases updateZoneOrRecordStatus_cases m action status serial with
    hu | ⟨hm, -, -, hserial, -⟩ | ⟨-, -, -, -, hu⟩ | ⟨-, -, -, hu⟩ | ⟨-, hu⟩
  · rw [hu] at hactive
    rw [show status = .ACTIVE from hactive] at hwaiting
    exact absurd hwaiting (by simp)
  · exact ⟨hm, hserial⟩
  · rw [hu] at hactive; exact absurd hactive (by simp)
  · rw [hu] at hactive; exact absurd hactive (by simp)
  · rw [hu] at hactive; exact absurd hactive (by simp)

theorem PoolStatus.record_stays (m : PoolStatus) (row : RecordRow) : (m.record row).1.Stays :=
  ⟨rfl, rfl⟩

/-- The status column of a row the object of a message is written over. -/
theorem PoolStatus.written_status (conf : Conf) (m : PoolStatus) (row cur : RecordRow) :
    (writtenRow conf (m.record row).1 cur).status = cur.status ∨
      (writtenRow conf (m.record row).1 cur).status =
        (updateZoneOrRecordStatus m row.action row.status row.serial).2.1 := by
  have hwrite : (writtenRow conf (m.record row).1 cur).status =
      (m.record row).1.status.write cur.status := by
    unfold writtenRow Record.updateRow Record.rehash
    split <;> rfl
  rw [hwrite]
  rcases Tracked.write_eq (m.record row).1.status cur.status with h | ⟨-, h⟩
  · exact Or.inl h
  · exact Or.inr h

/-! ## The records -/

/--
The tables on the way of a message through the records. The loop goes through the records one by
one, and only one that was to be deleted goes.
-/
structure PoolStatus.Underway (m : PoolStatus) (w₀ w : World) : Prop where
  linked : w.Linked
  zones : w.db.zones = w₀.db.zones
  recordsets : w.db.recordsets ⊆ w₀.db.recordsets
  records : ∀ r' ∈ w.db.records, ∃ r ∈ w₀.db.records, r'.id = r.id ∧
    m.Finishes r.status r.serial r'.status
  gone : ∀ r ∈ w₀.db.records, (∃ r' ∈ w.db.records, r'.id = r.id) ∨ r.action = .DELETE

theorem PoolStatus.underway_self (h : w₀.Linked) : m.Underway w₀ w₀ where
  linked := h
  zones := rfl
  recordsets := List.Subset.refl _
  records r hr := ⟨r, hr, rfl, fun hwaiting hactive => by
    rw [hactive] at hwaiting; exact absurd hwaiting (by simp)⟩
  gone r hr := Or.inl ⟨r, hr, rfl⟩

/-- The row of a message is written. -/
theorem PoolStatus.Underway.updateRecordRow (hw₀ : w₀.Linked) {row : RecordRow}
    (hrow : row ∈ w₀.db.records) :
    Keeps (m.Underway w₀) (updateRecordRow ctx conf (m.record row).1) := by
  intro w h
  rcases updateRecordRow_cases ctx conf (m.record row).1 w with ⟨e, he⟩ | ⟨cur, hcur, -, hok⟩
  · rw [he]; exact h
  rw [hok]
  obtain ⟨hcurm, hid, -⟩ := findRecordRow_mem hcur
  have hid' : cur.id = row.id := Option.some.inj hid.symm
  refine ⟨h.linked.write hcur (m.record_stays row), h.zones, h.recordsets, fun r' hr' => ?_,
    fun r hr => ?_⟩
  · rcases Table.mem_update.mp hr' with ⟨hr', -⟩ | ⟨-, -, -, rfl⟩
    · exact h.records r' hr'
    · obtain ⟨r, hr, he, hfin⟩ := h.records cur hcurm
      -- the row that was read is the row the identifier had from the start
      obtain rfl : r = row := Table.eq_of_key hw₀.recordIds hr hrow (he.symm.trans hid')
      refine ⟨r, hr, he, ?_⟩
      rcases m.written_status conf r cur with hs | hs
      · rw [hs]; exact hfin
      · rw [hs]; exact updateZoneOrRecordStatus_finishes _ _ _
  · rcases h.gone r hr with ⟨r', hr', he⟩ | hdel
    · refine Or.inl ?_
      by_cases hk : r'.id = cur.id
      · exact ⟨writtenRow conf (m.record row).1 cur,
          Table.mem_update.mpr (Or.inr ⟨r', hr', hk, rfl⟩), hk.symm.trans he⟩
      · exact ⟨r', Table.mem_update.mpr (Or.inl ⟨hr', hk⟩), he⟩
    · exact Or.inr hdel

/-- The row of a record that was to be deleted goes. -/
theorem PoolStatus.Underway.deleteRecordRow {row : RecordRow} (hw₀ : w₀.Linked)
    (hrow : row ∈ w₀.db.records) (hdel : row.action = .DELETE) :
    Keeps (m.Underway w₀) (deleteRecordRow ctx (some row.id)) := by
  intro w h
  cases hcur : findRecordRow ctx (some row.id) w.db with
  | error e => rw [deleteRecordRow_missing hcur]; exact h
  | ok cur =>
    rw [deleteRecordRow_ok hcur]
    have hid : cur.id = row.id := Option.some.inj (findRecordRow_mem hcur).2.1.symm
    refine ⟨(linked_steady ctx {}).drop h.linked hcur, h.zones, h.recordsets,
      fun r' hr' => h.records r' (Table.mem_remove.mp hr').1, fun r hr => ?_⟩
    rcases h.gone r hr with ⟨r', hr', he⟩ | hdel'
    · by_cases hk : r'.id = cur.id
      · obtain rfl : r = row := Table.eq_of_key hw₀.recordIds hr hrow
          (he.symm.trans (hk.trans hid))
        exact Or.inr hdel
      · exact Or.inl ⟨r', Table.mem_remove.mpr ⟨hr', hk⟩, he⟩
    · exact Or.inr hdel'

/-- A recordset in which the caller sees no record of its tenant has none. -/
theorem PoolStatus.Underway.noRecord (h : m.Underway w₀ w) (hw₀ : w₀.Linked) {row : RecordRow}
    (hrow : row ∈ w₀.db.records) (hsees : ctx.sees row.tenantId = true)
    (hempty : w.db.records.filter
      (fun r => r.recordsetId == row.recordsetId && ctx.sees r.tenantId) = []) :
    ∀ r ∈ w.db.records, r.recordsetId ≠ row.recordsetId := by
  intro r hr hid
  obtain ⟨s, hs, hsid, -, hstenant⟩ := h.linked.recordset r hr
  obtain ⟨s₀, hs₀, hs₀id, -, hs₀tenant⟩ := hw₀.recordset row hrow
  obtain rfl : s = s₀ := Table.eq_of_key hw₀.recordsetIds (h.recordsets hs) hs₀
    (hsid.trans (hid.trans hs₀id.symm))
  have htenant : r.tenantId = row.tenantId := hstenant.symm.trans hs₀tenant
  refine List.filter_eq_nil_iff.mp hempty r hr ?_
  rw [hid, htenant, hsees]
  simp

theorem deleteRecordsetRow_cases (ctx : Context) (id : Nat) (w : World) :
    (∃ e, deleteRecordsetRow ctx id w = (.error e, w)) ∨
      deleteRecordsetRow ctx id w = (.ok (), w.withDb (w.db.withoutRecordset id)) := by
  unfold deleteRecordsetRow Exec.write
  cases hs : findRecordsetRow ctx id w.db with
  | error e => exact Or.inl ⟨e, by simp only [hs]⟩
  | ok s =>
    refine Or.inr ?_
    simp only [hs]
    rfl

/-- A recordset without records goes alone. -/
theorem PoolStatus.Underway.deleteRecordsetRow (h : m.Underway w₀ w) {id : Nat}
    (hnone : ∀ r ∈ w.db.records, r.recordsetId ≠ id) :
    m.Underway w₀ (deleteRecordsetRow ctx id w).2 := by
  rcases deleteRecordsetRow_cases ctx id w with ⟨e, he⟩ | hok
  · rw [he]; exact h
  · rw [hok]
    refine ⟨h.linked.withoutRecordset id, h.zones,
      fun s hs => h.recordsets (Table.mem_remove.mp hs).1, fun r' hr' => ?_, fun r hr => ?_⟩
    · exact h.records r' (Table.mem_remove.mp hr').1
    · rcases h.gone r hr with ⟨r', hr', he⟩ | hdel
      · exact Or.inl ⟨r', Table.mem_remove.mpr ⟨hr', hnone r' hr'⟩, he⟩
      · exact Or.inr hdel

/-- The recordset goes if it was the last record. -/
theorem PoolStatus.Underway.dropRecord {row : RecordRow} (hw₀ : w₀.Linked)
    (hrow : row ∈ w₀.db.records) (hsees : ctx.sees row.tenantId = true)
    (hdel : row.action = .DELETE) :
    Keeps (m.Underway w₀) (dropRecord ctx (fun _ => false) row) := by
  unfold Designate.dropRecord
  refine Keeps.bind (Keeps.raiseIf _ _) fun _ => ?_
  refine Keeps.bind (deleteRecordRow hw₀ hrow hdel) fun _ => ?_
  refine Keeps.bind (Keeps.raiseIf _ _) fun _ => ?_
  intro w h
  unfold getRecordset
  refine Keeps.look h fun recordset hread => ?_
  cases hs : findRecordsetRow ctx row.recordsetId w.db with
  | error e => rw [hs] at hread; exact absurd hread (by simp [Except.map])
  | ok s =>
    rw [hs] at hread
    obtain rfl := Except.ok.inj hread
    have hsid : s.id = row.recordsetId := (Table.find_mem hs).2.1
    split
    · rename_i hempty
      -- the recordset is empty, so no record of before is left to be honoured in it
      have hnone := h.noRecord hw₀ hrow hsees
        (List.map_eq_nil_iff.mp (List.isEmpty_iff.mp hempty))
      have hthrough : (mayFail false : Call Unit) w = (.ok (), w) := rfl
      rw [seq_ok hthrough]
      exact h.deleteRecordsetRow (hsid ▸ hnone)
    · exact h

/-- One record after the other. -/
theorem PoolStatus.Underway.updateOneRecordStatus {row : RecordRow} (hw₀ : w₀.Linked)
    (hrow : row ∈ w₀.db.records) (hsees : ctx.sees row.tenantId = true)
    (hexpected : m.status = .NO_ZONE → row.action = .DELETE) :
    Keeps (m.Underway w₀) (updateOneRecordStatus ctx conf m row) := by
  unfold Designate.updateOneRecordStatus
  have hdeleted : (m.record row).2 = true → row.action = .DELETE := by
    intro hd
    rcases (updateZoneOrRecordStatus_deleted hd).2 with hm | ha
    · exact hexpected hm
    · exact ha
  have hwrite : Keeps (m.Underway w₀) (Designate.updateRecordRow ctx conf (m.record row).1) :=
    Underway.updateRecordRow hw₀ hrow
  generalize m.record row = p at hdeleted hwrite
  obtain ⟨record, deleted⟩ := p
  have hdrop : Keeps (m.Underway w₀)
      (if deleted then Designate.dropRecord ctx (fun _ => false) row else pure ()) :=
    Keeps.ite (fun hd => Underway.dropRecord hw₀ hrow hsees (hdeleted hd)) fun _ => Keeps.pure _
  refine Keeps.ite (fun _ => ?_) fun _ => hdrop
  exact Keeps.bind hwrite fun _ => hdrop

theorem PoolStatus.Underway.updateRecordStatuses (hw₀ : w₀.Linked)
    (hexpected : m.Expected zoneId w₀.db) :
    m.Underway w₀ (updateRecordStatuses ctx conf m zoneId w₀).2 := by
  unfold Designate.updateRecordStatuses findRecords
  refine Keeps.look (PoolStatus.underway_self hw₀) fun rows hread => ?_
  obtain rfl := Except.ok.inj hread
  refine Keeps.forEach (fun row hm => ?_) w₀ (PoolStatus.underway_self hw₀)
  obtain ⟨hrow, hp⟩ := List.mem_filter.mp hm
  rw [Bool.and_eq_true, Bool.and_eq_true, beq_iff_eq] at hp
  exact Underway.updateOneRecordStatus hw₀ hrow hp.2 fun hm => (hexpected hm).2 row hrow hp.1.1

/-! ## The message -/

/-- The records and what has become of them since `db`. -/
def PoolStatus.RecordsHonoured (m : PoolStatus) (db : Db) (w : World) : Prop :=
  (∀ r' ∈ w.db.records, ∃ r ∈ db.records, r'.id = r.id ∧ m.Finishes r.status r.serial r'.status) ∧
    ∀ r ∈ db.records, (∃ r' ∈ w.db.records, r'.id = r.id) ∨ r.action = .DELETE

theorem PoolStatus.recordsHonoured_self (w : World) : m.RecordsHonoured w.db w :=
  ⟨fun r hr => ⟨r, hr, rfl, fun hwaiting hactive => by
    rw [hactive] at hwaiting; exact absurd hwaiting (by simp)⟩, fun r hr => Or.inl ⟨r, hr, rfl⟩⟩

theorem updateOneZoneStatus_records (db : Db) :
    Keeps (m.RecordsHonoured db) (updateOneZoneStatus ctx m zoneId) := by
  have hrow : ∀ id f, Keeps (m.RecordsHonoured db) (updateZoneRow ctx id f) := fun id f =>
    Keeps.bind (Keeps.read _) fun _ => Keeps.bind (Keeps.modify fun _ h => h) fun _ => Keeps.pure _
  refine Keeps.bind (Keeps.read _) fun zone => ?_
  generalize updateZoneOrRecordStatus m zone.action zone.status zone.serial = u
  obtain ⟨action, status, deleted⟩ := u
  have hdelete : Keeps (m.RecordsHonoured db) (if deleted then do
      let _ ← deleteZoneRow ctx zone.id else pure ()) :=
    Keeps.ite (fun _ => Keeps.bind (hrow _ _) fun _ => Keeps.pure _) fun _ => Keeps.pure _
  exact Keeps.ite (fun _ => Keeps.bind (hrow _ _) fun _ => hdelete) fun _ => hdelete

theorem updateStatus_records (ctx : Context) (conf : Conf) (hw : w.Linked) (hexpected : m.Expected zoneId w.db) :
    m.RecordsHonoured w.db (updateStatus ctx conf m zoneId w).2 := by
  -- within the transaction; a rollback puts back the records of before
  have hrun : m.RecordsHonoured w.db ((do
      updateRecordStatuses ctx conf m zoneId
      updateOneZoneStatus ctx m zoneId : Call Unit) w).2 := by
    have hrecords : m.Underway w (updateRecordStatuses ctx conf m zoneId w).2 :=
      PoolStatus.Underway.updateRecordStatuses hw hexpected
    rw [bind_apply]
    cases hr : updateRecordStatuses ctx conf m zoneId w with
    | mk result w₁ =>
      rw [hr] at hrecords
      cases result with
      | ok u => exact updateOneZoneStatus_records w.db w₁ ⟨hrecords.records, hrecords.gone⟩
      | error e => exact ⟨hrecords.records, hrecords.gone⟩
  unfold updateStatus transaction Exec.rollback
  split
  · rename_i u w' hr
    rw [hr] at hrun
    exact hrun
  · exact PoolStatus.recordsHonoured_self w

/-- What a message makes of the row of the zone it has found. -/
theorem zoneChange_honoured {z : Zone} (hexpected : m.status = .NO_ZONE → z.action = .DELETE) :
    m.Finishes z.status z.serial (m.zoneChange z z).status ∧
      ((m.zoneChange z z).deleted = true → z.deleted = false → z.action = .DELETE) := by
  have hfin := updateZoneOrRecordStatus_finishes (m := m) z.action z.status z.serial
  have hdel := @updateZoneOrRecordStatus_deleted m z.action z.status z.serial
  unfold PoolStatus.zoneChange
  generalize updateZoneOrRecordStatus m z.action z.status z.serial = u at hfin hdel ⊢
  obtain ⟨action, status, deleted⟩ := u
  dsimp only at hfin hdel ⊢
  cases deleted with
  | true =>
    refine ⟨fun _ hactive => absurd hactive (by simp [Zone.drop]), fun _ _ => ?_⟩
    exact (hdel rfl).2.elim hexpected id
  | false =>
    refine ⟨hfin, fun hd hlive => ?_⟩
    rw [hlive] at hd
    exact absurd hd (by simp)

/-- A zone row is what it was, or what the message makes of it; and it is there. -/
theorem updateStatus_zoneRows (ctx : Context) (conf : Conf) (m : PoolStatus) (zoneId : Nat)
    (hw : w.Linked) {z : Zone} (hz : z ∈ w.db.zones) :
    ∃ z' ∈ (updateStatus ctx conf m zoneId w).2.db.zones, z'.id = z.id ∧
      (z' = z ∨ z.id = zoneId ∧ z.deleted = false ∧ z' = m.zoneChange z z) ∧
      ∀ z'' ∈ (updateStatus ctx conf m zoneId w).2.db.zones, z''.id = z.id → z'' = z' := by
  have hrows : ZonesAt w.db.zones w.nextId (updateStatus ctx conf m zoneId w).2 ∨ _ :=
    updateStatus_zones m zoneId w
  rcases hrows with h | ⟨found, hfound, h⟩
  · rw [h.zones]
    exact ⟨z, hz, rfl, Or.inl rfl, fun z'' hz'' hid => Table.eq_of_key hw.zoneIds hz'' hz hid⟩
  · obtain ⟨hm, hid, -, hlive⟩ := findZone_mem hfound
    rw [h.zones]
    -- the change keeps the identifier, so the row can be followed
    have hchange : ∀ z : Zone, (m.zoneChange found z).id = z.id := by
      intro z
      unfold PoolStatus.zoneChange
      generalize updateZoneOrRecordStatus m found.action found.status found.serial = u
      obtain ⟨action, status, deleted⟩ := u
      cases deleted <;> rfl
    have hids : ((Table.update Zone.id zoneId (m.zoneChange found) w.db.zones).map Zone.id).Nodup := by
      rw [Table.map_update fun z _ _ => hchange z]
      exact hw.zoneIds
    by_cases he : z.id = zoneId
    · obtain rfl : z = found := Table.eq_of_key hw.zoneIds hz hm (he.trans hid.symm)
      have hmem : m.zoneChange z z ∈ Table.update Zone.id zoneId (m.zoneChange z) w.db.zones :=
        Table.mem_update.mpr (Or.inr ⟨z, hz, he, rfl⟩)
      refine ⟨_, hmem, hchange z, Or.inr ⟨he, hlive, rfl⟩, fun z'' hz'' hid'' => ?_⟩
      exact Table.eq_of_key hids hz'' hmem (hid''.trans (hchange z).symm)
    · have hmem : z ∈ Table.update Zone.id zoneId (m.zoneChange found) w.db.zones :=
        Table.mem_update.mpr (Or.inl ⟨hz, he⟩)
      exact ⟨z, hmem, rfl, Or.inl rfl, fun z'' hz'' hid'' => Table.eq_of_key hids hz'' hmem hid''⟩

/-- **A message that finds no zone missing before its time is honoured.** -/
theorem updateStatus_honours (ctx : Context) (conf : Conf) (hw : w.Linked)
    (hexpected : m.Expected zoneId w.db) :
    m.Honours w.db (updateStatus ctx conf m zoneId w).2.db := by
  obtain ⟨hrecords, hgone⟩ := updateStatus_records ctx conf hw hexpected
  refine ⟨fun r hr r' hr' hid => ?_, fun z hz z' hz' hid => ?_, fun r hr hne => ?_,
    fun z hz hlive hall => ?_⟩
  · obtain ⟨r₀, hr₀, he, hfin⟩ := hrecords r' hr'
    obtain rfl : r₀ = r := Table.eq_of_key hw.recordIds hr₀ hr (he.symm.trans hid)
    exact hfin
  · -- the row of the zone is the one of before, or what the message makes of it
    obtain ⟨z₁, -, -, hcases, honly⟩ := updateStatus_zoneRows ctx conf m zoneId hw hz
    obtain rfl := honly z' hz' hid
    rcases hcases with rfl | ⟨he, hlive, rfl⟩
    · intro hwaiting hactive
      rw [hactive] at hwaiting
      exact absurd hwaiting (by simp)
    · exact (zoneChange_honoured fun hm => (hexpected hm).1 z hz he hlive).1
  · rcases hgone r hr with ⟨r', hr', he⟩ | hdel
    · exact absurd he (hne r' hr')
    · exact hdel
  · obtain ⟨z', hz', hid, hcases, -⟩ := updateStatus_zoneRows ctx conf m zoneId hw hz
    have hdeleted := hall z' hz' hid
    rcases hcases with rfl | ⟨he, -, rfl⟩
    · rw [hlive] at hdeleted
      exact absurd hdeleted (by simp)
    · exact (zoneChange_honoured fun hm => (hexpected hm).1 z hz he hlive).2 hdeleted hlive

/-! ## Runs -/

/-- The message of a request, and the zone it is about. -/
def Input.message (input : Input) : Option (Nat × PoolStatus) :=
  match input.request with
  | .updateStatus zoneId m => some (zoneId, m)
  | _ => none

/--
**In a run in which no zone is reported missing before its time every message is
honoured**, whatever was changed in between and in whichever order they come.
-/
theorem run_honours (conf : Conf) (inputs : List Input) (w : World) (hw : w.Linked)
    (hexpected : ∀ t ∈ Run.transitions (serve conf) inputs w, ∀ zoneId m,
      t.input.message = some (zoneId, m) → m.Expected zoneId t.before.db) :
    ∀ t ∈ Run.transitions (serve conf) inputs w, ∀ zoneId m,
      t.input.message = some (zoneId, m) → m.Honours t.before.db t.after.db := by
  intro t ht zoneId m hm
  have hlinked : t.before.Linked := (run_linked conf inputs hw).1 t ht
  have hserve : serve conf t.input t.before = (updateStatus t.input.ctx conf m zoneId t.before).2 := by
    unfold Input.message at hm
    unfold serve
    split at hm
    · rename_i zoneId' m' hreq
      obtain ⟨rfl, rfl⟩ := Prod.mk.inj (Option.some.inj hm)
      rw [hreq]
      rfl
    · exact absurd hm (by simp)
  rw [Run.transition_after ht, hserve]
  exact updateStatus_honours t.input.ctx conf hlinked (hexpected t ht zoneId m hm)

/-! ## At the sample -/

/-- A report of the pool on the zone of the sample. -/
def Sample.report (status : Status) (serial : Nat) : Input :=
  ⟨Sample.ctx, .updateStatus 2 ⟨status, serial⟩⟩

/-- A zone that is to be deleted, with its recordset and its record. -/
def Sample.leavingZone : Zone :=
  { Sample.zone with id := 12, name := "example.net.", action := .DELETE, status := .PENDING }

def Sample.leavingRecord : RecordRow :=
  { Sample.record 14 13 "192.0.2.5" with zoneId := 12, action := .DELETE, status := .PENDING }

/-- A record has been changed under serial 7, and another zone is to be deleted. -/
def Sample.waiting : World :=
  { Sample.world with
    db := { Sample.world.db with
      zones := [Sample.zone, Sample.leavingZone]
      recordsets := [Sample.wwwRow, Sample.mailRow,
        { Sample.wwwRow with id := 13, zoneId := 12, name := "www.example.net." }]
      records := [{ Sample.record 5 3 "192.0.2.8" with action := .UPDATE, status := .PENDING
                                                       serial := 7 }, Sample.leavingRecord] }
    nextId := 15 }

/-- The other zone is nowhere to be found. -/
def Sample.missing : Input := ⟨Sample.ctx, .updateStatus 12 ⟨.NO_ZONE, 0⟩⟩

/-- An old report comes in, then that a zone is missing, and then one of the new serial. -/
def Sample.reports : List Input :=
  [Sample.report .SUCCESS 1, Sample.missing, Sample.report .SUCCESS 7]

theorem run_honours_sample :
    (∃ r ∈ (Run.final (serve Sample.conf) (Sample.reports.take 2) Sample.waiting).db.records,
        r.id = 5 ∧ r.status = .PENDING) ∧
      (∃ r ∈ (Run.final (serve Sample.conf) Sample.reports Sample.waiting).db.records,
        r.id = 5 ∧ r.status = .ACTIVE) ∧
      (∃ z ∈ (Run.final (serve Sample.conf) Sample.reports Sample.waiting).db.zones,
        z.id = 12 ∧ z.deleted = true) ∧
      ∀ t ∈ Run.transitions (serve Sample.conf) Sample.reports Sample.waiting, ∀ zoneId m,
        t.input.message = some (zoneId, m) → m.Honours t.before.db t.after.db := by
  have hlinked : Sample.waiting.Linked :=
    ⟨by decide, by decide, by decide, by decide, by decide, by decide, by decide, by decide⟩
  -- the zone is still to be deleted when the message comes, and so is its record
  have hleaving : PoolStatus.Expected ⟨.NO_ZONE, 0⟩ 12
      (serve Sample.conf (Sample.report .SUCCESS 1) Sample.waiting).db := by
    intro _
    decide +kernel
  refine ⟨by decide +kernel, by decide +kernel, by decide +kernel, ?_⟩
  refine run_honours Sample.conf Sample.reports Sample.waiting hlinked ?_
  intro t ht zoneId m hm
  rcases List.mem_cons.mp ht with rfl | ht
  · obtain ⟨rfl, rfl⟩ := Prod.mk.inj (Option.some.inj hm)
    exact nofun
  · rcases List.mem_pair.mp ht with rfl | rfl
    · obtain ⟨rfl, rfl⟩ := Prod.mk.inj (Option.some.inj hm)
      exact hleaving
    · obtain ⟨rfl, rfl⟩ := Prod.mk.inj (Option.some.inj hm)
      exact nofun

/-- A zone that nobody wants deleted is reported missing, and goes with its records. -/
theorem missing_zone_removed :
    ¬ ∀ (conf : Conf) (inputs : List Input) (w : World), w.Linked →
      ∀ t ∈ Run.transitions (serve conf) inputs w, ∀ zoneId m,
        t.input.message = some (zoneId, m) → m.Honours t.before.db t.after.db := by
  intro h
  have hrun := h Sample.conf [Sample.report .NO_ZONE 0] Sample.world sample_linked _
    List.mem_cons_self 2 ⟨.NO_ZONE, 0⟩ rfl
  have haction := hrun.recordGoes (Sample.record 5 3 "192.0.2.1") (by decide) (by decide +kernel)
  exact absurd haction (by decide)

end Designate
