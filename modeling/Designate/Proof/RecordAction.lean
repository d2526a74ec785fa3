import Designate.Central.RecordSets

/-!
# What a record action does, call by call

One lemma for each half of each action: when the device call goes through and
what it leaves, and what the book-keeping leaves. Later proofs work from these
and never unfold the action again.
-/

namespace Designate

/-! ## Worlds a step leaves -/

namespace World

/-- The device was asked. -/
def asked (w : World) (call : DeviceCall) : World :=
  { w with device := { w.device with calls := w.device.calls ++ [call] } }

/-- The device was asked and changed its resource records to `rrs`. -/
def onDevice (w : World) (call : DeviceCall) (rrs : List RR) : World :=
  { w with device := (w.asked call).device.change rrs }

/-- A status message was sent. -/
def report (w : World) (m : StatusMessage) : World :=
  { w with statusMessages := w.statusMessages ++ [m] }

/-- The tables were replaced. -/
def withDb (w : World) (db : Db) : World := { w with db := db }

@[simp] theorem asked_db (w : World) (c) : (w.asked c).db = w.db := rfl
@[simp] theorem asked_zones (w : World) (c) : (w.asked c).device.zones = w.device.zones := rfl
@[simp] theorem onDevice_db (w : World) (c rrs) : (w.onDevice c rrs).db = w.db := rfl
@[simp] theorem onDevice_rrs (w : World) (c rrs) : (w.onDevice c rrs).device.rrs = rrs := rfl
@[simp] theorem onDevice_zones (w : World) (c rrs) :
    (w.onDevice c rrs).device.zones = w.device.zones := rfl
@[simp] theorem report_db (w : World) (m) : (w.report m).db = w.db := rfl
@[simp] theorem report_device (w : World) (m) : (w.report m).device = w.device := rfl
@[simp] theorem report_nextId (w : World) (m) : (w.report m).nextId = w.nextId := rfl
@[simp] theorem withDb_db (w : World) (db) : (w.withDb db).db = db := rfl
@[simp] theorem withDb_device (w : World) (db) : (w.withDb db).device = w.device := rfl
@[simp] theorem withDb_nextId (w : World) (db) : (w.withDb db).nextId = w.nextId := rfl

/-- The tables and the device hold the same; only the logs may differ. -/
structure Same (w w' : World) : Prop where
  db : w'.db = w.db
  rrs : w'.device.rrs = w.device.rrs
  zones : w'.device.zones = w.device.zones
  /-- The device has made no change in between. -/
  changes : w'.device.changes = w.device.changes

theorem Same.rfl {w : World} : Same w w := ⟨Eq.refl _, Eq.refl _, Eq.refl _, Eq.refl _⟩

theorem Same.trans {w w' w'' : World} (h : Same w w') (h' : Same w' w'') : Same w w'' :=
  ⟨h'.db.trans h.db, h'.rrs.trans h.rrs, h'.zones.trans h.zones, h'.changes.trans h.changes⟩

theorem Same.report {w w' : World} (h : Same w w') (m : StatusMessage) : Same w (w'.report m) :=
  ⟨h.db, h.rrs, h.zones, h.changes⟩

end World

/-! ## Single steps -/

theorem mayFail_true (w : World) : mayFail true w = (.error .StepFailed, w) := rfl

theorem mayFail_false (w : World) : mayFail false w = (.ok (), w) := rfl

theorem callDevice_refused {α : Type} {faults : Faults} (h : faults .device = true)
    (action : Action) (record : Record) (m : Call α) (w : World) :
    callDevice faults action record m w =
      (.error .ZdnsErrMessage, w.asked ⟨action, record.id⟩) := by
  simp [callDevice, Device.ask, Exec.bind_apply, h, World.asked]

theorem callDevice_asked {α : Type} {faults : Faults} (h : faults .device = false)
    (action : Action) (record : Record) (m : Call α) (w : World) :
    callDevice faults action record m w = m (w.asked ⟨action, record.id⟩) := by
  simp [callDevice, Device.ask, Exec.bind_apply, h, World.asked]

/-! ## The look-ups before the device call -/

/-- What `lookupView` answers. -/
def viewOf (ctx : Context) (faults : Faults) (zone : Zone) (db : Db) : Except Exc View :=
  if faults .getView then .error .StepFailed else findView ctx zone.viewId db

/-- What `lookupZdnsRecord` answers. -/
def mirrorOf (faults : Faults) (recordId : Option Nat) (db : Db) : Except Exc ZdnsRecord :=
  if faults .getRecordAssociation then .error .StepFailed
  else (findRecordAssociation recordId db).bind fun association =>
    if faults .getZdnsRecord then .error .StepFailed
    else findZdnsRecord association.zdnsRecordId db

theorem lookupView_apply (ctx : Context) (faults : Faults) (zone : Zone) (w : World) :
    lookupView ctx faults zone w = (viewOf ctx faults zone w.db, w) := by
  unfold lookupView viewOf
  cases faults .getView <;> rfl

theorem lookupZdnsRecord_apply (faults : Faults) (record : Record) (w : World) :
    lookupZdnsRecord faults record w = (mirrorOf faults record.id w.db, w) := by
  unfold lookupZdnsRecord mirrorOf
  cases faults .getRecordAssociation with
  | true => rfl
  | false =>
    simp only [getRecordAssociation, Exec.bind_apply, mayFail_false, Exec.read_apply]
    cases findRecordAssociation record.id w.db with
    | error e => rfl
    | ok a => cases faults .getZdnsRecord <;> rfl

theorem viewOf_eq_ok {ctx : Context} {faults : Faults} {zone : Zone} {db : Db} {view : View} :
    viewOf ctx faults zone db = .ok view ↔
      faults .getView = false ∧ findView ctx zone.viewId db = .ok view := by
  unfold viewOf
  cases faults .getView <;> simp

theorem mirrorOf_eq_ok {faults : Faults} {recordId : Option Nat} {db : Db} {z : ZdnsRecord} :
    mirrorOf faults recordId db = .ok z ↔
      faults .getRecordAssociation = false ∧ faults .getZdnsRecord = false ∧
        ∃ a, findRecordAssociation recordId db = .ok a ∧ findZdnsRecord a.zdnsRecordId db = .ok z := by
  unfold mirrorOf
  cases faults .getRecordAssociation with
  | true => simp
  | false =>
    cases findRecordAssociation recordId db with
    | error e => simp [Except.bind]
    | ok a => cases faults .getZdnsRecord <;> simp [Except.bind]

/-! ## The device calls -/

section

variable {ctx : Context} {conf : Conf} {faults : Faults} {zone : Zone} {record : Record}
  {recordset : RecordSet} {w : World}

/-- What a CREATE asks the device to hold. -/
def createData (view : View) (zone : Zone) (record : Record) (recordset : RecordSet) : RRData :=
  { view := view.name, zone := zone.name, name := recordset.name, type := recordset.type,
    ttl := recordset.ttlValue, rdata := record.text }

/-- A CREATE gets through to the device, below `view`. -/
def CreateAccepted (ctx : Context) (faults : Faults) (zone : Zone) (w : World) (view : View) :
    Prop :=
  viewOf ctx faults zone w.db = .ok view ∧ faults .device = false ∧
    (view.name, zone.name) ∈ w.device.zones

theorem createCall_accepted {view : View} (h : CreateAccepted ctx faults zone w view) :
    RecordAction.createCall ctx conf faults zone record recordset w =
      let data := createData view zone record recordset
      let id := conf.rrName w.device.rrs data
      (.ok (id, ()), w.onDevice ⟨.CREATE, record.id⟩ (w.device.rrs ++ [⟨data, id⟩])) := by
  obtain ⟨hv, hd, hz⟩ := h
  unfold RecordAction.createCall
  rw [Exec.bind_apply, lookupView_apply, hv]
  simp only [Exec.bind_apply, callDevice_asked hd, Device.createRecord, Exec.write,
    World.asked_zones, hz, if_true]
  rfl

theorem createCall_refused (conf : Conf) (record : Record) (recordset : RecordSet)
    (h : ∀ view, ¬ CreateAccepted ctx faults zone w view) :
    ∃ e w', RecordAction.createCall ctx conf faults zone record recordset w = (.error e, w') ∧
      World.Same w w' ∧ w'.nextId = w.nextId := by
  unfold RecordAction.createCall
  rw [Exec.bind_apply, lookupView_apply]
  cases hv : viewOf ctx faults zone w.db with
  | error e => exact ⟨e, w, rfl, .rfl, rfl⟩
  | ok view =>
    cases hd : faults .device with
    | true =>
      simp only [Exec.bind_apply, callDevice_refused hd]
      exact ⟨_, _, rfl, ⟨rfl, rfl, rfl, rfl⟩, rfl⟩
    | false =>
      have hz : (view.name, zone.name) ∉ w.device.zones := fun hz => h view ⟨hv, hd, hz⟩
      simp only [Exec.bind_apply, callDevice_asked hd, Device.createRecord, Exec.write,
        World.asked_zones, hz, if_false]
      exact ⟨_, _, rfl, ⟨rfl, rfl, rfl, rfl⟩, rfl⟩

/-- An UPDATE or a DELETE gets through to the device, where it finds `rr`. -/
def ChangeAccepted (ctx : Context) (faults : Faults) (zone : Zone) (record : Record) (w : World)
    (view : View) (z : ZdnsRecord) (rr : RR) : Prop :=
  viewOf ctx faults zone w.db = .ok view ∧ mirrorOf faults record.id w.db = .ok z ∧
    faults .device = false ∧ Device.find view.name zone.name z.rrId w.device = .ok rr

/-- The resource record `rr` with a new ttl and new data, under its new name. -/
def RR.updated (conf : Conf) (rrs : List RR) (rr : RR) (ttl : Option Nat) (rdata : String) : RR :=
  let data := { rr.toRRData with ttl := ttl, rdata := rdata }
  ⟨data, conf.rrName (Table.remove RR.key rr.key rrs) data⟩

theorem updateCall_accepted {view : View} {z : ZdnsRecord} {rr : RR}
    (h : ChangeAccepted ctx faults zone record w view z rr) :
    RecordAction.updateCall ctx conf faults zone record recordset w =
      let new := rr.updated conf w.device.rrs recordset.ttlValue record.text
      (.ok (new.id, { z with rdata := record.text, ttl := recordset.ttlValue }),
        w.onDevice ⟨.UPDATE, record.id⟩
          (Table.update RR.key rr.key (fun _ => new) w.device.rrs)) := by
  obtain ⟨hv, hm, hd, hr⟩ := h
  unfold RecordAction.updateCall
  rw [Exec.bind_apply, lookupView_apply, hv]
  simp only [Exec.bind_apply, lookupZdnsRecord_apply, hm, callDevice_asked hd, Device.updateRecord,
    Exec.write]
  have hr' : Device.find view.name zone.name z.rrId
      (w.asked ⟨.UPDATE, record.id⟩).device = .ok rr := hr
  rw [hr']
  rfl

theorem deleteCall_accepted {view : View} {z : ZdnsRecord} {rr : RR}
    (h : ChangeAccepted ctx faults zone record w view z rr) :
    RecordAction.deleteCall ctx faults zone record w =
      (.ok (z.rrId, ()),
        w.onDevice ⟨.DELETE, record.id⟩ (Table.remove RR.key rr.key w.device.rrs)) := by
  obtain ⟨hv, hm, hd, hr⟩ := h
  unfold RecordAction.deleteCall
  rw [Exec.bind_apply, lookupView_apply, hv]
  simp only [Exec.bind_apply, lookupZdnsRecord_apply, hm, callDevice_asked hd, Device.deleteRecord,
    Exec.write]
  have hr' : Device.find view.name zone.name z.rrId
      (w.asked ⟨.DELETE, record.id⟩).device = .ok rr := hr
  rw [hr']
  rfl

/-- A change of a resource record that the device does not find raises before anything is done. -/
theorem changeCall_refused {β : Type} (action : Action) {change : View → ZdnsRecord → Call RRId}
    (result : RRId → ZdnsRecord → β)
    (hchange : ∀ (view : View) (z : ZdnsRecord) (w : World) (e : Exc),
      Device.find view.name zone.name z.rrId w.device = .error e → change view z w = (.error e, w))
    (h : ∀ view z rr, ¬ ChangeAccepted ctx faults zone record w view z rr) :
    ∃ e w', (do
      let view ← lookupView ctx faults zone
      let z ← lookupZdnsRecord faults record
      let response ← callDevice faults action record (change view z)
      pure (result response z) : Call β) w = (.error e, w') ∧
      World.Same w w' ∧ w'.nextId = w.nextId := by
  rw [Exec.bind_apply, lookupView_apply]
  -- one case a lookup, in the order in which they are made; only the last path asks the device
  cases hv : viewOf ctx faults zone w.db with
  | error e => exact ⟨e, w, rfl, .rfl, rfl⟩
  | ok view =>
    simp only [Exec.bind_apply, lookupZdnsRecord_apply]
    cases hm : mirrorOf faults record.id w.db with
    | error e => exact ⟨e, w, rfl, .rfl, rfl⟩
    | ok z =>
      cases hd : faults .device with
      | true =>
        simp only [callDevice_refused hd]
        exact ⟨_, _, rfl, ⟨rfl, rfl, rfl, rfl⟩, rfl⟩
      | false =>
        simp only [callDevice_asked hd]
        cases hr : Device.find view.name zone.name z.rrId (w.asked ⟨action, record.id⟩).device with
        | error e =>
          rw [hchange view z _ e hr]
          exact ⟨_, _, rfl, ⟨rfl, rfl, rfl, rfl⟩, rfl⟩
        -- everything was found, so the change was accepted
        | ok rr => exact absurd ⟨hv, hm, hd, hr⟩ (h view z rr)

theorem updateCall_refused (conf : Conf) (recordset : RecordSet)
    (h : ∀ view z rr, ¬ ChangeAccepted ctx faults zone record w view z rr) :
    ∃ e w', RecordAction.updateCall ctx conf faults zone record recordset w = (.error e, w') ∧
      World.Same w w' ∧ w'.nextId = w.nextId := by
  refine changeCall_refused .UPDATE
    (fun response z => (response, { z with rdata := record.text, ttl := recordset.ttlValue }))
    (fun view z w e hfind => ?_) h
  unfold Device.updateRecord Exec.write
  dsimp only
  rw [hfind]

theorem deleteCall_refused
    (h : ∀ view z rr, ¬ ChangeAccepted ctx faults zone record w view z rr) :
    ∃ e w', RecordAction.deleteCall ctx faults zone record w = (.error e, w') ∧
      World.Same w w' ∧ w'.nextId = w.nextId := by
  refine changeCall_refused .DELETE (fun response _ => (response, ()))
    (fun view z w e hfind => ?_) h
  unfold Device.deleteRecord Exec.write
  dsimp only
  rw [hfind]

end

/-! ## Record rows -/

section

variable {ctx : Context} {conf : Conf} {record : Record} {row : RecordRow} {w : World}

theorem findRecordRow_mem {id : Option Nat} {db : Db} (h : findRecordRow ctx id db = .ok row) :
    row ∈ db.records ∧ id = some row.id ∧ ctx.sees row.tenantId = true := by
  cases id with
  | none => exact absurd h (by simp [findRecordRow])
  | some id =>
    obtain ⟨hm, hk, hp⟩ := Table.find_mem h
    exact ⟨hm, by rw [hk], hp⟩

/-- What identifies a record. -/
def RecordRow.place (r : RecordRow) : Nat × Nat × Nat × Option String :=
  (r.id, r.zoneId, r.recordsetId, r.tenantId)

/-- The row `record` writes over `row`. -/
def writtenRow (conf : Conf) (record : Record) (row : RecordRow) : RecordRow :=
  (record.rehash conf).updateRow row

@[simp] theorem writtenRow_id : (writtenRow conf record row).id = row.id := rfl

@[simp] theorem rehash_data : (record.rehash conf).data = record.data := by
  unfold Record.rehash; split <;> rfl

/-- The data column of a written row. -/
theorem writtenRow_data : (writtenRow conf record row).data = record.data.write row.data := by
  simp [writtenRow, Record.updateRow]

@[simp] theorem rehash_recordsetId : (record.rehash conf).recordsetId = record.recordsetId := by
  unfold Record.rehash; split <;> rfl

@[simp] theorem rehash_zoneId : (record.rehash conf).zoneId = record.zoneId := by
  unfold Record.rehash; split <;> rfl

theorem writtenRow_recordsetId (h : record.recordsetId.changed = false) :
    (writtenRow conf record row).recordsetId = row.recordsetId := by
  simp [writtenRow, Record.updateRow, Tracked.write, h]

/-- An object that was not moved leaves its row where it is. -/
theorem writtenRow_place (hz : record.zoneId.changed = false)
    (hr : record.recordsetId.changed = false) :
    (writtenRow conf record row).place = row.place := by
  simp [writtenRow, Record.updateRow, RecordRow.place, Tracked.write, hz, hr]

/-- Tables with the one record row `new` written over the rows of its id. -/
def Db.withRecord (db : Db) (new : RecordRow) : Db :=
  { db with records := Table.update RecordRow.id new.id (fun _ => new) db.records }

/-- Tables without the records of an id. -/
def Db.withoutRecord (db : Db) (id : Nat) : Db :=
  { db with records := Table.remove RecordRow.id id db.records }

theorem updateRecordRow_ok (hr : findRecordRow ctx record.id w.db = .ok row)
    (hh : w.db.hashTaken (writtenRow conf record row) = false) :
    updateRecordRow ctx conf record w =
      (.ok (), w.withDb (w.db.withRecord (writtenRow conf record row))) := by
  have hh' : w.db.hashTaken ((record.rehash conf).updateRow row) = false := hh
  simp only [updateRecordRow, Exec.write, hr, hh', Bool.false_eq_true, if_false]
  rfl

theorem updateRecordRow_taken (hr : findRecordRow ctx record.id w.db = .ok row)
    (hh : w.db.hashTaken (writtenRow conf record row) = true) :
    updateRecordRow ctx conf record w = (.error .DuplicateRecord, w) := by
  have hh' : w.db.hashTaken ((record.rehash conf).updateRow row) = true := hh
  simp only [updateRecordRow, Exec.write, hr, hh', if_true]

theorem updateRecordRow_missing {e : Exc} (hr : findRecordRow ctx record.id w.db = .error e) :
    updateRecordRow ctx conf record w = (.error e, w) := by
  simp only [updateRecordRow, Exec.write, hr]

/-- An UPDATE writes the one row it finds, if the new hash is free, or raises. -/
theorem updateRecordRow_cases (ctx : Context) (conf : Conf) (record : Record) (w : World) :
    (∃ e, updateRecordRow ctx conf record w = (.error e, w)) ∨
      ∃ row, findRecordRow ctx record.id w.db = .ok row ∧
        w.db.hashTaken (writtenRow conf record row) = false ∧
        updateRecordRow ctx conf record w =
          (.ok (), w.withDb (w.db.withRecord (writtenRow conf record row))) := by
  cases hr : findRecordRow ctx record.id w.db with
  | error e => exact Or.inl ⟨e, updateRecordRow_missing hr⟩
  | ok row =>
    cases hh : w.db.hashTaken (writtenRow conf record row) with
    | true => exact Or.inl ⟨_, updateRecordRow_taken hr hh⟩
    | false => exact Or.inr ⟨row, rfl, hh, updateRecordRow_ok hr hh⟩

theorem deleteRecordRow_ok {id : Option Nat} (hr : findRecordRow ctx id w.db = .ok row) :
    deleteRecordRow ctx id w = (.ok (), w.withDb (w.db.withoutRecord row.id)) := by
  simp only [deleteRecordRow, Exec.write, hr]
  rfl

theorem deleteRecordRow_missing {id : Option Nat} {e : Exc}
    (hr : findRecordRow ctx id w.db = .error e) : deleteRecordRow ctx id w = (.error e, w) := by
  simp only [deleteRecordRow, Exec.write, hr]

theorem findRecordById_ok (ctx : Context) (id : Nat) (w : World) :
    ∃ rows, findRecordById ctx (some id) w = (.ok rows, w) := ⟨_, rfl⟩

end

/-! ## The status callback -/

section

variable {ctx : Context} {conf : Conf} {faults : Faults} {record : Record} {w : World} {id : Nat}

/-- The settled object is written: nothing stops the status update of a CREATE or an UPDATE. -/
def SettleAccepted (ctx : Context) (conf : Conf) (faults : Faults) (record : Record) (db : Db)
    (row : RecordRow) : Prop :=
  faults .updateStatus = false ∧ findRecordRow ctx record.id db = .ok row ∧
    db.hashTaken (writtenRow conf record.settle row) = false

/-- The tables after the status update of a CREATE or an UPDATE. -/
def Db.settled (conf : Conf) (record : Record) (row : RecordRow) (db : Db) : Db :=
  db.withRecord (writtenRow conf record.settle row)

theorem updateRecordStatus_settle {action : Action} (ha : action = .CREATE ∨ action = .UPDATE)
    (hf : faults .updateStatus = false) (hid : record.id = some id) :
    updateRecordStatus ctx conf faults record action .SUCCESS w =
      updateRecordRow ctx conf record.settle w := by
  obtain ⟨rows, hrows⟩ := findRecordById_ok ctx id w
  unfold updateRecordStatus
  rw [hid]
  rcases ha with rfl | rfl <;> simp [Exec.bind_apply, mayFail, hf, hrows]

theorem settle_accepted {action : Action} (ha : action = .CREATE ∨ action = .UPDATE)
    {row : RecordRow} (h : SettleAccepted ctx conf faults record w.db row) :
    recordActionUpdateStatus ctx conf faults record action .SUCCESS w =
      (.ok (), (w.report ⟨record.id, action, .SUCCESS⟩).withDb (w.db.settled conf record row)) := by
  obtain ⟨hf, hr, hh⟩ := h
  have hid := (findRecordRow_mem hr).2.1
  unfold recordActionUpdateStatus
  rw [Exec.bind_ok (Exec.modify_apply _ _), updateRecordStatus_settle ha hf hid]
  exact updateRecordRow_ok hr hh

theorem settle_refused {action : Action} (ha : action = .CREATE ∨ action = .UPDATE)
    (h : ∀ row, ¬ SettleAccepted ctx conf faults record w.db row) :
    ∃ e, recordActionUpdateStatus ctx conf faults record action .SUCCESS w =
      (.error e, w.report ⟨record.id, action, .SUCCESS⟩) := by
  unfold recordActionUpdateStatus
  rw [Exec.bind_ok (Exec.modify_apply _ _)]
  -- in the order of the source: the step, the identifier, the row, the unique hash
  cases hf : faults .updateStatus with
  | true => exact ⟨.StepFailed, by simp [updateRecordStatus, Exec.bind_apply, mayFail, hf]; rfl⟩
  | false =>
    cases hid : record.id with
    | none => exact ⟨.DBError, by
        simp [updateRecordStatus, Exec.bind_apply, mayFail, hf, hid, findRecordById]; rfl⟩
    | some id =>
      rw [updateRecordStatus_settle ha hf hid, ← hid]
      cases hr : findRecordRow ctx record.id w.db with
      | error e => exact ⟨e, updateRecordRow_missing hr⟩
      | ok row =>
        cases hh : w.db.hashTaken (writtenRow conf record.settle row) with
        | true => exact ⟨_, updateRecordRow_taken hr hh⟩
        | false => exact absurd ⟨hf, hr, hh⟩ (h row)

/-- The `except` branch after a failed UPDATE or DELETE only sends the message. -/
theorem handler_quiet {action : Action} (ha : action = .UPDATE ∨ action = .DELETE)
    (hf : faults .errorStatus = false) (hid : record.id = some id) :
    RecordAction.handler ctx conf faults record action w =
      (.ok (), w.report ⟨record.id, action, .ERROR⟩) := by
  obtain ⟨rows, hrows⟩ := findRecordById_ok ctx id (w.report ⟨record.id, action, .ERROR⟩)
  unfold RecordAction.handler recordActionUpdateStatus
  rw [Exec.bind_ok (Exec.modify_apply _ _)]
  unfold updateRecordStatus
  rw [hid] at *
  change (mayFail (faults .errorStatus) >>= _) (w.report _) = _
  rw [hf, Exec.bind_ok (mayFail_false _), Exec.bind_ok hrows]
  rcases ha with rfl | rfl <;> rfl

/-- The `except` branch after a failed CREATE drops the record. -/
theorem handler_drop (hf : faults .errorStatus = false) {row : RecordRow}
    (hr : findRecordRow ctx record.id w.db = .ok row) :
    RecordAction.handler ctx conf faults record .CREATE w =
      (.ok (), (w.report ⟨record.id, .CREATE, .ERROR⟩).withDb (w.db.withoutRecord row.id)) := by
  have hid := (findRecordRow_mem hr).2.1
  unfold RecordAction.handler recordActionUpdateStatus
  rw [Exec.bind_ok (Exec.modify_apply _ _)]
  rw [hid] at hr
  unfold updateRecordStatus
  rw [hid]
  obtain ⟨rows, hrows⟩ :=
    findRecordById_ok ctx row.id (w.report ⟨some row.id, .CREATE, .ERROR⟩)
  change (mayFail (faults .errorStatus) >>= _) (w.report _) = _
  rw [hf, Exec.bind_ok (mayFail_false _), Exec.bind_ok hrows]
  exact deleteRecordRow_ok (w := w.report ⟨some row.id, .CREATE, .ERROR⟩) hr

/-! ## The book-keeping of a CREATE -/

/-- The columns of the zdns row behind a created record. -/
def createValues (record : Record) (recordset : RecordSet) (response : RRId) :
    ZdnsRecordValues :=
  { rrId := response, name := recordset.name, type := recordset.type,
    ttl := recordset.ttlValue, rdata := record.text }

/-- The tables with a new zdns row, and the record associated with it. -/
def Db.mirrored (db : Db) (recordId zdnsId : Nat) (values : ZdnsRecordValues) : Db :=
  { db with zdnsRecords := db.zdnsRecords ++ [values.row zdnsId]
            recordAssociations := db.recordAssociations ++ [⟨recordId, zdnsId⟩] }

theorem createZdnsRecord_ok {values : ZdnsRecordValues} (h₁ : faults .createZdnsRecord = false)
    (h₂ : faults .createRecordAssociation = false) :
    createZdnsRecord faults id values w =
      (.ok (), { w with nextId := w.nextId + 1, db := w.db.mirrored id w.nextId values }) := by
  unfold createZdnsRecord insertZdnsRecord
  simp [Exec.bind_apply, mayFail, h₁, h₂, generateUuid, Exec.write, updateDb,
    insertRecordAssociation, Db.mirrored]

/-- Failing after the zdns row was inserted leaves that row behind. -/
theorem createZdnsRecord_raises (id : Nat) (values : ZdnsRecordValues)
    (h : faults .createZdnsRecord = true ∨ faults .createRecordAssociation = true) :
    ∃ w', createZdnsRecord faults id values w = (.error .StepFailed, w') ∧
      w'.db.records = w.db.records := by
  unfold createZdnsRecord insertZdnsRecord
  cases h₁ : faults .createZdnsRecord with
  | true => exact ⟨w, by simp [Exec.bind_apply, mayFail], rfl⟩
  | false =>
    rw [h₁] at h
    have h₂ : faults .createRecordAssociation = true := by simpa using h
    refine ⟨{ w with nextId := w.nextId + 1, db := { w.db with
      zdnsRecords := w.db.zdnsRecords ++ [values.row w.nextId] } }, ?_, rfl⟩
    simp [Exec.bind_apply, mayFail, h₂, generateUuid, Exec.write, updateDb]

/-- Nothing stops the book-keeping of a CREATE. -/
def CreateBooked (ctx : Context) (conf : Conf) (faults : Faults) (record : Record) (db : Db)
    (row : RecordRow) : Prop :=
  faults .createZdnsRecord = false ∧ faults .createRecordAssociation = false ∧
    SettleAccepted ctx conf faults record db row

theorem createRest_booked {recordset : RecordSet} {response : RRId} {row : RecordRow}
    (h : CreateBooked ctx conf faults record w.db row) :
    RecordAction.createRest ctx conf faults record recordset response w =
      (.ok (), ({ w with nextId := w.nextId + 1 }.report ⟨record.id, .CREATE, .SUCCESS⟩).withDb
        ((w.db.settled conf record row).mirrored row.id w.nextId
          (createValues record recordset response))) := by
  obtain ⟨h₁, h₂, hs⟩ := h
  have hid := (findRecordRow_mem hs.2.1).2.1
  unfold RecordAction.createRest
  rw [hid]
  change (createZdnsRecord faults row.id (createValues record recordset response) >>= _) w = _
  rw [Exec.seq_ok (createZdnsRecord_ok h₁ h₂)]
  have := settle_accepted (w := { w with
    nextId := w.nextId + 1
    db := w.db.mirrored row.id w.nextId (createValues record recordset response) })
    (Or.inl rfl) hs
  rw [hid] at this
  exact this

theorem createRest_raises (recordset : RecordSet) (response : RRId)
    (h : ∀ row, ¬ CreateBooked ctx conf faults record w.db row) :
    ∃ e w', RecordAction.createRest ctx conf faults record recordset response w = (.error e, w') ∧
      w'.db.records = w.db.records := by
  unfold RecordAction.createRest
  cases hid : record.id with
  | none => exact ⟨_, w, rfl, rfl⟩
  | some id =>
    change ∃ e w', (createZdnsRecord faults id (createValues record recordset response) >>= _) w =
      (.error e, w') ∧ _
    -- the mirror fails, which leaves the records alone, or the status does
    by_cases hz : faults .createZdnsRecord = true ∨ faults .createRecordAssociation = true
    · obtain ⟨w', hw', hr⟩ := createZdnsRecord_raises (w := w) id
        (createValues record recordset response) hz
      exact ⟨_, w', Exec.bind_error hw', hr⟩
    · simp only [not_or, Bool.not_eq_true] at hz
      have hs : ∀ row, ¬ SettleAccepted ctx conf faults record w.db row :=
        fun row hs => h row ⟨hz.1, hz.2, hs⟩
      rw [Exec.seq_ok (createZdnsRecord_ok hz.1 hz.2)]
      obtain ⟨e, he⟩ := settle_refused (w := { w with
        nextId := w.nextId + 1
        db := w.db.mirrored id w.nextId (createValues record recordset response) })
        (Or.inl rfl) hs
      exact ⟨e, _, he, rfl⟩

/-! ## The book-keeping of an UPDATE -/

/-- The callback passes the checks and finds the recordset row. -/
def CallbackAccepted (ctx : Context) (conf : Conf) (faults : Faults) (zone : Zone)
    (recordset : RecordSet) (db : Db) : Prop :=
  faults .updateRecordsetCallback = false ∧
    validateRecordset ctx conf zone (some recordset.id) recordset.name recordset.type
      (if recordset.ttl.changed then recordset.ttlValue else none) recordset.records.length db
      = .ok () ∧
    (recordset.records.isEmpty ∨
      enforceRecordQuota ctx conf zone recordset.id recordset.managed recordset.records.length db
        = .ok ()) ∧
    ∃ row, Table.find RecordSetRow.id recordset.id (fun r => ctx.sees r.tenantId)
      Exc.RecordSetNotFound db.recordsets = .ok row

/-- The tables with the changed columns of a recordset written. -/
def Db.withRecordset (db : Db) (recordset : RecordSet) : Db :=
  { db with
    recordsets := Table.update RecordSetRow.id recordset.id
      (fun r => { r with ttl := recordset.ttl.write r.ttl
                         description := recordset.description.write r.description })
      db.recordsets }

/-- The tables with a zdns row replaced. -/
def Db.withZdnsRecord (db : Db) (z : ZdnsRecord) : Db :=
  { db with zdnsRecords := Table.update ZdnsRecord.id z.id (fun _ => z) db.zdnsRecords }

theorem updateRecordsetCallback_accepted {zone : Zone} {recordset : RecordSet}
    (h : CallbackAccepted ctx conf faults zone recordset w.db) :
    updateRecordsetCallback ctx conf faults zone recordset w =
      (.ok (), w.withDb (w.db.withRecordset recordset)) := by
  obtain ⟨hf, hv, hq, row, hr⟩ := h
  unfold updateRecordsetCallback updateRecordsetInStorage
  rw [hf, Exec.bind_ok (mayFail_false w)]
  unfold transaction Exec.rollback
  -- a recordset that comes without records is not counted against the quota
  have hquota : check (fun db =>
      if recordset.records.isEmpty then .ok ()
      else enforceRecordQuota ctx conf zone recordset.id recordset.managed
        recordset.records.length db) w = (.ok (), w) := by
    rw [check, Exec.read_apply]
    rcases hq with hq | hq
    · rw [if_pos hq]
    · rw [hq]; simp
  rw [Exec.bind_ok (by rw [check, Exec.read_apply, hv]), Exec.seq_ok hquota]
  simp only [updateRecordsetRow, Exec.write, hr]
  rfl

theorem updateRecordsetCallback_refused {zone : Zone} {recordset : RecordSet}
    (h : ¬ CallbackAccepted ctx conf faults zone recordset w.db) :
    ∃ e, updateRecordsetCallback ctx conf faults zone recordset w = (.error e, w) := by
  unfold updateRecordsetCallback updateRecordsetInStorage
  cases hf : faults .updateRecordsetCallback with
  | true => exact ⟨_, Exec.bind_error (mayFail_true w)⟩
  | false =>
    rw [Exec.bind_ok (mayFail_false w)]
    unfold transaction Exec.rollback check
    simp only [Exec.bind_apply, Exec.read_apply]
    -- the checks stand in front of the only write, so whichever fails leaves the world as it is
    cases hv : validateRecordset ctx conf zone (some recordset.id) recordset.name recordset.type
      (if recordset.ttl.changed then recordset.ttlValue else none) recordset.records.length w.db with
    | error e => exact ⟨e, rfl⟩
    | ok u =>
      cases hq : (if recordset.records.isEmpty then .ok () else enforceRecordQuota ctx conf zone
        recordset.id recordset.managed recordset.records.length w.db : Except Exc Unit) with
      | error e => exact ⟨e, by simp only [hq]⟩
      | ok u' =>
        cases hr : Table.find RecordSetRow.id recordset.id (fun r => ctx.sees r.tenantId)
          Exc.RecordSetNotFound w.db.recordsets with
        | error e => exact ⟨e, by simp only [hq, updateRecordsetRow, Exec.write, hr]⟩
        | ok row =>
          refine absurd ⟨hf, hv, ?_, row, hr⟩ h
          by_cases he : recordset.records.isEmpty = true
          · exact Or.inl he
          · rw [if_neg he] at hq; exact Or.inr hq

/-- The zdns row is there, under whatever exception its absence would raise. -/
theorem findZdnsRecord_any {zdnsId : Nat} {db : Db} {z : ZdnsRecord} (e : Exc)
    (h : findZdnsRecord zdnsId db = .ok z) :
    Table.find ZdnsRecord.id zdnsId (fun _ => true) e db.zdnsRecords = .ok z := by
  unfold findZdnsRecord Table.find at *
  rw [Table.one_eq_ok] at *
  exact h

theorem findZdnsRecord_id {zdnsId : Nat} {db : Db} {z : ZdnsRecord}
    (h : findZdnsRecord zdnsId db = .ok z) : z.id = zdnsId := (Table.find_mem h).2.1

theorem updateZdnsRecord_ok {z z' : ZdnsRecord} (hf : faults .updateZdnsRecord = false)
    (hz : findZdnsRecord z.id w.db = .ok z') :
    updateZdnsRecord faults z w = (.ok (), w.withDb (w.db.withZdnsRecord z)) := by
  unfold updateZdnsRecord
  rw [hf, Exec.seq_ok (mayFail_false w)]
  simp only [updateZdnsRecordRow, Exec.write, findZdnsRecord_any .RecordSetNotFound hz]
  rfl

/-- The zdns row of an UPDATE gets written. -/
def UpdateMirrored (ctx : Context) (conf : Conf) (faults : Faults) (zone : Zone)
    (recordset : RecordSet) (db : Db) : Prop :=
  CallbackAccepted ctx conf faults zone recordset db ∧ faults .updateZdnsRecord = false

/-- The tables once the zdns row of an UPDATE is written. -/
def Db.updated (db : Db) (recordset : RecordSet) (z : ZdnsRecord) : Db :=
  (db.withRecordset recordset).withZdnsRecord z

section

variable {zone : Zone} {recordset : RecordSet} {response : RRId} {z z' : ZdnsRecord}

theorem updateRest_mirrored (hz : findZdnsRecord z.id w.db = .ok z')
    (h : UpdateMirrored ctx conf faults zone recordset w.db) :
    RecordAction.updateRest ctx conf faults zone record recordset response z w =
      recordActionUpdateStatus ctx conf faults record .UPDATE .SUCCESS
        (w.withDb (w.db.updated recordset { z with rrId := response })) := by
  unfold RecordAction.updateRest
  rw [Exec.seq_ok (updateRecordsetCallback_accepted h.1)]
  exact Exec.seq_ok (updateZdnsRecord_ok (z := { z with rrId := response })
    (w := w.withDb (w.db.withRecordset recordset)) h.2 hz)

theorem updateRest_booked {row : RecordRow} (hz : findZdnsRecord z.id w.db = .ok z')
    (h : UpdateMirrored ctx conf faults zone recordset w.db)
    (hs : SettleAccepted ctx conf faults record w.db row) :
    RecordAction.updateRest ctx conf faults zone record recordset response z w =
      (.ok (), (w.report ⟨record.id, .UPDATE, .SUCCESS⟩).withDb
        ((w.db.updated recordset { z with rrId := response }).settled conf record row)) := by
  rw [updateRest_mirrored hz h]
  exact settle_accepted (Or.inr rfl) hs

/-- The status update fails: only the record row is still as it was. -/
theorem updateRest_unsettled (response : RRId) (hz : findZdnsRecord z.id w.db = .ok z')
    (h : UpdateMirrored ctx conf faults zone recordset w.db)
    (hs : ∀ row, ¬ SettleAccepted ctx conf faults record w.db row) :
    ∃ e, RecordAction.updateRest ctx conf faults zone record recordset response z w =
      (.error e, (w.report ⟨record.id, .UPDATE, .SUCCESS⟩).withDb
        (w.db.updated recordset { z with rrId := response })) := by
  rw [updateRest_mirrored hz h]
  exact settle_refused (Or.inr rfl) hs

/-- The zdns row is not written: at most the recordset row has changed. -/
theorem updateRest_unmirrored (record : Record) (response : RRId)
    (h : ¬ UpdateMirrored ctx conf faults zone recordset w.db) :
    ∃ e db, RecordAction.updateRest ctx conf faults zone record recordset response z w =
      (.error e, w.withDb db) ∧ (db = w.db ∨ db = w.db.withRecordset recordset) := by
  unfold RecordAction.updateRest
  by_cases hc : CallbackAccepted ctx conf faults zone recordset w.db
  · have hf : faults .updateZdnsRecord = true := by
      simpa using fun hf => h ⟨hc, hf⟩
    rw [Exec.seq_ok (updateRecordsetCallback_accepted hc)]
    refine ⟨.StepFailed, _, Exec.bind_error ?_, Or.inr rfl⟩
    unfold updateZdnsRecord
    rw [hf]
    exact Exec.bind_error (mayFail_true _)
  · obtain ⟨e, he⟩ := updateRecordsetCallback_refused hc
    exact ⟨e, w.db, Exec.bind_error he, Or.inl rfl⟩

end

/-! ## The book-keeping of a DELETE -/

/-- Nothing stops the status update of a DELETE. -/
def DeleteBooked (ctx : Context) (faults : Faults) (id : Nat) (db : Db) (row : RecordRow) : Prop :=
  faults .updateStatus = false ∧ faults .deleteZdnsRecord = false ∧
    faults .deleteRecord = false ∧ findRecordRow ctx (some id) db = .ok row

/-- The tables without the associations of a record. -/
def Db.withoutAssociation (db : Db) (recordId : Nat) : Db :=
  { db with
    recordAssociations := Table.remove RecordAssociation.recordId recordId db.recordAssociations }

/-- The tables without a zdns row. -/
def Db.withoutZdnsRecord (db : Db) (zdnsId : Nat) : Db :=
  { db with zdnsRecords := Table.remove ZdnsRecord.id zdnsId db.zdnsRecords }

/-- The tables without a record, its association and its zdns row. -/
def Db.dropped (db : Db) (recordId zdnsId : Nat) : Db :=
  ((db.withoutAssociation recordId).withoutZdnsRecord zdnsId).withoutRecord recordId

theorem findRecordAssociation_id {recordId : Option Nat} {db : Db} {a : RecordAssociation}
    (h : findRecordAssociation recordId db = .ok a) : recordId = some a.recordId := by
  cases recordId with
  | none => exact absurd h (by simp [findRecordAssociation])
  | some id => rw [(Table.find_mem h).2.1]

theorem deleteRecordAssociationRow_ok {recordId : Option Nat} {a : RecordAssociation}
    (h : findRecordAssociation recordId w.db = .ok a) :
    deleteRecordAssociationRow recordId w =
      (.ok a, w.withDb (w.db.withoutAssociation a.recordId)) := by
  simp only [deleteRecordAssociationRow, Exec.write, h]
  rfl

theorem deleteZdnsRecordRow_ok {zdnsId : Nat} {z : ZdnsRecord}
    (h : findZdnsRecord zdnsId w.db = .ok z) :
    deleteZdnsRecordRow zdnsId w = (.ok (), w.withDb (w.db.withoutZdnsRecord zdnsId)) := by
  simp only [deleteZdnsRecordRow, Exec.write, h]
  rfl

section

variable {a : RecordAssociation} {z : ZdnsRecord}

theorem deleteRest_unreported (hid : record.id = some id) :
    RecordAction.deleteRest ctx conf faults record w =
      (do
        mayFail (faults .updateStatus)
        let association ← deleteRecordAssociationRow (some id)
        mayFail (faults .deleteZdnsRecord)
        deleteZdnsRecordRow association.zdnsRecordId
        mayFail (faults .deleteRecord)
        deleteRecordRow ctx (some id) : Call Unit) (w.report ⟨some id, .DELETE, .SUCCESS⟩) := by
  obtain ⟨rows, hrows⟩ := findRecordById_ok ctx id (w.report ⟨some id, .DELETE, .SUCCESS⟩)
  unfold RecordAction.deleteRest recordActionUpdateStatus
  rw [Exec.seq_ok (Exec.modify_apply _ _)]
  unfold updateRecordStatus
  rw [hid]
  -- looking up the records changes nothing, and with a deletion nothing is done to them
  change (mayFail (faults .updateStatus) >>= _) (w.report ⟨some id, .DELETE, .SUCCESS⟩) = _
  cases hf : faults .updateStatus with
  | true => rfl
  | false =>
    rw [Exec.seq_ok (mayFail_false _), Exec.seq_ok (mayFail_false _), Exec.seq_ok hrows]
    rfl

theorem deleteRest_booked {row : RecordRow} (ha : findRecordAssociation record.id w.db = .ok a)
    (hz : findZdnsRecord a.zdnsRecordId w.db = .ok z)
    (h : DeleteBooked ctx faults a.recordId w.db row) :
    RecordAction.deleteRest ctx conf faults record w =
      (.ok (), (w.report ⟨record.id, .DELETE, .SUCCESS⟩).withDb
        (w.db.dropped a.recordId a.zdnsRecordId)) := by
  obtain ⟨h₁, h₂, h₃, hr⟩ := h
  have hid := findRecordAssociation_id ha
  -- the association names the record, and so does the row
  have hrow : row.id = a.recordId := by
    have := (findRecordRow_mem hr).2.1
    exact (Option.some.inj this).symm
  rw [deleteRest_unreported hid, h₁, h₂, h₃, hid, Exec.seq_ok (mayFail_false _)]
  rw [hid] at ha
  let w₁ := w.report ⟨some a.recordId, .DELETE, .SUCCESS⟩
  let w₂ := w₁.withDb (w₁.db.withoutAssociation a.recordId)
  let w₃ := w₂.withDb (w₂.db.withoutZdnsRecord a.zdnsRecordId)
  rw [Exec.bind_ok (deleteRecordAssociationRow_ok (w := w₁) ha), Exec.seq_ok (mayFail_false _),
    Exec.seq_ok (deleteZdnsRecordRow_ok (w := w₂) hz), Exec.seq_ok (mayFail_false _),
    deleteRecordRow_ok (w := w₃) hr, hrow]
  rfl

/--
A DELETE whose status update fails keeps its record row. Unless it got as far as
the row, it keeps the association or the zdns row too.
-/
theorem deleteRest_raises (conf : Conf) (ha : findRecordAssociation record.id w.db = .ok a)
    (hz : findZdnsRecord a.zdnsRecordId w.db = .ok z)
    (h : ∀ row, ¬ DeleteBooked ctx faults a.recordId w.db row) :
    ∃ e w', RecordAction.deleteRest ctx conf faults record w = (.error e, w') ∧
      w'.db.records = w.db.records ∧ w'.device = w.device ∧ w'.nextId = w.nextId ∧
      (faults .updateStatus = false ∧ faults .deleteZdnsRecord = false ∧
          w'.db = (w.db.withoutAssociation a.recordId).withoutZdnsRecord a.zdnsRecordId ∨
        (faults .updateStatus = true ∨ faults .deleteZdnsRecord = true) ∧
          (a ∈ w'.db.recordAssociations ∨ z ∈ w'.db.zdnsRecords)) := by
  have hid := findRecordAssociation_id ha
  have hmem : a ∈ w.db.recordAssociations := by
    rw [hid] at ha; exact (Table.find_mem ha).1
  rw [deleteRest_unreported hid]
  rw [hid] at ha
  -- the worlds behind each of the three writes that may have happened
  let w₁ := w.report ⟨some a.recordId, .DELETE, .SUCCESS⟩
  let w₂ := w₁.withDb (w₁.db.withoutAssociation a.recordId)
  let w₃ := w₂.withDb (w₂.db.withoutZdnsRecord a.zdnsRecordId)
  cases h₁ : faults .updateStatus with
  | true =>
    exact ⟨_, w₁, Exec.bind_error (mayFail_true _), rfl, rfl, rfl,
      Or.inr ⟨Or.inl rfl, Or.inl hmem⟩⟩
  | false =>
    rw [Exec.seq_ok (mayFail_false _), Exec.bind_ok (deleteRecordAssociationRow_ok (w := w₁) ha)]
    cases h₂ : faults .deleteZdnsRecord with
    | true =>
      exact ⟨_, w₂, Exec.bind_error (mayFail_true _), rfl, rfl, rfl,
        Or.inr ⟨Or.inr rfl, Or.inr (Table.find_mem hz).1⟩⟩
    | false =>
      rw [Exec.seq_ok (mayFail_false _), Exec.seq_ok (deleteZdnsRecordRow_ok (w := w₂) hz)]
      cases h₃ : faults .deleteRecord with
      | true =>
        exact ⟨_, w₃, Exec.bind_error (mayFail_true _), rfl, rfl, rfl, Or.inl ⟨rfl, rfl, rfl⟩⟩
      | false =>
        rw [Exec.seq_ok (mayFail_false _)]
        cases hr : findRecordRow ctx (some a.recordId) w.db with
        | ok row => exact absurd ⟨h₁, h₂, h₃, hr⟩ (h row)
        -- both rows of the device are gone, and the record row was not found
        | error e =>
          exact ⟨e, w₃, deleteRecordRow_missing (w := w₃) hr, rfl, rfl, rfl,
            Or.inl ⟨rfl, rfl, rfl⟩⟩

end

end

/-! ## The whole action -/

section

variable {ctx : Context} {conf : Conf} {faults : Faults} {zone : Zone} {record : Record}
  {recordset : RecordSet} {w : World} {row : RecordRow} {view : View} {a : RecordAssociation}
  {z : ZdnsRecord} {rr : RR}

/-- A CREATE the device refuses answers `None`, and the record is gone. -/
theorem recordAction_create_refused (conf : Conf) (recordset : RecordSet)
    (he : faults .errorStatus = false)
    (hr : findRecordRow ctx record.id w.db = .ok row)
    (h : ∀ view, ¬ CreateAccepted ctx faults zone w view) :
    ∃ w', recordAction ctx conf faults zone record .CREATE recordset w = (.ok none, w') ∧
      World.Same (w.withDb (w.db.withoutRecord row.id)) w' ∧ w'.nextId = w.nextId := by
  obtain ⟨e, w₁, hcall, hsame, hnext⟩ :=
    createCall_refused conf record recordset h
  have hr₁ : findRecordRow ctx record.id w₁.db = .ok row := by rw [hsame.db]; exact hr
  refine ⟨_, Exec.saga_call_raises hcall (handler_drop he hr₁),
    ⟨?_, hsame.rrs, hsame.zones, hsame.changes⟩, hnext⟩
  rw [World.withDb_db, World.withDb_db, hsame.db]

/-- The device holds what a CREATE asks for, at the end. -/
def World.created (conf : Conf) (w : World) (view : View) (zone : Zone) (record : Record)
    (recordset : RecordSet) : World :=
  let data := createData view zone record recordset
  w.onDevice ⟨.CREATE, record.id⟩ (w.device.rrs ++ [⟨data, conf.rrName w.device.rrs data⟩])

theorem recordAction_create_booked (h : CreateAccepted ctx faults zone w view)
    (hb : CreateBooked ctx conf faults record w.db row) :
    let id := conf.rrName w.device.rrs (createData view zone record recordset)
    recordAction ctx conf faults zone record .CREATE recordset w =
      (.ok (some id), ({ w.created conf view zone record recordset with
          nextId := w.nextId + 1 }.report ⟨record.id, .CREATE, .SUCCESS⟩).withDb
        ((w.db.settled conf record row).mirrored row.id w.nextId
          (createValues record recordset id))) :=
  Exec.saga_returns (createCall_accepted h)
    (createRest_booked (w := w.created conf view zone record recordset) hb)

/-- A CREATE whose book-keeping fails answers what the device answered, with the record gone. -/
theorem recordAction_create_lost (recordset : RecordSet) (he : faults .errorStatus = false)
    (hr : findRecordRow ctx record.id w.db = .ok row)
    (h : CreateAccepted ctx faults zone w view)
    (hb : ∀ row, ¬ CreateBooked ctx conf faults record w.db row) :
    ∃ id w', recordAction ctx conf faults zone record .CREATE recordset w = (.ok (some id), w') ∧
      ∀ r ∈ w'.db.records, r.id ≠ row.id := by
  obtain ⟨e, w₂, hrest, hrecs⟩ :=
    createRest_raises recordset
      (conf.rrName w.device.rrs (createData view zone record recordset))
      (w := w.created conf view zone record recordset) hb
  have hr₂ : findRecordRow ctx record.id w₂.db = .ok row := by
    unfold findRecordRow at *
    rw [hrecs]
    exact hr
  refine ⟨_, _, Exec.saga_rest_raises (createCall_accepted h) hrest (handler_drop he hr₂), ?_⟩
  intro r hm
  exact (Table.mem_remove.mp hm).2

/-- An UPDATE the device refuses answers `None` and changes nothing. -/
theorem recordAction_update_refused (conf : Conf) (recordset : RecordSet)
    (he : faults .errorStatus = false) {id : Nat}
    (hid : record.id = some id)
    (h : ∀ view z rr, ¬ ChangeAccepted ctx faults zone record w view z rr) :
    ∃ w', recordAction ctx conf faults zone record .UPDATE recordset w = (.ok none, w') ∧
      World.Same w w' ∧ w'.nextId = w.nextId := by
  obtain ⟨e, w₁, hcall, hsame, hnext⟩ :=
    updateCall_refused conf recordset h
  exact ⟨_, Exec.saga_call_raises hcall (handler_quiet (Or.inl rfl) he hid), hsame.report _, hnext⟩

/-- A DELETE the device refuses answers `None` and changes nothing. -/
theorem recordAction_delete_refused (conf : Conf) (recordset : RecordSet)
    (he : faults .errorStatus = false) {id : Nat}
    (hid : record.id = some id)
    (h : ∀ view z rr, ¬ ChangeAccepted ctx faults zone record w view z rr) :
    ∃ w', recordAction ctx conf faults zone record .DELETE recordset w = (.ok none, w') ∧
      World.Same w w' ∧ w'.nextId = w.nextId := by
  obtain ⟨e, w₁, hcall, hsame, hnext⟩ := deleteCall_refused h
  exact ⟨_, Exec.saga_call_raises hcall (handler_quiet (Or.inr rfl) he hid), hsame.report _, hnext⟩

/-- The device with `rr` carrying the ttl and the data of an UPDATE. -/
def World.changed (conf : Conf) (w : World) (rr : RR) (record : Record) (recordset : RecordSet) :
    World :=
  w.onDevice ⟨.UPDATE, record.id⟩ (Table.update RR.key rr.key
    (fun _ => rr.updated conf w.device.rrs recordset.ttlValue record.text) w.device.rrs)

/-- The zdns row of an UPDATE. -/
def ZdnsRecord.updated (conf : Conf) (rrs : List RR) (rr : RR) (record : Record)
    (recordset : RecordSet) (z : ZdnsRecord) : ZdnsRecord :=
  { z with rdata := record.text, ttl := recordset.ttlValue
           rrId := (rr.updated conf rrs recordset.ttlValue record.text).id }

theorem ChangeAccepted.zdnsRecord (h : ChangeAccepted ctx faults zone record w view z rr) :
    findZdnsRecord z.id w.db = .ok z := by
  obtain ⟨-, -, a, -, hz⟩ := mirrorOf_eq_ok.mp h.2.1
  rw [findZdnsRecord_id hz]; exact hz

theorem recordAction_update_booked (h : ChangeAccepted ctx faults zone record w view z rr)
    (hm : UpdateMirrored ctx conf faults zone recordset w.db)
    (hs : SettleAccepted ctx conf faults record w.db row) :
    recordAction ctx conf faults zone record .UPDATE recordset w =
      (.ok (some (rr.updated conf w.device.rrs recordset.ttlValue record.text).id),
        ((w.changed conf rr record recordset).report ⟨record.id, .UPDATE, .SUCCESS⟩).withDb
          ((w.db.updated recordset (z.updated conf w.device.rrs rr record recordset)).settled conf
            record row)) :=
  Exec.saga_returns (updateCall_accepted h)
    (updateRest_booked (w := w.changed conf rr record recordset)
      (z := { z with rdata := record.text, ttl := recordset.ttlValue }) h.zdnsRecord hm hs)

/-- An UPDATE whose status update fails leaves the record row behind. -/
theorem recordAction_update_unsettled (he : faults .errorStatus = false) {id : Nat}
    (hid : record.id = some id) (h : ChangeAccepted ctx faults zone record w view z rr)
    (hm : UpdateMirrored ctx conf faults zone recordset w.db)
    (hs : ∀ row, ¬ SettleAccepted ctx conf faults record w.db row) :
    ∃ w', recordAction ctx conf faults zone record .UPDATE recordset w =
        (.ok (some (rr.updated conf w.device.rrs recordset.ttlValue record.text).id), w') ∧
      w'.db = w.db.updated recordset (z.updated conf w.device.rrs rr record recordset) ∧
      w'.device = (w.changed conf rr record recordset).device ∧ w'.nextId = w.nextId := by
  obtain ⟨e, hrest⟩ := updateRest_unsettled (w := w.changed conf rr record recordset)
    (z := { z with rdata := record.text, ttl := recordset.ttlValue })
    (rr.updated conf w.device.rrs recordset.ttlValue record.text).id h.zdnsRecord hm hs
  exact ⟨_, Exec.saga_rest_raises (updateCall_accepted h) hrest
    (handler_quiet (Or.inl rfl) he hid), rfl, rfl, rfl⟩

/-- An UPDATE whose callback fails leaves the zdns row and the record row behind. -/
theorem recordAction_update_unmirrored (he : faults .errorStatus = false) {id : Nat}
    (hid : record.id = some id) (h : ChangeAccepted ctx faults zone record w view z rr)
    (hm : ¬ UpdateMirrored ctx conf faults zone recordset w.db) :
    ∃ w', recordAction ctx conf faults zone record .UPDATE recordset w =
        (.ok (some (rr.updated conf w.device.rrs recordset.ttlValue record.text).id), w') ∧
      (w'.db = w.db ∨ w'.db = w.db.withRecordset recordset) ∧
      w'.device = (w.changed conf rr record recordset).device ∧ w'.nextId = w.nextId := by
  obtain ⟨e, db, hrest, hdb⟩ := updateRest_unmirrored record
    (rr.updated conf w.device.rrs recordset.ttlValue record.text).id
    (w := w.changed conf rr record recordset)
    (z := { z with rdata := record.text, ttl := recordset.ttlValue }) hm
  exact ⟨_, Exec.saga_rest_raises (updateCall_accepted h) hrest
    (handler_quiet (Or.inl rfl) he hid), hdb, rfl, rfl⟩

theorem recordAction_delete_booked (ha : findRecordAssociation record.id w.db = .ok a)
    (h : ChangeAccepted ctx faults zone record w view z rr)
    (hb : DeleteBooked ctx faults a.recordId w.db row) :
    recordAction ctx conf faults zone record .DELETE recordset w =
      (.ok (some z.rrId), ((w.onDevice ⟨.DELETE, record.id⟩
        (Table.remove RR.key rr.key w.device.rrs)).report ⟨record.id, .DELETE, .SUCCESS⟩).withDb
          (w.db.dropped a.recordId a.zdnsRecordId)) := by
  obtain ⟨-, -, a', ha', hz⟩ := mirrorOf_eq_ok.mp h.2.1
  have haa : a' = a := by rw [ha] at ha'; exact (Except.ok.inj ha').symm
  subst haa
  exact Exec.saga_returns (deleteCall_accepted h)
    (deleteRest_booked (w := w.onDevice _ _) ha hz hb)

/-- A DELETE whose status update fails keeps the record row. -/
theorem recordAction_delete_lost (conf : Conf) (recordset : RecordSet)
    (he : faults .errorStatus = false)
    (ha : findRecordAssociation record.id w.db = .ok a)
    (h : ChangeAccepted ctx faults zone record w view z rr)
    (hb : ∀ row, ¬ DeleteBooked ctx faults a.recordId w.db row) :
    ∃ w', recordAction ctx conf faults zone record .DELETE recordset w = (.ok (some z.rrId), w') ∧
      w'.db.records = w.db.records ∧
      w'.device = (w.onDevice ⟨.DELETE, record.id⟩
        (Table.remove RR.key rr.key w.device.rrs)).device ∧ w'.nextId = w.nextId ∧
      (faults .updateStatus = false ∧ faults .deleteZdnsRecord = false ∧
          w'.db = (w.db.withoutAssociation a.recordId).withoutZdnsRecord a.zdnsRecordId ∨
        (faults .updateStatus = true ∨ faults .deleteZdnsRecord = true) ∧
          (a ∈ w'.db.recordAssociations ∨ z ∈ w'.db.zdnsRecords)) := by
  obtain ⟨-, -, a', ha', hz⟩ := mirrorOf_eq_ok.mp h.2.1
  have haa : a' = a := by rw [ha] at ha'; exact (Except.ok.inj ha').symm
  subst haa
  -- the device has deleted it already; what raises is the rest
  obtain ⟨e, w₂, hrest, hrecs, hdev, hnext, hdb⟩ :=
    deleteRest_raises conf (w := w.onDevice ⟨.DELETE, record.id⟩
      (Table.remove RR.key rr.key w.device.rrs)) ha hz hb
  exact ⟨_, Exec.saga_rest_raises (deleteCall_accepted h) hrest
    (handler_quiet (Or.inr rfl) he (findRecordAssociation_id ha)), hrecs, hdev, hnext, hdb⟩

end

end Designate
