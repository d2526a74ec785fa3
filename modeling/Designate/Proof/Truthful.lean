import Designate.Proof.Insert
import Designate.Proof.Wf
import Designate.Sample

/-!
# When the answer of a record action is true

The worker answers central with what the device answered, whatever became of the
book-keeping that follows. So an answer other than `None` is true exactly when
nothing after the device call fails, and `None` is always true.
-/

namespace Designate

variable {ctx : Context} {conf : Conf} {faults : Faults} {zone : Zone} {recordset : RecordSet}
  {record : Record} {action : Action} {w₀ w w' : World} {row : RecordRow}

/--
How a record comes to the worker in `w`: a CREATE right after its insertion into
`w₀`, an UPDATE or a DELETE as an object with an id, whose data would reach the
row if there is one.
-/
inductive Presented (ctx : Context) (conf : Conf) (zone : Zone) (recordset : RecordSet)
    (record : Record) : Action → World → World → Prop
  | create {record₀ : Record} {w₀ w : World} (fresh : w₀.Fresh)
      (inserted : createRecordInStorage ctx conf zone recordset record₀ w₀ = (.ok record, w)) :
      Presented ctx conf zone recordset record .CREATE w₀ w
  | stored {action : Action} {w : World} {id : Nat}
      (change : action = .UPDATE ∨ action = .DELETE) (id_eq : record.id = some id)
      (data : ∀ row ∈ w.db.records, row.id = id → record.data.write row.data = record.text) :
      Presented ctx conf zone recordset record action w w

/-- The record row carries `text`. -/
def RowShows (id : Option Nat) (text : String) (db : Db) : Prop :=
  ∃ r ∈ db.records, id = some r.id ∧ r.data = text

/-- Every copy of the record is as the action asked. -/
def InForce (ctx : Context) (zone : Zone) (recordset : RecordSet) (record : Record)
    (action : Action) (w w' : World) : Prop :=
  match action with
  | .CREATE =>
    RowShows record.id record.text w'.db ∧
      ∃ view z, findView ctx zone.viewId w'.db = .ok view ∧
        mirrorOf Faults.none record.id w'.db = .ok z ∧
        z = (createValues record recordset z.rrId).row z.id ∧
        (⟨createData view zone record recordset, z.rrId⟩ : RR) ∈ w'.device.rrs
  | .UPDATE =>
    RowShows record.id record.text w'.db ∧
      ∃ view z, findView ctx zone.viewId w'.db = .ok view ∧
        mirrorOf Faults.none record.id w'.db = .ok z ∧
        z.rdata = record.text ∧ z.ttl = recordset.ttlValue ∧
        ∃ rr ∈ w'.device.rrs, rr.key = (z.rrId, view.name, zone.name) ∧
          rr.rdata = record.text ∧ rr.ttl = recordset.ttlValue
  | .DELETE =>
    (∀ r ∈ w'.db.records, record.id ≠ some r.id) ∧
      (∀ a ∈ w'.db.recordAssociations, record.id ≠ some a.recordId) ∧
      ∃ view z, findView ctx zone.viewId w.db = .ok view ∧
        mirrorOf Faults.none record.id w.db = .ok z ∧
        (∀ z' ∈ w'.db.zdnsRecords, z'.id ≠ z.id) ∧
        ∀ rr ∈ w'.device.rrs, rr.key ≠ (z.rrId, view.name, zone.name)
  | .NONE => True

/-- The answer agrees with the copies of the record; `w₀` is what `None` has to leave. -/
def Truthful (ctx : Context) (conf : Conf) (faults : Faults) (zone : Zone)
    (recordset : RecordSet) (record : Record) (action : Action) (w₀ w : World) : Prop :=
  match recordAction ctx conf faults zone record action recordset w with
  | (.ok (some _), w') => InForce ctx zone recordset record action w w'
  | (.ok none, w') => World.Same w₀ w'
  | (.error _, _) => False

/--
Either the device call does not get through, or nothing after it fails. A copy
that is as asked already need not be written.
-/
def BookkeepingHolds (ctx : Context) (conf : Conf) (faults : Faults) (zone : Zone)
    (recordset : RecordSet) (record : Record) (action : Action) (w : World) : Prop :=
  match action with
  | .CREATE =>
    (∃ view, CreateAccepted ctx faults zone w view) →
      faults .createZdnsRecord = false ∧ faults .createRecordAssociation = false ∧
        faults .updateStatus = false
  | .UPDATE =>
    ∀ view z rr, ChangeAccepted ctx faults zone record w view z rr →
      (UpdateMirrored ctx conf faults zone recordset w.db ∧
        ((∃ row, SettleAccepted ctx conf faults record w.db row) ∨
          RowShows record.id record.text w.db)) ∨
      (RowShows record.id record.text w.db ∧ z.rdata = record.text ∧
        z.ttl = recordset.ttlValue ∧
        (rr.updated conf w.device.rrs recordset.ttlValue record.text).id = z.rrId)
  | .DELETE =>
    (∃ view z rr, ChangeAccepted ctx faults zone record w view z rr) →
      faults .updateStatus = false ∧ faults .deleteZdnsRecord = false ∧
        ((faults .deleteRecord = false ∧ ∃ row, findRecordRow ctx record.id w.db = .ok row) ∨
          ∀ r ∈ w.db.records, record.id ≠ some r.id)
  | .NONE => True

/-! ## CREATE -/

/-- The row of a settled object that was loaded from it. -/
theorem writtenRow_settle_ofRow (h : row.action ≠ .NONE) :
    writtenRow conf (Record.ofRow row).settle row =
      { row with action := .NONE, status := .ACTIVE
                 hash := hashOf conf row.recordsetId row.data } := by
  have hchanged : (Record.ofRow row).settle.whatChanged = true := by
    simp [Record.whatChanged, Record.settle, Record.ofRow, Tracked.set, Tracked.loaded, h]
  unfold writtenRow Record.rehash
  rw [if_pos hchanged]
  simp [Record.updateRow, Record.settle, Record.ofRow, recalculateRecordHash, recordsetIdText,
    hashOf, Record.text]

theorem Inserted.found {db : Db} {id : Nat} {record₀ : Record}
    (h : Inserted ctx conf zone recordset record₀ db id row) (hfresh : ∀ r ∈ db.records, r.id < id) :
    findRecordRow ctx (some row.id) (db.withNewRecord row) = .ok row := by
  refine Table.find_append_new RecordRow.id (fun r hr => ?_) h.visible
  have := hfresh r hr
  have := h.id_eq
  omega

/-- The status update of a record just inserted is not refused by the tables. -/
theorem Inserted.settle {db : Db} {id : Nat} {record₀ : Record}
    (h : Inserted ctx conf zone recordset record₀ db id row) (hfresh : ∀ r ∈ db.records, r.id < id)
    (hf : faults .updateStatus = false) :
    SettleAccepted ctx conf faults (Record.ofRow row) (db.withNewRecord row) row := by
  refine ⟨hf, h.found hfresh, ?_⟩
  rw [writtenRow_settle_ofRow (by rw [h.action]; simp), h.recordsetId, ← h.hash]
  unfold Db.hashTaken Db.withNewRecord
  rw [List.any_eq_false]
  intro r hr
  rcases List.mem_append.mp hr with hr | hr
  · simp [h.hashFree r hr]
  · rw [List.mem_singleton.mp hr]; simp

@[simp] theorem ofRow_id : (Record.ofRow row).id = some row.id := rfl

@[simp] theorem ofRow_text : (Record.ofRow row).text = row.data := rfl

/-- Removing the row just inserted gives the tables back. -/
theorem Inserted.undone {db : Db} {id : Nat} {record₀ : Record}
    (h : Inserted ctx conf zone recordset record₀ db id row) (hfresh : ∀ r ∈ db.records, r.id < id) :
    (db.withNewRecord row).withoutRecord row.id = db := by
  have hrows : Table.remove RecordRow.id row.id (db.records ++ [row]) = db.records := by
    refine Table.remove_append_self fun r hr => ?_
    have := hfresh r hr
    have := h.id_eq
    omega
  unfold Db.withoutRecord Db.withNewRecord
  rw [hrows]

/-- The association and the zdns row a CREATE adds are found. -/
theorem mirrorOf_mirrored {db : Db} {id zid : Nat} {values : ZdnsRecordValues}
    (ha : ∀ a ∈ db.recordAssociations, a.recordId ≠ id) (hz : ∀ z ∈ db.zdnsRecords, z.id ≠ zid) :
    mirrorOf Faults.none (some id) (db.mirrored id zid values) = .ok (values.row zid) := by
  have hassoc : findRecordAssociation (some id) (db.mirrored id zid values) = .ok ⟨id, zid⟩ :=
    Table.find_append_new RecordAssociation.recordId (a := ⟨id, zid⟩)
      (p := fun _ => true) ha rfl
  have hzdns : findZdnsRecord zid (db.mirrored id zid values) = .ok (values.row zid) :=
    Table.find_append_new ZdnsRecord.id (a := values.row zid) (p := fun _ => true) hz rfl
  exact mirrorOf_eq_ok.mpr ⟨rfl, rfl, _, hassoc, hzdns⟩

theorem inForce_created {id : Nat} {record₀ : Record} {db : Db} (view : View) (zid : Nat)
    (rrId : RRId) (h : Inserted ctx conf zone recordset record₀ db id row)
    (hassoc : ∀ a ∈ db.recordAssociations, a.recordId ≠ row.id)
    (hzdns : ∀ z ∈ db.zdnsRecords, z.id ≠ zid)
    (hview : findView ctx zone.viewId db = .ok view)
    (hdb : w'.db = ((db.withNewRecord row).settled conf (Record.ofRow row) row).mirrored row.id zid
      (createValues (Record.ofRow row) recordset rrId))
    (hrr : (⟨createData view zone (Record.ofRow row) recordset, rrId⟩ : RR) ∈ w'.device.rrs) :
    InForce ctx zone recordset (Record.ofRow row) .CREATE w w' := by
  refine ⟨⟨writtenRow conf (Record.ofRow row).settle row, ?_, rfl, ?_⟩,
    view, (createValues (Record.ofRow row) recordset rrId).row zid, ?_, ?_, rfl, hrr⟩
  · rw [hdb]
    refine Table.mem_update.mpr (Or.inr ⟨row, ?_, rfl, rfl⟩)
    exact List.mem_append_right _ (List.mem_singleton_self row)
  · rw [writtenRow_settle_ofRow (by rw [h.action]; simp)]; rfl
  · rw [hdb]; exact hview
  · rw [hdb]; exact mirrorOf_mirrored hassoc hzdns

theorem truthful_create_iff {record₀ : Record} (he : faults .errorStatus = false) (fresh : w₀.Fresh)
    (inserted : createRecordInStorage ctx conf zone recordset record₀ w₀ = (.ok record, w)) :
    Truthful ctx conf faults zone recordset record .CREATE w₀ w ↔
      BookkeepingHolds ctx conf faults zone recordset record .CREATE w := by
  rcases createRecordInStorage_cases ctx conf zone recordset record₀ w₀ with
    ⟨e, w₁, herr, -⟩ | ⟨row, hstores, hok⟩
  · rw [herr] at inserted; exact absurd inserted (by simp)
  have hrow := hstores.inserted
  rw [hok] at inserted
  obtain ⟨hrec, hw⟩ := Prod.mk.inj inserted
  have hrec := Except.ok.inj hrec
  subst hrec
  have hfound : findRecordRow ctx (Record.ofRow row).id w.db = .ok row := by
    rw [← hw]; exact hrow.found fresh.records
  -- has the device taken the record, and has all been booked?
  by_cases hacc : ∃ view, CreateAccepted ctx faults zone w view
  · obtain ⟨view, hview⟩ := hacc
    by_cases hbook : faults .createZdnsRecord = false ∧ faults .createRecordAssociation = false ∧
        faults .updateStatus = false
    · refine ⟨fun _ _ => hbook, fun _ => ?_⟩
      have hsettle : SettleAccepted ctx conf faults (Record.ofRow row) w.db row := by
        rw [← hw]; exact hrow.settle fresh.records hbook.2.2
      unfold Truthful
      rw [recordAction_create_booked hview ⟨hbook.1, hbook.2.1, hsettle⟩]
      refine inForce_created view w.nextId
        (conf.rrName w.device.rrs (createData view zone (Record.ofRow row) recordset)) hrow
        (fun a ha => ?_) (fun z hz => ?_) ?_ ?_ ?_
      · have := (fresh.associations a ha).1
        have := hrow.id_eq
        omega
      · have := fresh.zdnsRecords z hz
        have : w.nextId = w₀.nextId + 1 := by rw [← hw]; rfl
        omega
      · have := (viewOf_eq_ok.mp hview.1).2
        rwa [← hw] at this
      · rw [← hw]; rfl
      · exact List.mem_append_right _ (List.mem_singleton_self _)
    · refine ⟨fun h => ?_, fun h => absurd (h ⟨view, hview⟩) hbook⟩
      -- taken and not booked: the rollback deletes the row, and the device keeps the record
      have hlost : ∀ row', ¬ CreateBooked ctx conf faults (Record.ofRow row) w.db row' :=
        fun row' hb => hbook ⟨hb.1, hb.2.1, hb.2.2.1⟩
      obtain ⟨id, w', hrun, hgone⟩ := recordAction_create_lost recordset he hfound
        hview hlost
      unfold Truthful at h
      rw [hrun] at h
      obtain ⟨⟨r, hr, hid, -⟩, -⟩ := h
      exact absurd (Option.some.inj hid).symm (hgone r hr)
  · obtain ⟨w', hrun, hsame, -⟩ := recordAction_create_refused conf recordset he hfound (fun view h => hacc ⟨view, h⟩)
    refine ⟨fun _ h => absurd h hacc, fun _ => ?_⟩
    unfold Truthful
    rw [hrun]
    refine World.Same.trans ⟨?_, ?_, ?_, ?_⟩ hsame
    · rw [World.withDb_db, ← hw]; exact hrow.undone fresh.records
    all_goals rw [World.withDb_device, ← hw]; rfl

/-! ## UPDATE and DELETE -/

section Change

variable {view view' : View} {z z' : ZdnsRecord} {rr rr' : RR}

/-- The look-ups of a change determine what it finds. -/
theorem ChangeAccepted.unique (h : ChangeAccepted ctx faults zone record w view z rr)
    (h' : ChangeAccepted ctx faults zone record w view' z' rr') :
    view' = view ∧ z' = z ∧ rr' = rr := by
  obtain ⟨hv, hm, -, hr⟩ := h
  obtain ⟨hv', hm', -, hr'⟩ := h'
  obtain rfl := Except.ok.inj (hv'.symm.trans hv)
  obtain rfl := Except.ok.inj (hm'.symm.trans hm)
  exact ⟨rfl, rfl, Except.ok.inj (hr'.symm.trans hr)⟩

theorem ChangeAccepted.findView (h : ChangeAccepted ctx faults zone record w view z rr) :
    findView ctx zone.viewId w.db = .ok view := (viewOf_eq_ok.mp h.1).2

theorem ChangeAccepted.mirror (h : ChangeAccepted ctx faults zone record w view z rr) :
    mirrorOf Faults.none record.id w.db = .ok z := by
  obtain ⟨-, -, ha⟩ := mirrorOf_eq_ok.mp h.2.1
  exact mirrorOf_eq_ok.mpr ⟨rfl, rfl, ha⟩

theorem ChangeAccepted.rr_mem (h : ChangeAccepted ctx faults zone record w view z rr) :
    rr ∈ w.device.rrs ∧ rr.key = (z.rrId, view.name, zone.name) := by
  obtain ⟨hm, hk, -⟩ := Table.find_mem h.2.2.2
  exact ⟨hm, hk⟩

/-- Once an UPDATE has written the zdns row, the mirror and the device are as asked. -/
theorem inForce_updated (h : ChangeAccepted ctx faults zone record w view z rr)
    (hrow : RowShows record.id record.text w'.db)
    (hviews : w'.db.views = w.db.views)
    (hassoc : w'.db.recordAssociations = w.db.recordAssociations)
    (hzdns : w'.db.zdnsRecords =
      (w.db.withZdnsRecord (z.updated conf w.device.rrs rr record recordset)).zdnsRecords)
    (hdev : w'.device.rrs = (w.changed conf rr record recordset).device.rrs) :
    InForce ctx zone recordset record .UPDATE w w' := by
  obtain ⟨hmem, hkey⟩ := h.rr_mem
  let new := rr.updated conf w.device.rrs recordset.ttlValue record.text
  refine ⟨hrow, view, z.updated conf w.device.rrs rr record recordset, ?_, ?_, rfl, rfl, new, ?_,
    ?_, rfl, rfl⟩
  · have := h.findView
    unfold Designate.findView at *
    rw [hviews]; exact this
  · obtain ⟨-, -, a, ha, hz⟩ := mirrorOf_eq_ok.mp h.mirror
    refine mirrorOf_eq_ok.mpr ⟨rfl, rfl, a, ?_, ?_⟩
    · unfold findRecordAssociation at *
      rw [hassoc]; exact ha
    · have hid := findZdnsRecord_id hz
      unfold findZdnsRecord at *
      rw [hzdns, ← hid]
      exact Table.find_update_self (hid ▸ hz) rfl
  · rw [hdev]
    exact Table.mem_update.mpr (Or.inr ⟨rr, hmem, rfl, rfl⟩)
  · -- the record on the device is still in its view and zone
    have hview : rr.view = view.name := congrArg (fun k => k.2.1) hkey
    have hzone : rr.zone = zone.name := congrArg (fun k => k.2.2) hkey
    change (new.id, rr.view, rr.zone) = (new.id, view.name, zone.name)
    rw [hview, hzone]

/-- When the zdns row was not written, the change is in force only if there was none to make. -/
theorem inForce_unmirrored_iff (h : ChangeAccepted ctx faults zone record w view z rr)
    (hdb : w'.db = w.db ∨ w'.db = w.db.withRecordset recordset)
    (hdev : w'.device.rrs = (w.changed conf rr record recordset).device.rrs) :
    InForce ctx zone recordset record .UPDATE w w' ↔
      RowShows record.id record.text w.db ∧ z.rdata = record.text ∧ z.ttl = recordset.ttlValue ∧
        (rr.updated conf w.device.rrs recordset.ttlValue record.text).id = z.rrId := by
  -- neither the rows nor the mirror have been written
  have hrow : RowShows record.id record.text w'.db ↔ RowShows record.id record.text w.db := by
    rcases hdb with hdb | hdb
    · rw [hdb]
    · rw [hdb]; rfl
  have hview : Designate.findView ctx zone.viewId w'.db = .ok view := by
    rcases hdb with hdb | hdb <;> rw [hdb] <;> exact h.findView
  have hmirror : mirrorOf Faults.none record.id w'.db = .ok z := by
    rcases hdb with hdb | hdb <;> rw [hdb] <;> exact h.mirror
  obtain ⟨hmem, hkey⟩ := h.rr_mem
  constructor
  · rintro ⟨hshow, view', z', hv, hm, hdata, httl, rr', hrr, hk, -, -⟩
    obtain rfl := Except.ok.inj (hv.symm.trans hview)
    obtain rfl := Except.ok.inj (hm.symm.trans hmirror)
    refine ⟨hrow.mp hshow, hdata, httl, ?_⟩
    rw [hdev] at hrr
    rcases Table.mem_update.mp hrr with ⟨-, hne⟩ | ⟨-, -, -, hnew⟩
    · exact absurd (hk.trans hkey.symm) hne
    · rw [hnew] at hk
      exact congrArg Prod.fst hk
  · rintro ⟨hshow, hdata, httl, hid⟩
    refine ⟨hrow.mpr hshow, view, z, hview, hmirror, hdata, httl,
      rr.updated conf w.device.rrs recordset.ttlValue record.text, ?_, ?_, rfl, rfl⟩
    · rw [hdev]
      exact Table.mem_update.mpr (Or.inr ⟨rr, hmem, rfl, rfl⟩)
    · have hv : rr.view = view.name := congrArg (fun k => k.2.1) hkey
      have hz : rr.zone = zone.name := congrArg (fun k => k.2.2) hkey
      rw [← hid, ← hv, ← hz]
      rfl

theorem truthful_update_iff (he : faults .errorStatus = false) {id : Nat}
    (hid : record.id = some id)
    (data : ∀ row ∈ w.db.records, row.id = id → record.data.write row.data = record.text) :
    Truthful ctx conf faults zone recordset record .UPDATE w w ↔
      BookkeepingHolds ctx conf faults zone recordset record .UPDATE w := by
  unfold Truthful
  by_cases hacc : ∃ view z rr, ChangeAccepted ctx faults zone record w view z rr
  · obtain ⟨view, z, rr, h⟩ := hacc
    -- the mirror and the record on the device are determined, so the condition is about these
    have hiff : BookkeepingHolds ctx conf faults zone recordset record .UPDATE w ↔
        (UpdateMirrored ctx conf faults zone recordset w.db ∧
          ((∃ row, SettleAccepted ctx conf faults record w.db row) ∨
            RowShows record.id record.text w.db)) ∨
        (RowShows record.id record.text w.db ∧ z.rdata = record.text ∧
          z.ttl = recordset.ttlValue ∧
          (rr.updated conf w.device.rrs recordset.ttlValue record.text).id = z.rrId) := by
      constructor
      · intro hb; exact hb view z rr h
      · intro hb view' z' rr' h'
        obtain ⟨rfl, rfl, rfl⟩ := h.unique h'
        exact hb
    rw [hiff]
    by_cases hm : UpdateMirrored ctx conf faults zone recordset w.db
    · -- the mirror is written; with the row settled all is in force
      by_cases hs : ∃ row, SettleAccepted ctx conf faults record w.db row
      · obtain ⟨row', hs'⟩ := hs
        refine iff_of_true ?_ (Or.inl ⟨hm, Or.inl ⟨row', hs'⟩⟩)
        rw [recordAction_update_booked h hm hs']
        refine inForce_updated h ⟨writtenRow conf record.settle row', ?_, ?_, ?_⟩ rfl rfl rfl rfl
        · refine Table.mem_update.mpr (Or.inr ⟨row', (findRecordRow_mem hs'.2.1).1, rfl, rfl⟩)
        · exact (findRecordRow_mem hs'.2.1).2.1
        · obtain ⟨hmem', hid', -⟩ := findRecordRow_mem hs'.2.1
          rw [writtenRow_data]
          exact data row' hmem' (Option.some.inj (hid'.symm.trans hid))
      · obtain ⟨w', hrun, hdb, hdev, -⟩ := recordAction_update_unsettled he hid h hm
          (fun row hr => hs ⟨row, hr⟩)
        rw [hrun]
        have hrows : w'.db.records = w.db.records := by rw [hdb]; rfl
        constructor
        · rintro ⟨⟨r, hr, hrid, hrdata⟩, -⟩
          exact Or.inl ⟨hm, Or.inr ⟨r, hrows ▸ hr, hrid, hrdata⟩⟩
        · rintro (⟨-, hs' | hshow⟩ | ⟨hshow, -⟩)
          · exact absurd hs' hs
          all_goals
            obtain ⟨r, hr, hrid, hrdata⟩ := hshow
            exact inForce_updated h ⟨r, hrows.symm ▸ hr, hrid, hrdata⟩ (by rw [hdb]; rfl)
              (by rw [hdb]; rfl) (by rw [hdb]; rfl) (by rw [hdev])
    · obtain ⟨w', hrun, hdb, hdev, -⟩ := recordAction_update_unmirrored he hid h hm
      rw [hrun]
      refine (inForce_unmirrored_iff h hdb (by rw [hdev])).trans ⟨Or.inr, ?_⟩
      rintro (⟨hm', -⟩ | h')
      · exact absurd hm' hm
      · exact h'
  · obtain ⟨w', hrun, hsame, -⟩ := recordAction_update_refused conf recordset he hid (fun view z rr h => hacc ⟨view, z, rr, h⟩)
    rw [hrun]
    exact iff_of_true hsame fun view z rr h => absurd ⟨view, z, rr, h⟩ hacc

theorem truthful_delete_iff (he : faults .errorStatus = false) {id : Nat}
    (hid : record.id = some id) :
    Truthful ctx conf faults zone recordset record .DELETE w w ↔
      BookkeepingHolds ctx conf faults zone recordset record .DELETE w := by
  unfold Truthful
  by_cases hacc : ∃ view z rr, ChangeAccepted ctx faults zone record w view z rr
  · obtain ⟨view, z, rr, h⟩ := hacc
    obtain ⟨-, -, a, ha, hz⟩ := mirrorOf_eq_ok.mp h.mirror
    have hida := findRecordAssociation_id ha
    -- what a DELETE has done in any case once the association and the zdns row are gone
    have hforce : ∀ w' : World, (∀ r ∈ w'.db.records, record.id ≠ some r.id) →
        w'.db.recordAssociations = (w.db.withoutAssociation a.recordId).recordAssociations →
        w'.db.zdnsRecords = (w.db.withoutZdnsRecord a.zdnsRecordId).zdnsRecords →
        w'.device.rrs = Table.remove RR.key rr.key w.device.rrs →
        InForce ctx zone recordset record .DELETE w w' := by
      intro w' hgone hassoc hzdns hrrs
      refine ⟨hgone, fun a' ha' heq => ?_, view, z, h.findView, h.mirror, fun z' hz' heq => ?_,
        fun rr' hrr' heq => ?_⟩
      · rw [hassoc] at ha'
        exact (Table.mem_remove.mp ha').2 (Option.some.inj (heq.symm.trans hida))
      · rw [hzdns] at hz'
        exact (Table.mem_remove.mp hz').2 (by rw [heq, findZdnsRecord_id hz])
      · rw [hrrs] at hrr'
        exact (Table.mem_remove.mp hrr').2 (heq.trans h.rr_mem.2.symm)
    by_cases hb : ∃ row, DeleteBooked ctx faults a.recordId w.db row
    · obtain ⟨row', hb'⟩ := hb
      refine iff_of_true ?_ fun _ =>
        ⟨hb'.1, hb'.2.1, Or.inl ⟨hb'.2.2.1, row', hida ▸ hb'.2.2.2⟩⟩
      rw [recordAction_delete_booked ha h hb']
      refine hforce _ (fun r hr heq => ?_) rfl rfl rfl
      exact (Table.mem_remove.mp hr).2 (Option.some.inj (heq.symm.trans hida))
    · obtain ⟨w', hrun, hrecs, hdev, -, hdb⟩ := recordAction_delete_lost conf recordset he ha h (fun row hr => hb ⟨row, hr⟩)
      rw [hrun]
      constructor
      · rintro ⟨hgone, hassoc, view', z', -, hm', hzdns, -⟩ -
        obtain rfl := Except.ok.inj (hm'.symm.trans h.mirror)
        rw [hrecs] at hgone
        rcases hdb with ⟨h₁, h₂, -⟩ | ⟨-, hleft | hleft⟩
        · exact ⟨h₁, h₂, Or.inr hgone⟩
        · exact absurd hida (hassoc a hleft)
        · exact absurd rfl (hzdns z' hleft)
      · intro hbook
        obtain ⟨h₁, h₂, ⟨h₃, row', hr⟩ | hgone⟩ := hbook ⟨view, z, rr, h⟩
        · exact absurd ⟨row', h₁, h₂, h₃, hida ▸ hr⟩ hb
        · rcases hdb with ⟨-, -, hdb⟩ | ⟨hf | hf, -⟩
          · exact hforce w' (hrecs ▸ hgone) (by rw [hdb]; rfl) (by rw [hdb]; rfl) (by rw [hdev]; rfl)
          · exact absurd (hf.symm.trans h₁) (by simp)
          · exact absurd (hf.symm.trans h₂) (by simp)
  · obtain ⟨w', hrun, hsame, -⟩ := recordAction_delete_refused conf recordset he hid (fun view z rr h => hacc ⟨view, z, rr, h⟩)
    rw [hrun]
    exact iff_of_true hsame fun h => absurd h hacc

end Change

/--
**A record action tells the truth exactly when its book-keeping holds.** The
failing steps are arbitrary, except that the `except` branch gets its own status
update through.
-/
theorem recordAction_truthful_iff (ctx : Context) (conf : Conf) (faults : Faults) (zone : Zone)
    (recordset : RecordSet) (record : Record) (action : Action) (w₀ w : World)
    (he : faults .errorStatus = false)
    (h : Presented ctx conf zone recordset record action w₀ w) :
    Truthful ctx conf faults zone recordset record action w₀ w ↔
      BookkeepingHolds ctx conf faults zone recordset record action w := by
  cases h with
  | create fresh inserted => exact truthful_create_iff he fresh inserted
  | stored change hid data =>
    rcases change with rfl | rfl
    · exact truthful_update_iff he hid data
    · exact truthful_delete_iff he hid

theorem sample_fresh : Sample.world.Fresh where
  records := by decide
  associations := by decide
  zdnsRecords := by decide

/-- At a stored record, with every step getting through. -/
theorem recordAction_truthful_iff_sample :
    Truthful Sample.ctx Sample.conf Faults.none Sample.zone (Sample.www [])
        (Record.ofRow (Sample.record 5 3 "192.0.2.1")) .UPDATE Sample.world Sample.world ↔
      BookkeepingHolds Sample.ctx Sample.conf Faults.none Sample.zone (Sample.www [])
        (Record.ofRow (Sample.record 5 3 "192.0.2.1")) .UPDATE Sample.world :=
  recordAction_truthful_iff _ _ _ _ _ _ _ _ _ rfl
    (.stored (Or.inl rfl) rfl (by decide))

/-- Only the step `site` fails. -/
def Faults.only (site : Site) : Faults := fun s => s == site

/--
The device holds a new record, the answer says so, and the failing status update
has had the record deleted from the table.
-/
theorem recordAction_untruthful :
    ∃ w, Presented Sample.ctx Sample.conf Sample.zone (Sample.www [Record.new "192.0.2.9"])
        (Record.ofRow (Sample.pending 11 3 "192.0.2.9")) .CREATE Sample.world w ∧
      ¬ Truthful Sample.ctx Sample.conf (Faults.only .updateStatus) Sample.zone
        (Sample.www [Record.new "192.0.2.9"]) (Record.ofRow (Sample.pending 11 3 "192.0.2.9"))
        .CREATE Sample.world w := by
  have inserted : createRecordInStorage Sample.ctx Sample.conf Sample.zone
      (Sample.www [Record.new "192.0.2.9"]) (Record.new "192.0.2.9") Sample.world =
      (.ok (Record.ofRow (Sample.pending 11 3 "192.0.2.9")), { Sample.world with
        nextId := 12, db := Sample.world.db.withNewRecord (Sample.pending 11 3 "192.0.2.9") }) := rfl
  refine ⟨_, .create sample_fresh inserted, fun h => ?_⟩
  have hbook := (truthful_create_iff rfl sample_fresh inserted).mp h
    ⟨Sample.view, rfl, rfl, by decide⟩
  exact absurd hbook.2.2 (by decide)

end Designate
