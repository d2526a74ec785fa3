import Designate.Proof.Entries
import Designate.Proof.Keeps
import Designate.Proof.Truthful

/-!
# What becomes of the entries of a list

An entry of an update is refused, applied, lost (the device has it and the tables
do not), or it raises and ends the loop. Which one is decided by the state before
the entry. The count that `do_update` keeps cannot tell an applied entry from a
lost one, and an entry that raises hides what the earlier ones have done.
-/

namespace Designate

open Exec

variable {ctx : Context} {conf : Conf} {faults : Faults} {zone : Zone} {recordset : RecordSet}
  {record : Record} {action : Action} {w w' : World} {row : RecordRow}

/-! ## One change -/

/-- Only the device refuses. -/
def Faults.OnlyDevice (faults : Faults) : Prop := ∀ s, faults s = true → s = .device

theorem Faults.OnlyDevice.off (h : faults.OnlyDevice) {s : Site} (hs : s ≠ .device) :
    faults s = false := by
  cases hf : faults s with
  | false => rfl
  | true => exact absurd (h s hf) hs

theorem Fresh.shrink (h : w.Fresh)
    (hr : w'.db.records.map RecordRow.id ⊆ w.db.records.map RecordRow.id)
    (ha : w'.db.recordAssociations ⊆ w.db.recordAssociations)
    (hz : w'.db.zdnsRecords.map ZdnsRecord.id ⊆ w.db.zdnsRecords.map ZdnsRecord.id)
    (hn : w.nextId ≤ w'.nextId) : w'.Fresh where
  records r hr' := by
    obtain ⟨r₀, hr₀, he⟩ := List.mem_map.mp (hr (List.mem_map_of_mem hr'))
    have := h.records r₀ hr₀
    omega
  associations a ha' := by
    have := h.associations a (ha ha')
    omega
  zdnsRecords z hz' := by
    obtain ⟨z₀, hz₀, he⟩ := List.mem_map.mp (hz (List.mem_map_of_mem hz'))
    have := h.zdnsRecords z₀ hz₀
    omega

theorem World.Same.fresh (hs : World.Same w w') (h : w.Fresh) (hn : w.nextId ≤ w'.nextId) :
    w'.Fresh :=
  Fresh.shrink h (by rw [hs.db]; exact List.Subset.refl _) (by rw [hs.db]; exact List.Subset.refl _)
    (by rw [hs.db]; exact List.Subset.refl _) hn

theorem withRecord_ids_subset (db : Db) (new : RecordRow) :
    (db.withRecord new).records.map RecordRow.id ⊆ db.records.map RecordRow.id := by
  unfold Db.withRecord
  rw [Table.map_update fun _ _ hk => hk.symm]
  exact List.Subset.refl _

theorem withZdnsRecord_ids_subset (db : Db) (z : ZdnsRecord) :
    (db.withZdnsRecord z).zdnsRecords.map ZdnsRecord.id ⊆ db.zdnsRecords.map ZdnsRecord.id := by
  unfold Db.withZdnsRecord
  rw [Table.map_update fun _ _ hk => hk.symm]
  exact List.Subset.refl _

theorem remove_map_subset {α κ : Type} [DecidableEq κ] {key : α → κ} {k : κ} (l : List α) :
    (Table.remove key k l).map key ⊆ l.map key :=
  (List.Sublist.map _ List.filter_sublist).subset

/-- An UPDATE or a DELETE the device refuses leaves everything alone. -/
theorem recordAction_change_refused (conf : Conf) (recordset : RecordSet)
    (ha : action = .UPDATE ∨ action = .DELETE)
    (he : faults .errorStatus = false) {id : Nat} (hid : record.id = some id)
    (h : ¬ ∃ view z rr, ChangeAccepted ctx faults zone record w view z rr) :
    ∃ w', recordAction ctx conf faults zone record action recordset w = (.ok none, w') ∧
      World.Same w w' ∧ w'.nextId = w.nextId := by
  have h' : ∀ view z rr, ¬ ChangeAccepted ctx faults zone record w view z rr :=
    fun view z rr hacc => h ⟨view, z, rr, hacc⟩
  rcases ha with rfl | rfl
  · exact recordAction_update_refused conf recordset he hid h'
  · exact recordAction_delete_refused conf recordset he hid h'

/-- A text that is no UUID gets nowhere, and the `except` branch raises over it. -/
theorem recordAction_change_noId (ctx : Context) (conf : Conf) (zone : Zone)
    (recordset : RecordSet) (ha : action = .UPDATE ∨ action = .DELETE)
    (he : faults .errorStatus = false) (hid : record.id = none) :
    ∃ w', recordAction ctx conf faults zone record action recordset w = (.error .DBError, w') ∧
      World.Same w w' ∧ w'.nextId = w.nextId := by
  -- without an identifier there is no mirror to change
  have hacc : ∀ view z rr, ¬ ChangeAccepted ctx faults zone record w view z rr := by
    intro view z rr h
    obtain ⟨-, -, a, ha, -⟩ := mirrorOf_eq_ok.mp h.2.1
    rw [hid] at ha
    exact absurd ha (by simp [findRecordAssociation])
  have hhandler : ∀ (action : Action) (w₁ : World),
      RecordAction.handler ctx conf faults record action w₁ =
        (.error .DBError, w₁.report ⟨record.id, action, .ERROR⟩) := by
    intro action w₁
    unfold RecordAction.handler recordActionUpdateStatus
    rw [seq_ok (modify_apply _ _)]
    unfold updateRecordStatus
    rw [hid]
    change (mayFail (faults .errorStatus) >>= _) (w₁.report _) = _
    rw [he, seq_ok (mayFail_false _)]
    rfl
  rcases ha with rfl | rfl
  · obtain ⟨e, w₁, hcall, hsame, hnext⟩ :=
      updateCall_refused conf recordset hacc
    exact ⟨_, saga_handler_raises hcall (hhandler _ _), hsame.report _, hnext⟩
  · obtain ⟨e, w₁, hcall, hsame, hnext⟩ := deleteCall_refused hacc
    exact ⟨_, saga_handler_raises hcall (hhandler _ _), hsame.report _, hnext⟩

/-- An UPDATE or a DELETE the device accepts answers, truthfully or not. -/
theorem recordAction_change_accepted (conf : Conf) (recordset : RecordSet)
    (ha : action = .UPDATE ∨ action = .DELETE)
    (hp : faults.OnlyDevice) {id : Nat} (hid : record.id = some id)
    (hdata : ∀ row ∈ w.db.records, row.id = id → record.data.write row.data = record.text)
    (hfresh : w.Fresh) (h : ∃ view z rr, ChangeAccepted ctx faults zone record w view z rr) :
    ∃ r w', recordAction ctx conf faults zone record action recordset w = (.ok (some r), w') ∧
      w'.device.changes = w.device.changes + 1 ∧ w'.Fresh ∧
      (InForce ctx zone recordset record action w w' ↔
        BookkeepingHolds ctx conf faults zone recordset record action w) := by
  obtain ⟨view, z, rr, hacc⟩ := h
  have he : faults .errorStatus = false := hp.off (by simp)
  -- it is enough to find the answer: the truth of it was settled before
  have key : (∃ r w', recordAction ctx conf faults zone record action recordset w =
      (.ok (some r), w') ∧ w'.device.changes = w.device.changes + 1 ∧ w'.Fresh) →
      ∃ r w', recordAction ctx conf faults zone record action recordset w = (.ok (some r), w') ∧
        w'.device.changes = w.device.changes + 1 ∧ w'.Fresh ∧
        (InForce ctx zone recordset record action w w' ↔
          BookkeepingHolds ctx conf faults zone recordset record action w) := by
    rintro ⟨r, w', hrun, hch, hf⟩
    refine ⟨r, w', hrun, hch, hf, ?_⟩
    have htruth : Truthful ctx conf faults zone recordset record action w w ↔
        BookkeepingHolds ctx conf faults zone recordset record action w := by
      rcases ha with rfl | rfl
      · exact truthful_update_iff he hid hdata
      · exact truthful_delete_iff he hid
    rw [← htruth]
    unfold Truthful
    rw [hrun]
  apply key
  rcases ha with rfl | rfl
  · by_cases hm : UpdateMirrored ctx conf faults zone recordset w.db
    · by_cases hs : ∃ row, SettleAccepted ctx conf faults record w.db row
      · obtain ⟨row, hs⟩ := hs
        refine ⟨_, _, recordAction_update_booked hacc hm hs, rfl, ?_⟩
        exact Fresh.shrink hfresh (withRecord_ids_subset w.db (writtenRow conf record.settle row))
          (List.Subset.refl _)
          (withZdnsRecord_ids_subset w.db (z.updated conf w.device.rrs rr record recordset))
          (Nat.le_refl _)
      · obtain ⟨w', hrun, hdb, hdev, hnext⟩ :=
          recordAction_update_unsettled he hid hacc hm fun row hr => hs ⟨row, hr⟩
        refine ⟨_, w', hrun, by rw [hdev]; rfl, ?_⟩
        refine Fresh.shrink hfresh ?_ ?_ ?_ (Nat.le_of_eq hnext.symm)
        · rw [hdb]; exact List.Subset.refl _
        · rw [hdb]; exact List.Subset.refl _
        · rw [hdb]; exact withZdnsRecord_ids_subset w.db _
    · obtain ⟨w', hrun, hdb, hdev, hnext⟩ := recordAction_update_unmirrored he hid hacc hm
      refine ⟨_, w', hrun, by rw [hdev]; rfl, ?_⟩
      refine Fresh.shrink hfresh ?_ ?_ ?_ (Nat.le_of_eq hnext.symm)
      all_goals rcases hdb with hdb | hdb <;> rw [hdb] <;> exact List.Subset.refl _
  · obtain ⟨-, -, a, haa, hz⟩ := mirrorOf_eq_ok.mp hacc.mirror
    by_cases hb : ∃ row, DeleteBooked ctx faults a.recordId w.db row
    · obtain ⟨row, hb⟩ := hb
      refine ⟨_, _, recordAction_delete_booked haa hacc hb, rfl, ?_⟩
      exact Fresh.shrink hfresh (remove_map_subset _) (List.filter_subset_self _)
        (remove_map_subset _)
        (Nat.le_refl _)
    · obtain ⟨w', hrun, hrecs, hdev, hnext, hdb⟩ := recordAction_delete_lost conf recordset he haa hacc fun row hr => hb ⟨row, hr⟩
      refine ⟨_, w', hrun, by rw [hdev]; rfl, ?_⟩
      rcases hdb with ⟨-, -, hdb⟩ | ⟨hf, -⟩
      · refine Fresh.shrink hfresh ?_ ?_ ?_ (Nat.le_of_eq hnext.symm)
        · rw [hrecs]; exact List.Subset.refl _
        · rw [hdb]; exact List.filter_subset_self _
        · rw [hdb]; exact remove_map_subset _
      · rcases hf with hf | hf
        · exact absurd (hp _ hf) (by simp)
        · exact absurd (hp _ hf) (by simp)

/-! ## One entry -/

/--
What becomes of an entry. The device and the tables are written one after the other, so an entry
can be done in the one and not in the other. That is the case that makes the count wrong.
-/
inductive Fate where
  /-- It raises, and the loop ends. -/
  | raised
  /-- The device does not get it. -/
  | refused
  /-- There is nothing to do for it. -/
  | kept
  | applied
  /-- The device has it, the tables do not. -/
  | lost
  deriving DecidableEq

/-- The entry counts as done. -/
def Fate.counted : Fate → Bool
  | kept | applied | lost => true
  | raised | refused => false

/-- The entry is done. -/
def Fate.worked : Fate → Bool
  | kept | applied => true
  | raised | refused | lost => false

/-- The device has changed. -/
def Fate.touched : Fate → Bool
  | applied | lost => true
  | raised | refused | kept => false

open Classical in
/-- The fate of a change, from the state before it. -/
noncomputable def changeFate (ctx : Context) (conf : Conf) (faults : Faults) (zone : Zone)
    (recordset : RecordSet) (action : Action) (record : Record) (w : World) : Fate :=
  if record.id = none then .raised
  else if ∃ view z rr, ChangeAccepted ctx faults zone record w view z rr then
    if BookkeepingHolds ctx conf faults zone recordset record action w then .applied else .lost
  else .refused

open Classical in
/-- The fate of an entry, from the state before it. -/
noncomputable def fate (ctx : Context) (conf : Conf) (faults : Faults) (zone : Zone)
    (recordset : RecordSet) (dealwithNochange : Bool) (p : Record × Entry) (w : World) : Fate :=
  if p.2.op = .create then
    if ∃ row, Stores ctx conf zone recordset { p.1 with data := p.1.data.set p.2.data } w.db
        w.nextId row then
      if ∃ view, CreateAccepted ctx faults zone w view then .applied else .refused
    else .raised
  else
    match p.2.sent p.1 dealwithNochange with
    | some (action, record) => changeFate ctx conf faults zone recordset action record w
    | none => .kept

/-- The entry took effect between `w` and `w'`: the device got it, and every copy shows it. -/
def Took (ctx : Context) (faults : Faults) (zone : Zone) (recordset : RecordSet)
    (dealwithNochange : Bool) (p : Record × Entry) (w w' : World) : Prop :=
  if p.2.op = .create then
    InForce ctx zone recordset { Record.new p.2.data with id := some w.nextId } .CREATE w w'
  else
    match p.2.sent p.1 dealwithNochange with
    | some (action, record) =>
      (∃ view z rr, ChangeAccepted ctx faults zone record w view z rr) ∧
        InForce ctx zone recordset record action w w'
    | none => True

/-- What an entry does, by its fate. -/
def EntryStep (ctx : Context) (conf : Conf) (faults : Faults) (zone : Zone)
    (recordset : RecordSet) (dealwithNochange : Bool) (p : Record × Entry) (w : World)
    (f : Fate) : Prop :=
  ∃ res w', applyEntry ctx conf faults zone recordset dealwithNochange p.1 p.2 w = (res, w') ∧
    w'.Fresh ∧ w'.device.changes = w.device.changes + f.touched.toNat ∧
    (f.touched = false → World.Same w w') ∧
    match f with
    | .raised => ∃ e, res = .error e ∧ ¬ e.Tally
    | f => res = .ok f.counted ∧
      (Took ctx faults zone recordset dealwithNochange p w w' ↔ f.worked = true)

section

variable {dealwithNochange : Bool} {p : Record × Entry}

/-- An entry that changes a record. -/
theorem changeEntry_step (hp : faults.OnlyDevice) (hfresh : w.Fresh)
    (ha : action = .UPDATE ∨ action = .DELETE)
    (hdata : ∀ old, record.data.write old = record.text) {res : Except Exc Bool} {w' : World}
    (hrun : (do
      let response ← recordAction ctx conf faults zone record action recordset
      pure response.isSome : Call Bool) w = (res, w')) :
    let f := changeFate ctx conf faults zone recordset action record w
    w'.Fresh ∧ w'.device.changes = w.device.changes + f.touched.toNat ∧
      (f.touched = false → World.Same w w') ∧
      match f with
      | .raised => ∃ e, res = .error e ∧ ¬ e.Tally
      | f => res = .ok f.counted ∧
        ((∃ view z rr, ChangeAccepted ctx faults zone record w view z rr) ∧
          InForce ctx zone recordset record action w w' ↔ f.worked = true) := by
  have he : faults .errorStatus = false := hp.off (by simp)
  intro f
  cases hid : record.id with
  | none =>
    -- the text of the identifier is no UUID
    have hf : f = .raised := by simp [f, changeFate, hid]
    obtain ⟨w₁, hrec, hsame, hnext⟩ :=
      recordAction_change_noId ctx conf zone recordset (w := w) ha he hid
    rw [bind_error hrec] at hrun
    obtain ⟨rfl, rfl⟩ := Prod.mk.inj hrun
    rw [hf]
    exact ⟨hsame.fresh hfresh (Nat.le_of_eq hnext.symm), hsame.changes, fun _ => hsame, _, rfl,
      by simp [Exc.Tally]⟩
  | some id =>
    by_cases hacc : ∃ view z rr, ChangeAccepted ctx faults zone record w view z rr
    · obtain ⟨r, w₁, hrec, hch, hfresh₁, hforce⟩ :=
        recordAction_change_accepted conf recordset ha hp hid
          (fun row _ _ => hdata row.data) hfresh hacc
      rw [bind_ok hrec] at hrun
      obtain ⟨rfl, rfl⟩ := Prod.mk.inj hrun
      by_cases hb : BookkeepingHolds ctx conf faults zone recordset record action w
      · have hf : f = .applied := by simp [f, changeFate, hid, hacc, hb]
        rw [hf]
        exact ⟨hfresh₁, hch, fun h => absurd h (by simp [Fate.touched]), rfl,
          iff_of_true ⟨hacc, hforce.mpr hb⟩ rfl⟩
      · have hf : f = .lost := by simp [f, changeFate, hid, hacc, hb]
        rw [hf]
        exact ⟨hfresh₁, hch, fun h => absurd h (by simp [Fate.touched]), rfl,
          iff_of_false (fun h => hb (hforce.mp h.2)) (by simp [Fate.worked])⟩
    · have hf : f = .refused := by simp [f, changeFate, hid, hacc]
      obtain ⟨w₁, hrec, hsame, hnext⟩ :=
        recordAction_change_refused conf recordset ha he hid hacc
      rw [bind_ok hrec] at hrun
      obtain ⟨rfl, rfl⟩ := Prod.mk.inj hrun
      rw [hf]
      exact ⟨hsame.fresh hfresh (Nat.le_of_eq hnext.symm), hsame.changes, fun _ => hsame, rfl,
        iff_of_false (fun h => hacc h.1) (by simp [Fate.worked])⟩

/-- Only the identifier and the text of a created record matter. -/
theorem inForce_create_congr {record' : Record} (hid : record.id = record'.id)
    (htext : record.text = record'.text) :
    InForce ctx zone recordset record .CREATE w w' ↔
      InForce ctx zone recordset record' .CREATE w w' := by
  simp only [InForce, createValues, createData, hid, htext]

/-- The world with `row` inserted, on the device below `view`, mirrored and settled. -/
def World.createdOne (conf : Conf) (w : World) (view : View) (zone : Zone)
    (recordset : RecordSet) (row : RecordRow) : World :=
  let id := conf.rrName w.device.rrs (createData view zone (Record.ofRow row) recordset)
  ({ (w.inserted row).created conf view zone (Record.ofRow row) recordset with
      nextId := w.nextId + 2 }.report ⟨some row.id, .CREATE, .SUCCESS⟩).withDb
    (((w.inserted row).db.settled conf (Record.ofRow row) row).mirrored row.id (w.nextId + 1)
      (createValues (Record.ofRow row) recordset id))

theorem createOne_applied {view : View} (hfresh : w.Fresh)
    (h₁ : faults .createZdnsRecord = false) (h₂ : faults .createRecordAssociation = false)
    (h₃ : faults .updateStatus = false) (hview : CreateAccepted ctx faults zone w view)
    (hstores : Stores ctx conf zone recordset record w.db w.nextId row)
    (hok : createRecordInStorage ctx conf zone recordset record w =
      (.ok (Record.ofRow row), w.inserted row)) :
    createOne ctx conf faults zone recordset record w =
      (.ok (Record.ofRow row,
        some (conf.rrName w.device.rrs (createData view zone (Record.ofRow row) recordset))),
        w.createdOne conf view zone recordset row) := by
  have hview₁ : CreateAccepted ctx faults zone (w.inserted row) view := hview
  have hsettle : SettleAccepted ctx conf faults (Record.ofRow row) (w.inserted row).db row :=
    hstores.inserted.settle hfresh.records h₃
  unfold createOne
  rw [bind_ok hok, bind_ok (recordAction_create_booked hview₁ ⟨h₁, h₂, hsettle⟩)]
  rfl

theorem createOne_refused (hfresh : w.Fresh) (he : faults .errorStatus = false)
    (hview : ¬ ∃ view, CreateAccepted ctx faults zone w view)
    (hstores : Stores ctx conf zone recordset record w.db w.nextId row)
    (hok : createRecordInStorage ctx conf zone recordset record w =
      (.ok (Record.ofRow row), w.inserted row)) :
    ∃ w', createOne ctx conf faults zone recordset record w = (.ok (Record.ofRow row, none), w') ∧
      World.Same w w' ∧ w'.nextId = w.nextId + 1 := by
  have hfound : findRecordRow ctx (Record.ofRow row).id (w.inserted row).db = .ok row :=
    hstores.inserted.found hfresh.records
  obtain ⟨w', hrun, hsame, hnext⟩ := recordAction_create_refused conf recordset he hfound
    fun view h => hview ⟨view, h⟩
  unfold createOne
  rw [bind_ok hok, bind_ok hrun]
  refine ⟨w', rfl, ⟨?_, hsame.rrs, hsame.zones, hsame.changes⟩, hnext⟩
  exact hsame.db.trans (hstores.inserted.undone hfresh.records)

theorem inForce_createdOne {view : View} (hfresh : w.Fresh)
    (hview : CreateAccepted ctx faults zone w view)
    (hrow : Inserted ctx conf zone recordset record w.db w.nextId row) (v : World) :
    InForce ctx zone recordset (Record.ofRow row) .CREATE v
      (w.createdOne conf view zone recordset row) := by
  refine inForce_created view (w.nextId + 1)
    (conf.rrName w.device.rrs (createData view zone (Record.ofRow row) recordset)) hrow
    (fun a ha => ?_) (fun z hz => ?_) (viewOf_eq_ok.mp hview.1).2 rfl ?_
  · have := hfresh.associations a ha
    have := hrow.id_eq
    omega
  · have := hfresh.zdnsRecords z hz
    omega
  · exact List.mem_append_right _ (List.mem_singleton_self _)

theorem fresh_createdOne {view : View} (hfresh : w.Fresh)
    (hrow : Inserted ctx conf zone recordset record w.db w.nextId row) :
    (w.createdOne conf view zone recordset row).Fresh := by
  have hid := hrow.id_eq
  -- the record and its mirror have taken the next two identifiers
  have hnext : (w.createdOne conf view zone recordset row).nextId = w.nextId + 2 := rfl
  constructor
  · intro r hr
    have hr' := withRecord_ids_subset (w.db.withNewRecord row)
      (writtenRow conf (Record.ofRow row).settle row) (List.mem_map_of_mem (f := RecordRow.id) hr)
    obtain ⟨r₀, hr₀, he⟩ := List.mem_map.mp hr'
    rcases List.mem_append.mp hr₀ with hr₀ | hr₀
    · have := hfresh.records r₀ hr₀
      omega
    · rw [List.mem_singleton.mp hr₀] at he
      omega
  · intro a ha
    rcases List.mem_append.mp ha with ha | ha
    · have := hfresh.associations a ha
      omega
    · rw [List.mem_singleton.mp ha]
      dsimp only
      omega
  · intro z hz
    rcases List.mem_append.mp hz with hz | hz
    · have := hfresh.zdnsRecords z hz
      omega
    · rw [List.mem_singleton.mp hz]
      dsimp only [ZdnsRecordValues.row]
      omega

/-- An entry that creates a record. -/
theorem createEntry_step (hp : faults.OnlyDevice) (hfresh : w.Fresh) (hop : p.2.op = .create) :
    EntryStep ctx conf faults zone recordset dealwithNochange p w
      (fate ctx conf faults zone recordset dealwithNochange p w) := by
  have he : faults .errorStatus = false := hp.off (by simp)
  unfold EntryStep
  rw [applyEntry_create hop]
  rcases createRecordInStorage_cases ctx conf zone recordset
    { p.1 with data := p.1.data.set p.2.data } w with
    ⟨e, w₁, herr, hdb, hdev, hnext, htally, hnot⟩ | ⟨row, hstores, hok⟩
  · have hf : fate ctx conf faults zone recordset dealwithNochange p w = .raised := by
      simp only [fate, hop, if_true]
      exact if_neg fun ⟨row, hr⟩ => hnot row hr
    have hsame : World.Same w w₁ := ⟨hdb, by rw [hdev], by rw [hdev], by rw [hdev]⟩
    rw [hf]
    exact ⟨_, _, bind_error (bind_error herr), hsame.fresh hfresh hnext, hsame.changes,
      fun _ => hsame, e, rfl, htally⟩
  · by_cases hacc : ∃ view, CreateAccepted ctx faults zone w view
    · have hf : fate ctx conf faults zone recordset dealwithNochange p w = .applied := by
        simp only [fate, hop, if_true]
        rw [if_pos ⟨row, hstores⟩, if_pos hacc]
      obtain ⟨view, hview⟩ := hacc
      rw [hf]
      refine ⟨_, _, bind_ok (createOne_applied hfresh (hp.off (by simp)) (hp.off (by simp))
        (hp.off (by simp)) hview hstores hok), fresh_createdOne hfresh hstores.inserted, rfl,
        fun h => absurd h (by simp [Fate.touched]), rfl, iff_of_true ?_ rfl⟩
      unfold Took
      rw [if_pos hop]
      refine (inForce_create_congr ?_ ?_).mp (inForce_createdOne hfresh hview hstores.inserted w)
      · exact congrArg some hstores.inserted.id_eq
      · exact hstores.inserted.data
    · have hf : fate ctx conf faults zone recordset dealwithNochange p w = .refused := by
        simp only [fate, hop, if_true]
        rw [if_pos ⟨row, hstores⟩, if_neg hacc]
      obtain ⟨w', hrun, hsame, hnext⟩ := createOne_refused hfresh he hacc hstores hok
      rw [hf]
      refine ⟨_, _, bind_ok hrun, hsame.fresh hfresh (by omega), hsame.changes, fun _ => hsame, rfl,
        iff_of_false (fun h => ?_) (by simp [Fate.worked])⟩
      -- nothing in the tables carries the new identifier
      unfold Took at h
      rw [if_pos hop] at h
      obtain ⟨⟨r, hr, hid, -⟩, -⟩ := h
      rw [hsame.db] at hr
      have := hfresh.records r hr
      have := Option.some.inj hid
      omega

/-- **One entry of the list**, as its fate says. -/
theorem applyEntry_step (ctx : Context) (conf : Conf) (zone : Zone) (recordset : RecordSet)
    (dealwithNochange : Bool) (hp : faults.OnlyDevice) (hfresh : w.Fresh)
    (hnew : ∃ text, p.1 = Record.new text) :
    EntryStep ctx conf faults zone recordset dealwithNochange p w
      (fate ctx conf faults zone recordset dealwithNochange p w) := by
  by_cases hop : p.2.op = .create
  · exact createEntry_step hp hfresh hop
  · obtain ⟨text, htext⟩ := hnew
    have hupdate : ∀ old, (p.2.updateObject p.1).data.write old = (p.2.updateObject p.1).text := by
      intro old
      rw [htext]
      exact Tracked.set_write_of_changed rfl _ _
    have hdelete : ∀ old, (p.2.deleteObject p.1).data.write old = (p.2.deleteObject p.1).text := by
      intro old
      rw [htext]
      rfl
    unfold EntryStep fate Took
    simp only [hop, if_false]
    cases hs : p.2.sent p.1 dealwithNochange with
    | some pair =>
      obtain ⟨action, object⟩ := pair
      rw [applyEntry_sent hs]
      -- the object that is sent writes the data it has
      have hobj : (action = .UPDATE ∨ action = .DELETE) ∧
          ∀ old, object.data.write old = object.text := by
        rcases (Entry.sent_cases hs).2 with ⟨rfl, rfl⟩ | ⟨rfl, rfl⟩
        · exact ⟨Or.inl rfl, hupdate⟩
        · exact ⟨Or.inr rfl, hdelete⟩
      cases hrun : (do
          let response ← recordAction ctx conf faults zone object action recordset
          pure response.isSome : Call Bool) w with
      | mk res w' => exact ⟨res, w', rfl, changeEntry_step hp hfresh hobj.1 hobj.2 hrun⟩
    | none =>
      rw [applyEntry_kept hop hs]
      exact ⟨.ok true, w, rfl, hfresh, rfl, fun _ => .rfl, rfl, iff_of_true trivial rfl⟩

end

end Designate
