import Designate.Proof.Fate
import Designate.Proof.Linked
import Designate.Sample

/-!
# How the deletion of a recordset ends

The records of a recordset are deleted one by one: the device first, then the rows,
in transactions of their own. When nothing but the device refuses, the answers
that `delete_recordset` counts are the deletions the device has carried out, and
the rows that are left are those of the others.
-/

namespace Designate

open Exec

variable {ctx : Context} {conf : Conf} {plan : Nat → Faults} {zone : Zone} {recordset : RecordSet}
  {view : View} {w : World} {row : RecordRow} {c : RecordAssociation × ZdnsRecord}
  {rows : List RecordRow} {copies : List (RecordAssociation × ZdnsRecord)}

/-! ## What the device deletes -/

/-- The association and the zdns row of a record. -/
def CopiedAs (db : Db) (row : RecordRow) (c : RecordAssociation × ZdnsRecord) : Prop :=
  findRecordAssociation (some row.id) db = .ok c.1 ∧ findZdnsRecord c.1.zdnsRecordId db = .ok c.2

/-- The records, by their copies, that the device deletes when it is asked for one after the other. -/
def deviceDeletes (view zone : String) : (Nat → Faults) → List RR →
    List (RecordAssociation × ZdnsRecord) → List (RecordAssociation × ZdnsRecord)
  | _, _, [] => []
  | plan, rrs, c :: copies =>
    match Table.find RR.key (c.2.rrId, view, zone) (fun _ => true) Exc.ZdnsErrMessage rrs with
    | .error _ => deviceDeletes view zone (fun n => plan (n + 1)) rrs copies
    | .ok rr =>
      if plan 0 .device then deviceDeletes view zone (fun n => plan (n + 1)) rrs copies
      else c :: deviceDeletes view zone (fun n => plan (n + 1)) (Table.remove RR.key rr.key rrs) copies

theorem deviceDeletes_sublist (view zone : String) (plan : Nat → Faults) (rrs : List RR)
    (copies : List (RecordAssociation × ZdnsRecord)) :
    (deviceDeletes view zone plan rrs copies).Sublist copies := by
  induction copies generalizing plan rrs with
  | nil => exact List.Sublist.refl []
  | cons c copies ih =>
    unfold deviceDeletes
    split
    · exact (ih _ _).cons c
    · split
      · exact (ih _ _).cons c
      · exact (ih _ _).cons_cons c

/-! ## The rows that go -/

/-- The tables without the records of `gone` and their copies. -/
def Db.droppedAll (db : Db) (gone : List (RecordAssociation × ZdnsRecord)) : Db :=
  gone.foldl (fun db c => db.dropped c.1.recordId c.1.zdnsRecordId) db

/-- What goes table by table; no other table is touched. -/
theorem droppedAll_eq (db : Db) (gone : List (RecordAssociation × ZdnsRecord)) :
    db.droppedAll gone = { db with
      records := db.records.filter fun r => r.id ∉ gone.map fun c => c.1.recordId
      recordAssociations := db.recordAssociations.filter fun a =>
        a.recordId ∉ gone.map fun c => c.1.recordId
      zdnsRecords := db.zdnsRecords.filter fun z =>
        z.id ∉ gone.map fun c => c.1.zdnsRecordId } := by
  rw [← Table.foldl_remove, ← Table.foldl_remove, ← Table.foldl_remove]
  induction gone generalizing db with
  | nil => rfl
  | cons c gone ih => exact ih (db.dropped c.1.recordId c.1.zdnsRecordId)

theorem droppedAll_recordsOf (db : Db) (gone : List (RecordAssociation × ZdnsRecord))
    (recordsetId : Nat) :
    (db.droppedAll gone).recordsOf recordsetId =
      (db.recordsOf recordsetId).filter fun r => r.id ∉ gone.map fun c => c.1.recordId := by
  unfold Db.recordsOf
  rw [droppedAll_eq, List.filter_filter, List.filter_filter]
  exact List.filter_congr fun _ _ => Bool.and_comm _ _

/-- Other records keep their copies. -/
theorem CopiedAs.dropped {db : Db} {recordId zdnsId : Nat} (h : CopiedAs db row c)
    (hne : row.id ≠ recordId) (hzdns : c.1.zdnsRecordId ≠ zdnsId) :
    CopiedAs (db.dropped recordId zdnsId) row c :=
  ⟨(Table.find_remove hne).trans h.1, (Table.find_remove hzdns).trans h.2⟩

/-! ## One record after the other -/

/-- The object `delete_recordset` makes of a row. -/
def deletedObject (row : RecordRow) : Record :=
  { Record.ofRow row with action := (Record.ofRow row).action.set .DELETE }

theorem CopiedAs.recordId {db : Db} (h : CopiedAs db row c) : c.1.recordId = row.id :=
  (Option.some.inj (findRecordAssociation_id h.1)).symm

/-- The device carries the deletion out, and the rows of the record go. -/
theorem deleteTurn_taken (recordset : RecordSet) {faults : Faults} (hp : faults.OnlyDevice)
    (hview : findView ctx zone.viewId w.db = .ok view) (hc : CopiedAs w.db row c)
    (hrow : findRecordRow ctx (some row.id) w.db = .ok row) (hdevice : faults .device = false)
    {rr : RR} (hrr : Device.find view.name zone.name c.2.rrId w.device = .ok rr) :
    ∃ w', recordAction ctx conf faults zone (deletedObject row) .DELETE recordset w =
        (.ok (some c.2.rrId), w') ∧
      w'.db = w.db.dropped c.1.recordId c.1.zdnsRecordId ∧
      w'.device.rrs = Table.remove RR.key rr.key w.device.rrs := by
  have hlook : mirrorOf faults (deletedObject row).id w.db = .ok c.2 :=
    mirrorOf_eq_ok.mpr ⟨hp.off (by simp), hp.off (by simp), c.1, hc.1, hc.2⟩
  have hacc : ChangeAccepted ctx faults zone (deletedObject row) w view c.2 rr :=
    ⟨viewOf_eq_ok.mpr ⟨hp.off (by simp), hview⟩, hlook, hdevice, hrr⟩
  have hbooked : DeleteBooked ctx faults c.1.recordId w.db row :=
    ⟨hp.off (by simp), hp.off (by simp), hp.off (by simp), hc.recordId ▸ hrow⟩
  exact ⟨_, recordAction_delete_booked hc.1 hacc hbooked, rfl, rfl⟩

/-- The device refuses, and nothing changes. -/
theorem deleteTurn_refused (conf : Conf) (recordset : RecordSet) {faults : Faults}
    (hp : faults.OnlyDevice) (hview : findView ctx zone.viewId w.db = .ok view)
    (hc : CopiedAs w.db row c)
    (hdevice : faults .device = true ∨
      ∀ rr, Device.find view.name zone.name c.2.rrId w.device ≠ .ok rr) :
    ∃ w', recordAction ctx conf faults zone (deletedObject row) .DELETE recordset w =
        (.ok none, w') ∧ World.Same w w' := by
  have hrefused : ∀ v z rr, ¬ ChangeAccepted ctx faults zone (deletedObject row) w v z rr := by
    intro v z rr h
    -- the worker would have to find what was looked up before the call
    obtain ⟨hv, hz, hd, hrr⟩ := h
    obtain rfl : v = view := Except.ok.inj ((viewOf_eq_ok.mp hv).2.symm.trans hview)
    obtain ⟨-, -, a, ha, hza⟩ := mirrorOf_eq_ok.mp hz
    obtain rfl : a = c.1 := Except.ok.inj (ha.symm.trans hc.1)
    obtain rfl : z = c.2 := Except.ok.inj (hza.symm.trans hc.2)
    rcases hdevice with hdevice | hdevice
    · exact absurd (hd.symm.trans hdevice) (by simp)
    · exact hdevice rr hrr
  obtain ⟨w', hrun, hsame, -⟩ :=
    recordAction_delete_refused conf recordset (hp.off (by simp)) rfl hrefused
  exact ⟨w', hrun, hsame⟩

/-- One turn: the record goes, and the turn answers, if the device deletes it. -/
theorem deleteTurn (conf : Conf) (recordset : RecordSet) (hp : (plan 0).OnlyDevice)
    (hview : findView ctx zone.viewId w.db = .ok view) (hc : CopiedAs w.db row c)
    (hrow : findRecordRow ctx (some row.id) w.db = .ok row) :
    ∃ gone r w₁, recordAction ctx conf (plan 0) zone (deletedObject row) .DELETE recordset w =
        (.ok r, w₁) ∧ (gone = [] ∨ gone = [c]) ∧ r.isSome.toNat = gone.length ∧
      w₁.db = w.db.droppedAll gone ∧
      deviceDeletes view.name zone.name plan w.device.rrs (c :: copies) =
        gone ++ deviceDeletes view.name zone.name (fun n => plan (n + 1)) w₁.device.rrs copies := by
  -- however the device refuses, nothing goes and the turn answers nothing
  have hrefused : (plan 0 .device = true ∨
      ∀ rr, Device.find view.name zone.name c.2.rrId w.device ≠ .ok rr) →
      ∃ w₁, recordAction ctx conf (plan 0) zone (deletedObject row) .DELETE recordset w =
        (.ok none, w₁) ∧ w₁.db = w.db ∧ w₁.device.rrs = w.device.rrs := by
    intro hdevice
    obtain ⟨w₁, hrun, hsame⟩ := deleteTurn_refused conf recordset hp hview hc hdevice
    exact ⟨w₁, hrun, hsame.db, hsame.rrs⟩
  -- the device does not know the record, refuses by a fault, or deletes it
  cases hrr : Device.find view.name zone.name c.2.rrId w.device with
  | error e =>
    obtain ⟨w₁, hrun, hdb, hrrs⟩ := hrefused (Or.inr fun rr h => by simp [hrr] at h)
    refine ⟨[], none, w₁, hrun, Or.inl rfl, rfl, hdb, ?_⟩
    unfold Device.find at hrr
    rw [hrrs, deviceDeletes, hrr]
    rfl
  | ok rr =>
    have hfind := hrr
    unfold Device.find at hfind
    cases hdevice : plan 0 .device with
    | true =>
      obtain ⟨w₁, hrun, hdb, hrrs⟩ := hrefused (Or.inl hdevice)
      refine ⟨[], none, w₁, hrun, Or.inl rfl, rfl, hdb, ?_⟩
      rw [hrrs, deviceDeletes, hfind]
      simp [hdevice]
    | false =>
      obtain ⟨w₁, hrun, hdb, hrrs⟩ := deleteTurn_taken recordset hp hview hc hrow
        hdevice hrr
      refine ⟨[c], some c.2.rrId, w₁, hrun, Or.inr rfl, rfl, hdb, ?_⟩
      rw [hrrs, deviceDeletes, hfind]
      simp [hdevice]

/-- **The loop counts what the device deletes, and exactly the rows of these go.** -/
theorem deleteAll_run (conf : Conf) (recordset : RecordSet) (hplan : ∀ n, (plan n).OnlyDevice)
    (hview : findView ctx zone.viewId w.db = .ok view) (hids : (rows.map RecordRow.id).Nodup)
    (hrows : ∀ r ∈ rows, findRecordRow ctx (some r.id) w.db = .ok r)
    (hcopies : List.Forall₂ (CopiedAs w.db) rows copies)
    (hapart : (copies.map fun c => c.1.zdnsRecordId).Nodup) :
    ∃ w', deleteAll ctx conf zone recordset plan rows w =
        (.ok (deviceDeletes view.name zone.name plan w.device.rrs copies).length, w') ∧
      w'.db = w.db.droppedAll (deviceDeletes view.name zone.name plan w.device.rrs copies) := by
  induction rows generalizing plan w copies with
  | nil =>
    cases hcopies
    exact ⟨w, rfl, rfl⟩
  | cons row rows ih =>
    rcases hcopies with _ | ⟨hc, hrest⟩
    rename_i c copies
    rw [List.map_cons, List.nodup_cons] at hids hapart
    obtain ⟨gone, r, w₁, hfirst, hgone, hr, hdb, hdeletes⟩ := deleteTurn conf
      recordset (hplan 0) hview hc (hrows row List.mem_cons_self)
    -- those that are left keep their rows and their copies whatever the turn has done
    have hkeep : (∀ r ∈ rows, findRecordRow ctx (some r.id) w₁.db = .ok r) ∧
        List.Forall₂ (CopiedAs w₁.db) rows copies := by
      rw [hdb]
      rcases hgone with rfl | rfl
      · exact ⟨fun r hr => hrows r (List.mem_cons_of_mem _ hr), hrest⟩
      · refine ⟨fun r hr => ?_, ?_⟩
        · have hne : r.id ≠ c.1.recordId := by
            rw [hc.recordId]
            exact fun he => hids.1 (he ▸ List.mem_map_of_mem hr)
          exact (Table.find_remove hne).trans (hrows r (List.mem_cons_of_mem _ hr))
        · refine (List.forall₂_iff_zip.mpr ⟨hrest.length_eq, fun {r d} hm => ?_⟩)
          have hd := (List.forall₂_iff_zip.mp hrest).2 hm
          obtain ⟨hmr, hmd⟩ := List.of_mem_zip hm
          refine hd.dropped ?_ ?_
          · rw [hc.recordId]
            exact fun he => hids.1 (he ▸ List.mem_map_of_mem hmr)
          · exact fun he => hapart.1 (List.mem_map.mpr ⟨d, hmd, he⟩)
    have hview₁ : findView ctx zone.viewId w₁.db = .ok view := by
      rw [hdb, droppedAll_eq]
      exact hview
    obtain ⟨w', hloop, hdb'⟩ := ih (fun n => hplan (n + 1)) hview₁ hids.2 hkeep.1 hkeep.2 hapart.2
    refine ⟨w', ?_, ?_⟩
    · rw [hdeletes, List.length_append, ← hr, Nat.add_comm]
      unfold deleteAll
      exact (bind_ok hfirst).trans ((bind_ok hloop).trans rfl)
    · rw [hdeletes, hdb', hdb]
      exact List.foldl_append.symm

/-! ## The whole request -/

/-- Every step of `delete_recordset` gets through, but for what the device refuses. -/
structure OthersSucceed (ctx : Context) (plan : Nat → Faults) (zoneId recordsetId : Nat) (w : World)
    (zone : Zone) (view : View) (copies : List (RecordAssociation × ZdnsRecord)) : Prop where
  onlyDevice : ∀ n, (plan n).OnlyDevice
  zoneFound : findZone ctx zoneId w.db = .ok zone
  recordsetFound : ∃ s, findRecordsetRow ctx recordsetId w.db = .ok s ∧ s.zoneId = zone.id
  /-- The zone is not on its way out. -/
  stays : zone.action ≠ .DELETE
  managed : (∃ r ∈ w.db.recordsOf recordsetId, r.managed = true) → ctx.editManagedRecords = true
  viewFound : findView ctx zone.viewId w.db = .ok view
  copied : List.Forall₂ (CopiedAs w.db) (w.db.recordsOf recordsetId) copies
  /-- No two records share a zdns row. -/
  apart : (copies.map fun c => c.1.zdnsRecordId).Nodup

/-- How the request ends if the device deletes `deleted` of `copies`. -/
def deletionVerdict (copies deleted : List (RecordAssociation × ZdnsRecord)) : Except Exc Unit :=
  if deleted = copies then .ok ()
  else if deleted = [] then .error .AllFailed
  else .error .PartlyFailed

theorem raiseUnlessAll_verdict {deleted : List (RecordAssociation × ZdnsRecord)}
    (h : deleted.Sublist copies) :
    raiseUnlessAll deleted.length copies.length w = (deletionVerdict copies deleted, w) := by
  unfold raiseUnlessAll deletionVerdict
  by_cases hall : deleted = copies
  · rw [if_pos hall, if_pos (congrArg List.length hall)]
    rfl
  · -- the counts tell the two apart, since one is part of the other
    have hlen : deleted.length ≠ copies.length := fun he => hall (h.eq_of_length he)
    rw [if_neg hall, if_neg hlen]
    by_cases hnone : deleted = []
    · rw [if_pos hnone, if_pos (List.length_eq_zero_iff.mpr hnone)]
      rfl
    · rw [if_neg hnone, if_neg fun he => hnone (List.length_eq_zero_iff.mp he)]
      rfl

theorem findRecordRow_of_mem (hwf : w.Wf) {recordsetId : Nat} {s : RecordSetRow}
    (hs : findRecordsetRow ctx recordsetId w.db = .ok s) {r : RecordRow}
    (hr : r ∈ w.db.recordsOf recordsetId) : findRecordRow ctx (some r.id) w.db = .ok r :=
  Table.find_of_mem hwf.recordIds (mem_recordsOf.mp hr).1 rfl (hwf.sees_records hs hr).1

/-- The recordset of a request comes with all its records. -/
theorem getRecordset_found (hwf : w.Wf) {recordsetId : Nat} {s : RecordSetRow}
    (hs : findRecordsetRow ctx recordsetId w.db = .ok s) :
    getRecordset ctx recordsetId w =
      (.ok (RecordSet.ofRow s ((w.db.recordsOf recordsetId).map Record.ofRow)), w) := by
  have hall : (w.db.records.filter fun r => r.recordsetId == recordsetId && ctx.sees r.tenantId) =
      w.db.recordsOf recordsetId := by
    have hfound := hwf.findRecords_eq hs
    unfold findRecords at hfound
    rw [read_apply] at hfound
    exact Except.ok.inj (Prod.mk.inj hfound).1
  unfold getRecordset
  rw [read_apply, hs, hall]
  rfl

/-- The loop done, the recordset goes if every record has. -/
theorem deleteRecordset_run (conf : Conf) {zoneId recordsetId : Nat} (hwf : w.Wf)
    (h : OthersSucceed ctx plan zoneId recordsetId w zone view copies) :
    let deleted := deviceDeletes view.name zone.name plan w.device.rrs copies
    ∃ w', deleteRecordset ctx conf plan zoneId recordsetId w =
        (deletionVerdict copies deleted, w') ∧
      w'.db = if deleted = copies then (w.db.droppedAll deleted).withoutRecordset recordsetId
        else w.db.droppedAll deleted := by
  intro deleted
  obtain ⟨s, hs, hin⟩ := h.recordsetFound
  have hid : s.id = recordsetId := (Table.find_mem hs).2.1
  have hzone : getZone ctx zoneId w = (.ok zone, w) := by rw [getZone, read_apply, h.zoneFound]
  have hrecordset := getRecordset_found hwf hs
  -- the checks before the loop all pass
  have hmanaged : ((RecordSet.ofRow s ((w.db.recordsOf recordsetId).map Record.ofRow)).managed &&
      !ctx.editManagedRecords) = false := by
    cases hm : (RecordSet.ofRow s ((w.db.recordsOf recordsetId).map Record.ofRow)).managed with
    | false => rfl
    | true =>
      obtain ⟨record, hrecord, hmarked⟩ := List.any_eq_true.mp hm
      obtain ⟨r, hr, rfl⟩ := List.mem_map.mp hrecord
      have : r.managed = true := Option.some.inj (eq_of_beq hmarked)
      simp [h.managed ⟨r, hr, this⟩]
  have hplaced : decide (zone.id ≠
      (RecordSet.ofRow s ((w.db.recordsOf recordsetId).map Record.ofRow)).zoneId) = false := by
    simp [RecordSet.ofRow, hin]
  have hstays : refuseDeletingZone zone w = (.ok (), w) :=
    raiseIf_of_not (by simp [h.stays]) _ _
  have hrid : (RecordSet.ofRow s ((w.db.recordsOf recordsetId).map Record.ofRow)).id = recordsetId :=
    hid
  generalize RecordSet.ofRow s ((w.db.recordsOf recordsetId).map Record.ofRow) = recordset at *
  have hids : ((w.db.recordsOf recordsetId).map RecordRow.id).Nodup :=
    hwf.recordIds.sublist (List.Sublist.map _ List.filter_sublist)
  obtain ⟨w₁, hloop, hdb⟩ := deleteAll_run conf recordset h.onlyDevice h.viewFound hids
    (fun r hr => findRecordRow_of_mem hwf hs hr) h.copied h.apart
  have hverdict := raiseUnlessAll_verdict (w := w₁)
    (deviceDeletes_sublist view.name zone.name plan w.device.rrs copies)
  unfold deleteRecordset
  rw [bind_ok hzone, bind_ok hrecordset, seq_ok (raiseIf_of_not hplaced _ _), seq_ok hstays,
    seq_ok (raiseIf_of_not hmanaged _ _), bind_ok (hwf.findRecords_eq hs), bind_ok hloop,
    h.copied.length_eq]
  change ∃ w', (raiseUnlessAll deleted.length copies.length >>= _) w₁ = _ ∧ _
  by_cases hall : deleted = copies
  · -- the recordset row is still there, with no records below it
    have hs₁ : findRecordsetRow ctx recordsetId w₁.db = .ok s := by
      rw [hdb, droppedAll_eq]
      exact hs
    have hgone : deleteRecordsetRow ctx recordset.id w₁ =
        (.ok (), w₁.withDb (w₁.db.withoutRecordset recordsetId)) := by
      rw [hrid]
      simp only [deleteRecordsetRow, write, hs₁]
      rfl
    have hok : deletionVerdict copies deleted = .ok () := if_pos hall
    rw [if_pos hall, hok]
    refine ⟨_, (seq_ok (hverdict.trans (Prod.ext hok rfl))).trans hgone, ?_⟩
    rw [World.withDb_db, hdb]
  · obtain ⟨e, he⟩ : ∃ e, deletionVerdict copies deleted = .error e := by
      unfold deletionVerdict
      rw [if_neg hall]
      split
      · exact ⟨_, rfl⟩
      · exact ⟨_, rfl⟩
    rw [if_neg hall, he]
    exact ⟨w₁, bind_error (hverdict.trans (Prod.ext he rfl)), hdb⟩

/-- Nothing is left of a recordset whose records had `copies`. -/
structure RecordsetGone (recordsetId : Nat) (copies : List (RecordAssociation × ZdnsRecord))
    (db : Db) : Prop where
  recordset : ∀ s ∈ db.recordsets, s.id ≠ recordsetId
  records : db.recordsOf recordsetId = []
  associations : ∀ a ∈ db.recordAssociations, ∀ c ∈ copies, a.recordId ≠ c.1.recordId
  zdnsRecords : ∀ z ∈ db.zdnsRecords, ∀ c ∈ copies, z.id ≠ c.1.zdnsRecordId

theorem recordsetGone_of_dropped (db : Db) (recordsetId : Nat)
    (copies : List (RecordAssociation × ZdnsRecord)) :
    RecordsetGone recordsetId copies ((db.droppedAll copies).withoutRecordset recordsetId) where
  recordset s hs := (Table.mem_remove.mp hs).2
  records := by
    unfold Db.recordsOf
    rw [List.filter_eq_nil_iff]
    intro r hr
    simpa using (Table.mem_remove.mp hr).2
  associations a ha c hc he := by
    rw [droppedAll_eq] at ha
    have := of_decide_eq_true (List.mem_filter.mp ha).2
    exact this (List.mem_map.mpr ⟨c, hc, he.symm⟩)
  zdnsRecords z hz c hc he := by
    rw [droppedAll_eq] at hz
    have := of_decide_eq_true (List.mem_filter.mp hz).2
    exact this (List.mem_map.mpr ⟨c, hc, he.symm⟩)

/--
**How `delete_recordset` ends.** It returns if and only if the device deletes every
record, and then nothing is left of the recordset; otherwise the recordset stays,
with the records that the device has not deleted, as they were.
-/
theorem deleteRecordset_outcome (conf : Conf) {zoneId recordsetId : Nat} (hwf : w.Wf)
    (h : OthersSucceed ctx plan zoneId recordsetId w zone view copies) :
    let deleted := deviceDeletes view.name zone.name plan w.device.rrs copies
    ∃ w', deleteRecordset ctx conf plan zoneId recordsetId w =
        (deletionVerdict copies deleted, w') ∧
      (deletionVerdict copies deleted = .ok () ↔ deleted = copies) ∧
      (deleted = copies → RecordsetGone recordsetId copies w'.db) ∧
      (deleted ≠ copies → w'.db.recordsets = w.db.recordsets ∧
        w'.db.recordsOf recordsetId =
          (w.db.recordsOf recordsetId).filter fun r => r.id ∉ deleted.map fun c => c.1.recordId) := by
  intro deleted
  -- the turns are over; what is left is the verdict and the row of the recordset
  obtain ⟨w', hrun, hdb⟩ := deleteRecordset_run conf hwf h
  refine ⟨w', hrun, ?_, fun hall => ?_, fun hnot => ?_⟩
  · unfold deletionVerdict
    by_cases hall : deleted = copies
    · simp [hall]
    · by_cases hnone : deleted = []
      · simp [hnone]
      · simp [hall, hnone]
  · rw [if_pos hall] at hdb
    have hall' : deviceDeletes view.name zone.name plan w.device.rrs copies = copies := hall
    rw [hdb, hall']
    exact recordsetGone_of_dropped w.db recordsetId copies
  · rw [if_neg hnot] at hdb
    rw [hdb, droppedAll_recordsOf]
    exact ⟨by rw [droppedAll_eq], rfl⟩

/-- The device refuses the second of the two deletions. -/
def Sample.secondRefused : Nat → Faults := fun n s => n == 1 && s == .device

/-- What is stored behind the two records of `www`. -/
def Sample.wwwCopies : List (RecordAssociation × ZdnsRecord) :=
  [(⟨5, 8⟩, Sample.zdnsRecord 8 Sample.wwwRow "192.0.2.1"),
    (⟨6, 9⟩, Sample.zdnsRecord 9 Sample.wwwRow "192.0.2.2")]

theorem secondRefused_othersSucceed :
    OthersSucceed Sample.ctx Sample.secondRefused 2 3 Sample.world Sample.zone Sample.view
      Sample.wwwCopies where
  onlyDevice n s h := by
    unfold Sample.secondRefused at h
    simp only [Bool.and_eq_true, beq_iff_eq] at h
    exact h.2
  zoneFound := by rfl
  recordsetFound := ⟨Sample.wwwRow, by rfl, rfl⟩
  stays := by decide
  managed h := by
    obtain ⟨r, hr, hm⟩ := h
    revert hm
    revert r
    decide
  viewFound := by rfl
  copied := .cons ⟨by rfl, by rfl⟩ (.cons ⟨by rfl, by rfl⟩ .nil)
  apart := by decide

theorem deleteRecordset_outcome_sample :
    ∃ w', deleteRecordset Sample.ctx Sample.conf Sample.secondRefused 2 3 Sample.world =
        (.error .PartlyFailed, w') ∧
      w'.db.recordsOf 3 = [Sample.record 6 3 "192.0.2.2"] := by
  obtain ⟨w', hrun, -, -, hleft⟩ :=
    deleteRecordset_outcome Sample.conf sample_wf secondRefused_othersSucceed
  exact ⟨w', hrun, (hleft (by decide)).2⟩

end Designate
