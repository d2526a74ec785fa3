import Designate.Proof.Fate

/-!
# What a turn does that nothing stops

When every step gets through, an entry of an update leaves one record, its
association, its zdns row and its resource record rewritten, added or gone, and
nothing else. The four are described here as the turn leaves them.
-/

namespace Designate

open Exec

variable {ctx : Context} {conf : Conf} {faults : Faults} {zone : Zone} {recordset : RecordSet}
  {record : Record} {w w' : World} {view : View}

/-- The device names a resource record unlike those it has in the same place. -/
def Conf.NamesFresh (conf : Conf) : Prop :=
  ∀ rrs data, ∀ rr ∈ rrs, rr.key ≠ (conf.rrName rrs data, data.view, data.zone)

/-! ## Getting through -/

/-- Nothing stops the worker's action, from the first look-up to the status update. -/
def Through (ctx : Context) (conf : Conf) (faults : Faults) (zone : Zone) (recordset : RecordSet)
    (action : Action) (record : Record) (w : World) : Prop :=
  match action with
  | .CREATE => ∃ view row, CreateAccepted ctx faults zone w view ∧
      CreateBooked ctx conf faults record w.db row
  | .UPDATE => ∃ view z rr row, ChangeAccepted ctx faults zone record w view z rr ∧
      UpdateMirrored ctx conf faults zone recordset w.db ∧
      SettleAccepted ctx conf faults record w.db row
  | .DELETE => ∃ a view z rr row, findRecordAssociation record.id w.db = .ok a ∧
      ChangeAccepted ctx faults zone record w view z rr ∧ DeleteBooked ctx faults a.recordId w.db row
  | .NONE => False

/-- Nothing stops an entry: storage takes a new record, and the worker gets through. -/
def EntryThrough (ctx : Context) (conf : Conf) (faults : Faults) (zone : Zone)
    (recordset : RecordSet) (dealwithNochange : Bool) (p : Record × Entry) (w : World) : Prop :=
  if p.2.op = .create then
    ∃ row, Stores ctx conf zone recordset { p.1 with data := p.1.data.set p.2.data } w.db w.nextId
        row ∧ Through ctx conf faults zone recordset .CREATE (Record.ofRow row) (w.inserted row)
  else
    match p.2.sent p.1 dealwithNochange with
    | some (action, object) => Through ctx conf faults zone recordset action object w
    | none => True

/-- Nothing stops the loop of `do_update`. -/
def EntriesThrough (ctx : Context) (conf : Conf) (zone : Zone) (recordset : RecordSet)
    (dealwithNochange : Bool) : (Nat → Faults) → List (Record × Entry) → World → Prop
  | _, [], _ => True
  | plan, p :: entries, w =>
    EntryThrough ctx conf (plan 0) zone recordset dealwithNochange p w ∧
      EntriesThrough ctx conf zone recordset dealwithNochange (fun n => plan (n + 1)) entries
        (applyEntry ctx conf (plan 0) zone recordset dealwithNochange p.1 p.2 w).2

/-- The object sent for a stored record when only the ttl changes. -/
def RecordRow.resent (row : RecordRow) : Record :=
  { Record.ofRow row with action := (Record.ofRow row).action.set .UPDATE }

/-- Nothing stops the loop of `update_recordset` over the stored records. -/
def RowsThrough (ctx : Context) (conf : Conf) (zone : Zone) (recordset : RecordSet) :
    (Nat → Faults) → List RecordRow → World → Prop
  | _, [], _ => True
  | plan, row :: rows, w =>
    Through ctx conf (plan 0) zone recordset .UPDATE row.resent w ∧
      RowsThrough ctx conf zone recordset (fun n => plan (n + 1)) rows
        (recordAction ctx conf (plan 0) zone row.resent .UPDATE recordset w).2

/-! ## What changes -/

/-- What an UPDATE leaves, of the record row `row` with the copies `z` and `rr`. -/
structure UpdateLeaves (ctx : Context) (conf : Conf) (zone : Zone) (recordset : RecordSet)
    (record : Record) (view : View) (row : RecordRow) (a : RecordAssociation) (z : ZdnsRecord)
    (rr : RR) (w w' : World) : Prop where
  rowFound : findRecordRow ctx record.id w.db = .ok row
  associated : findRecordAssociation (some row.id) w.db = .ok a
  mirrored : findZdnsRecord a.zdnsRecordId w.db = .ok z
  onDevice : Device.find view.name zone.name z.rrId w.device = .ok rr
  placed : ∃ s, Table.find RecordSetRow.id recordset.id (fun r => ctx.sees r.tenantId)
    Exc.RecordSetNotFound w.db.recordsets = .ok s
  hashFree : w.db.hashTaken (writtenRow conf record.settle row) = false
  db : w'.db = (w.db.updated recordset (z.updated conf w.device.rrs rr record recordset)).settled conf
    record row
  rrs : w'.device.rrs = Table.update RR.key rr.key
    (fun _ => rr.updated conf w.device.rrs recordset.ttlValue record.text) w.device.rrs
  zones : w'.device.zones = w.device.zones
  nextId : w'.nextId = w.nextId

/-- What a DELETE leaves. -/
structure DeleteLeaves (ctx : Context) (zone : Zone) (record : Record) (view : View)
    (row : RecordRow) (a : RecordAssociation) (z : ZdnsRecord) (rr : RR) (w w' : World) :
    Prop where
  rowFound : findRecordRow ctx record.id w.db = .ok row
  associated : findRecordAssociation (some row.id) w.db = .ok a
  mirrored : findZdnsRecord a.zdnsRecordId w.db = .ok z
  onDevice : Device.find view.name zone.name z.rrId w.device = .ok rr
  db : w'.db = w.db.dropped row.id a.zdnsRecordId
  rrs : w'.device.rrs = Table.remove RR.key rr.key w.device.rrs
  zones : w'.device.zones = w.device.zones
  nextId : w'.nextId = w.nextId

namespace UpdateLeaves

variable {row : RecordRow} {a : RecordAssociation} {z : ZdnsRecord} {rr : RR}

theorem records (h : UpdateLeaves ctx conf zone recordset record view row a z rr w w') :
    w'.db.records =
      Table.update RecordRow.id row.id (fun _ => writtenRow conf record.settle row) w.db.records := by
  rw [h.db]; rfl

theorem associations (h : UpdateLeaves ctx conf zone recordset record view row a z rr w w') :
    w'.db.recordAssociations = w.db.recordAssociations := by rw [h.db]; rfl

theorem zdnsRecords (h : UpdateLeaves ctx conf zone recordset record view row a z rr w w') :
    w'.db.zdnsRecords = Table.update ZdnsRecord.id z.id
      (fun _ => z.updated conf w.device.rrs rr record recordset) w.db.zdnsRecords := by
  rw [h.db]; rfl

theorem recordsets (h : UpdateLeaves ctx conf zone recordset record view row a z rr w w') :
    w'.db.recordsets = (w.db.withRecordset recordset).recordsets := by rw [h.db]; rfl

theorem views (h : UpdateLeaves ctx conf zone recordset record view row a z rr w w') :
    w'.db.views = w.db.views := by rw [h.db]; rfl

theorem zdnsRecord_id (h : UpdateLeaves ctx conf zone recordset record view row a z rr w w') :
    z.id = a.zdnsRecordId := findZdnsRecord_id h.mirrored

/-- The resource record is below the view and the zone of the request. -/
theorem rr_key (h : UpdateLeaves ctx conf zone recordset record view row a z rr w w') :
    rr ∈ w.device.rrs ∧ rr.key = (z.rrId, view.name, zone.name) :=
  ⟨(Table.find_mem h.onDevice).1, (Table.find_mem h.onDevice).2.1⟩

theorem fresh (h : UpdateLeaves ctx conf zone recordset record view row a z rr w w')
    (hfresh : w.Fresh) : w'.Fresh := by
  refine Fresh.shrink hfresh ?_ (by rw [h.associations]; exact List.Subset.refl _) ?_
    (Nat.le_of_eq h.nextId.symm)
  · rw [h.records]
    exact withRecord_ids_subset w.db (writtenRow conf record.settle row)
  · rw [h.zdnsRecords]
    exact withZdnsRecord_ids_subset w.db (z.updated conf w.device.rrs rr record recordset)

end UpdateLeaves

namespace DeleteLeaves

variable {row : RecordRow} {a : RecordAssociation} {z : ZdnsRecord} {rr : RR}

theorem records (h : DeleteLeaves ctx zone record view row a z rr w w') :
    w'.db.records = Table.remove RecordRow.id row.id w.db.records := by rw [h.db]; rfl

theorem associations (h : DeleteLeaves ctx zone record view row a z rr w w') :
    w'.db.recordAssociations =
      Table.remove RecordAssociation.recordId row.id w.db.recordAssociations := by rw [h.db]; rfl

theorem zdnsRecords (h : DeleteLeaves ctx zone record view row a z rr w w') :
    w'.db.zdnsRecords = Table.remove ZdnsRecord.id a.zdnsRecordId w.db.zdnsRecords := by
  rw [h.db]; rfl

theorem recordsets (h : DeleteLeaves ctx zone record view row a z rr w w') :
    w'.db.recordsets = w.db.recordsets := by rw [h.db]; rfl

theorem views (h : DeleteLeaves ctx zone record view row a z rr w w') :
    w'.db.views = w.db.views := by rw [h.db]; rfl

theorem fresh (h : DeleteLeaves ctx zone record view row a z rr w w') (hfresh : w.Fresh) :
    w'.Fresh := by
  refine Fresh.shrink hfresh ?_ ?_ ?_ (Nat.le_of_eq h.nextId.symm)
  · rw [h.records]; exact remove_map_subset _
  · rw [h.associations]; exact List.filter_subset_self _
  · rw [h.zdnsRecords]; exact remove_map_subset _

end DeleteLeaves

/-- **An UPDATE that nothing stops.** -/
theorem update_through (h : Through ctx conf faults zone recordset .UPDATE record w)
    (hv : findView ctx zone.viewId w.db = .ok view) :
    ∃ r w' row a z rr,
      recordAction ctx conf faults zone record .UPDATE recordset w = (.ok (some r), w') ∧
      UpdateLeaves ctx conf zone recordset record view row a z rr w w' := by
  obtain ⟨v, z, rr, row, hacc, hm, hs⟩ := h
  obtain rfl : v = view := Except.ok.inj ((viewOf_eq_ok.mp hacc.1).2.symm.trans hv)
  obtain ⟨-, -, a, ha, hz⟩ := mirrorOf_eq_ok.mp hacc.2.1
  have hid := (findRecordRow_mem hs.2.1).2.1
  exact ⟨_, _, row, a, z, rr, recordAction_update_booked hacc hm hs, hs.2.1, hid ▸ ha, hz, hacc.2.2.2,
    hm.1.2.2.2, hs.2.2, rfl, rfl, rfl, rfl⟩

/-- **A DELETE that nothing stops.** -/
theorem delete_through (h : Through ctx conf faults zone recordset .DELETE record w)
    (hv : findView ctx zone.viewId w.db = .ok view) :
    ∃ r w' row a z rr,
      recordAction ctx conf faults zone record .DELETE recordset w = (.ok (some r), w') ∧
      DeleteLeaves ctx zone record view row a z rr w w' := by
  obtain ⟨a, v, z, rr, row, ha, hacc, hb⟩ := h
  obtain rfl : v = view := Except.ok.inj ((viewOf_eq_ok.mp hacc.1).2.symm.trans hv)
  obtain ⟨-, -, a', ha', hz⟩ := mirrorOf_eq_ok.mp hacc.2.1
  obtain rfl : a' = a := Except.ok.inj (ha'.symm.trans ha)
  have hid := findRecordAssociation_id ha
  have hrow : row.id = a'.recordId := by
    have := (findRecordRow_mem hb.2.2.2).2.1
    exact (Option.some.inj this).symm
  refine ⟨_, _, row, a', z, rr, recordAction_delete_booked ha hacc hb, hid ▸ hb.2.2.2, ?_, hz,
    hacc.2.2.2, ?_, rfl, rfl, rfl⟩
  · rw [hrow, ← hid]; exact ha
  · rw [hrow]; rfl

/-- **A new record that nothing stops.** -/
theorem create_through {row : RecordRow} (hfresh : w.Fresh)
    (hstores : Stores ctx conf zone recordset record w.db w.nextId row)
    (h : Through ctx conf faults zone recordset .CREATE (Record.ofRow row) (w.inserted row))
    (hv : findView ctx zone.viewId w.db = .ok view) :
    ∃ r, createOne ctx conf faults zone recordset record w =
      (.ok (Record.ofRow row, some r), w.createdOne conf view zone recordset row) := by
  obtain ⟨v, row', hacc, h₁, h₂, h₃, -⟩ := h
  obtain rfl : v = view := Except.ok.inj ((viewOf_eq_ok.mp hacc.1).2.symm.trans hv)
  have hok : createRecordInStorage ctx conf zone recordset record w =
      (.ok (Record.ofRow row), w.inserted row) := by
    rcases createRecordInStorage_cases ctx conf zone recordset record w with
      ⟨e, w₁, -, -, -, -, -, hnot⟩ | ⟨row'', hs, hok⟩
    · exact absurd hstores (hnot row)
    · obtain ⟨-, z, hz, hr, -⟩ := hstores
      obtain ⟨-, z', hz', hr', -⟩ := hs
      obtain rfl : z = z' := Except.ok.inj (hz.symm.trans hz')
      obtain rfl : row = row'' := Option.some.inj (hr.symm.trans hr')
      exact hok
  exact ⟨_, createOne_applied hfresh h₁ h₂ h₃ hacc hstores hok⟩

/-! ## Whole entries -/

/-- An UPDATE is sent for the entry. -/
def Entry.Updates (dealwithNochange : Bool) (entry : Entry) : Prop :=
  entry.op = .update ∨ entry.op = .nochange ∧ dealwithNochange = true

/-- What an entry leaves that nothing stops. -/
inductive EntryLeaves (ctx : Context) (conf : Conf) (zone : Zone) (recordset : RecordSet)
    (dealwithNochange : Bool) (view : View) (p : Record × Entry) (w : World) : World → Prop
  | kept (op : p.2.op = .nochange) (unsent : dealwithNochange = false) :
    EntryLeaves ctx conf zone recordset dealwithNochange view p w w
  | created (row : RecordRow) (op : p.2.op = .create)
    (stores : Stores ctx conf zone recordset { p.1 with data := p.1.data.set p.2.data } w.db w.nextId
      row) :
    EntryLeaves ctx conf zone recordset dealwithNochange view p w
      (w.createdOne conf view zone recordset row)
  | updated {w' : World} (row : RecordRow) (a : RecordAssociation) (z : ZdnsRecord) (rr : RR)
    (op : p.2.op = .update ∨ p.2.op = .nochange ∧ dealwithNochange = true)
    (leaves : UpdateLeaves ctx conf zone recordset (p.2.updateObject p.1) view row a z rr w w') :
    EntryLeaves ctx conf zone recordset dealwithNochange view p w w'
  | deleted {w' : World} (row : RecordRow) (a : RecordAssociation) (z : ZdnsRecord) (rr : RR)
    (op : p.2.op = .delete)
    (leaves : DeleteLeaves ctx zone (p.2.deleteObject p.1) view row a z rr w w') :
    EntryLeaves ctx conf zone recordset dealwithNochange view p w w'

/-- **An entry that nothing stops counts, and leaves what it should.** -/
theorem entry_through {dealwithNochange : Bool} {p : Record × Entry} (hfresh : w.Fresh)
    (h : EntryThrough ctx conf faults zone recordset dealwithNochange p w)
    (hv : findView ctx zone.viewId w.db = .ok view) :
    ∃ w', applyEntry ctx conf faults zone recordset dealwithNochange p.1 p.2 w = (.ok true, w') ∧
      EntryLeaves ctx conf zone recordset dealwithNochange view p w w' := by
  unfold EntryThrough at h
  by_cases hop : p.2.op = .create
  · rw [if_pos hop] at h
    obtain ⟨row, hstores, hthrough⟩ := h
    obtain ⟨r, hrun⟩ := create_through hfresh hstores hthrough hv
    rw [applyEntry_create hop]
    exact ⟨_, bind_ok hrun, .created row hop hstores⟩
  · rw [if_neg hop] at h
    cases hs : p.2.sent p.1 dealwithNochange with
    | none =>
      rw [applyEntry_kept hop hs]
      -- only an entry without a change may be sent nothing
      have hkept : p.2.op = .nochange ∧ dealwithNochange = false := by
        unfold Entry.sent at hs
        cases hop' : p.2.op <;> rw [hop'] at hs hop
        · exact absurd rfl hop
        · exact absurd hs (by simp)
        · cases dealwithNochange with
          | true => exact absurd hs (by simp)
          | false => exact ⟨rfl, rfl⟩
        · exact absurd hs (by simp)
      exact ⟨w, rfl, .kept hkept.1 hkept.2⟩
    | some pair =>
      obtain ⟨action, object⟩ := pair
      rw [hs] at h
      rw [applyEntry_sent hs]
      unfold Entry.sent at hs
      -- what is left is sent: an update, an update for want of a change, or a deletion
      cases hop' : p.2.op with
      | create => exact absurd hop' hop
      | update =>
        rw [hop'] at hs
        obtain ⟨rfl, rfl⟩ := Prod.mk.inj (Option.some.inj hs)
        obtain ⟨r, w', row, a, z, rr, hrun, hl⟩ := update_through h hv
        exact ⟨w', bind_ok hrun, .updated row a z rr (Or.inl hop') hl⟩
      | nochange =>
        rw [hop'] at hs
        cases hd : dealwithNochange with
        | false => rw [hd] at hs; exact absurd hs (by simp)
        | true =>
          rw [hd] at hs
          obtain ⟨rfl, rfl⟩ := Prod.mk.inj (Option.some.inj hs)
          obtain ⟨r, w', row, a, z, rr, hrun, hl⟩ := update_through h hv
          exact ⟨w', bind_ok hrun, .updated row a z rr (Or.inr ⟨hop', rfl⟩) hl⟩
      | delete =>
        rw [hop'] at hs
        obtain ⟨rfl, rfl⟩ := Prod.mk.inj (Option.some.inj hs)
        obtain ⟨r, w', row, a, z, rr, hrun, hl⟩ := delete_through h hv
        exact ⟨w', bind_ok hrun, .deleted row a z rr hop' hl⟩

namespace EntryLeaves

variable {dealwithNochange : Bool} {p : Record × Entry}

theorem views (h : EntryLeaves ctx conf zone recordset dealwithNochange view p w w') :
    w'.db.views = w.db.views := by
  cases h with
  | kept => rfl
  | created => rfl
  | updated _ _ _ _ _ hl => exact hl.views
  | deleted _ _ _ _ _ hl => exact hl.views

theorem fresh (h : EntryLeaves ctx conf zone recordset dealwithNochange view p w w')
    (hfresh : w.Fresh) : w'.Fresh := by
  cases h with
  | kept => exact hfresh
  | created row _ hs => exact fresh_createdOne hfresh hs.inserted
  | updated _ _ _ _ _ hl => exact hl.fresh hfresh
  | deleted _ _ _ _ _ hl => exact hl.fresh hfresh

end EntryLeaves

/-- A turn that counts, and the rest of the loop. -/
theorem applyEntries_cons {dealwithNochange : Bool} {plan : Nat → Faults} {p : Record × Entry}
    {entries : List (Record × Entry)} {b : Bool}
    (h : applyEntry ctx conf (plan 0) zone recordset dealwithNochange p.1 p.2 w = (.ok b, w')) :
    (applyEntries ctx conf zone recordset dealwithNochange plan (p :: entries) w).2 =
      (applyEntries ctx conf zone recordset dealwithNochange (fun n => plan (n + 1)) entries w').2 := by
  rw [applyEntries, bind_ok h, bind_pure_snd]

theorem findView_congr {id : Option Nat} {db db' : Db} (h : db'.views = db.views) :
    findView ctx id db' = findView ctx id db := by
  unfold findView
  rw [h]

/-! ## The whole request -/

/-- After the guards, the state is that of the loop. -/
theorem doUpdate_state {plan : Nat → Faults} {dealwithNochange : Bool}
    {entries : List (Record × Entry)} (hlist : doUpdateGuard ctx recordset w = (.ok entries, w)) :
    (doUpdate ctx conf plan zone recordset dealwithNochange w).2 =
      (applyEntries ctx conf zone recordset dealwithNochange plan entries w).2 := by
  unfold doUpdate
  rw [bind_ok hlist]
  exact Keeps.after (I := (· = _)) rfl fun _ => Keeps.bind raiseUnlessAll_keeps fun _ =>
    Keeps.bind centralGetRecordset_keeps fun _ => Keeps.bind (Keeps.read _) fun _ => Keeps.pure _

/-- The state an accepted request ends in is that of one of the two loops. -/
theorem updateRecordset_state {plan : Nat → Faults} {stored : RecordSetRow} {ttlChanged : Bool}
    {entries : List (Record × Entry)} (hwf : w.Wf)
    (hacc : Accepted ctx recordset w zone stored ttlChanged entries) :
    (updateRecordset ctx conf plan recordset w).2 =
      if entries = [] then
        (updateAll ctx conf zone recordset plan (w.db.recordsOf recordset.id) w).2
      else (applyEntries ctx conf zone recordset ttlChanged plan entries w).2 := by
  unfold updateRecordset
  cases hacc with
  | ttlOnly hguard hguarded hempty =>
    rw [bind_ok hguard]
    simp only [hempty, List.isEmpty_nil, if_true]
    rw [bind_ok (hwf.findRecords_eq hguarded.storedFound)]
    exact Keeps.after (I := (· = _)) rfl fun _ => Keeps.bind raiseUnlessAll_keeps fun _ =>
      Keeps.bind centralGetRecordset_keeps fun _ => Keeps.pure _
  | entries hguard hguarded hne hlist =>
    have hentries : entries ≠ [] := by
      rintro rfl
      obtain ⟨-, -, hf⟩ := doUpdateGuard_ok hlist
      exact hne (by simpa using (formatValidate_spec hf).1.symm)
    rw [bind_ok hguard, if_neg hentries]
    simp only [List.isEmpty_iff, hne, if_false]
    rw [← doUpdate_state hlist]
    exact bind_pure_snd

/-- Nothing stops the request once its guards have let it through. -/
def RequestThrough (ctx : Context) (conf : Conf) (zone : Zone) (recordset : RecordSet)
    (ttlChanged : Bool) (plan : Nat → Faults) (entries : List (Record × Entry)) (w : World) : Prop :=
  if entries = [] then RowsThrough ctx conf zone recordset plan (w.db.recordsOf recordset.id) w
  else EntriesThrough ctx conf zone recordset ttlChanged plan entries w

/-! ## At the sample -/

/-- The default device counts on. -/
theorem namesFresh_default : Sample.conf.NamesFresh := by
  intro rrs data rr hm he
  have hle : ∀ (l : List RR), rr ∈ l → rr.id.number ≤ l.foldr (fun rr n => max rr.id.number n) 0 := by
    intro l hl
    induction l with
    | nil => exact absurd hl List.not_mem_nil
    | cons a l ih =>
      rcases List.mem_cons.mp hl with rfl | hl
      · exact Nat.le_max_left _ _
      · exact Nat.le_trans (ih hl) (Nat.le_max_right _ _)
  have hid : rr.id = .handle (rrs.foldr (fun rr n => max rr.id.number n) 0) :=
    congrArg Prod.fst he
  have hnumber := hle rrs hm
  rw [hid] at hnumber
  simp only [RRId.number] at hnumber
  omega

/-- A stored recordset with a new ttl, and records as a request carries them. -/
def Sample.renewed (row : RecordSetRow) (ttl : Nat) (records : List Record) : RecordSet :=
  { RecordSet.ofRow row records with ttl := (Tracked.loaded row.ttl).set (some ttl) }

end Designate
