import Designate.Proof.Entries
import Designate.Proof.Keeps

/-!
# Which records an update of a recordset touches

The entries of `update_recordset` carry ids, and nothing checks that these are
the ids of the recordset's own records: only their number is compared. When the
ids are the recordset's own and all different, the number makes them all of its
records, and every step stays inside the recordset.
-/

namespace Designate

open Exec

/-- An identifier of a record of the recordset, or one handed out since `w`. -/
def OwnId (recordsetId : Nat) (w : World) (id : Nat) : Prop :=
  (∃ r ∈ w.db.recordsOf recordsetId, r.id = id) ∨ w.nextId ≤ id

/-- Between `w₀` and `w` only the recordset's own records were asked about or changed. -/
structure Framed (recordsetId : Nat) (w₀ w : World) : Prop where
  /-- The rows of all other recordsets are as they were. -/
  others : (w.db.records.filter fun r => r.recordsetId ≠ recordsetId) =
    w₀.db.records.filter fun r => r.recordsetId ≠ recordsetId
  /-- Every new device call is about a record of the recordset. -/
  calls : ∃ new, w.device.calls = w₀.device.calls ++ new ∧
    ∀ c ∈ new, ∃ id, c.recordId = some id ∧ OwnId recordsetId w₀ id
  nextId : w₀.nextId ≤ w.nextId

section

variable {ctx : Context} {conf : Conf} {faults : Faults} {zone : Zone} {record : Record}
  {recordset : RecordSet} {recordsetId : Nat} {w₀ w : World}

theorem Framed.refl : Framed recordsetId w₀ w₀ := ⟨rfl, ⟨[], by simp, by simp⟩, Nat.le_refl _⟩

/-- A row under one of the recordset's own ids is one of its records. -/
theorem Framed.own (h : Framed recordsetId w₀ w) (hwf : w₀.Wf) {id : Nat}
    (hid : OwnId recordsetId w₀ id) {r : RecordRow} (hr : r ∈ w.db.records) (he : r.id = id) :
    r.recordsetId = recordsetId := by
  by_contra hne
  have hmem : r ∈ w₀.db.records.filter fun r => r.recordsetId ≠ recordsetId := by
    rw [← h.others, List.mem_filter]
    exact ⟨hr, by simpa using hne⟩
  have hr₀ := (List.mem_filter.mp hmem).1
  rcases hid with ⟨r', hr', he'⟩ | hnew
  · obtain ⟨hm', hrs'⟩ := mem_recordsOf.mp hr'
    have : r = r' := hwf.record_eq hr₀ hm' (he.trans he'.symm)
    exact hne (this ▸ hrs')
  · have := hwf.records r hr₀
    omega

/-- The object stands for a record of the recordset and does not move it. -/
structure OwnObject (recordsetId : Nat) (w₀ : World) (record : Record) : Prop where
  id : ∃ id, record.id = some id ∧ OwnId recordsetId w₀ id
  stays : record.recordsetId.changed = false

/-- An action for one of the recordset's own records stays inside the recordset. -/
theorem OwnObject.keptBy (hwf : w₀.Wf) {action : Action} (h : OwnObject recordsetId w₀ record) :
    KeptBy ctx conf action record (Framed recordsetId w₀) where
  quiet _ _ hq hw := ⟨by rw [hq.records]; exact hw.others, by rw [hq.calls]; exact hw.calls,
    Nat.le_trans hw.nextId hq.nextId⟩
  ask {w} hw := by
    obtain ⟨new, hnew, hown⟩ := hw.calls
    refine ⟨hw.others, ⟨new ++ [⟨action, record.id⟩], ?_, ?_⟩, hw.nextId⟩
    · rw [World.asked, hnew, List.append_assoc]
    · intro c hc
      rcases List.mem_append.mp hc with hc | hc
      · exact hown c hc
      · rw [List.mem_singleton.mp hc]; exact h.id
  write {w row} _ hw hr hh := by
    obtain ⟨hm, hid, -⟩ := findRecordRow_mem hr
    obtain ⟨id, hid', hown⟩ := h.id
    have he : row.id = id := Option.some.inj (hid.symm.trans hid')
    refine ⟨?_, hw.calls, hw.nextId⟩
    rw [← hw.others]
    refine Table.filter_update fun r hr' hk => ?_
    -- whatever has the identifier is in the recordset, so the rows of the others are not touched
    have hrs : r.recordsetId = recordsetId := hw.own hwf hown hr' (hk.trans he)
    have hrow : row.recordsetId = recordsetId := hw.own hwf hown hm he
    simp only [hrs, ne_eq, decide_not, not_true_eq_false]
    rw [writtenRow_recordsetId (show record.settle.recordsetId.changed = false from h.stays), hrow]
    simp
  drop {w row} hw hr := by
    obtain ⟨hm, hid, -⟩ := findRecordRow_mem hr
    obtain ⟨id, hid', hown⟩ := h.id
    have he : row.id = id := Option.some.inj (hid.symm.trans hid')
    refine ⟨?_, hw.calls, hw.nextId⟩
    rw [← hw.others]
    refine Table.filter_remove fun r hr' hk => ?_
    have hrs : r.recordsetId = recordsetId := hw.own hwf hown hr' (hk.trans he)
    simp [hrs]

/-- Storing a record of the recordset stays inside it, and the new object is its own. -/
theorem Framed.insert (hwf : w₀.Wf) (hw : Framed recordset.id w₀ w) {row : RecordRow}
    (hstores : Stores ctx conf zone recordset record w.db w.nextId row) :
    Framed recordset.id w₀ (w.inserted row) ∧
      KeptBy ctx conf .CREATE (Record.ofRow row) (Framed recordset.id w₀) := by
  have hrow := hstores.inserted
  refine ⟨⟨?_, hw.calls, Nat.le_succ_of_le hw.nextId⟩,
    OwnObject.keptBy hwf ⟨⟨row.id, rfl, Or.inr (hrow.id_eq ▸ hw.nextId)⟩, rfl⟩⟩
  rw [← hw.others]
  simp [World.inserted, Db.withNewRecord, hrow.recordsetId]

/-! ## Entry lists -/

/-- Each stored record of the recordset is named exactly once. -/
def NamesEach (recordsetId : Nat) (entries : List (Record × Entry)) (db : Db) : Prop :=
  (namedIds entries).Perm ((db.recordsOf recordsetId).map fun r => some r.id)

/-- Every name is that of a record of the recordset, and no two are the same. -/
def NamesOwn (recordsetId : Nat) (entries : List (Record × Entry)) (db : Db) : Prop :=
  (∀ id ∈ namedIds entries, ∃ r ∈ db.recordsOf recordsetId, id = some r.id) ∧
    (namedIds entries).Nodup

/-- As many different own names as there are records: each record is named. -/
theorem NamesOwn.each {entries : List (Record × Entry)} (h : NamesOwn recordsetId entries w.db)
    (hlen : (w.db.recordsOf recordsetId).length ≤ (namedIds entries).length) :
    NamesEach recordsetId entries w.db := by
  have hsub : namedIds entries ⊆ (w.db.recordsOf recordsetId).map fun r => some r.id := by
    intro id hid
    obtain ⟨r, hr, rfl⟩ := h.1 id hid
    exact List.mem_map_of_mem hr
  exact (List.subperm_of_subset h.2 hsub).perm_of_length_le (by rw [List.length_map]; exact hlen)

theorem NamesEach.own (hwf : w.Wf) {entries : List (Record × Entry)}
    (h : NamesEach recordsetId entries w.db) : NamesOwn recordsetId entries w.db := by
  refine ⟨fun id hid => ?_, ?_⟩
  · obtain ⟨r, hr, rfl⟩ := List.mem_map.mp (h.mem_iff.mp hid)
    exact ⟨r, hr, rfl⟩
  · rw [h.nodup_iff]
    have hids : ((w.db.recordsOf recordsetId).map RecordRow.id).Nodup :=
      hwf.recordIds.sublist (List.Sublist.map _ List.filter_sublist)
    have := hids.map (f := some) (fun _ _ => Option.some.inj)
    rwa [List.map_map] at this

/-- An entry that names one of the recordset's own records, if it names one at all. -/
def OwnEntry (recordsetId : Nat) (w₀ : World) (p : Record × Entry) : Prop :=
  p.2.op ≠ .create → ∃ r ∈ w₀.db.recordsOf recordsetId, Text.uuidOfText p.2.id = some r.id

theorem NamesOwn.entry {entries : List (Record × Entry)} (h : NamesOwn recordsetId entries w₀.db)
    {p : Record × Entry} (hp : p ∈ entries) : OwnEntry recordsetId w₀ p := by
  intro hop
  refine h.1 _ (List.mem_map.mpr ⟨p, List.mem_filter.mpr ⟨hp, ?_⟩, rfl⟩)
  simpa using hop

/-- One entry stays inside the recordset. -/
theorem OwnEntry.kept (hwf : w₀.Wf) {dealwithNochange : Bool} {p : Record × Entry}
    (hstays : p.1.recordsetId.changed = false) (hown : OwnEntry recordset.id w₀ p) :
    EntryKept ctx conf zone recordset dealwithNochange (Framed recordset.id w₀) p where
  quiet _ _ hq hw := ⟨by rw [hq.records]; exact hw.others, by rw [hq.calls]; exact hw.calls,
    Nat.le_trans hw.nextId hq.nextId⟩
  insert _ _ _ hw hstores := hw.insert hwf hstores
  sent action object hs := by
    obtain ⟨hop, hobj⟩ := Entry.sent_cases hs
    obtain ⟨r, hr, he⟩ := hown hop
    rcases hobj with ⟨-, rfl⟩ | ⟨-, rfl⟩
    · exact OwnObject.keptBy hwf ⟨⟨r.id, he, Or.inl ⟨r, hr, rfl⟩⟩, hstays⟩
    · exact OwnObject.keptBy hwf ⟨⟨r.id, he, Or.inl ⟨r, hr, rfl⟩⟩, hstays⟩

/-- An update of a recordset that names its own records stays inside the recordset. -/
theorem updateRecordset_framed (hwf : w₀.Wf) {stored : RecordSetRow} {ttlChanged : Bool}
    {entries : List (Record × Entry)} (plan : Nat → Faults)
    (hacc : Accepted ctx recordset w₀ zone stored ttlChanged entries)
    (hstays : ∀ record ∈ recordset.records, record.recordsetId.changed = false)
    (hown : NamesOwn recordset.id entries w₀.db) :
    Framed recordset.id w₀ (updateRecordset ctx conf plan recordset w₀).2 := by
  unfold updateRecordset
  cases hacc with
  -- without entries all records of the recordset are sent again, with them those that are named
  | ttlOnly guard guarded empty =>
    rw [bind_ok guard]
    simp only [empty, List.isEmpty_nil, if_true]
    rw [bind_ok (hwf.findRecords_eq guarded.storedFound)]
    have hrow : ∀ row ∈ w₀.db.recordsOf recordset.id, KeptBy ctx conf .UPDATE
        { Record.ofRow row with action := (Record.ofRow row).action.set .UPDATE }
        (Framed recordset.id w₀) :=
      fun row hr => OwnObject.keptBy hwf ⟨⟨row.id, rfl, Or.inl ⟨row, hr, rfl⟩⟩, rfl⟩
    exact Keeps.bind (updateAll_keeps hrow plan) (fun _ =>
      Keeps.bind raiseUnlessAll_keeps fun _ => Keeps.bind centralGetRecordset_keeps fun _ =>
        Keeps.pure _) w₀ .refl
  | entries guard guarded nonempty list =>
    obtain ⟨hmap, -⟩ := formatValidate_spec (doUpdateGuard_ok list).2.2
    rw [bind_ok guard]
    simp only [List.isEmpty_iff, nonempty, if_false]
    rw [bind_pure_snd]
    unfold doUpdate
    rw [bind_ok list]
    refine Keeps.bind (applyEntries_keeps (fun p hp => (hown.entry hp).kept hwf ?_) plan)
      (fun _ => Keeps.bind raiseUnlessAll_keeps fun _ => Keeps.bind centralGetRecordset_keeps
        fun _ => Keeps.bind (Keeps.read _) fun _ => Keeps.pure _) w₀ .refl
    exact hstays p.1 (hmap ▸ List.mem_map_of_mem hp)

/--
**An accepted update touches only its own recordset, and names all of it, exactly
when it names its own records and none twice.** For every failing of the steps
inside. The list without entries is accepted for a new ttl; it names all records
only of a recordset that has none.
-/
theorem updateRecordset_frame_iff (ctx : Context) (conf : Conf) (plan : Nat → Faults)
    (recordset : RecordSet) (w : World) (zone : Zone) (stored : RecordSetRow) (ttlChanged : Bool)
    (entries : List (Record × Entry)) (hwf : w.Wf)
    (hacc : Accepted ctx recordset w zone stored ttlChanged entries)
    (hstays : ∀ record ∈ recordset.records, record.recordsetId.changed = false) :
    (Framed recordset.id w (updateRecordset ctx conf plan recordset w).2 ∧
        NamesEach recordset.id entries w.db) ↔
      NamesOwn recordset.id entries w.db ∧
        (recordset.records = [] → w.db.recordsOf recordset.id = []) := by
  constructor
  · rintro ⟨-, heach⟩
    refine ⟨heach.own hwf, fun hempty => ?_⟩
    cases hacc with
    | ttlOnly guard guarded empty =>
      exact List.map_eq_nil_iff.mp (List.Perm.nil_eq heach).symm
    | entries guard guarded nonempty list => exact absurd hempty nonempty
  · rintro ⟨hown, hempty⟩
    refine ⟨updateRecordset_framed hwf plan hacc hstays hown, hown.each ?_⟩
    cases hacc with
    | ttlOnly guard guarded empty => rw [hempty empty]; exact Nat.zero_le _
    | entries guard guarded nonempty list =>
      have hlen := (doUpdateGuard_count list).trans (hwf.countRecords_eq guarded.storedFound)
      exact Nat.le_of_eq hlen.symm

end

/-! ## At the sample -/

/-- Change the first record of `www` and leave the second. -/
def ownEntries : List (Record × Entry) :=
  [entryOf .update "00000000-0000-0000-0000-000000000005" "192.0.2.7",
   entryOf .nochange "00000000-0000-0000-0000-000000000006" "192.0.2.2"]

instance {recordsetId : Nat} {entries : List (Record × Entry)} {db : Db} :
    Decidable (NamesOwn recordsetId entries db) := inferInstanceAs (Decidable (_ ∧ _))

theorem updateRecordset_frame_iff_sample :
    Framed 3 Sample.world (updateRecordset Sample.ctx Sample.conf (fun _ => Faults.none)
      (Sample.www (ownEntries.map Prod.fst)) Sample.world).2 ∧
      NamesEach 3 ownEntries Sample.world.db :=
  (updateRecordset_frame_iff Sample.ctx Sample.conf _ (Sample.www (ownEntries.map Prod.fst))
    Sample.world _ _ _ ownEntries sample_wf
    (sample_accepted (by simp [ownEntries]) rfl (by decide +kernel) (by decide +kernel))
    (by decide +kernel)).mpr
    ⟨by decide +kernel, by simp [Sample.www, RecordSet.ofRow, ownEntries]⟩

/-- Change a record of another recordset, and leave one record of `www` unnamed. -/
def foreignEntries : List (Record × Entry) :=
  [entryOf .update "00000000-0000-0000-0000-000000000007" "192.0.2.7",
   entryOf .nochange "00000000-0000-0000-0000-000000000006" "192.0.2.2"]

/-- An accepted update of `www` that changes the record of `mail`. -/
theorem updateRecordset_unframed :
    Accepted Sample.ctx (Sample.www (foreignEntries.map Prod.fst)) Sample.world Sample.zone
        Sample.wwwRow false foreignEntries ∧
      ¬ Framed 3 Sample.world (updateRecordset Sample.ctx Sample.conf (fun _ => Faults.none)
        (Sample.www (foreignEntries.map Prod.fst)) Sample.world).2 := by
  refine ⟨sample_accepted (by simp [foreignEntries]) rfl (by decide +kernel) (by decide +kernel),
    fun h => ?_⟩
  exact absurd h.others (by decide +kernel)

end Designate
