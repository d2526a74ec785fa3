import Designate.Central.RecordSets
import Designate.Proof.Wf
import Designate.Sample

/-!
# Accepted entry lists

What the guards of `update_recordset` establish about the list of entries and
the tables, before the first entry is applied.
-/

namespace Designate

open Exec

variable {ctx : Context} {recordset : RecordSet} {w w' : World}

/-! ## One entry -/

/-- The word an operation is written with. -/
def EntryOp.word : EntryOp → String
  | .create => "create"
  | .update => "update"
  | .nochange => "nochange"
  | .delete => "delete"

/-- A valid entry is `op;id;data`, without an id if it creates, with data if it deletes. -/
theorem Entry.ofText_spec {text : String} {e : Entry} (h : Entry.ofText text = some e) :
    Text.split text ';' = [e.op.word, e.id, e.data] ∧ (e.op = .create → e.id = "") ∧
      (e.op = .delete → e.data ≠ "") := by
  unfold Entry.ofText at h
  split at h
  · rename_i op id data hsplit
    rw [hsplit]
    split at h
    · split at h
      · obtain rfl := Option.some.inj h
        simp_all [EntryOp.word]
      · exact absurd h (by simp)
    split at h
    · obtain rfl := Option.some.inj h
      simp_all [EntryOp.word]
    split at h
    · obtain rfl := Option.some.inj h
      simp_all [EntryOp.word]
    split at h
    · split at h
      · exact absurd h (by simp)
      · obtain rfl := Option.some.inj h
        simp_all [EntryOp.word]
    · exact absurd h (by simp)
  · exact absurd h (by simp)

theorem Entry.ofText_isCreate {record : Record} {e : Entry} (h : Entry.ofText record.text = some e) :
    isCreate record = decide (e.op = .create) := by
  unfold isCreate
  rw [(Entry.ofText_spec h).1, List.head?_cons]
  cases e.op <;> rfl

/-- The object sent to the worker for an entry that changes a record, with the action. -/
def Entry.sent (entry : Entry) (record : Record) (dealwithNochange : Bool) :
    Option (Action × Record) :=
  match entry.op with
  | .create => none
  | .update => some (.UPDATE, entry.updateObject record)
  | .nochange => if dealwithNochange then some (.UPDATE, entry.updateObject record) else none
  | .delete => some (.DELETE, entry.deleteObject record)

section

variable {conf : Conf} {faults : Faults} {zone : Zone} {dealwithNochange : Bool} {record : Record}
  {entry : Entry}

theorem applyEntry_create (hop : entry.op = .create) :
    applyEntry ctx conf faults zone recordset dealwithNochange record entry = (do
      let (_, response) ← createOne ctx conf faults zone recordset
        { record with data := record.data.set entry.data }
      pure response.isSome) := by
  unfold applyEntry
  rw [hop]

theorem applyEntry_sent {action : Action} {object : Record}
    (h : entry.sent record dealwithNochange = some (action, object)) :
    applyEntry ctx conf faults zone recordset dealwithNochange record entry = (do
      let response ← recordAction ctx conf faults zone object action recordset
      pure response.isSome) := by
  unfold Entry.sent at h
  unfold applyEntry
  cases hop : entry.op <;> cases hd : dealwithNochange <;>
    simp only [hop, hd, if_true, if_false, Bool.false_eq_true, reduceCtorEq, Option.some.injEq,
      Prod.mk.injEq] at h <;>
    (obtain ⟨rfl, rfl⟩ := h; rfl)

theorem applyEntry_kept (hop : entry.op ≠ .create)
    (h : entry.sent record dealwithNochange = none) :
    applyEntry ctx conf faults zone recordset dealwithNochange record entry = pure true := by
  unfold Entry.sent at h
  unfold applyEntry
  cases hc : entry.op with
  | create => exact absurd hc hop
  | update => rw [hc] at h; exact absurd h (by simp)
  | delete => rw [hc] at h; exact absurd h (by simp)
  | nochange =>
    cases hd : dealwithNochange with
    | true => rw [hc, hd] at h; exact absurd h (by simp)
    | false => rfl

/-- What is sent is the object of an `UPDATE` or of a `DELETE`. -/
theorem Entry.sent_cases {action : Action} {object : Record}
    (h : entry.sent record dealwithNochange = some (action, object)) :
    entry.op ≠ .create ∧ (action = .UPDATE ∧ object = entry.updateObject record ∨
      action = .DELETE ∧ object = entry.deleteObject record) := by
  unfold Entry.sent at h
  cases hop : entry.op <;> cases hd : dealwithNochange <;>
    simp only [hop, hd, if_true, if_false, Bool.false_eq_true, reduceCtorEq, Option.some.injEq,
      Prod.mk.injEq] at h <;>
    (obtain ⟨rfl, rfl⟩ := h; simp)

end

/-! ## The list -/

theorem formatValidate_cons {record : Record} {records : List Record}
    {entries : List (Record × Entry)} (h : formatValidate (record :: records) = some entries) :
    ∃ e rest, Entry.ofText record.text = some e ∧ formatValidate records = some rest ∧
      entries = (record, e) :: rest := by
  unfold formatValidate at h
  split at h
  · rename_i e rest he hrest
    exact ⟨e, rest, he, hrest, (Option.some.inj h).symm⟩
  · exact absurd h (by simp)

/-- A valid list keeps its record objects, each next to the entry it carries. -/
theorem formatValidate_spec {records : List Record} {entries : List (Record × Entry)}
    (h : formatValidate records = some entries) :
    entries.map Prod.fst = records ∧ ∀ p ∈ entries, Entry.ofText p.1.text = some p.2 := by
  induction records generalizing entries with
  | nil =>
    obtain rfl := Option.some.inj h
    exact ⟨rfl, by simp⟩
  | cons record records ih =>
    obtain ⟨e, rest, he, hrest, rfl⟩ := formatValidate_cons h
    obtain ⟨hmap, hall⟩ := ih hrest
    refine ⟨by rw [List.map_cons, hmap], fun p hp => ?_⟩
    rcases List.mem_cons.mp hp with rfl | hp
    · exact he
    · exact hall p hp

/-- The entries that create. -/
def creates (entries : List (Record × Entry)) : Nat :=
  entries.countP fun p => p.2.op = .create

theorem countP_isCreate {records : List Record} {entries : List (Record × Entry)}
    (h : formatValidate records = some entries) : records.countP isCreate = creates entries := by
  obtain ⟨hmap, hall⟩ := formatValidate_spec h
  rw [← hmap, List.countP_map]
  refine List.countP_congr fun p hp => ?_
  rw [Function.comp_apply, Entry.ofText_isCreate (hall p hp)]

/-- The identifiers the entries other than `create` name. -/
def namedIds (entries : List (Record × Entry)) : List (Option Nat) :=
  (entries.filter fun p => p.2.op ≠ .create).map fun p => Text.uuidOfText p.2.id

theorem length_namedIds (entries : List (Record × Entry)) :
    (namedIds entries).length + creates entries = entries.length := by
  induction entries with
  | nil => rfl
  | cons p entries ih =>
    unfold namedIds creates at *
    by_cases hp : p.2.op = .create
    · simp [hp] at ih ⊢; omega
    · simp [hp] at ih ⊢; omega

/-! ## The guards -/

theorem doUpdateGuard_ok {entries : List (Record × Entry)}
    (h : doUpdateGuard ctx recordset w = (.ok entries, w')) :
    w' = w ∧ countMatches ctx recordset w.db = true ∧
      formatValidate recordset.records = some entries := by
  unfold doUpdateGuard check at h
  obtain ⟨u, hc, h⟩ := of_read_bind h
  cases hc' : countMatches ctx recordset w.db with
  | false => exact absurd hc (by simp [hc'])
  | true =>
    cases hf : formatValidate recordset.records with
    | none => rw [hf] at h; exact absurd h (by simp)
    | some es =>
      rw [hf] at h
      obtain ⟨hes, rfl⟩ := Prod.mk.inj h
      exact ⟨rfl, rfl, by rw [Except.ok.inj hes]⟩

/-- As many entries other than `create` as records the request counts. -/
theorem doUpdateGuard_count {entries : List (Record × Entry)}
    (h : doUpdateGuard ctx recordset w = (.ok entries, w')) :
    (namedIds entries).length = countRecords ctx (fun r => r.recordsetId == recordset.id) w.db := by
  obtain ⟨-, hc, hf⟩ := doUpdateGuard_ok h
  have hlen : recordset.records.length = entries.length := by
    rw [← (formatValidate_spec hf).1, List.length_map]
  have hcreates := countP_isCreate hf
  have := length_namedIds entries
  have hcount := eq_of_beq hc
  omega

/-- What a request has seen of the zone and the recordset when the guards let it through. -/
structure Guarded (ctx : Context) (recordset : RecordSet) (db : Db) (zone : Zone)
    (stored : RecordSetRow) (ttlChanged : Bool) : Prop where
  zoneFound : findZone ctx recordset.zoneId db = .ok zone
  notDeleting : zone.action ≠ .DELETE
  storedFound : findRecordsetRow ctx recordset.id db = .ok stored
  ttlChanged_eq : ttlChanged = decide (recordset.ttlValue ≠ stored.ttl)

theorem updateRecordsetGuard_ok {zone : Zone} {ttlChanged : Bool}
    (h : updateRecordsetGuard ctx recordset w = (.ok (zone, ttlChanged), w')) :
    w' = w ∧ ∃ stored, Guarded ctx recordset w.db zone stored ttlChanged := by
  unfold updateRecordsetGuard getZone refuseDeletingZone getRecordset at h
  obtain ⟨z, hz, h⟩ := of_read_bind h
  obtain ⟨-, h⟩ := of_raiseIf_bind h
  obtain ⟨-, h⟩ := of_raiseIf_bind h
  obtain ⟨-, h⟩ := of_raiseIf_bind h
  obtain ⟨hdel, h⟩ := of_raiseIf_bind h
  obtain ⟨-, h⟩ := of_raiseIf_bind h
  obtain ⟨rs, hrs, h⟩ := of_read_bind h
  obtain ⟨hres, rfl⟩ := Prod.mk.inj h
  obtain ⟨rfl, rfl⟩ := Prod.mk.inj (Except.ok.inj hres)
  cases hrow : findRecordsetRow ctx recordset.id w.db with
  | error e => rw [hrow] at hrs; exact absurd hrs (by simp [Except.map])
  | ok row =>
    rw [hrow] at hrs
    obtain rfl := Except.ok.inj hrs
    exact ⟨rfl, row, hz, by simpa using hdel, hrow, rfl⟩

/--
The entry list `entries` of the request passes every guard of `update_recordset`. The two forms
of a request share the guard and nothing else, so they are told apart here once.
-/
inductive Accepted (ctx : Context) (recordset : RecordSet) (w : World) (zone : Zone)
    (stored : RecordSetRow) : Bool → List (Record × Entry) → Prop
  /-- No entries: only a new ttl is asked for. -/
  | ttlOnly (guard : updateRecordsetGuard ctx recordset w = (.ok (zone, true), w))
      (guarded : Guarded ctx recordset w.db zone stored true) (empty : recordset.records = []) :
      Accepted ctx recordset w zone stored true []
  | entries {ttlChanged : Bool} {entries : List (Record × Entry)}
      (guard : updateRecordsetGuard ctx recordset w = (.ok (zone, ttlChanged), w))
      (guarded : Guarded ctx recordset w.db zone stored ttlChanged)
      (nonempty : recordset.records ≠ [])
      (list : doUpdateGuard ctx recordset w = (.ok entries, w)) :
      Accepted ctx recordset w zone stored ttlChanged entries

theorem Accepted.guarded {zone : Zone} {stored : RecordSetRow} {ttlChanged : Bool}
    {entries : List (Record × Entry)}
    (h : Accepted ctx recordset w zone stored ttlChanged entries) :
    Guarded ctx recordset w.db zone stored ttlChanged := by
  cases h with
  | ttlOnly _ hguarded _ => exact hguarded
  | entries _ hguarded _ _ => exact hguarded

/-! ## At the sample -/

theorem sample_wf : Sample.world.Wf where
  records := by decide
  associations := by decide
  zdnsRecords := by decide
  zoneIds := by decide
  recordsetIds := by decide
  recordIds := by decide
  recordset := by decide
  zone := by decide

theorem sample_list {entries : List (Record × Entry)}
    (hf : formatValidate (entries.map Prod.fst) = some entries)
    (hc : countMatches Sample.ctx (Sample.www (entries.map Prod.fst)) Sample.world.db = true) :
    doUpdateGuard Sample.ctx (Sample.www (entries.map Prod.fst)) Sample.world =
      (.ok entries, Sample.world) := by
  unfold doUpdateGuard check
  have hcount : (Exec.read fun w => if countMatches Sample.ctx
      (Sample.www (entries.map Prod.fst)) w.db then .ok () else .error .NotEqual : Call Unit)
      Sample.world = (.ok (), Sample.world) := by simp [hc]
  rw [seq_ok hcount]
  simp only [Sample.www, RecordSet.ofRow]
  simp only [hf]
  rfl

theorem sample_guarded (records : List Record) :
    Guarded Sample.ctx (Sample.www records) Sample.world.db Sample.zone Sample.wwwRow false :=
  ⟨rfl, by decide, rfl, rfl⟩

/-- A list for `www` that keeps its ttl is accepted if it counts right and each entry is valid. -/
theorem sample_accepted {entries : List (Record × Entry)} (hne : entries ≠ [])
    (hm : (Sample.www (entries.map Prod.fst)).managed = false)
    (hf : formatValidate (entries.map Prod.fst) = some entries)
    (hc : countMatches Sample.ctx (Sample.www (entries.map Prod.fst)) Sample.world.db = true) :
    Accepted Sample.ctx (Sample.www (entries.map Prod.fst)) Sample.world Sample.zone Sample.wwwRow
      false entries := by
  refine .entries ?_ (sample_guarded _) (by simpa [Sample.www, RecordSet.ofRow] using hne)
    (sample_list hf hc)
  unfold updateRecordsetGuard
  rw [hm]
  rfl

/-- An entry with the record object the request makes of it. -/
def entryOf (op : EntryOp) (id data : String) : Record × Entry :=
  (Record.new (op.word ++ ";" ++ id ++ ";" ++ data), ⟨op, id, data⟩)

end Designate
