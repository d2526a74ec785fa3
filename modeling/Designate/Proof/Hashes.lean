import Mathlib.Data.Set.Function
import Designate.Proof.Honest
import Designate.Proof.Reachable

/-!
# The hashes of the records

A record's hash is made from its recordset and its data, and the column is unique: so
no recordset holds the same data twice, and different recordsets never get into each
other's way. Storage computes the hash from the object it is given. An object that was
read from a row carries the row's recordset; an object that a request made out of the
text of an entry carries none.
-/

namespace Designate

open Exec

variable {ctx : Context} {conf : Conf} {zone : Zone} {recordset : RecordSet} {record : Record}
  {w : World} {row : RecordRow}

/-- The hash of the row is that of its recordset and its data. -/
def RecordRow.Hashed (conf : Conf) (r : RecordRow) : Prop := r.hash = hashOf conf r.recordsetId r.data

/-- Every record has its hash, and no two have the same. -/
structure World.Hashed (conf : Conf) (w : World) : Prop where
  linked : w.Linked
  hashed : ∀ r ∈ w.db.records, r.Hashed conf
  /-- The unique constraint. -/
  unique : (w.db.records.map RecordRow.hash).Nodup

/-! ## Writing a row -/

/-- An object that knows the recordset of the row it is written to gives it its hash. -/
theorem writtenRow_hashed (hrow : row.Hashed conf) (hs : record.recordsetId.changed = false)
    (hid : record.recordsetId.value = some row.recordsetId)
    (hhash : (record.hash.set (hashOf conf row.recordsetId record.text)).write row.hash =
      hashOf conf row.recordsetId record.text)
    (hdata : record.data.write row.data = record.text) :
    (writtenRow conf record row).Hashed conf := by
  have hnew : recalculateRecordHash conf record = hashOf conf row.recordsetId record.text := by
    rw [recalculateRecordHash, recordsetIdText, hid]; rfl
  have htext : (writtenRow conf record row).data = record.text := writtenRow_data.trans hdata
  rw [RecordRow.Hashed, writtenRow_recordsetId hs, htext]
  have hcol : (writtenRow conf record row).hash = (record.rehash conf).hash.write row.hash := rfl
  rw [hcol, Record.rehash]
  split
  · rw [hnew]
    exact hhash
  · rename_i hch
    have hkeep : record.data.changed = false ∧ record.hash.changed = false := by
      simp only [Record.whatChanged, Bool.or_eq_true, not_or, Bool.not_eq_true] at hch
      exact ⟨hch.1.1.1.1.1.2, hch.1.1.1.1.2⟩
    have hsame : record.text = row.data := by
      rw [← hdata, Tracked.write, hkeep.1]; rfl
    rw [Tracked.write, hkeep.2, hsame]
    exact hrow

theorem World.Hashed.write (h : w.Hashed conf) (hr : findRecordRow ctx record.id w.db = .ok row)
    (hz : record.zoneId.changed = false) (hs : record.recordsetId.changed = false)
    (hfree : w.db.hashTaken (writtenRow conf record row) = false)
    (hnew : (writtenRow conf record row).Hashed conf) :
    (w.withDb (w.db.withRecord (writtenRow conf record row))).Hashed conf := by
  obtain ⟨hm, -, -⟩ := findRecordRow_mem hr
  refine ⟨h.linked.write hr ⟨hz, hs⟩, fun r hr' => ?_, ?_⟩
  · rcases Table.mem_update.mp hr' with ⟨hr', -⟩ | ⟨-, -, -, rfl⟩
    · exact h.hashed r hr'
    · exact hnew
  · have hother : ∀ r ∈ w.db.records, r.id ≠ row.id →
        r.hash ≠ (writtenRow conf record row).hash := by
      intro r hr' hne he
      have : w.db.hashTaken (writtenRow conf record row) = true :=
        List.any_eq_true.mpr ⟨r, hr', by simp [hne, he]⟩
      exact absurd (this.symm.trans hfree) (by simp)
    exact Table.update_nodup (a := row) h.linked.recordIds h.unique hm hother

/-! ## Steadiness -/

/-- **The hashes are steady.** -/
theorem hashed_steady (ctx : Context) (conf : Conf) :
    Steady ctx conf .all (World.Hashed conf) where
  linked h := h.linked
  still hs h := ⟨(linked_steady ctx conf).still hs h.linked, by rw [hs.records]; exact h.hashed,
    by rw [hs.records]; exact h.unique⟩
  insertZone h hid hz := ⟨(linked_steady ctx conf).insertZone h.linked hid hz, h.hashed, h.unique⟩
  updateZone id h hf := ⟨(linked_steady ctx conf).updateZone id h.linked hf, h.hashed, h.unique⟩
  insertRecordset h hid ht hz :=
    ⟨(linked_steady ctx conf).insertRecordset h.linked hid ht hz, h.hashed, h.unique⟩
  deleteRecordset h hs := ⟨(linked_steady ctx conf).deleteRecordset h.linked hs,
    fun r hr => h.hashed r (Table.mem_remove.mp hr).1,
    h.unique.sublist (List.Sublist.map _ List.filter_sublist)⟩
  insert {w zone recordset record row} h hp hstores := by
    have hrow := hstores.inserted
    refine ⟨(linked_steady ctx conf).insert h.linked hp hstores, fun r hr => ?_,
      Table.append_nodup h.unique hrow.hashFree⟩
    rcases List.mem_append.mp hr with hr | hr
    · exact h.hashed r hr
    · rw [List.mem_singleton.mp hr, RecordRow.Hashed, hrow.hash, hrow.recordsetId]
  write {w record row} h hr hf hfree := by
    have hm := (findRecordRow_mem hr).1
    refine h.write hr (by rw [hf.zoneId]; rfl) (by rw [hf.recordsetId]; rfl) hfree ?_
    have htext : record.text = row.data := by rw [Record.text, hf.data]; rfl
    refine writtenRow_hashed (h.hashed row hm) (by rw [hf.recordsetId]; rfl)
      (by rw [hf.recordsetId]; rfl) ?_ (by rw [hf.data, htext]; rfl)
    -- the data stays, and with it the hash
    rw [htext, ← h.hashed row hm]
    exact set_write_same _ _
  drop h hr := ⟨(linked_steady ctx conf).drop h.linked hr,
    fun r hr => h.hashed r (Table.mem_remove.mp hr).1,
    h.unique.sublist (List.Sublist.map _ List.filter_sublist)⟩

/-! ## The entries of an update -/

/-- The worker's update of `record` gets as far as writing over `row`. -/
def UpdateSettles (ctx : Context) (conf : Conf) (faults : Faults) (zone : Zone)
    (recordset : RecordSet) (record : Record) (w : World) (row : RecordRow) : Prop :=
  (∃ view z rr, ChangeAccepted ctx faults zone record w view z rr) ∧
    UpdateMirrored ctx conf faults zone recordset w.db ∧
    SettleAccepted ctx conf faults record w.db row

theorem World.Still.trans {w w' w'' : World} (h : World.Still w w') (h' : World.Still w' w'') :
    World.Still w w'' :=
  ⟨h'.records.trans h.records, h'.recordsets.trans h.recordsets, h'.zones.trans h.zones,
    Nat.le_trans h.nextId h'.nextId⟩

/-- The `except` branch of an UPDATE reports, and changes nothing else. -/
theorem IgnoresQuiet.updateHandler {faults : Faults} {I : World → Prop} (hq : IgnoresQuiet I) :
    Keeps I (RecordAction.handler ctx conf faults record .UPDATE) :=
  Keeps.bind (Keeps.modify fun w hw => hq w _ ⟨rfl, rfl, rfl, rfl, Nat.le_refl _⟩ hw) fun _ =>
    Keeps.bind (Keeps.raiseIf _ _) fun _ => Keeps.bind findRecordById_keeps fun _ => Keeps.pure _

/-- What follows the device call of an UPDATE, for a steady invariant that survives the row. -/
theorem Steady.updateRest {scope : Scope} {I : World → Prop} (hI : Steady ctx conf scope I)
    {faults : Faults} {response : RRId} {z z' : ZdnsRecord}
    (hz : findZdnsRecord z.id w.db = .ok z') (hw : I w)
    (hwrite : ∀ row, UpdateMirrored ctx conf faults zone recordset w.db →
      SettleAccepted ctx conf faults record w.db row → ∀ w', World.Still w w' →
        I (w'.withDb (w'.db.withRecord (writtenRow conf record.settle row)))) :
    I (RecordAction.updateRest ctx conf faults zone record recordset response z w).2 := by
  have hupdated : World.Still w ((w.report ⟨record.id, .UPDATE, .SUCCESS⟩).withDb
      (w.db.updated recordset { z with rrId := response })) :=
    ⟨rfl, Table.map_update fun _ _ _ => rfl, rfl, Nat.le_refl _⟩
  -- has the mirror been written, and can the row be settled? only then the row is written
  by_cases hm : UpdateMirrored ctx conf faults zone recordset w.db
  · by_cases hs : ∃ row, SettleAccepted ctx conf faults record w.db row
    · obtain ⟨row, hs⟩ := hs
      rw [updateRest_booked hz hm hs]
      exact hwrite row hm hs _ hupdated
    · obtain ⟨e, he⟩ := updateRest_unsettled response hz hm fun row h => hs ⟨row, h⟩
      rw [he]
      exact hI.still hupdated hw
  · obtain ⟨e, db, he, hdb⟩ := updateRest_unmirrored record response (z := z) hm
    rw [he]
    rcases hdb with rfl | rfl
    · exact hw
    · have hstill : World.Still w (w.withDb (w.db.withRecordset recordset)) :=
        ⟨rfl, Table.map_update fun _ _ _ => rfl, rfl, Nat.le_refl _⟩
      exact hI.still hstill hw

/-- An update keeps a steady invariant if the one row it writes does, whatever fails. -/
theorem Steady.recordActionUpdate {scope : Scope} {I : World → Prop}
    (hI : Steady ctx conf scope I) (faults : Faults) (hw : I w)
    (hwrite : ∀ row, UpdateSettles ctx conf faults zone recordset record w row →
      ∀ w', World.Still w w' →
        I (w'.withDb (w'.db.withRecord (writtenRow conf record.settle row)))) :
    I (recordAction ctx conf faults zone record .UPDATE recordset w).2 := by
  by_cases ha : ∃ view z rr, ChangeAccepted ctx faults zone record w view z rr
  · obtain ⟨view, z, rr, h⟩ := ha
    refine saga_ends (fun e s₁ he => ?_) (fun r g s₁ hr => ?_) hI.quiet.updateHandler
    · rw [updateCall_accepted h] at he
      exact absurd he (by simp)
    · rw [updateCall_accepted h] at hr
      obtain ⟨hrg, rfl⟩ := Prod.mk.inj hr
      obtain ⟨rfl, rfl⟩ := Prod.mk.inj (Except.ok.inj hrg)
      -- the device is changed first, which is no matter of the tables
      have hstill : World.Still w (w.changed conf rr record recordset) :=
        ⟨rfl, rfl, rfl, Nat.le_refl _⟩
      refine hI.updateRest (w := w.changed conf rr record recordset) h.zdnsRecord
        (hI.still hstill hw) fun row hm hs w' hw' => ?_
      exact hwrite row ⟨⟨view, z, rr, h⟩, hm, hs⟩ w' (hstill.trans hw')
  · obtain ⟨e, w', he, hsame, hn⟩ := updateCall_refused conf recordset
      fun view z rr h => ha ⟨view, z, rr, h⟩
    have hstill : World.Still w w' :=
      ⟨by rw [hsame.db], by rw [hsame.db], by rw [hsame.db], Nat.le_of_eq hn.symm⟩
    refine saga_ends (fun e' s₁ he' => ?_) (fun r g s₁ hr => ?_) hI.quiet.updateHandler
    · obtain rfl : w' = s₁ := (Prod.mk.inj (he.symm.trans he')).2
      exact hI.still hstill hw
    · exact absurd (he.symm.trans hr) (by simp)

/-- An update over a row only happens from an object that knows the recordset of the row. -/
def Turn.Carried (ctx : Context) (conf : Conf) (zone : Zone) (recordset : RecordSet)
    (dealwithNochange : Bool) (t : Turn) : Prop :=
  ∀ object row, t.entry.2.sent t.entry.1 dealwithNochange = some (.UPDATE, object) →
    UpdateSettles ctx conf t.faults zone recordset object t.before row →
    object.recordsetId.value = some row.recordsetId

/-- The texts that are hashed. -/
def hashTexts : Set String := {s | ∃ id data, s = Text.uuidText id ++ ":" ++ data}

theorem hashOf_inj (hmd5 : Set.InjOn conf.md5 hashTexts) {a b : Nat} {s t : String}
    (h : hashOf conf a s = hashOf conf b t) : a = b ∧ s = t :=
  Text.uuidText_append_inj (hmd5 ⟨a, s, rfl⟩ ⟨b, t, rfl⟩ h)

/-- The data of an entry is not the text that carries it. -/
theorem Entry.data_ne_text {text : String} {entry : Entry} (h : Entry.ofText text = some entry) :
    entry.data ≠ text := by
  intro he
  have hsplit := (Entry.ofText_spec h).1
  have hmem : text ∈ Text.split text ';' := by rw [hsplit, ← he]; simp
  have hlen := Text.length_split text ';'
  rw [hsplit, Text.count, List.count_eq_zero.mpr (Text.not_mem_split hmem)] at hlen
  exact absurd hlen (by simp)

/-- The object of an entry comes from a record of the recordset, with its hash, or is new. -/
structure EntryHashed (conf : Conf) (recordset : RecordSet) (p : Record × Entry) : Prop where
  object : (∃ row, p.1 = Record.ofRow row ∧ row.recordsetId = recordset.id ∧ row.Hashed conf) ∨
    ∃ text, p.1 = Record.new text
  data : p.2.data ≠ p.1.text

/-- The row an update entry leaves, if its object knows the recordset of the row. -/
theorem EntryHashed.written {p : Record × Entry} (h : EntryHashed conf recordset p)
    (hmd5 : Set.InjOn conf.md5 hashTexts) (hrow : row.Hashed conf)
    (hid : p.1.recordsetId.value = some row.recordsetId) :
    (writtenRow conf (p.2.updateObject p.1).settle row).Hashed conf := by
  rcases h.object with ⟨row₀, he, hs, hrow₀⟩ | ⟨text, he⟩
  · rw [he] at hid
    have hsame : row₀.recordsetId = row.recordsetId := Option.some.inj hid
    have hdata : row₀.data ≠ p.2.data := by
      have := h.data
      rw [he] at this
      exact fun e => this e.symm
    refine writtenRow_hashed hrow (by rw [he]; rfl) (by rw [he]; exact hid) ?_ ?_
    · -- the object's hash is that of other data of the recordset
      refine Tracked.set_write_of_ne (fun hv => hdata ?_) _
      rw [he] at hv
      have hv : row₀.hash = hashOf conf row.recordsetId p.2.data := Option.some.inj hv
      exact (hashOf_inj hmd5 (hrow₀.symm.trans hv)).2
    · rw [he]
      exact Tracked.set_write_of_ne (fun hv => hdata (Option.some.inj hv)) _
  · rw [he] at hid
    exact absurd hid (by simp [Record.new])

section

variable {dealwithNochange : Bool} {p : Record × Entry}

/-- One turn of the loop. -/
theorem applyEntry_hashed (faults : Faults) (hmd5 : Set.InjOn conf.md5 hashTexts)
    (hp : EntryHashed conf recordset p) (hw : w.Hashed conf) (hplaced : Placed zone.id recordset.id w)
    {after : World}
    (hcarried : Turn.Carried ctx conf zone recordset dealwithNochange ⟨faults, p, w, after⟩) :
    (applyEntry ctx conf faults zone recordset dealwithNochange p.1 p.2 w).2.Hashed conf ∧
      Placed zone.id recordset.id
        (applyEntry ctx conf faults zone recordset dealwithNochange p.1 p.2 w).2 := by
  have hI := hashed_steady ctx conf
  by_cases hop : p.2.op = .create
  · rw [applyEntry_create hop]
    exact Keeps.bind (hI.createOne faults zone recordset _) (fun _ => Keeps.pure _) w ⟨hw, hplaced⟩
  · cases hs : p.2.sent p.1 dealwithNochange with
    | none => rw [applyEntry_kept hop hs]; exact ⟨hw, hplaced⟩
    | some pair =>
      obtain ⟨action, object⟩ := pair
      rw [applyEntry_sent hs]
      -- an object of an entry leaves the row in its recordset and zone
      have hstays : object.Stays := by
        rcases (Entry.sent_cases hs).2 with ⟨-, rfl⟩ | ⟨-, rfl⟩ <;>
          rcases hp.object with ⟨row, he, -, -⟩ | ⟨text, he⟩ <;> rw [he] <;> exact ⟨rfl, rfl⟩
      have hkept : KeptBy ctx conf action object
          fun w => w.Linked ∧ Placed zone.id recordset.id w :=
        (linked_keptBy action hstays).placed _ _
      have hlinks : Keeps (fun w => w.Linked ∧ Placed zone.id recordset.id w)
          (recordAction ctx conf faults zone object action recordset) := hkept.recordAction
      rw [bind_pure_snd]
      refine ⟨?_, (hlinks w ⟨hw.linked, hplaced⟩).2⟩
      rcases (Entry.sent_cases hs).2 with ⟨rfl, rfl⟩ | ⟨rfl, -⟩
      · refine hI.recordActionUpdate faults hw fun row hsettles w' hstill => ?_
        obtain ⟨-, hr, hfree⟩ := hsettles.2.2
        have hknows := hcarried _ row hs hsettles
        have hw' := hI.still hstill hw
        have hr' : findRecordRow ctx (p.2.updateObject p.1).settle.id w'.db = .ok row := by
          rw [findRecordRow_congr hstill.records]; exact hr
        refine hw'.write hr' hstays.1 hstays.2 ?_
          (hp.written hmd5 (hw.hashed row (findRecordRow_mem hr).1) hknows)
        rw [Db.hashTaken, hstill.records]
        exact hfree
      · -- a deletion writes nothing, and drops a row
        have hdelete : KeptBy ctx conf .DELETE object (World.Hashed conf) :=
          { quiet := hI.quiet
            ask := fun {w} h => by
              have hstill : World.Still w (w.asked ⟨.DELETE, object.id⟩) :=
                ⟨rfl, rfl, rfl, Nat.le_refl _⟩
              exact hI.still hstill h
            write := fun h => absurd rfl h
            drop := fun h hr => hI.drop h hr }
        exact hdelete.recordAction w hw

/-- **The loop keeps the hashes** if each of its turns is carried. By induction on the entries. -/
theorem applyEntries_hashed {entries : List (Record × Entry)} (plan : Nat → Faults)
    (hmd5 : Set.InjOn conf.md5 hashTexts) (hentries : ∀ p ∈ entries, EntryHashed conf recordset p)
    (hw : w.Hashed conf) (hplaced : Placed zone.id recordset.id w)
    (hcarried : ∀ t ∈ turns ctx conf zone recordset dealwithNochange plan entries w,
      t.Carried ctx conf zone recordset dealwithNochange) :
    (applyEntries ctx conf zone recordset dealwithNochange plan entries w).2.Hashed conf := by
  induction entries generalizing plan w with
  | nil => exact hw
  | cons p entries ih =>
    unfold applyEntries
    rw [turns] at hcarried
    -- the first turn keeps the hashes, whether it raises or not
    cases hrun : applyEntry ctx conf (plan 0) zone recordset dealwithNochange p.1 p.2 w with
    | mk res w₁ =>
      rw [hrun] at hcarried
      cases res with
      | error e =>
        have h := applyEntry_hashed (plan 0) hmd5 (hentries p List.mem_cons_self) hw hplaced
          (hcarried _ (List.mem_singleton_self _))
        rw [hrun] at h
        rw [bind_error hrun]
        exact h.1
      | ok done =>
        have h := applyEntry_hashed (plan 0) hmd5 (hentries p List.mem_cons_self) hw hplaced
          (hcarried _ List.mem_cons_self)
        rw [hrun] at h
        rw [bind_ok hrun, bind_pure_snd]
        exact ih (fun n => plan (n + 1)) (fun q hq => hentries q (List.mem_cons_of_mem _ hq)) h.1
          h.2 fun t ht => hcarried t (List.mem_cons_of_mem _ ht)

end

/-! ## Runs -/

/-- Whatever the request has its loop update is carried. -/
def Input.Carries (conf : Conf) (input : Input) (w : World) : Prop :=
  ∀ plan zone recordset ttlChanged entries,
    input.request.Loops input.ctx w plan zone recordset ttlChanged entries →
    ∀ t ∈ turns input.ctx conf zone recordset ttlChanged plan entries w,
      t.Carried input.ctx conf zone recordset ttlChanged

/-- The entries of a request that gets as far as its loop. -/
theorem Request.Loops.hashed {request : Request} {plan : Nat → Faults} {ttlChanged : Bool}
    {entries : List (Record × Entry)} (hw : w.Hashed conf)
    (h : request.Loops ctx w plan zone recordset ttlChanged entries) {p : Record × Entry}
    (hp : p ∈ entries) : EntryHashed conf recordset p where
  object := by
    rcases h.entry hp with ⟨row, hrow, he⟩ | he
    · obtain ⟨hm, hs⟩ := mem_recordsOf.mp hrow
      exact Or.inl ⟨row, he, hs, hw.hashed row hm⟩
    · exact Or.inr he
  data := by
    cases request with
    | updateRecordset plan' zoneId recordsetId ttl description texts =>
      obtain ⟨-, stored, -, -, -, hlist⟩ := h
      obtain ⟨-, -, hvalid⟩ := doUpdateGuard_ok hlist
      exact Entry.data_ne_text ((formatValidate_spec hvalid).2 p hp)
    | _ => exact h.elim

/-- New data for a record that was read: the row gets the hash of the data. -/
theorem rewriting_hashed (hrow : row.Hashed conf) (text : String) (serial : Nat) :
    (writtenRow conf (row.rewriting text serial) row).Hashed conf := by
  refine writtenRow_hashed hrow rfl rfl ?_ ?_
  · exact Tracked.set_loaded_write _ _
  · exact Tracked.set_loaded_write _ _

/-- A request keeps the hashes if the updates it makes are carried. -/
theorem serve_hashed {input : Input} (hmd5 : Set.InjOn conf.md5 hashTexts) (hw : w.Hashed conf)
    (hcarries : input.Carries conf w) : (serve conf input w).Hashed conf := by
  have hI := hashed_steady input.ctx conf
  refine serve_keeps hI (fun w row text serial h hr hfree => ?_) (fun f hf => hf)
    (fun _ => trivial) ?_ hw fun plan zone recordset ttlChanged entries hloops => ?_
  · have hs : (row.rewriting text serial).Stays := ⟨rfl, rfl⟩
    exact h.write hr hs.1 hs.2 hfree
      (rewriting_hashed (h.hashed row (findRecordRow_mem hr).1) text serial)
  · cases input.request <;> exact by simp [Request.Typed, Scope.all]
  · exact applyEntries_hashed plan hmd5 (fun p hp => hloops.hashed hw hp) hw hloops.placed
      (hcarries plan zone recordset ttlChanged entries hloops)

/-- The hashes say which data of which recordset a record is. -/
structure World.Told (conf : Conf) (w : World) : Prop where
  hash : ∀ r ∈ w.db.records, r.hash = hashOf conf r.recordsetId r.data
  /-- Equal hashes mean the same data in the same recordset. -/
  same : ∀ r ∈ w.db.records, ∀ s ∈ w.db.records, r.hash = s.hash →
    r.recordsetId = s.recordsetId ∧ r.data = s.data
  /-- No recordset holds the same data twice. -/
  once : (w.db.records.map fun r => (r.recordsetId, r.data)).Nodup

theorem World.Hashed.told (hmd5 : Set.InjOn conf.md5 hashTexts) (h : w.Hashed conf) :
    w.Told conf where
  hash := h.hashed
  same r hr s hs he := hashOf_inj hmd5 (by rw [← h.hashed r hr, he, h.hashed s hs])
  once := by
    have hmap : w.db.records.map RecordRow.hash =
        (w.db.records.map fun r => (r.recordsetId, r.data)).map fun p => hashOf conf p.1 p.2 := by
      rw [List.map_map]
      exact List.map_congr_left fun r hr => h.hashed r hr
    exact List.Nodup.of_map _ (hmap ▸ h.unique)

/--
**Hashes along a run.** From hashed tables, if every update that gets as far as writing
a row is made from an object that knows the recordset of the row, then before every
request and at the end each hash is that of the recordset and the data, and tells the
records apart.
-/
theorem run_told (conf : Conf) (hmd5 : Set.InjOn conf.md5 hashTexts) (inputs : List Input)
    (w : World) (hw : w.Hashed conf)
    (hcarries : ∀ t ∈ Run.transitions (serve conf) inputs w, t.input.Carries conf t.before) :
    (∀ t ∈ Run.transitions (serve conf) inputs w, t.before.Told conf) ∧
      (Run.final (serve conf) inputs w).Told conf := by
  obtain ⟨hbefore, hfinal⟩ := Run.invariant (I := World.Hashed conf)
    (G := fun (input : Input) w => input.Carries conf w)
    (fun _ _ h hc => serve_hashed hmd5 h hc) hw hcarries
  exact ⟨fun t ht => (hbefore t ht).told hmd5, hfinal.told hmd5⟩

/-! ## At the sample -/

theorem sample_hashed : Sample.world.Hashed Sample.conf where
  linked := sample_linked
  hashed := by unfold RecordRow.Hashed; decide +kernel
  unique := by decide +kernel

/-- A recordset of two records, created at the sample. -/
def Sample.creation : Input :=
  ⟨Sample.ctx, .createRecordset (fun _ => Faults.none) 2 "ftp.example.com." .A (some 300) none
    ["192.0.2.1", "192.0.2.4"]⟩

/-- A new record of `www` in the place of its second one. -/
def Sample.replacementTexts : List String :=
  ["nochange;" ++ Text.uuidText 5 ++ ";192.0.2.1", "delete;" ++ Text.uuidText 6 ++ ";192.0.2.2",
    "create;;192.0.2.9"]

def Sample.replacement : Input :=
  ⟨Sample.ctx, .updateRecordset (fun _ => Faults.none) 2 3 (some 300) none Sample.replacementTexts⟩

/-- The replacement writes over no row: it leaves one, drops one and inserts one. -/
theorem replacement_carries (w : World)
    (hw : w = serve Sample.conf Sample.creation Sample.world) :
    Sample.replacement.Carries Sample.conf w := by
  intro plan zone recordset ttlChanged entries hloops t ht object row hsent
  obtain ⟨-, stored, hstored, rfl, hguard, hlist⟩ := hloops
  have hloop := loopOf_eq (fun stored => parseRecordset stored (some 300) none
    Sample.replacementTexts) hstored hguard hlist
  have hnone : ∀ loop ∈ loopOf Sample.ctx (serve Sample.conf Sample.creation Sample.world) 2 3
      (fun stored => parseRecordset stored (some 300) none Sample.replacementTexts),
      ∀ p ∈ loop.2.2.2, (p.2.sent p.1 loop.2.2.1).map Prod.fst ≠ some .UPDATE := by
    decide +kernel
  have hentry := hnone _ (hw ▸ hloop) t.entry (turns_entry ht)
  rw [hsent] at hentry
  exact absurd rfl hentry

theorem run_told_sample :
    (∀ t ∈ Run.transitions (serve Sample.conf) [Sample.creation, Sample.replacement] Sample.world,
      t.before.Told Sample.conf) ∧
      (Run.final (serve Sample.conf) [Sample.creation, Sample.replacement] Sample.world).Told
        Sample.conf :=
  run_told Sample.conf Function.injective_id.injOn [Sample.creation, Sample.replacement] Sample.world
    sample_hashed fun t ht => by
      rcases List.mem_pair.mp ht with rfl | rfl
      · intro plan zone recordset ttlChanged entries hloops
        exact hloops.elim
      · dsimp only
        exact replacement_carries _ rfl

/-- New data for the first record of `www`, the other one unchanged. -/
def Sample.renewal : Input :=
  ⟨Sample.ctx, .updateRecordset (fun _ => Faults.none) 2 3 (some 300) none
    ["update;" ++ Text.uuidText 5 ++ ";192.0.2.9", "nochange;" ++ Text.uuidText 6 ++ ";192.0.2.2"]⟩

/-- The record has its new data, under a hash made without its recordset. -/
theorem renewed_untold :
    Sample.world.Told Sample.conf ∧ ¬ (serve Sample.conf Sample.renewal Sample.world).Told Sample.conf := by
  refine ⟨sample_hashed.told Function.injective_id.injOn, fun h => ?_⟩
  have hrow : { Sample.record 5 3 "192.0.2.9" with hash := "None:192.0.2.9" } ∈
      (serve Sample.conf Sample.renewal Sample.world).db.records := by decide +kernel
  have hhash := h.hash _ hrow
  exact absurd hhash (by decide +kernel)

end Designate
