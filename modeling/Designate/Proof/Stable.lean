import Designate.Central.RecordSetCalls
import Designate.Proof.Atomic
import Designate.Proof.Honest
import Designate.Proof.Reachable

/-!
# What the worker leaves alone

The worker and its callbacks write rows and take rows away; only central inserts. An
invariant that survives writing and taking away is *stable*. A call then keeps it if
its insertions do, and these are followed one by one: the invariant of a loop may
depend on how many there have been.
-/

namespace Designate

open Exec

variable {ctx : Context} {conf : Conf} {faults : Faults} {zone : Zone} {recordset : RecordSet}
  {record : Record} {w w' : World} {I : World → Prop}

/-- An update from the object neither moves its row nor makes it unmanaged. -/
def Record.Steadfast (record : Record) : Prop :=
  record.Stays ∧ (record.managed.changed = true → record.managed.value = some true)

/-- An invariant that survives what the worker does to records. -/
structure Stable (I : World → Prop) : Prop where
  linked : ∀ {w}, I w → w.Linked
  still : ∀ {w w'}, World.Still w w' → I w → I w'
  write : ∀ {w row} new, I w → row ∈ w.db.records → new.place = row.place →
    (new.managed = false → row.managed = false) → I (w.withDb (w.db.withRecord new))
  drop : ∀ {w} id, I w → I (w.withDb (w.db.withoutRecord id))

/-- `I` survives the removal of a recordset with its records. -/
def Removable (I : World → Prop) : Prop := ∀ w id, I w → I (w.withDb (w.db.withoutRecordset id))

theorem Record.Steadfast.settle (h : record.Steadfast) : record.settle.Steadfast := h

theorem steadfast_ofRow (row : RecordRow) : (Record.ofRow row).Steadfast :=
  ⟨⟨rfl, rfl⟩, fun h => absurd h (by simp [Record.ofRow])⟩

theorem writtenRow_managed (h : record.Steadfast) {row : RecordRow}
    (hm : (writtenRow conf record row).managed = false) : row.managed = false := by
  have hrow : (writtenRow conf record row).managed = record.managed.write row.managed := by
    unfold writtenRow Record.updateRow Record.rehash
    split <;> rfl
  rw [hrow] at hm
  unfold Tracked.write at hm
  split at hm
  · rename_i hc
    rw [h.2 hc] at hm
    exact absurd hm (by simp)
  · exact hm

/-! ## Stable invariants -/

theorem Removable.deleteRecordsetRow (hdel : Removable I) (id : Nat) :
    Keeps I (Designate.deleteRecordsetRow ctx id) := by
  refine Keeps.write fun w a w' hw h => ?_
  cases hs : findRecordsetRow ctx id w.db with
  | error e => rw [hs] at h; exact absurd h (by simp)
  | ok s =>
    rw [hs] at h
    obtain ⟨-, rfl⟩ := Prod.mk.inj (Except.ok.inj h)
    exact hdel w id hw

theorem linked_stable : Stable World.Linked where
  linked h := h
  still hs h := h.of_places (by rw [hs.zones]) hs.recordsets (by rw [hs.records]) hs.nextId
  write {w row} new h hm hp _ := by
    have hid : new.id = row.id := congrArg Prod.fst hp
    have hplaces : (w.db.withRecord new).records.map RecordRow.place =
        w.db.records.map RecordRow.place := by
      refine Table.map_update fun r hr hk => ?_
      rw [Table.eq_of_key h.recordIds hr hm (hk.trans hid), hp]
    refine h.of_places rfl rfl ?_ (Nat.le_refl _)
    rw [World.withDb_db, hplaces]
  drop _ h := h.of_places rfl rfl (List.Sublist.map _ List.filter_sublist) (Nat.le_refl _)

/-- The recordset of a record was there before the next identifier is handed out. -/
theorem World.Linked.recordsetId_lt (h : w.Linked) {r : RecordRow} (hr : r ∈ w.db.records) :
    r.recordsetId < w.nextId := by
  obtain ⟨s, hs, hid, -⟩ := h.recordset r hr
  have hlt := h.recordsets s hs
  omega

theorem bind_check {a b : Check} (h : a.bind (fun _ => b) = .ok ()) : a = .ok () ∧ b = .ok () := by
  cases a with
  | error e => exact absurd h (by simp [Except.bind])
  | ok u => exact ⟨rfl, h⟩

/-- What a recordset has passed that was validated. -/
theorem validateRecordset_ok {recordsetId : Option Nat} {name : String} {type : RRType}
    {ttl : Option Nat} {len : Nat} {db : Db}
    (h : validateRecordset ctx conf zone recordsetId name type ttl len db = .ok ()) :
    isValidRecordsetName conf zone.name name = .ok () ∧
      isValidRecordsetPlacement ctx zone name type recordsetId db = .ok () ∧
      isValidRecordsetPlacementSubzone conf zone name db = .ok () ∧
      isValidRecordsetRecords type len = .ok () := by
  obtain ⟨-, h⟩ := bind_check h
  obtain ⟨hname, h⟩ := bind_check h
  obtain ⟨hplace, h⟩ := bind_check h
  obtain ⟨hsub, hrecords⟩ := bind_check h
  exact ⟨hname, hplace, hsub, hrecords⟩

/-- Storing a recordset hands out identifiers, at most. -/
theorem createRecordsetInStorage_nextId (ctx : Context) (conf : Conf) (zone : Zone)
    (recordset : NewRecordSet) (w : World) :
    w.nextId ≤ (createRecordsetInStorage ctx conf zone recordset w).2.nextId := by
  have hbody : Keeps (fun w' => w.nextId ≤ w'.nextId)
      (createRecordsetInStorage ctx conf zone recordset) := by
    refine Keeps.rollback (Keeps.bind (Keeps.read _) fun _ => Keeps.bind (Keeps.read _) fun _ =>
      fun w' hw' => ?_) fun _ _ _ h => h
    rcases insertRecordset_cases ctx zone.id recordset w' with ⟨e, w₁, he, hn⟩ | ⟨z, s, -, -, hok⟩
    · rw [he]
      exact Nat.le_trans hw' hn
    · rw [hok]
      exact Nat.le_succ_of_le hw'
  exact hbody w (Nat.le_refl _)

/-- No update makes a record one of the kind `p`. -/
def Shrinking (p : RecordRow → Bool) : Prop :=
  ∀ row new : RecordRow, new.place = row.place → (new.managed = false → row.managed = false) →
    p new = true → p row = true

theorem Shrinking.countP_withRecord {p : RecordRow → Bool} (hp : Shrinking p) (h : w.Linked)
    {row new : RecordRow} (hm : row ∈ w.db.records) (hplace : new.place = row.place)
    (hu : new.managed = false → row.managed = false) :
    (w.db.withRecord new).records.countP p ≤ w.db.records.countP p := by
  have hid : new.id = row.id := congrArg Prod.fst hplace
  rw [Db.withRecord, Table.update, List.countP_map]
  refine List.countP_mono_left fun r hr h' => ?_
  rw [Function.comp_apply] at h'
  split at h'
  · rename_i hk
    rw [Table.eq_of_key h.recordIds hr hm (hk.trans hid)]
    exact hp row new hplace hu h'
  · exact h'

namespace Stable

/-- A stable invariant next to another one. -/
theorem and {J : World → Prop} (hI : Stable I) (hJ : Stable J) : Stable fun w => I w ∧ J w where
  linked h := hI.linked h.1
  still hs h := ⟨hI.still hs h.1, hJ.still hs h.2⟩
  write new h hm hp hu := ⟨hI.write new h.1 hm hp hu, hJ.write new h.2 hm hp hu⟩
  drop id h := ⟨hI.drop id h.1, hJ.drop id h.2⟩

/-- What only looks at the zones and at where the recordsets are. -/
theorem of_still {J : World → Prop} (hJ : ∀ w w', w'.db.zones = w.db.zones →
      w'.db.recordsets.map RecordSetRow.place = w.db.recordsets.map RecordSetRow.place →
      J w → J w') : Stable fun w => w.Linked ∧ J w where
  linked h := h.1
  still hs h := ⟨linked_stable.still hs h.1, hJ _ _ hs.zones hs.recordsets h.2⟩
  write {w _} new h hm hp hu := ⟨linked_stable.write new h.1 hm hp hu, hJ w _ rfl rfl h.2⟩
  drop {w} id h := ⟨linked_stable.drop id h.1, hJ w _ rfl rfl h.2⟩

theorem placed (zoneId recordsetId : Nat) :
    Stable fun w => w.Linked ∧ Placed zoneId recordsetId w :=
  of_still fun _ _ _ hs h => h.of_places hs

/-- The zone of a call is found as it was. -/
theorem found (ctx : Context) (zone : Zone) :
    Stable fun w => w.Linked ∧ findZone ctx zone.id w.db = .ok zone :=
  of_still fun _ _ hz _ h => by rw [findZone, hz]; exact h

/-- No more than `k` records of a kind that only shrinks. -/
theorem records_le {p : RecordRow → Bool} (k : Nat) (hp : Shrinking p) :
    Stable fun w => w.Linked ∧ w.db.records.countP p ≤ k where
  linked h := h.1
  still hs h := ⟨linked_stable.still hs h.1, by rw [hs.records]; exact h.2⟩
  write new h hm hplace hu := ⟨linked_stable.write new h.1 hm hplace hu,
    Nat.le_trans (hp.countP_withRecord h.1 hm hplace hu) h.2⟩
  drop id h := ⟨linked_stable.drop id h.1,
    Nat.le_trans (List.Sublist.countP_le List.filter_sublist) h.2⟩

section

variable (hI : Stable I)

include hI

/-- The worker's action for a steadfast object. -/
theorem keptBy (action : Action) (hr : record.Steadfast) : KeptBy ctx conf action record I where
  quiet _ _ hq h := hI.still hq.still h
  ask {w} h := by
    have hstill : World.Still w (w.asked ⟨action, record.id⟩) := ⟨rfl, rfl, rfl, Nat.le_refl _⟩
    exact hI.still hstill h
  write _ h hfound _ := hI.write _ h (findRecordRow_mem hfound).1
    (writtenRow_place hr.1.1 hr.1.2) (writtenRow_managed hr.settle)
  drop h _ := hI.drop _ h

/-- Storing a record and sending it: the invariant has to survive the insertion. -/
theorem createOne (hw : I w) (hinsert : ∀ row,
    Stores ctx conf zone recordset record w.db w.nextId row → I (w.inserted row)) :
    I (createOne ctx conf faults zone recordset record w).2 := by
  unfold Designate.createOne
  rcases createRecordInStorage_cases ctx conf zone recordset record w with
    ⟨e, w', he, hdb, -, hn, -⟩ | ⟨row, hstores, hok⟩
  · rw [bind_error he]
    have hstill : World.Still w w' := ⟨by rw [hdb], by rw [hdb], by rw [hdb], hn⟩
    exact hI.still hstill hw
  · rw [bind_ok hok, bind_pure_snd]
    exact (hI.keptBy .CREATE (steadfast_ofRow row)).recordAction _ (hinsert row hstores)

/-- An entry that creates nothing. -/
theorem applyEntry {p : Record × Entry} {dealwithNochange : Bool} (hop : p.2.op ≠ .create)
    (hp : p.1.Steadfast) (hw : I w) :
    I (applyEntry ctx conf faults zone recordset dealwithNochange p.1 p.2 w).2 := by
  cases hs : p.2.sent p.1 dealwithNochange with
  | none => rw [applyEntry_kept hop hs]; exact hw
  | some pair =>
    obtain ⟨action, object⟩ := pair
    have hobject : object.Steadfast := by
      rcases (Entry.sent_cases hs).2 with ⟨-, rfl⟩ | ⟨-, rfl⟩ <;> exact hp
    rw [applyEntry_sent hs, bind_pure_snd]
    exact (hI.keptBy action hobject).recordAction w hw

/-- An update without entries. -/
theorem updateTtl (plan : Nat → Faults) (zone : Zone) (recordset : RecordSet) :
    Keeps I (updateTtl ctx conf plan zone recordset) :=
  Keeps.bind (Keeps.read _) fun _ => Keeps.bind (updateAll_keeps (fun row _ =>
      hI.keptBy .UPDATE (steadfast_ofRow row)) plan) fun _ =>
    Keeps.bind raiseUnlessAll_keeps fun _ => Keeps.bind centralGetRecordset_keeps fun _ =>
      Keeps.pure _

theorem deleteRecordset (hdel : Removable I) (plan : Nat → Faults) (zoneId recordsetId : Nat) :
    Keeps I (Designate.deleteRecordset ctx conf plan zoneId recordsetId) :=
  Keeps.bind (Keeps.read _) fun _ => Keeps.bind (Keeps.read _) fun _ =>
    Keeps.bind (Keeps.raiseIf _ _) fun _ => Keeps.bind (Keeps.raiseIf _ _) fun _ =>
    Keeps.bind (Keeps.raiseIf _ _) fun _ => Keeps.bind (Keeps.read _) fun _ =>
      Keeps.bind (deleteAll_keeps (fun row _ =>
        hI.keptBy .DELETE (steadfast_ofRow row)) plan) fun _ =>
      Keeps.bind raiseUnlessAll_keeps fun _ => hdel.deleteRecordsetRow _

/-- A stored recordset whose records are created one by one. -/
theorem createRecordset (hdel : Removable I) (plan : Nat → Faults) {zoneId : Nat}
    {recordset : NewRecordSet} (hw : I w)
    (hloop : ∀ zone, findZone ctx zone.id w.db = .ok zone → zone.id = zoneId →
      StoresRecordset ctx conf zone recordset w.db →
      I (createAll ctx conf zone
        (RecordSet.ofRow (recordset.row zone w.nextId) recordset.records) plan recordset.records
        (w.withRecordsetRow (recordset.row zone w.nextId))).2) :
    I (createRecordset ctx conf plan zoneId recordset w).2 := by
  unfold Designate.createRecordset getZone refuseDeletingZone
  refine Keeps.look hw fun zone hz => ?_
  obtain ⟨-, rfl, -⟩ := findZone_mem hz
  by_cases hd : decide (zone.action = .DELETE) = true
  · rw [bind_error (raiseIf_of hd _ _)]
    exact hw
  · rw [seq_ok (raiseIf_of_not (by simpa using hd) _ _)]
    rcases createRecordsetInStorage_cases conf recordset hz with
      ⟨-, e, w', he, hdb, -⟩ | ⟨hstores, hok⟩
    · have hn := createRecordsetInStorage_nextId ctx conf zone recordset w
      rw [bind_error he]
      rw [he] at hn
      -- what was refused has at most taken an identifier
      have hstill : World.Still w w' := ⟨by rw [hdb], by rw [hdb], by rw [hdb], hn⟩
      exact hI.still hstill hw
    · rw [bind_ok hok]
      exact Keeps.after (hloop zone hz rfl hstores) fun done => Keeps.bind (Keeps.read _) fun _ =>
        Keeps.ite (fun _ => Keeps.bind (hdel.deleteRecordsetRow _) fun _ => Keeps.pure _)
          fun _ => Keeps.pure _

/-- The records of a recordset are settled. -/
theorem settleRecords (recordsetId : Nat) :
    Keeps I (updateRecordsetStatus ctx conf recordsetId .CREATE .SUCCESS) := by
  refine Keeps.bind (Keeps.read _) fun rows => Keeps.forEach fun row _ => ?_
  refine Keeps.ite (fun h => absurd h (by simp)) fun _ w hw => ?_
  unfold settleRecord
  rcases updateRecordRow_cases ctx conf (Record.ofRow row).settle w with
    ⟨e, he⟩ | ⟨found, hr, -, hok⟩
  · rw [he]; exact hw
  · rw [hok]
    have hsteady := (steadfast_ofRow row).settle
    exact hI.write _ hw (findRecordRow_mem hr).1 (writtenRow_place hsteady.1.1 hsteady.1.2)
      (writtenRow_managed hsteady)

theorem above (n : Nat) : Stable fun w => I w ∧ n ≤ w.nextId where
  linked h := hI.linked h.1
  still hs h := ⟨hI.still hs h.1, Nat.le_trans h.2 hs.nextId⟩
  write new h hm hp hu := ⟨hI.write new h.1 hm hp hu, h.2⟩
  drop id h := ⟨hI.drop id h.1, h.2⟩

end

/-- A recordset and its one record can be inserted, by way of the invariant `J` in between. -/
structure Admits (ctx : Context) (conf : Conf) (zone : Zone) (recordset : NewRecordSet)
    (I : World → Prop) (w : World) (J : World → Prop) : Prop where
  stable : Stable J
  back : ∀ w, J w → I w
  stored : J (w.withRecordsetRow (recordset.row zone w.nextId))
  insert : ∀ w' record row, record ∈ recordset.records → J w' →
    Stores ctx conf zone (RecordSet.ofRow (recordset.row zone w.nextId) recordset.records) record
      w'.db w'.nextId row → J (w'.inserted row)

/-- A default record is stored, mirrored and settled. -/
theorem createDefault (hI : Stable I) {name : String} {type : RRType} {typeName data : String}
    {n : Nat}
    (hadmits : ∀ w, I w → findZone ctx zone.id w.db = .ok zone →
      StoresRecordset ctx conf zone
        { name := name, type := type, ttl := some zone.ttl, description := none
          records := [Record.newManaged data] } w.db →
      ∃ J, Admits ctx conf zone
        { name := name, type := type, ttl := some zone.ttl, description := none
          records := [Record.newManaged data] } I w J) :
    Keeps (fun w => (I w ∧ findZone ctx zone.id w.db = .ok zone) ∧ n ≤ w.nextId)
      (createDefault ctx conf zone name type typeName data) := by
  intro w hw
  have hP := (hI.and (found ctx zone)).above n
  have hw' : (I w ∧ w.Linked ∧ findZone ctx zone.id w.db = .ok zone) ∧ n ≤ w.nextId :=
    ⟨⟨hw.1.1, hI.linked hw.1.1, hw.1.2⟩, hw.2⟩
  have hback : ∀ w, (I w ∧ w.Linked ∧ findZone ctx zone.id w.db = .ok zone) ∧ n ≤ w.nextId →
      (I w ∧ findZone ctx zone.id w.db = .ok zone) ∧ n ≤ w.nextId :=
    fun w h => ⟨⟨h.1.1, h.1.2.2⟩, h.2⟩
  refine hback _ ?_
  unfold Designate.createDefault
  rcases createRecordsetInStorage_cases conf
    { name := name, type := type, ttl := some zone.ttl, description := none
      records := [Record.newManaged data] } hw.1.2 with ⟨-, e, w', he, hdb, -⟩ | ⟨hstores, hok⟩
  · have hn := createRecordsetInStorage_nextId ctx conf zone
      { name := name, type := type, ttl := some zone.ttl, description := none
        records := [Record.newManaged data] } w
    rw [bind_error he]
    rw [he] at hn
    have hstill : World.Still w w' := ⟨by rw [hdb], by rw [hdb], by rw [hdb], hn⟩
    exact hP.still hstill hw'
  · obtain ⟨J, hJ⟩ := hadmits w hw.1.1 hw.1.2 hstores
    rw [bind_ok hok]
    -- from here on it is `J` that is kept
    have hK := (hJ.stable.and (found ctx zone)).above n
    have hstart := hJ.stored
    have hquiet : IgnoresQuiet fun w => (J w ∧ w.Linked ∧ findZone ctx zone.id w.db = .ok zone) ∧
        n ≤ w.nextId := fun _ _ hq h => hK.still hq.still h
    have hrest : ∀ w, (J w ∧ w.Linked ∧ findZone ctx zone.id w.db = .ok zone) ∧ n ≤ w.nextId →
        (I w ∧ w.Linked ∧ findZone ctx zone.id w.db = .ok zone) ∧ n ≤ w.nextId :=
      fun w h => ⟨⟨hJ.back w h.1.1, h.1.2⟩, h.2⟩
    refine hrest _ (Keeps.bind (Keeps.forEach fun record hm => Keeps.bind ?_ fun stored => ?_)
      (fun _ => hK.settleRecords _) _ ⟨⟨hstart, hJ.stable.linked hstart, hw.1.2⟩,
        Nat.le_succ_of_le hw.2⟩)
    · refine ((createRecordInStorage_triple (P := fun _ => True) hquiet
        fun w' row h hs => ⟨?_, trivial⟩).weaken (fun _ h => h) (fun _ _ h => h.1)
        fun _ h => h).keeps
      have hJ' := hJ.insert w' record row hm h.1.1 hs
      exact ⟨⟨hJ', hJ.stable.linked hJ', h.1.2.2⟩, Nat.le_succ_of_le h.2⟩
    · cases stored.id with
      | none => exact Keeps.raise _
      | some id => exact hquiet.createZdnsRecord

/-- The two default records of a zone. -/
theorem createDefaultRecord (hI : Stable I)
    (hadmits : ∀ w name type data, name = zone.name ∨ name = "ns." ++ zone.name → type ≠ .CNAME →
      I w → findZone ctx zone.id w.db = .ok zone → StoresRecordset ctx conf zone
        { name := name, type := type, ttl := some zone.ttl, description := none
          records := [Record.newManaged data] } w.db →
      ∃ J, Admits ctx conf zone
        { name := name, type := type, ttl := some zone.ttl, description := none
          records := [Record.newManaged data] } I w J)
    (hw : I w) (hz : findZone ctx zone.id w.db = .ok zone) :
    I (createDefaultRecord ctx conf zone w).2 := by
  have hbody : ∀ n, Keeps (fun w => (I w ∧ findZone ctx zone.id w.db = .ok zone) ∧ n ≤ w.nextId)
      (do
        Designate.createDefault ctx conf zone zone.name .NS "NS" ("ns." ++ zone.name)
        Designate.createDefault ctx conf zone ("ns." ++ zone.name) .A "A" "127.0.0.1") := fun n =>
    Keeps.bind (hI.createDefault fun w h hz hs =>
        hadmits w _ _ _ (Or.inl rfl) (by simp) h hz hs) fun _ =>
      hI.createDefault fun w h hz hs => hadmits w _ _ _ (Or.inr rfl) (by simp) h hz hs
  have hend := hbody w.nextId w ⟨⟨hw, hz⟩, Nat.le_refl _⟩
  unfold Designate.createDefaultRecord transaction Exec.rollback
  split
  · rename_i hrun
    rw [hrun] at hend
    exact hend.1.1
  · rename_i w' hrun
    rw [hrun] at hend
    -- both records go back together
    have hstill : World.Still w { w' with db := w.db } := ⟨rfl, rfl, rfl, hend.2⟩
    exact hI.still hstill hw

end Stable

/-! ## Loops that insert -/

/--
An invariant of each number of insertions, the more the weaker. A loop that inserts at most `n`
records then ends in the last of these invariants, wherever it stops.
-/
structure Counted (J : Nat → World → Prop) : Prop where
  stable : ∀ k, Stable (J k)
  mono : ∀ k w, J k w → J (k + 1) w

namespace Counted

variable {J : Nat → World → Prop} {n k : Nat}

theorem le (hJ : Counted J) (hk : k ≤ n) (hw : J k w) : J n w := by
  induction hk with
  | refl => exact hw
  | step _ ih => exact hJ.mono _ _ ih

/-- **The loop of `create_recordset`.** By induction on the records. -/
theorem createAll (hJ : Counted J) {records : List Record}
    (hinsert : ∀ k < n, ∀ record ∈ records, ∀ w row, J k w →
      Stores ctx conf zone recordset record w.db w.nextId row → J (k + 1) (w.inserted row))
    (plan : Nat → Faults) (hk : k + records.length ≤ n) (hw : J k w) :
    J n (createAll ctx conf zone recordset plan records w).2 := by
  induction records generalizing plan k w with
  | nil => exact hJ.le hk hw
  | cons record records ih =>
    rw [List.length_cons] at hk
    -- a turn inserts one row at most
    have hone : J (k + 1) (createOne ctx conf (plan 0) zone recordset record w).2 :=
      (hJ.stable (k + 1)).createOne (hJ.mono k w hw) fun row hs =>
        hinsert k (by omega) record List.mem_cons_self w row hw hs
    have hrest := fun plan => ih (fun k hk record hr => hinsert k hk record
      (List.mem_cons_of_mem _ hr)) plan (by omega) hone
    unfold Designate.createAll
    rw [bind_apply]
    cases hrun : createOne ctx conf (plan 0) zone recordset record w with
    | mk res w₁ =>
      rw [hrun] at hone hrest
      cases res with
      | error e => exact hJ.le (by omega) hone
      | ok p =>
        dsimp only
        rw [bind_pure_snd]
        exact hrest _

/--
**The loop over the entries of an update.** By induction on the entries: only the turns
of those that create insert.
-/
theorem applyEntries (hJ : Counted J) {entries : List (Record × Entry)} {ttlChanged : Bool}
    (plan : Nat → Faults) (hobjects : ∀ p ∈ entries, p.1.Steadfast)
    (hinsert : ∀ k < n, ∀ t ∈ turns ctx conf zone recordset ttlChanged plan entries w,
      t.entry.2.op = .create → J k t.before → ∀ row,
      Stores ctx conf zone recordset
        { t.entry.1 with data := t.entry.1.data.set t.entry.2.data } t.before.db t.before.nextId row →
      J (k + 1) (t.before.inserted row))
    (hk : k + creates entries ≤ n) (hw : J k w) :
    J n (applyEntries ctx conf zone recordset ttlChanged plan entries w).2 := by
  induction entries generalizing plan k w with
  | nil => exact hJ.le hk hw
  | cons p entries ih =>
    have hp := hobjects p List.mem_cons_self
    have htail := fun q hq => hobjects q (List.mem_cons_of_mem _ hq)
    have hcount : creates (p :: entries) = creates entries + if p.2.op = .create then 1 else 0 := by
      simp [creates, List.countP_cons]
    unfold Designate.applyEntries
    cases hrun : applyEntry ctx conf (plan 0) zone recordset ttlChanged p.1 p.2 w with
    | mk res w₁ =>
      -- the turn is the first of the list, whether it returns or raises
      have hfirst : (⟨plan 0, p, w, w₁⟩ : Turn) ∈
          turns ctx conf zone recordset ttlChanged plan (p :: entries) w := by
        rw [turns, hrun]
        cases res <;> exact List.mem_cons_self
      have hturn : ∃ m, m + creates entries ≤ n ∧ J m w₁ := by
        by_cases hop : p.2.op = .create
        · rw [hcount, if_pos hop] at hk
          refine ⟨k + 1, by omega, ?_⟩
          have hone : J (k + 1)
              (applyEntry ctx conf (plan 0) zone recordset ttlChanged p.1 p.2 w).2 := by
            rw [applyEntry_create hop, bind_pure_snd]
            exact (hJ.stable (k + 1)).createOne (hJ.mono k w hw) fun row hs =>
              hinsert k (by omega) _ hfirst hop hw row hs
          rw [hrun] at hone
          exact hone
        · rw [hcount, if_neg hop] at hk
          have hone : J k
              (applyEntry ctx conf (plan 0) zone recordset ttlChanged p.1 p.2 w).2 :=
            (hJ.stable k).applyEntry hop hp hw
          rw [hrun] at hone
          exact ⟨k, hk, hone⟩
      obtain ⟨m, hm, hJm⟩ := hturn
      cases res with
      | error e =>
        rw [bind_error hrun]
        exact hJ.le (by omega) hJm
      | ok done =>
        rw [bind_ok hrun, bind_pure_snd]
        rw [turns, hrun] at hinsert
        exact ih _ htail (fun k hk t ht => hinsert k hk t (List.mem_cons_of_mem _ ht)) hm hJm

end Counted

/-! ## The calls -/

/-- The call stores its recordset and goes on to the records. -/
def RecordsetCall.Creates (ctx : Context) (conf : Conf) (w : World) (plan : Nat → Faults)
    (zone : Zone) (recordset : NewRecordSet) : RecordsetCall → Prop
  | .create plan' zoneId name type ttl description managed texts =>
    plan' = plan ∧ zone.id = zoneId ∧ findZone ctx zone.id w.db = .ok zone ∧
      recordset = { name := name, type := type, ttl := ttl, description := description
                    records := texts.map (Record.made managed) } ∧
      StoresRecordset ctx conf zone recordset w.db
  | _ => False

/-- The call gets as far as the loop over its entries. -/
def RecordsetCall.Loops (ctx : Context) (w : World) (plan : Nat → Faults) (zone : Zone)
    (recordset : RecordSet) (ttlChanged : Bool) (entries : List (Record × Entry)) :
    RecordsetCall → Prop
  | .update plan' zoneId recordsetId ttl description list =>
    plan' = plan ∧ ∃ stored, centralGetRecordset ctx zoneId recordsetId w = (.ok stored, w) ∧
      recordset = stored.relisted ttl description list ∧
      updateRecordsetGuard ctx recordset w = (.ok (zone, ttlChanged), w) ∧
      doUpdateGuard ctx recordset w = (.ok entries, w)
  | _ => False

/--
**A call keeps a stable invariant**, if the loops it gets to do and if the default records
can be inserted.
-/
theorem RecordsetInput.run_keeps {input : RecordsetInput} (hI : Stable I) (hdel : Removable I)
    (hw : I w)
    (hcreate : ∀ plan zone recordset, input.call.Creates input.ctx conf w plan zone recordset →
      I (createAll input.ctx conf zone
        (RecordSet.ofRow (recordset.row zone w.nextId) recordset.records) plan recordset.records
        (w.withRecordsetRow (recordset.row zone w.nextId))).2)
    (hupdate : ∀ plan zone recordset ttlChanged entries,
      input.call.Loops input.ctx w plan zone recordset ttlChanged entries →
      I (applyEntries input.ctx conf zone recordset ttlChanged plan entries w).2)
    (hdefault : ∀ zone w name type data, type ≠ .CNAME → I w →
      findZone input.ctx zone.id w.db = .ok zone →
      StoresRecordset input.ctx conf zone
        { name := name, type := type, ttl := some zone.ttl, description := none
          records := [Record.newManaged data] } w.db →
      ∃ J, Stable.Admits input.ctx conf zone
        { name := name, type := type, ttl := some zone.ttl, description := none
          records := [Record.newManaged data] } I w J) :
    I (input.run conf w) := by
  obtain ⟨ctx, call⟩ := input
  unfold RecordsetInput.run
  dsimp only at *
  -- each call runs at most one loop, and what it does around it is stable
  cases call with
  | create plan zoneId name type ttl description managed texts =>
    exact Keeps.after (hI.createRecordset hdel plan hw fun zone hz hid hs =>
      hcreate plan zone _ ⟨rfl, hid, hz, rfl, hs⟩) fun _ => Keeps.pure _
  | update plan zoneId recordsetId ttl description list =>
    refine Keeps.told hw (centralGetRecordset_state ctx zoneId recordsetId w) fun stored hrun => ?_
    refine Keeps.after (updateRecordset_keeps plan hw (fun zone => hI.updateTtl plan zone _)
      fun zone ttlChanged entries hg hl => ?_) fun _ => Keeps.pure _
    exact hupdate plan zone _ ttlChanged entries ⟨rfl, stored, hrun, rfl, hg, hl⟩
  | delete plan zoneId recordsetId => exact hI.deleteRecordset hdel plan zoneId recordsetId w hw
  | createDefault zoneId =>
    rw [RecordsetCall.body]
    unfold getZone
    refine Keeps.look hw fun zone hz => ?_
    obtain ⟨-, rfl, -⟩ := findZone_mem hz
    exact hI.createDefaultRecord (fun w name type data _ => hdefault zone w name type data) hw hz

namespace RecordsetCall.Loops

variable {call : RecordsetCall} {plan : Nat → Faults} {ttlChanged : Bool}
  {entries : List (Record × Entry)}

/-- What the loop goes by: its zone, the row of the recordset, and the list. -/
theorem guards (h : call.Loops ctx w plan zone recordset ttlChanged entries) :
    ∃ (s : RecordSetRow) (stored : List Record) (list : List ListedRecord),
      findRecordsetRow ctx recordset.id w.db = .ok s ∧
      findZone ctx zone.id w.db = .ok zone ∧ zone.id = s.zoneId ∧ s.id = recordset.id ∧
      s.type = recordset.type ∧ stored = ((w.db.records.filter fun r =>
        r.recordsetId == recordset.id && ctx.sees r.tenantId).map Record.ofRow) ∧
      recordset.records = list.flatMap (ListedRecord.objects stored) ∧
      doUpdateGuard ctx recordset w = (.ok entries, w) := by
  cases call with
  | update plan' zoneId recordsetId ttl description list =>
    obtain ⟨-, stored, hstored, rfl, hguard, hlist⟩ := h
    obtain ⟨s, z, hs, hz, hzone, rfl⟩ := centralGetRecordset_ok hstored
    obtain ⟨-, row, hg⟩ := updateRecordsetGuard_ok hguard
    obtain ⟨-, hzid, -⟩ := findZone_mem hg.zoneFound
    obtain ⟨-, hsid, -⟩ := Table.find_mem hs
    have hid : (RecordSet.relisted (RecordSet.ofRow s ((w.db.records.filter fun r =>
        r.recordsetId == recordsetId && ctx.sees r.tenantId).map Record.ofRow)) ttl description
        list).id = recordsetId := hsid
    have hfound : findZone ctx zone.id w.db = .ok zone := hzid ▸ hg.zoneFound
    exact ⟨s, _, list, hid ▸ hs, hfound, hzid, rfl, rfl, rfl, by rw [hid]; rfl, hlist⟩
  | _ => exact h.elim

theorem placed (h : call.Loops ctx w plan zone recordset ttlChanged entries) :
    Placed zone.id recordset.id w := by
  obtain ⟨s, -, -, hs, -, hzone, hid, -⟩ := h.guards
  exact ⟨s, (Table.find_mem hs).1, hid, hzone.symm⟩

/-- The objects of the list are stored ones or new ones. -/
theorem object (h : call.Loops ctx w plan zone recordset ttlChanged entries)
    {p : Record × Entry} (hp : p ∈ entries) :
    (∃ row ∈ w.db.recordsOf recordset.id, ∃ data, p.1 = { Record.ofRow row with data := data }) ∨
      ∃ managed data, p.1 = Record.made managed data := by
  obtain ⟨s, stored, list, -, -, -, -, -, hstored, hrecords, hlist⟩ := h.guards
  obtain ⟨-, -, hvalid⟩ := doUpdateGuard_ok hlist
  have hm : p.1 ∈ recordset.records := by
    rw [← (formatValidate_spec hvalid).1]
    exact List.mem_map_of_mem hp
  rw [hrecords] at hm
  obtain ⟨listed, -, hm⟩ := List.mem_flatMap.mp hm
  cases listed with
  | made managed data => exact Or.inr ⟨managed, data, List.mem_singleton.mp hm⟩
  | stored n data =>
    obtain ⟨record, hr, he⟩ := List.mem_map.mp hm
    have hrm : record ∈ stored := List.mem_of_getElem? (Option.mem_toList.mp hr)
    rw [hstored] at hrm
    obtain ⟨row, hrow, rfl⟩ := List.mem_map.mp hrm
    obtain ⟨hrow, hsees⟩ := List.mem_filter.mp hrow
    rw [Bool.and_eq_true] at hsees
    refine Or.inl ⟨row, mem_recordsOf.mpr ⟨hrow, eq_of_beq hsees.1⟩, ?_⟩
    cases data with
    | none => exact ⟨.loaded row.data, he.symm⟩
    | some data => exact ⟨(Tracked.loaded row.data).set data, he.symm⟩

theorem steadfast (h : call.Loops ctx w plan zone recordset ttlChanged entries)
    {p : Record × Entry} (hp : p ∈ entries) : p.1.Steadfast := by
  rcases h.object hp with ⟨row, -, data, he⟩ | ⟨managed, data, he⟩
  · rw [he]
    exact steadfast_ofRow row
  · rw [he]
    cases managed with
    | false => exact ⟨⟨rfl, rfl⟩, fun h => absurd h (by simp [Record.made, Record.new])⟩
    | true => exact ⟨⟨rfl, rfl⟩, fun _ => rfl⟩

end RecordsetCall.Loops

end Designate
