import Designate.Proof.Turns

/-!
# Where a new ttl arrives

`update_recordset` writes the ttl of a request to the device and to the mirror tables
with every record it sends, and to the recordset itself in the callback of an UPDATE
only. Every write carries the same ttl, so that a copy that has it keeps it; what
decides is which records are sent.
-/

namespace Designate

open Exec

variable {ctx : Context} {conf : Conf} {zone : Zone} {recordset : RecordSet}
  {record : Record} {w w' : World} {view : View}

/-- The zdns rows of the record `id`, and the resource records they name, have the ttl. -/
def TtlIs (view zone : String) (ttl : Option Nat) (id : Nat) (w : World) : Prop :=
  ∀ a ∈ w.db.recordAssociations, a.recordId = id → ∀ z ∈ w.db.zdnsRecords, z.id = a.zdnsRecordId →
    z.ttl = ttl ∧ ∀ rr ∈ w.device.rrs, rr.key = (z.rrId, view, zone) → rr.ttl = ttl

/-! ## One turn -/

section

variable {row : RecordRow} {a : RecordAssociation} {z : ZdnsRecord} {rr : RR} {id : Nat}

/-- An UPDATE gives its record the ttl, and takes it from no other. -/
theorem UpdateLeaves.ttlIs (h : UpdateLeaves ctx conf zone recordset record view row a z rr w w')
    (hnames : conf.NamesFresh)
    (hid : id = row.id ∨ TtlIs view.name zone.name recordset.ttlValue id w) :
    TtlIs view.name zone.name recordset.ttlValue id w' := by
  obtain ⟨hrr, hkey⟩ := h.rr_key
  -- a resource record under the new name is the one just written
  have hnew : ∀ rr' ∈ w'.device.rrs,
      rr'.key = ((z.updated conf w.device.rrs rr record recordset).rrId, view.name, zone.name) →
      rr'.ttl = recordset.ttlValue := by
    intro rr' hm hk
    rw [h.rrs] at hm
    rcases Table.mem_update.mp hm with ⟨hm, hne⟩ | ⟨-, -, -, rfl⟩
    · have hrest : rr' ∈ Table.remove RR.key rr.key w.device.rrs := Table.mem_remove.mpr ⟨hm, hne⟩
      have hplace : rr.view = view.name ∧ rr.zone = zone.name := by
        simp only [RR.key, Prod.mk.injEq] at hkey
        exact hkey.2
      refine absurd ?_ (hnames _ { rr.toRRData with ttl := recordset.ttlValue, rdata := record.text }
        rr' hrest)
      rw [hk]
      exact congrArg₂ _ rfl (congrArg₂ _ hplace.1.symm hplace.2.symm)
    · rfl
  intro a' ha' hid' z' hz' hzid
  rw [h.associations] at ha'
  rw [h.zdnsRecords] at hz'
  rcases Table.mem_update.mp hz' with ⟨hz', hne⟩ | ⟨-, -, -, rfl⟩
  · rcases hid with rfl | hold
    · -- the record has but one association, which leads to the row that was written
      rw [Table.find_unique h.associated ha' hid' rfl, ← h.zdnsRecord_id] at hzid
      exact absurd hzid hne
    · obtain ⟨httl, hall⟩ := hold a' ha' hid' z' hz' hzid
      refine ⟨httl, fun rr' hm hk => ?_⟩
      rw [h.rrs] at hm
      rcases Table.mem_update.mp hm with ⟨hm, -⟩ | ⟨-, -, -, rfl⟩
      · exact hall rr' hm hk
      · rfl
  · exact ⟨rfl, hnew⟩

/-- A DELETE takes the ttl from no record. -/
theorem DeleteLeaves.ttlIs (h : DeleteLeaves ctx zone record view row a z rr w w')
    {ttl : Option Nat} (hold : TtlIs view.name zone.name ttl id w) :
    TtlIs view.name zone.name ttl id w' := by
  intro a' ha' hid' z' hz' hzid
  rw [h.associations] at ha'
  rw [h.zdnsRecords] at hz'
  obtain ⟨httl, hall⟩ := hold a' (Table.mem_remove.mp ha').1 hid' z' (Table.mem_remove.mp hz').1 hzid
  refine ⟨httl, fun rr' hm hk => ?_⟩
  rw [h.rrs] at hm
  exact hall rr' (Table.mem_remove.mp hm).1 hk

/-- A new record has the ttl, and takes it from no other. -/
theorem createdOne_ttlIs (hnames : conf.NamesFresh) (hfresh : w.Fresh)
    (hrow : Inserted ctx conf zone recordset record w.db w.nextId row)
    (hid : id = row.id ∨ TtlIs view.name zone.name recordset.ttlValue id w) :
    TtlIs view.name zone.name recordset.ttlValue id (w.createdOne conf view zone recordset row) := by
  let data := createData view zone (Record.ofRow row) recordset
  -- what the device has more is the new record, under a name of its own
  have hrrs : ∀ rr ∈ (w.createdOne conf view zone recordset row).device.rrs,
      rr ∈ w.device.rrs ∨ rr = ⟨data, conf.rrName w.device.rrs data⟩ := fun rr hm =>
    (List.mem_append.mp hm).imp_right List.mem_singleton.mp
  intro a' ha' hid' z' hz' hzid
  rcases List.mem_append.mp hz' with hz' | hz'
  · have hold : a' ∈ w.db.recordAssociations := by
      rcases List.mem_append.mp ha' with ha' | ha'
      · exact ha'
      · have := hfresh.zdnsRecords z' hz'
        rw [hzid, List.mem_singleton.mp ha'] at this
        dsimp only at this
        omega
    -- an older mirror is of an older record
    have hne : id ≠ row.id := by
      intro he
      have := (hfresh.associations a' hold).1
      have := hrow.id_eq
      omega
    obtain ⟨httl, hall⟩ := (hid.resolve_left hne) a' hold hid' z' hz' hzid
    refine ⟨httl, fun rr hm hk => ?_⟩
    rcases hrrs rr hm with hm | rfl
    · exact hall rr hm hk
    · rfl
  · rw [List.mem_singleton.mp hz']
    refine ⟨rfl, fun rr hm hk => ?_⟩
    rcases hrrs rr hm with hm | rfl
    · exact absurd hk (hnames w.device.rrs data rr hm)
    · rfl

end

/-- An UPDATE or a DELETE of the record `id` is sent for the entry. -/
def Entry.Sends (dealwithNochange : Bool) (entry : Entry) (id : Nat) : Prop :=
  (entry.Updates dealwithNochange ∨ entry.op = .delete) ∧ Text.uuidOfText entry.id = some id

section

variable {dealwithNochange : Bool} {p : Record × Entry} {id : Nat}

theorem EntryLeaves.ttlIs (h : EntryLeaves ctx conf zone recordset dealwithNochange view p w w')
    (hnames : conf.NamesFresh) (hfresh : w.Fresh)
    (hold : TtlIs view.name zone.name recordset.ttlValue id w) :
    TtlIs view.name zone.name recordset.ttlValue id w' := by
  cases h with
  | kept => exact hold
  | created row _ hs => exact createdOne_ttlIs hnames hfresh hs.inserted (Or.inr hold)
  | updated _ _ _ _ _ hl => exact hl.ttlIs hnames (Or.inr hold)
  | deleted _ _ _ _ _ hl => exact hl.ttlIs hold

/-- A record has the ttl after a turn, or it was there before and nothing was sent for it. -/
theorem EntryLeaves.row_ttlIs
    (h : EntryLeaves ctx conf zone recordset dealwithNochange view p w w')
    (hnames : conf.NamesFresh) (hfresh : w.Fresh) {r : RecordRow} (hr : r ∈ w'.db.records) :
    TtlIs view.name zone.name recordset.ttlValue r.id w' ∨
      r ∈ w.db.records ∧ ¬ p.2.Sends dealwithNochange r.id := by
  cases h with
  | kept hop hd =>
    refine Or.inr ⟨hr, fun hs => ?_⟩
    rcases hs.1 with (hu | ⟨-, hd'⟩) | hu
    · rw [hop] at hu; exact absurd hu (by simp)
    · rw [hd] at hd'; exact absurd hd' (by simp)
    · rw [hop] at hu; exact absurd hu (by simp)
  | created row hop hs =>
    rcases Table.mem_update.mp hr with ⟨hr, hne⟩ | ⟨-, -, -, rfl⟩
    · rcases List.mem_append.mp hr with hr | hr
      · refine Or.inr ⟨hr, fun hs => ?_⟩
        rcases hs.1 with (hu | ⟨hu, -⟩) | hu <;> rw [hop] at hu <;> exact absurd hu (by simp)
      · -- the new row is the one that is written
        exact absurd (by rw [List.mem_singleton.mp hr]; rfl) hne
    · exact Or.inl (createdOne_ttlIs hnames hfresh hs.inserted (Or.inl rfl))
  | updated row a z rr hop hl =>
    rw [hl.records] at hr
    rcases Table.mem_update.mp hr with ⟨hr, hne⟩ | ⟨-, -, -, rfl⟩
    · refine Or.inr ⟨hr, fun hs => hne ?_⟩
      exact (Option.some.inj ((findRecordRow_mem hl.rowFound).2.1.symm.trans hs.2)).symm
    · exact Or.inl (hl.ttlIs hnames (Or.inl rfl))
  | deleted row a z rr hop hl =>
    rw [hl.records] at hr
    obtain ⟨hr, hne⟩ := Table.mem_remove.mp hr
    refine Or.inr ⟨hr, fun hs => hne ?_⟩
    exact (Option.some.inj ((findRecordRow_mem hl.rowFound).2.1.symm.trans hs.2)).symm

end

/-! ## The loops -/

/-- **Every record has the ttl in the end that has it before, or is sent.** By induction on the list. -/
theorem applyEntries_ttlIs {dealwithNochange : Bool} {plan : Nat → Faults}
    {entries : List (Record × Entry)} (hnames : conf.NamesFresh) (hfresh : w.Fresh)
    (hv : findView ctx zone.viewId w.db = .ok view)
    (hthrough : EntriesThrough ctx conf zone recordset dealwithNochange plan entries w)
    (hrows : ∀ r ∈ w.db.recordsOf recordset.id,
      TtlIs view.name zone.name recordset.ttlValue r.id w ∨
        ∃ p ∈ entries, p.2.Sends dealwithNochange r.id) :
    ∀ r ∈ (applyEntries ctx conf zone recordset dealwithNochange plan entries w).2.db.recordsOf
      recordset.id, TtlIs view.name zone.name recordset.ttlValue r.id
        (applyEntries ctx conf zone recordset dealwithNochange plan entries w).2 := by
  induction entries generalizing plan w with
  | nil => exact fun r hr => (hrows r hr).resolve_right (by simp)
  | cons p entries ih =>
    -- after the first entry a record has the ttl, or it is another entry that is sent for it
    obtain ⟨w₁, hrun, hleaves⟩ := entry_through hfresh hthrough.1 hv
    have hrest := hthrough.2
    rw [hrun] at hrest
    rw [applyEntries_cons hrun]
    refine ih (hleaves.fresh hfresh) ((findView_congr hleaves.views).trans hv) hrest fun r hr => ?_
    obtain ⟨hr, hset⟩ := mem_recordsOf.mp hr
    rcases hleaves.row_ttlIs hnames hfresh hr with httl | ⟨hr, hnot⟩
    · exact Or.inl httl
    · rcases hrows r (mem_recordsOf.mpr ⟨hr, hset⟩) with httl | ⟨q, hq, hs⟩
      · exact Or.inl (hleaves.ttlIs hnames hfresh httl)
      · rcases List.mem_cons.mp hq with rfl | hq
        · exact absurd hs hnot
        · exact Or.inr ⟨q, hq, hs⟩

/-! ## The recordset itself -/

/--
The recordset `id` is stored with the ttl. Asked of whatever rows have the identifier, since
there is one at most.
-/
structure StoredTtl (id : Nat) (ttl : Option Nat) (w : World) : Prop where
  found : ∃ s ∈ w.db.recordsets, s.id = id
  ttl : ∀ s ∈ w.db.recordsets, s.id = id → s.ttl = ttl

theorem StoredTtl.unique {id : Nat} {ttl ttl' : Option Nat} (h : StoredTtl id ttl w)
    (h' : StoredTtl id ttl' w) : ttl = ttl' := by
  obtain ⟨s, hs, hid⟩ := h.found
  exact (h.ttl s hs hid).symm.trans (h'.ttl s hs hid)

/-- Writing a ttl again writes the same. -/
theorem write_write (t : Tracked (Option Nat)) (old : Option Nat) :
    t.write (t.write old) = t.write old := by
  unfold Tracked.write
  cases t.changed with
  | false => rfl
  | true => cases t.value <;> rfl

theorem UpdateLeaves.storedTtl {row : RecordRow} {a : RecordAssociation} {z : ZdnsRecord} {rr : RR}
    (h : UpdateLeaves ctx conf zone recordset record view row a z rr w w') {old : Option Nat}
    (hold : StoredTtl recordset.id old w) :
    StoredTtl recordset.id (recordset.ttl.write old) w' := by
  refine ⟨?_, fun s hs hid => ?_⟩
  · obtain ⟨s, hs, hid⟩ := hold.found
    rw [h.recordsets]
    exact ⟨_, Table.mem_update.mpr (Or.inr ⟨s, hs, hid, rfl⟩), hid⟩
  · rw [h.recordsets] at hs
    rcases Table.mem_update.mp hs with ⟨-, hne⟩ | ⟨s₀, hs₀, hid₀, rfl⟩
    · exact absurd hid hne
    · exact congrArg recordset.ttl.write (hold.ttl s₀ hs₀ hid₀)

section

variable {dealwithNochange : Bool} {p : Record × Entry} {plan : Nat → Faults}
  {entries : List (Record × Entry)} {old : Option Nat}

theorem EntryLeaves.storedTtl_of_updates
    (h : EntryLeaves ctx conf zone recordset dealwithNochange view p w w')
    (hu : p.2.Updates dealwithNochange) (hold : StoredTtl recordset.id old w) :
    StoredTtl recordset.id (recordset.ttl.write old) w' := by
  cases h with
  | kept hop hd =>
    rcases hu with hu | ⟨-, hd'⟩
    · rw [hop] at hu; exact absurd hu (by simp)
    · rw [hd] at hd'; exact absurd hd' (by simp)
  | created row hop _ =>
    rcases hu with hu | ⟨hu, -⟩ <;> rw [hop] at hu <;> exact absurd hu (by simp)
  | updated _ _ _ _ _ hl => exact hl.storedTtl hold
  | deleted _ _ _ _ hop _ =>
    rcases hu with hu | ⟨hu, -⟩ <;> rw [hop] at hu <;> exact absurd hu (by simp)

theorem EntryLeaves.storedTtl_of_not
    (h : EntryLeaves ctx conf zone recordset dealwithNochange view p w w')
    (hu : ¬ p.2.Updates dealwithNochange) (hold : StoredTtl recordset.id old w) :
    StoredTtl recordset.id old w' := by
  cases h with
  | kept => exact hold
  | created => exact ⟨hold.found, hold.ttl⟩
  | updated _ _ _ _ hop _ => exact absurd hop hu
  | deleted _ _ _ _ _ hl => exact ⟨hl.recordsets ▸ hold.found, hl.recordsets ▸ hold.ttl⟩

/-- What each entry of a kind keeps, a list of them keeps where it gets through. By induction. -/
theorem applyEntries_of_kind {I : World → Prop} (Kind : Entry → Prop)
    (hentry : ∀ p w w', EntryLeaves ctx conf zone recordset dealwithNochange view p w w' →
      w.Fresh → Kind p.2 → I w → I w')
    (hfresh : w.Fresh) (hv : findView ctx zone.viewId w.db = .ok view)
    (hthrough : EntriesThrough ctx conf zone recordset dealwithNochange plan entries w)
    (hkind : ∀ p ∈ entries, Kind p.2) (hI : I w) :
    I (applyEntries ctx conf zone recordset dealwithNochange plan entries w).2 := by
  induction entries generalizing plan w with
  | nil => exact hI
  | cons p entries ih =>
    obtain ⟨w₁, hrun, hleaves⟩ := entry_through hfresh hthrough.1 hv
    have hrest := hthrough.2
    rw [hrun] at hrest
    rw [applyEntries_cons hrun]
    exact ih (hleaves.fresh hfresh) ((findView_congr hleaves.views).trans hv) hrest
      (fun q hq => hkind q (List.mem_cons_of_mem _ hq))
      (hentry p w w₁ hleaves hfresh (hkind p List.mem_cons_self) hI)

/-- No UPDATE: the recordset keeps its ttl. -/
theorem applyEntries_storedTtl_of_none (hfresh : w.Fresh)
    (hv : findView ctx zone.viewId w.db = .ok view)
    (hthrough : EntriesThrough ctx conf zone recordset dealwithNochange plan entries w)
    (hnone : ∀ p ∈ entries, ¬ p.2.Updates dealwithNochange) (hold : StoredTtl recordset.id old w) :
    StoredTtl recordset.id old
      (applyEntries ctx conf zone recordset dealwithNochange plan entries w).2 :=
  applyEntries_of_kind (fun entry => ¬ entry.Updates dealwithNochange)
    (fun _ _ _ hleaves _ hkind hold => hleaves.storedTtl_of_not hkind hold) hfresh hv hthrough hnone
    hold

/-- Any UPDATE: the recordset gets what the object writes. -/
theorem applyEntries_storedTtl_of_some (hfresh : w.Fresh)
    (hv : findView ctx zone.viewId w.db = .ok view)
    (hthrough : EntriesThrough ctx conf zone recordset dealwithNochange plan entries w)
    (hsome : ∃ p ∈ entries, p.2.Updates dealwithNochange) (hold : StoredTtl recordset.id old w) :
    StoredTtl recordset.id (recordset.ttl.write old)
      (applyEntries ctx conf zone recordset dealwithNochange plan entries w).2 := by
  induction entries generalizing plan w old with
  | nil => obtain ⟨p, hp, -⟩ := hsome; exact absurd hp List.not_mem_nil
  | cons p entries ih =>
    obtain ⟨w₁, hrun, hleaves⟩ := entry_through hfresh hthrough.1 hv
    have hfresh₁ := hleaves.fresh hfresh
    have hv₁ := (findView_congr hleaves.views).trans hv
    have hrest := hthrough.2
    rw [hrun] at hrest
    rw [applyEntries_cons hrun]
    by_cases hp : p.2.Updates dealwithNochange
    · have hwritten := hleaves.storedTtl_of_updates hp hold
      -- a later update writes the same once more
      by_cases hmore : ∃ q ∈ entries, q.2.Updates dealwithNochange
      · rw [← write_write]
        exact ih hfresh₁ hv₁ hrest hmore hwritten
      · exact applyEntries_storedTtl_of_none hfresh₁ hv₁ hrest
          (fun q hq hu => hmore ⟨q, hq, hu⟩) hwritten
    · obtain ⟨q, hq, hu⟩ := hsome
      rcases List.mem_cons.mp hq with rfl | hq
      · exact absurd hu hp
      · exact ih hfresh₁ hv₁ hrest ⟨q, hq, hu⟩ (hleaves.storedTtl_of_not hp hold)

end

/-! ## A record for which nothing is sent -/

/-- The record of `r` is as it was, and a zdns row of it has the ttl `old`. -/
structure LeftBehind (r : RecordRow) (old : Option Nat) (w : World) : Prop where
  row : r ∈ w.db.records
  zdnsRecord : ∃ a ∈ w.db.recordAssociations, a.recordId = r.id ∧
    ∃ z ∈ w.db.zdnsRecords, z.id = a.zdnsRecordId ∧ z.ttl = old
  /-- No two records share a zdns row. -/
  apart : (w.db.recordAssociations.map RecordAssociation.zdnsRecordId).Nodup

section

variable {dealwithNochange : Bool} {p : Record × Entry} {plan : Nat → Faults}
  {entries : List (Record × Entry)} {old : Option Nat} {r : RecordRow}

/-- An entry that sends nothing for the record leaves it behind. -/
theorem EntryLeaves.leftBehind
    (h : EntryLeaves ctx conf zone recordset dealwithNochange view p w w') (hfresh : w.Fresh)
    (hp : ¬ p.2.Sends dealwithNochange r.id) (hold : LeftBehind r old w) :
    LeftBehind r old w' := by
  obtain ⟨hr, ⟨a₀, ha₀, haid, z₀, hz₀, hzid, httl⟩, hapart⟩ := hold
  cases h with
  | kept => exact ⟨hr, ⟨a₀, ha₀, haid, z₀, hz₀, hzid, httl⟩, hapart⟩
  | created row hop hs =>
    -- the new record is another one
    have hne : r.id ≠ row.id := by
      have := hfresh.records r hr
      have := hs.inserted.id_eq
      omega
    refine ⟨Table.mem_update.mpr (Or.inl ⟨List.mem_append_left _ hr, hne⟩),
      ⟨a₀, List.mem_append_left _ ha₀, haid, z₀, List.mem_append_left _ hz₀, hzid, httl⟩, ?_⟩
    refine Table.append_nodup hapart fun a ha => ?_
    have := (hfresh.associations a ha).2
    dsimp only
    omega
  | updated row a z rr hop hl =>
    have hne : r.id ≠ row.id := fun he =>
      hp ⟨Or.inl hop, (findRecordRow_mem hl.rowFound).2.1.trans (congrArg some he.symm)⟩
    have ha : a ∈ w.db.recordAssociations := (Table.find_mem hl.associated).1
    -- the mirror that is written belongs to the record of the entry
    have hane : z₀.id ≠ z.id := by
      intro he
      rw [hzid, hl.zdnsRecord_id] at he
      rw [Table.eq_of_key hapart ha₀ ha he] at haid
      exact hne (haid.symm.trans (Table.find_mem hl.associated).2.1)
    refine ⟨?_, ⟨a₀, by rw [hl.associations]; exact ha₀, haid, z₀, ?_, hzid, httl⟩,
      by rw [hl.associations]; exact hapart⟩
    · rw [hl.records]
      exact Table.mem_update.mpr (Or.inl ⟨hr, hne⟩)
    · rw [hl.zdnsRecords]
      exact Table.mem_update.mpr (Or.inl ⟨hz₀, hane⟩)
  | deleted row a z rr hop hl =>
    have hne : r.id ≠ row.id := fun he =>
      hp ⟨Or.inr hop, (findRecordRow_mem hl.rowFound).2.1.trans (congrArg some he.symm)⟩
    have ha : a ∈ w.db.recordAssociations := (Table.find_mem hl.associated).1
    -- so does the one that is deleted
    have hane : z₀.id ≠ a.zdnsRecordId := by
      intro he
      rw [hzid] at he
      rw [Table.eq_of_key hapart ha₀ ha he] at haid
      exact hne (haid.symm.trans (Table.find_mem hl.associated).2.1)
    refine ⟨?_, ⟨a₀, ?_, haid, z₀, ?_, hzid, httl⟩, ?_⟩
    · rw [hl.records]
      exact Table.mem_remove.mpr ⟨hr, hne⟩
    · rw [hl.associations]
      exact Table.mem_remove.mpr ⟨ha₀, haid ▸ hne⟩
    · rw [hl.zdnsRecords]
      exact Table.mem_remove.mpr ⟨hz₀, hane⟩
    · rw [hl.associations]
      exact hapart.sublist (List.Sublist.map _ List.filter_sublist)

/-- A record for which no entry sends anything is left behind. -/
theorem applyEntries_leftBehind (hfresh : w.Fresh)
    (hv : findView ctx zone.viewId w.db = .ok view)
    (hthrough : EntriesThrough ctx conf zone recordset dealwithNochange plan entries w)
    (hp : ∀ p ∈ entries, ¬ p.2.Sends dealwithNochange r.id)
    (hold : LeftBehind r old w) :
    LeftBehind r old (applyEntries ctx conf zone recordset dealwithNochange plan entries w).2 :=
  applyEntries_of_kind (fun entry => ¬ entry.Sends dealwithNochange r.id)
    (fun _ _ _ hleaves hfresh hkind hold => hleaves.leftBehind hfresh hkind hold) hfresh hv hthrough
    hp hold

end

/-! ## A request for a new ttl only -/

/-- The loop over the stored records: the recordset and every record get the ttl. -/
theorem updateAll_ttlIs {plan : Nat → Faults} {rows : List RecordRow} {old : Option Nat}
    (hnames : conf.NamesFresh) (hfresh : w.Fresh) (hv : findView ctx zone.viewId w.db = .ok view)
    (hthrough : RowsThrough ctx conf zone recordset plan rows w)
    (hold : StoredTtl recordset.id old w)
    (hrows : ∀ r ∈ w.db.recordsOf recordset.id,
      TtlIs view.name zone.name recordset.ttlValue r.id w ∨ ∃ row ∈ rows, row.id = r.id) :
    let end_ := (updateAll ctx conf zone recordset plan rows w).2
    (∀ r ∈ end_.db.recordsOf recordset.id,
      TtlIs view.name zone.name recordset.ttlValue r.id end_) ∧
    StoredTtl recordset.id (if rows = [] then old else recordset.ttl.write old) end_ := by
  induction rows generalizing plan w old with
  | nil => exact ⟨fun r hr => (hrows r hr).resolve_right (by simp), hold⟩
  | cons row rows ih =>
    obtain ⟨res, w₁, row', a, z, rr, hrun, hl⟩ := update_through hthrough.1 hv
    -- the record that was read for the turn is the one of its row
    have hid : row.id = row'.id := Option.some.inj (findRecordRow_mem hl.rowFound).2.1
    have hrest := hthrough.2
    rw [hrun] at hrest
    have hcons : (updateAll ctx conf zone recordset plan (row :: rows) w).2 =
        (updateAll ctx conf zone recordset (fun n => plan (n + 1)) rows w₁).2 := by
      have hrun' : recordAction ctx conf (plan 0) zone { Record.ofRow row with
          action := (Record.ofRow row).action.set .UPDATE } .UPDATE recordset w =
          (.ok (some res), w₁) := hrun
      rw [updateAll, bind_ok hrun', bind_pure_snd]
    have hwritten := hl.storedTtl hold
    obtain ⟨hcopies, hstored⟩ := ih (hl.fresh hfresh) ((findView_congr hl.views).trans hv) hrest
      hwritten fun r hr => by
        obtain ⟨hr, hset⟩ := mem_recordsOf.mp hr
        rw [hl.records] at hr
        rcases Table.mem_update.mp hr with ⟨hr, hne⟩ | ⟨-, -, -, rfl⟩
        · rcases hrows r (mem_recordsOf.mpr ⟨hr, hset⟩) with httl | ⟨q, hq, he⟩
          · exact Or.inl (hl.ttlIs hnames (Or.inr httl))
          · rcases List.mem_cons.mp hq with rfl | hq
            · exact absurd (he.symm.trans hid) hne
            · exact Or.inr ⟨q, hq, he⟩
        · exact Or.inl (hl.ttlIs hnames (Or.inl rfl))
    rw [hcons]
    refine ⟨hcopies, ?_⟩
    rw [if_neg (by simp)]
    -- writing the ttl twice is writing it once
    have hsame : (if rows = [] then recordset.ttl.write old
        else recordset.ttl.write (recordset.ttl.write old)) = recordset.ttl.write old := by
      split
      · rfl
      · exact write_write _ _
    rwa [hsame] at hstored

/-! ## The whole request -/

/-- The stored recordset, the zdns rows of its records and their resource records have the ttl. -/
structure TtlAgrees (view zone : String) (id : Nat) (ttl : Option Nat) (w : World) : Prop where
  stored : StoredTtl id ttl w
  copies : ∀ r ∈ w.db.recordsOf id, TtlIs view zone ttl r.id w

/--
The zdns rows of a recordset's records have the ttl of the resource records they
name, and no two records share one.
-/
structure TtlMirrored (view zone : String) (id : Nat) (w : World) : Prop where
  copied : ∀ r ∈ w.db.recordsOf id, ∀ a ∈ w.db.recordAssociations, a.recordId = r.id →
    ∀ z ∈ w.db.zdnsRecords, z.id = a.zdnsRecordId →
      ∀ rr ∈ w.device.rrs, rr.key = (z.rrId, view, zone) → rr.ttl = z.ttl
  apart : (w.db.recordAssociations.map RecordAssociation.zdnsRecordId).Nodup

/-- A record without the ttl has a zdns row without it. -/
theorem TtlMirrored.zdnsRecord {id : Nat} {ttl : Option Nat} {r : RecordRow}
    (h : TtlMirrored view.name zone.name id w) (hr : r ∈ w.db.recordsOf id)
    (hnot : ¬ TtlIs view.name zone.name ttl r.id w) :
    ∃ old, old ≠ ttl ∧ LeftBehind r old w := by
  by_contra hnone
  refine hnot fun a ha hid z hz hzid => ?_
  have httl : z.ttl = ttl := by
    by_contra hne
    exact hnone ⟨z.ttl, hne, (mem_recordsOf.mp hr).1, ⟨a, ha, hid, z, hz, hzid, rfl⟩, h.apart⟩
  exact ⟨httl, fun rr hm hk => (h.copied r hr a ha hid z hz hzid rr hm hk).trans httl⟩

/-- An UPDATE is sent for some record of the recordset. -/
def SomeUpdate (recordset : RecordSet) (ttlChanged : Bool) (entries : List (Record × Entry))
    (db : Db) : Prop :=
  if entries = [] then db.recordsOf recordset.id ≠ []
  else ∃ p ∈ entries, p.2.Updates ttlChanged

/--
The request carries its ttl along. The recordset gets it if the object writes it and
some record is updated, or has it already; a record for which nothing is sent has it
already.
-/
structure CarriesTtl (view zone : String) (recordset : RecordSet) (stored : RecordSetRow)
    (ttlChanged : Bool) (entries : List (Record × Entry)) (w : World) : Prop where
  written : SomeUpdate recordset ttlChanged entries w.db →
    recordset.ttl.write stored.ttl = recordset.ttlValue
  unwritten : ¬ SomeUpdate recordset ttlChanged entries w.db → stored.ttl = recordset.ttlValue
  unsent : ∀ r ∈ w.db.recordsOf recordset.id,
    entries ≠ [] → (∀ p ∈ entries, ¬ p.2.Sends ttlChanged r.id) →
      TtlIs view zone recordset.ttlValue r.id w

section

variable {plan : Nat → Faults} {stored : RecordSetRow} {ttlChanged : Bool}
  {entries : List (Record × Entry)}

/-- What the recordset has after the loop of `update_recordset`. -/
theorem updateAll_ttl_iff (hwf : w.Wf) (hnames : conf.NamesFresh)
    (hview : findView ctx zone.viewId w.db = .ok view)
    (hstored : StoredTtl recordset.id stored.ttl w)
    (hthrough : RowsThrough ctx conf zone recordset plan (w.db.recordsOf recordset.id) w) :
    TtlAgrees view.name zone.name recordset.id recordset.ttlValue
        (updateAll ctx conf zone recordset plan (w.db.recordsOf recordset.id) w).2 ↔
      CarriesTtl view.name zone.name recordset stored ttlChanged [] w := by
  obtain ⟨hcopies, hend⟩ := updateAll_ttlIs hnames hwf.toFresh hview hthrough hstored
    fun r hr => Or.inr ⟨r, hr, rfl⟩
  constructor
  · intro h
    have httl := hend.unique h.stored
    refine ⟨fun hne => ?_, fun hnil => ?_, fun _ _ hne => absurd rfl hne⟩
    · rwa [if_neg (by simpa [SomeUpdate] using hne)] at httl
    · rwa [if_pos (by simpa [SomeUpdate] using hnil)] at httl
  · intro hcarries
    refine ⟨?_, hcopies⟩
    by_cases hnil : w.db.recordsOf recordset.id = []
    · rw [if_pos hnil] at hend
      rwa [← hcarries.unwritten (by simp [SomeUpdate, hnil])]
    · rw [if_neg hnil, hcarries.written (by simpa [SomeUpdate] using hnil)] at hend
      exact hend

/-- What it has after the loop of `do_update`. -/
theorem applyEntries_stored (hfresh : w.Fresh) (hview : findView ctx zone.viewId w.db = .ok view)
    (hne : entries ≠ [])
    (hstored : StoredTtl recordset.id stored.ttl w)
    (hthrough : EntriesThrough ctx conf zone recordset ttlChanged plan entries w) :
    ∃ ttl, StoredTtl recordset.id ttl
        (applyEntries ctx conf zone recordset ttlChanged plan entries w).2 ∧
      (SomeUpdate recordset ttlChanged entries w.db → ttl = recordset.ttl.write stored.ttl) ∧
      (¬ SomeUpdate recordset ttlChanged entries w.db → ttl = stored.ttl) := by
  have hsome : SomeUpdate recordset ttlChanged entries w.db ↔
      ∃ p ∈ entries, p.2.Updates ttlChanged := by
    unfold SomeUpdate
    rw [if_neg hne]
  rw [hsome]
  by_cases hu : ∃ p ∈ entries, p.2.Updates ttlChanged
  · exact ⟨_, applyEntries_storedTtl_of_some hfresh hview hthrough hu hstored,
      fun _ => rfl, fun hnot => absurd hu hnot⟩
  · exact ⟨_, applyEntries_storedTtl_of_none hfresh hview hthrough
      (fun p hp hpu => hu ⟨p, hp, hpu⟩) hstored, fun hu' => absurd hu' hu, fun _ => rfl⟩

/-- With entries it depends on what is sent. -/
theorem applyEntries_ttl_iff (hwf : w.Wf) (hnames : conf.NamesFresh)
    (hview : findView ctx zone.viewId w.db = .ok view) (hne : entries ≠ [])
    (hmirrored : TtlMirrored view.name zone.name recordset.id w)
    (hstored : StoredTtl recordset.id stored.ttl w)
    (hthrough : EntriesThrough ctx conf zone recordset ttlChanged plan entries w) :
    TtlAgrees view.name zone.name recordset.id recordset.ttlValue
        (applyEntries ctx conf zone recordset ttlChanged plan entries w).2 ↔
      CarriesTtl view.name zone.name recordset stored ttlChanged entries w := by
  have hfresh := hwf.toFresh
  obtain ⟨ttl, hend, hwritten, hunwritten⟩ :=
    applyEntries_stored hfresh hview hne hstored hthrough
  constructor
  · intro h
    have httl := hend.unique h.stored
    refine ⟨fun hs => (hwritten hs).symm.trans httl, fun hs => (hunwritten hs).symm.trans httl,
      fun r hr _ hunsent => ?_⟩
    -- a record for which nothing is sent keeps its zdns row
    by_contra hnot
    obtain ⟨old, hold, hbehind⟩ := hmirrored.zdnsRecord hr hnot
    have hleft := applyEntries_leftBehind hfresh hview hthrough hunsent hbehind
    obtain ⟨hm', ⟨a', ha', haid', z', hz', hzid', hzttl⟩, -⟩ := hleft
    have hset := (mem_recordsOf.mp hr).2
    have := (h.copies r (mem_recordsOf.mpr ⟨hm', hset⟩) a' ha' haid' z' hz' hzid').1
    exact hold (hzttl.symm.trans this)
  · intro hcarries
    refine ⟨?_, applyEntries_ttlIs hnames hfresh hview hthrough fun r hr => ?_⟩
    · by_cases hs : SomeUpdate recordset ttlChanged entries w.db
      · rwa [hwritten hs, hcarries.written hs] at hend
      · rwa [hunwritten hs, hcarries.unwritten hs] at hend
    · by_cases hsent : ∃ p ∈ entries, p.2.Sends ttlChanged r.id
      · exact Or.inr hsent
      · exact Or.inl (hcarries.unsent r hr hne fun p hp hs => hsent ⟨p, hp, hs⟩)

end

/--
**The ttl of a request arrives everywhere exactly if the request carries it along.**
-/
theorem updateRecordset_ttl_iff (ctx : Context) (conf : Conf) (plan : Nat → Faults)
    (recordset : RecordSet) (w : World) (zone : Zone) (stored : RecordSetRow) (ttlChanged : Bool)
    (entries : List (Record × Entry)) (view : View) (hwf : w.Wf) (hnames : conf.NamesFresh)
    (hacc : Accepted ctx recordset w zone stored ttlChanged entries)
    (hview : findView ctx zone.viewId w.db = .ok view)
    (hmirrored : TtlMirrored view.name zone.name recordset.id w)
    (hthrough : RequestThrough ctx conf zone recordset ttlChanged plan entries w) :
    TtlAgrees view.name zone.name recordset.id recordset.ttlValue
        (updateRecordset ctx conf plan recordset w).2 ↔
      CarriesTtl view.name zone.name recordset stored ttlChanged entries w := by
  have hstored : StoredTtl recordset.id stored.ttl w := by
    obtain ⟨hm, hid, -⟩ := Table.find_mem hacc.guarded.storedFound
    exact ⟨⟨stored, hm, hid⟩, fun s hs hsid =>
      congrArg RecordSetRow.ttl (Table.eq_of_key hwf.recordsetIds hs hm (hsid.trans hid.symm))⟩
  rw [updateRecordset_state hwf hacc]
  unfold RequestThrough at hthrough
  by_cases hempty : entries = []
  · subst hempty
    simp only [if_true] at hthrough ⊢
    exact updateAll_ttl_iff hwf hnames hview hstored hthrough
  · rw [if_neg hempty] at hthrough ⊢
    exact applyEntries_ttl_iff hwf hnames hview hempty hmirrored hstored hthrough

/-! ## At the sample -/

/-- A new ttl for `mail`, and no entries. -/
def Sample.mailRenewed : RecordSet := Sample.renewed Sample.mailRow 600 []

theorem mail_mirrored : TtlMirrored "v" "example.com." 4 Sample.world :=
  ⟨by decide +kernel, by decide +kernel⟩

/-- Nothing stops the update of the record of `mail`. -/
theorem mail_through : RequestThrough Sample.ctx Sample.conf Sample.zone Sample.mailRenewed true
    (fun _ => Faults.none) [] Sample.world := by
  have hrows : Sample.world.db.recordsOf Sample.mailRenewed.id = [Sample.record 7 4 "192.0.2.3"] := by
    decide +kernel
  unfold RequestThrough
  rw [if_pos rfl, hrows]
  refine ⟨⟨Sample.view, Sample.zdnsRecord 10 Sample.mailRow "192.0.2.3",
    Sample.rr 10 Sample.mailRow "192.0.2.3", Sample.record 7 4 "192.0.2.3", ?_, ?_, ?_⟩, trivial⟩
  · unfold ChangeAccepted
    decide +kernel
  · exact ⟨⟨rfl, by decide +kernel, Or.inl rfl, Sample.mailRow, by decide +kernel⟩, rfl⟩
  · unfold SettleAccepted
    decide +kernel

theorem updateRecordset_ttl_iff_sample :
    TtlAgrees "v" "example.com." 4 (some 600)
      (updateRecordset Sample.ctx Sample.conf (fun _ => Faults.none) Sample.mailRenewed
        Sample.world).2 := by
  refine (updateRecordset_ttl_iff Sample.ctx Sample.conf (fun _ => Faults.none) Sample.mailRenewed
    Sample.world Sample.zone Sample.mailRow true [] Sample.view sample_wf namesFresh_default
    (.ttlOnly rfl ⟨rfl, by decide, rfl, rfl⟩ rfl) rfl mail_mirrored mail_through).mpr ?_
  refine ⟨fun _ => rfl, fun hnone => absurd ?_ hnone, fun _ _ hne => absurd rfl hne⟩
  unfold SomeUpdate
  rw [if_pos rfl]
  decide +kernel

/-- All records of `www` go, and one comes, with a new ttl. -/
def Sample.replacing : List (Record × Entry) :=
  [entryOf .delete "00000000-0000-0000-0000-000000000005" "192.0.2.1",
   entryOf .delete "00000000-0000-0000-0000-000000000006" "192.0.2.2",
   entryOf .create "" "192.0.2.9"]

/--
A request for a new ttl that only deletes and creates returns, with the new ttl on the
device and the old one in the recordset.
-/
theorem replacing_keeps_ttl :
    (updateRecordset Sample.ctx Sample.conf (fun _ => Faults.none)
        (Sample.renewed Sample.wwwRow 600 (Sample.replacing.map Prod.fst)) Sample.world).1.toBool ∧
      ¬ TtlAgrees "v" "example.com." 3 (some 600)
        (updateRecordset Sample.ctx Sample.conf (fun _ => Faults.none)
          (Sample.renewed Sample.wwwRow 600 (Sample.replacing.map Prod.fst)) Sample.world).2 := by
  refine ⟨by decide +kernel, fun h => ?_⟩
  have hkept : ∃ s ∈ (updateRecordset Sample.ctx Sample.conf (fun _ => Faults.none)
      (Sample.renewed Sample.wwwRow 600 (Sample.replacing.map Prod.fst)) Sample.world).2.db.recordsets,
      s.id = 3 ∧ s.ttl = some 300 := by decide +kernel
  obtain ⟨s, hs, hid, httl⟩ := hkept
  exact absurd ((h.stored.ttl s hs hid).symm.trans httl) (by decide)

end Designate
