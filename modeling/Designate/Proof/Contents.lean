import Designate.Proof.Turns
import Designate.Proof.Frame
import Designate.Script

/-!
# What an update makes of a recordset

An accepted list is a script over the records of the recordset. `do_update` runs
another script than the one asked for: where the ttl changes it takes a `nochange`
for an `update`. The two leave the same records exactly if they agree entry by entry.
-/

namespace Designate

open Exec Script

variable {ctx : Context} {conf : Conf} {zone : Zone} {recordset : RecordSet}
  {record : Record} {w w' : World} {view : View}

/-! ## Scripts -/

/--
Rows as a table of data. Those that were there before the call, below `before`, have
their identifier as key, new ones have none.
-/
def contentsOf (before : Nat) (rows : List RecordRow) : List (Option Nat × String) :=
  rows.map fun r => (if r.id < before then some r.id else none, r.data)

/-- The record an entry names. -/
def Entry.named (entry : Entry) : Nat := (Text.uuidOfText entry.id).getD 0

/-- What an entry asks for. -/
def Entry.asks (entry : Entry) : Edit Nat String :=
  match entry.op with
  | .create => .add entry.data
  | .update => .put entry.named entry.data
  | .nochange => .keep entry.named
  | .delete => .drop entry.named

/-- What an UPDATE does: an object that carries another recordset takes the record there. -/
def Entry.writes (recordsetId : Nat) (p : Record × Entry) : Edit Nat String :=
  if p.1.recordsetId.write recordsetId = recordsetId then .put p.2.named p.2.data
  else .drop p.2.named

/-- What `do_update` does for an entry. -/
def Entry.does (recordsetId : Nat) (dealwithNochange : Bool) (p : Record × Entry) :
    Edit Nat String :=
  match p.2.op with
  | .create => .add p.2.data
  | .update => Entry.writes recordsetId p
  | .nochange => if dealwithNochange then Entry.writes recordsetId p else .keep p.2.named
  | .delete => .drop p.2.named

/-! ## The rows -/

section

variable {before recordsetId k : Nat} {l : List RecordRow}

/-- The rows of the recordset after a row is written. -/
theorem contentsOf_update {b : RecordRow} (hb : b.id = k) (hk : k < before)
    (hl : ∀ r ∈ l, r.id = k → r.recordsetId = recordsetId) :
    contentsOf before ((Table.update RecordRow.id k (fun _ => b) l).filter
        fun r => r.recordsetId == recordsetId) =
      (if b.recordsetId = recordsetId then Edit.put k b.data else Edit.drop k).apply
        (contentsOf before (l.filter fun r => r.recordsetId == recordsetId)) := by
  induction l with
  | nil => split <;> rfl
  | cons r l ih =>
    have ih := ih fun r' hr' => hl r' (List.mem_cons_of_mem _ hr')
    have hcell : r.id ≠ k → (if r.id < before then some r.id else none) ≠ some k := by
      intro hne
      split
      · exact fun he => hne (Option.some.inj he)
      · simp
    unfold contentsOf Table.update at ih ⊢
    rw [List.map_cons]
    -- the row that is written stays in the recordset or leaves it; all others keep their place
    by_cases hid : r.id = k
    · have hr := hl r List.mem_cons_self hid
      rw [if_pos hid, List.filter_cons_of_pos (l := l) (by simpa using hr)]
      by_cases hset : b.recordsetId = recordsetId
      · rw [if_pos hset] at ih ⊢
        rw [List.filter_cons_of_pos (by simpa using hset), List.map_cons, ih]
        simp [Edit.apply, hid, hb, hk]
      · rw [if_neg hset] at ih ⊢
        rw [List.filter_cons_of_neg (by simpa using hset), ih]
        simp [Edit.apply, hid, hk]
    · rw [if_neg hid]
      by_cases hr : r.recordsetId = recordsetId
      · rw [List.filter_cons_of_pos (by simpa using hr),
          List.filter_cons_of_pos (l := l) (by simpa using hr), List.map_cons, ih, List.map_cons]
        refine (Edit.apply_cons_of_ne (k := k) ?_ (hcell hid)).symm
        split <;> rfl
      · rw [List.filter_cons_of_neg (by simpa using hr),
          List.filter_cons_of_neg (l := l) (by simpa using hr), ih]

/-- The rows of the recordset after a row is removed. -/
theorem contentsOf_remove (hk : k < before) :
    contentsOf before ((Table.remove RecordRow.id k l).filter
        fun r => r.recordsetId == recordsetId) =
      (Edit.drop k).apply (contentsOf before (l.filter fun r => r.recordsetId == recordsetId)) := by
  unfold contentsOf Table.remove
  rw [Edit.apply_drop, List.filter_filter, List.filter_map, List.filter_filter]
  congr 1
  refine List.filter_congr fun r _ => ?_
  have hcell : (if r.id < before then some r.id else none) = some k ↔ r.id = k := by
    split
    · exact ⟨Option.some.inj, congrArg some⟩
    · exact ⟨fun h => absurd h (by simp), fun h => by omega⟩
  simp only [Function.comp_apply, ne_eq, hcell]
  rw [Bool.and_comm]

end

/-- The records of a recordset as a table of data. -/
def Db.contents (before recordsetId : Nat) (db : Db) : List (Option Nat × String) :=
  contentsOf before (db.recordsOf recordsetId)

/-! ## One turn -/

/-- An entry names a record that the recordset has, from before the call. -/
def NamesStored (before recordsetId : Nat) (entry : Entry) (db : Db) : Prop :=
  entry.op ≠ .create →
    ∃ r ∈ db.recordsOf recordsetId, Text.uuidOfText entry.id = some r.id ∧ r.id < before

theorem Entry.named_eq {entry : Entry} {id : Nat} (h : Text.uuidOfText entry.id = some id) :
    entry.named = id := by
  unfold Entry.named
  rw [h]
  rfl

/-- The text of an entry is not its data. -/
theorem Entry.data_ne {p : Record × Entry} (h : Entry.ofText p.1.text = some p.2) :
    p.1.data.value ≠ some p.2.data := by
  intro he
  have htext : p.1.text = p.2.data := by
    unfold Record.text
    rw [he]
    rfl
  have hsplit := (Entry.ofText_spec h).1
  have hsep : ';' ∉ p.2.data.toList := Text.not_mem_split (by rw [hsplit]; simp)
  have hlen := Text.length_split p.1.text ';'
  rw [hsplit, htext, Text.count, List.count_eq_zero.mpr hsep] at hlen
  exact absurd hlen (by simp)

section

variable {before : Nat} {dealwithNochange : Bool} {p : Record × Entry}

/-- The row an UPDATE writes for an entry. -/
theorem writtenRow_entry (htext : Entry.ofText p.1.text = some p.2) (row : RecordRow) :
    (writtenRow conf (p.2.updateObject p.1).settle row).data = p.2.data ∧
      (writtenRow conf (p.2.updateObject p.1).settle row).recordsetId =
        p.1.recordsetId.write row.recordsetId := by
  refine ⟨?_, ?_⟩
  · rw [writtenRow_data]
    exact Tracked.set_write_of_ne (Entry.data_ne htext) _
  · simp [writtenRow, Record.updateRow]
    rfl

/-- **What a turn does to the recordset is what the script says.** -/
theorem EntryLeaves.contents
    (h : EntryLeaves ctx conf zone recordset dealwithNochange view p w w') (hfresh : w.Fresh)
    (hids : (w.db.records.map RecordRow.id).Nodup) (hbefore : before ≤ w.nextId)
    (htext : Entry.ofText p.1.text = some p.2) (hnames : NamesStored before recordset.id p.2 w.db) :
    w'.db.contents before recordset.id =
      (Entry.does recordset.id dealwithNochange p).apply (w.db.contents before recordset.id) := by
  unfold Entry.does
  cases h with
  | kept hop hd =>
    rw [hop, hd]
    rfl
  | created row hop hs =>
    rw [hop]
    have hins := hs.inserted
    obtain ⟨hdata, hset⟩ : (writtenRow conf (Record.ofRow row).settle row).data = p.2.data ∧
        (writtenRow conf (Record.ofRow row).settle row).recordsetId = recordset.id := by
      rw [writtenRow_settle_ofRow (by rw [hins.action]; simp)]
      exact ⟨hins.data, hins.recordsetId⟩
    -- the new row is written once more behind its insert, which touches no other row
    have hrecords : (w.createdOne conf view zone recordset row).db.records =
        w.db.records ++ [writtenRow conf (Record.ofRow row).settle row] := by
      show Table.update RecordRow.id row.id _ (w.db.records ++ [row]) = _
      rw [Table.update_append, Table.update_id fun r hr he => ?_]
      · simp [Table.update]
      · have := hfresh.records r hr
        have := hins.id_eq
        omega
    unfold Db.contents Db.recordsOf contentsOf
    rw [hrecords, List.filter_append, List.map_append,
      List.filter_cons_of_pos (by simpa using hset), List.filter_nil, List.map_singleton, hdata]
    -- it has a new identifier, so the script names it nowhere
    have hnew : ¬ (writtenRow conf (Record.ofRow row).settle row).id < before := by
      have := hins.id_eq
      simp only [writtenRow_id]
      omega
    rw [if_neg hnew]
    rfl
  | updated row a z rr hop hl =>
    have hne : p.2.op ≠ .create := by
      rcases hop with hu | ⟨hu, -⟩ <;> rw [hu] <;> simp
    obtain ⟨r, hr, hid, hlt⟩ := hnames hne
    have hrow : row.id = r.id :=
      (Option.some.inj (hid.symm.trans (findRecordRow_mem hl.rowFound).2.1)).symm
    obtain ⟨hm, hset⟩ := mem_recordsOf.mp hr
    obtain ⟨hdata, hmoved⟩ := writtenRow_entry htext row
    -- the row was in the recordset, and may be moved out of it by the entry
    have hold : row.recordsetId = recordset.id := by
      rw [← hset]
      exact congrArg RecordRow.recordsetId
        (Table.eq_of_key hids (findRecordRow_mem hl.rowFound).1 hm hrow)
    have hwrites : (if (writtenRow conf (p.2.updateObject p.1).settle row).recordsetId = recordset.id
        then Edit.put row.id (writtenRow conf (p.2.updateObject p.1).settle row).data
        else Edit.drop row.id) = Entry.writes recordset.id p := by
      unfold Entry.writes
      rw [hmoved, hold, hdata, Entry.named_eq hid, hrow]
    have hall : ∀ r' ∈ w.db.records, r'.id = row.id → r'.recordsetId = recordset.id := by
      intro r' hr' he
      rw [Table.eq_of_key hids hr' hm (he.trans hrow)]
      exact hset
    have hrun := contentsOf_update (b := writtenRow conf (p.2.updateObject p.1).settle row)
      (k := row.id) rfl (hrow ▸ hlt) hall
    rw [hwrites] at hrun
    unfold Db.contents Db.recordsOf
    rw [hl.records, hrun]
    rcases hop with hu | ⟨hu, hd⟩
    · rw [hu]
    · rw [hu, hd, if_pos rfl]
  | deleted row a z rr hop hl =>
    obtain ⟨r, hr, hid, hlt⟩ := hnames (by rw [hop]; simp)
    have hrow : row.id = r.id :=
      (Option.some.inj (hid.symm.trans (findRecordRow_mem hl.rowFound).2.1)).symm
    unfold Db.contents Db.recordsOf
    rw [hop, hl.records, Entry.named_eq hid, ← hrow]
    exact contentsOf_remove (hrow ▸ hlt)

/-- A turn keeps the record of every entry that names another one. -/
theorem EntryLeaves.namesStored
    (h : EntryLeaves ctx conf zone recordset dealwithNochange view p w w') {entry : Entry}
    (hfresh : w.Fresh)
    (hother : p.2.op ≠ .create → Text.uuidOfText p.2.id ≠ Text.uuidOfText entry.id)
    (hnames : NamesStored before recordset.id entry w.db) :
    NamesStored before recordset.id entry w'.db := by
  intro hop'
  obtain ⟨r, hr, hid, hlt⟩ := hnames hop'
  obtain ⟨hm, hset⟩ := mem_recordsOf.mp hr
  refine ⟨r, mem_recordsOf.mpr ⟨?_, hset⟩, hid, hlt⟩
  -- a row that is found for the entry has the name of the entry
  have hne : ∀ {object : Record} {row : RecordRow}, p.2.op ≠ .create →
      object.id = Text.uuidOfText p.2.id → findRecordRow ctx object.id w.db = .ok row →
      r.id ≠ row.id := by
    intro object row hop hobj hrow he
    have hrid := (findRecordRow_mem hrow).2.1
    rw [hobj] at hrid
    exact hother hop (hrid.trans ((congrArg some he.symm).trans hid.symm))
  cases h with
  | kept => exact hm
  | created row hop hs =>
    have hid : r.id ≠ row.id := by
      have := hfresh.records r hm
      have := hs.inserted.id_eq
      omega
    exact Table.mem_update.mpr (Or.inl ⟨List.mem_append_left _ hm, hid⟩)
  | updated row a z rr hop hl =>
    have hop' : p.2.op ≠ .create := by
      rcases hop with hu | ⟨hu, -⟩ <;> rw [hu] <;> simp
    rw [hl.records]
    exact Table.mem_update.mpr (Or.inl ⟨hm, hne hop' rfl hl.rowFound⟩)
  | deleted row a z rr hop hl =>
    rw [hl.records]
    exact Table.mem_remove.mpr ⟨hm, hne (by rw [hop]; simp) rfl hl.rowFound⟩

theorem EntryLeaves.recordIds
    (h : EntryLeaves ctx conf zone recordset dealwithNochange view p w w') (hfresh : w.Fresh)
    (hids : (w.db.records.map RecordRow.id).Nodup) : (w'.db.records.map RecordRow.id).Nodup := by
  cases h with
  | kept => exact hids
  | created row hop hs =>
    show ((Table.update RecordRow.id row.id _ (w.db.records ++ [row])).map RecordRow.id).Nodup
    rw [Table.map_update fun r _ he => by rw [writtenRow_id]; exact he.symm]
    refine Table.append_nodup hids fun r hr => ?_
    have := hfresh.records r hr
    have := hs.inserted.id_eq
    omega
  | updated row a z rr hop hl =>
    rw [hl.records, Table.map_update fun r _ he => by rw [writtenRow_id]; exact he.symm]
    exact hids
  | deleted row a z rr hop hl =>
    rw [hl.records]
    exact Table.remove_nodup hids

theorem EntryLeaves.nextId_le
    (h : EntryLeaves ctx conf zone recordset dealwithNochange view p w w') :
    w.nextId ≤ w'.nextId := by
  cases h with
  | kept => exact Nat.le_refl _
  | created => exact Nat.le_add_right _ 2
  | updated _ _ _ _ _ hl => exact Nat.le_of_eq hl.nextId.symm
  | deleted _ _ _ _ _ hl => exact Nat.le_of_eq hl.nextId.symm

end

/-! ## The loop -/

/--
What holds when the rest of the loop is `entries`. The identifiers that the entries name are
distinct, so what one turn writes is not what a later one speaks of.
-/
structure Underway (before : Nat) (recordset : RecordSet) (entries : List (Record × Entry))
    (w : World) : Prop where
  fresh : w.Fresh
  recordIds : (w.db.records.map RecordRow.id).Nodup
  before_le : before ≤ w.nextId
  texts : ∀ p ∈ entries, Entry.ofText p.1.text = some p.2
  stored : ∀ p ∈ entries, NamesStored before recordset.id p.2 w.db
  distinct : (namedIds entries).Nodup

section

variable {before : Nat} {dealwithNochange : Bool} {p : Record × Entry} {plan : Nat → Faults}
  {entries : List (Record × Entry)}

theorem Underway.step (h : Underway before recordset (p :: entries) w)
    (hl : EntryLeaves ctx conf zone recordset dealwithNochange view p w w') :
    Underway before recordset entries w' where
  fresh := hl.fresh h.fresh
  recordIds := hl.recordIds h.fresh h.recordIds
  before_le := Nat.le_trans h.before_le hl.nextId_le
  texts q hq := h.texts q (List.mem_cons_of_mem _ hq)
  stored q hq hop := by
    refine hl.namesStored h.fresh (fun hp he => ?_) (h.stored q (List.mem_cons_of_mem _ hq)) hop
    have hd := h.distinct
    unfold namedIds at hd
    rw [List.filter_cons_of_pos (by simpa using hp), List.map_cons, List.nodup_cons] at hd
    exact hd.1 (List.mem_map.mpr ⟨q, List.mem_filter.mpr ⟨hq, by simpa using hop⟩, he.symm⟩)
  distinct := by
    have hd := h.distinct
    unfold namedIds at hd ⊢
    exact hd.sublist (List.Sublist.map _ (List.Sublist.filter _ (List.sublist_cons_self _ _)))

/-- **The loop runs its script over the recordset.** -/
theorem applyEntries_contents (h : Underway before recordset entries w)
    (hv : findView ctx zone.viewId w.db = .ok view)
    (hthrough : EntriesThrough ctx conf zone recordset dealwithNochange plan entries w) :
    (applyEntries ctx conf zone recordset dealwithNochange plan entries w).2.db.contents before
        recordset.id =
      run (entries.map (Entry.does recordset.id dealwithNochange))
        (w.db.contents before recordset.id) := by
  induction entries generalizing plan w with
  | nil => rfl
  | cons p entries ih =>
    obtain ⟨w₁, hrun, hleaves⟩ := entry_through h.fresh hthrough.1 hv
    have hrest := hthrough.2
    rw [hrun] at hrest
    rw [applyEntries_cons hrun,
      ih (h.step hleaves) ((findView_congr hleaves.views).trans hv) hrest,
      hleaves.contents h.fresh h.recordIds h.before_le (h.texts p List.mem_cons_self)
        (h.stored p List.mem_cons_self)]
    rfl

end

end Designate
