import Designate.Proof.Contents

/-!
# Records and their resource records

A record leads through its association and its zdns row to a resource record. While
nothing fails, a recordset and the resource records of its name and type on the
device stay paired off, with the same data.
-/

namespace Designate

open Exec

variable {ctx : Context} {conf : Conf} {zone : Zone} {recordset : RecordSet}
  {record : Record} {w w' : World} {view : View}

/-- The record `id` has the zdns row `z`. -/
def Behind (id : Nat) (z : ZdnsRecord) (w : World) : Prop :=
  ∃ a ∈ w.db.recordAssociations, a.recordId = id ∧ z ∈ w.db.zdnsRecords ∧ z.id = a.zdnsRecordId

/-- Keys of the mirror tables and of the device. -/
structure Keyed (w : World) : Prop where
  associations : (w.db.recordAssociations.map RecordAssociation.recordId).Nodup
  /-- No two records share a zdns row. -/
  apart : (w.db.recordAssociations.map RecordAssociation.zdnsRecordId).Nodup
  zdnsRecords : (w.db.zdnsRecords.map ZdnsRecord.id).Nodup
  rrs : (w.device.rrs.map RR.key).Nodup

/-- The records of a recordset are paired off with the resource records of its name and type. -/
structure Mirrored (view zone : String) (recordset : RecordSet) (w : World) : Prop where
  keyed : Keyed w
  copied : ∀ r ∈ w.db.recordsOf recordset.id, ∃ z, Behind r.id z w ∧
    ∃ rr ∈ w.device.rrs, rr.key = (z.rrId, view, zone) ∧ rr.name = recordset.name ∧
      rr.type = recordset.type ∧ rr.rdata = r.data
  owned : ∀ rr ∈ w.device.rrs, rr.view = view → rr.zone = zone → rr.name = recordset.name →
    rr.type = recordset.type → ∃ r ∈ w.db.recordsOf recordset.id, ∃ z, Behind r.id z w ∧
      rr.key = (z.rrId, view, zone)
  injective : ∀ r ∈ w.db.recordsOf recordset.id, ∀ r' ∈ w.db.recordsOf recordset.id, ∀ z z',
    Behind r.id z w → Behind r'.id z' w → z.rrId = z'.rrId → r.id = r'.id

theorem Behind.unique (hkeyed : Keyed w) {id : Nat} {z z' : ZdnsRecord} (h : Behind id z w)
    (h' : Behind id z' w) : z = z' := by
  obtain ⟨a, ha, haid, hz, hzid⟩ := h
  obtain ⟨a', ha', haid', hz', hzid'⟩ := h'
  obtain rfl := Table.eq_of_key hkeyed.associations ha ha' (haid.trans haid'.symm)
  exact Table.eq_of_key hkeyed.zdnsRecords hz hz' (hzid.trans hzid'.symm)

theorem Behind.id_eq (hkeyed : Keyed w) {id id' : Nat} {z : ZdnsRecord} (h : Behind id z w)
    (h' : Behind id' z w) : id = id' := by
  obtain ⟨a, ha, haid, hz, hzid⟩ := h
  obtain ⟨a', ha', haid', hz', hzid'⟩ := h'
  obtain rfl := Table.eq_of_key hkeyed.apart ha ha' (hzid.symm.trans hzid')
  exact haid.symm.trans haid'

/-! ## An UPDATE -/

section

variable {row : RecordRow} {a : RecordAssociation} {z : ZdnsRecord} {rr : RR}

theorem UpdateLeaves.behind_row
    (h : UpdateLeaves ctx conf zone recordset record view row a z rr w w') : Behind row.id z w :=
  ⟨a, (Table.find_mem h.associated).1, (Table.find_mem h.associated).2.1,
    (Table.find_mem h.mirrored).1, h.zdnsRecord_id⟩

/-- The zdns row of the record is rewritten, those of other records are not. -/
theorem UpdateLeaves.behind
    (h : UpdateLeaves ctx conf zone recordset record view row a z rr w w') (hkeyed : Keyed w)
    {id : Nat} {y : ZdnsRecord} :
    Behind id y w' ↔ id ≠ row.id ∧ Behind id y w ∨
      id = row.id ∧ y = z.updated conf w.device.rrs rr record recordset := by
  have hrow := h.behind_row
  unfold Behind
  rw [h.associations, h.zdnsRecords]
  constructor
  · rintro ⟨a', ha', haid', hy, hyid⟩
    rcases Table.mem_update.mp hy with ⟨hy, hne⟩ | ⟨z', hz', hzid, rfl⟩
    · refine Or.inl ⟨fun he => hne ?_, a', ha', haid', hy, hyid⟩
      exact congrArg ZdnsRecord.id (Behind.unique hkeyed ⟨a', ha', haid'.trans he, hy, hyid⟩ hrow)
    · refine Or.inr ⟨Behind.id_eq hkeyed ⟨a', ha', haid', ?_, ?_⟩ hrow, rfl⟩
      · exact (Table.find_mem h.mirrored).1
      · exact hyid
  · rintro (⟨hne, a', ha', haid', hy, hyid⟩ | ⟨rfl, rfl⟩)
    · -- a row of another record has another identifier, so the update passes it by
      refine ⟨a', ha', haid', Table.mem_update.mpr (Or.inl ⟨hy, fun he => hne ?_⟩), hyid⟩
      obtain rfl := Table.eq_of_key hkeyed.zdnsRecords hy (Table.find_mem h.mirrored).1 he
      exact Behind.id_eq hkeyed ⟨a', ha', haid', hy, hyid⟩ hrow
    · obtain ⟨a', ha', haid', hz', hzid'⟩ := hrow
      exact ⟨a', ha', haid', Table.mem_update.mpr (Or.inr ⟨z, hz', rfl, rfl⟩), hzid'⟩

/-- The new name on the device is nobody else's. -/
theorem UpdateLeaves.key_ne
    (h : UpdateLeaves ctx conf zone recordset record view row a z rr w w')
    (hnames : conf.NamesFresh) {rr' : RR} (hm : rr' ∈ w.device.rrs) (hne : rr'.key ≠ rr.key) :
    rr'.key ≠ ((z.updated conf w.device.rrs rr record recordset).rrId, view.name, zone.name) := by
  obtain ⟨-, hkey⟩ := h.rr_key
  have hplace : rr.view = view.name ∧ rr.zone = zone.name := by
    simp only [RR.key, Prod.mk.injEq] at hkey
    exact hkey.2
  intro hk
  refine hnames _ { rr.toRRData with ttl := recordset.ttlValue, rdata := record.text } rr'
    (Table.mem_remove.mpr ⟨hm, hne⟩) ?_
  rw [hk]
  exact congrArg₂ _ rfl (congrArg₂ _ hplace.1.symm hplace.2.symm)

theorem UpdateLeaves.newKey
    (h : UpdateLeaves ctx conf zone recordset record view row a z rr w w') :
    (rr.updated conf w.device.rrs recordset.ttlValue record.text).key =
      ((z.updated conf w.device.rrs rr record recordset).rrId, view.name, zone.name) := by
  obtain ⟨-, hkey⟩ := h.rr_key
  simp only [RR.key, Prod.mk.injEq] at hkey
  exact congrArg₂ _ rfl (congrArg₂ _ hkey.2.1 hkey.2.2)

theorem UpdateLeaves.keyed
    (h : UpdateLeaves ctx conf zone recordset record view row a z rr w w')
    (hnames : conf.NamesFresh) (hkeyed : Keyed w) : Keyed w' where
  associations := by rw [h.associations]; exact hkeyed.associations
  apart := by rw [h.associations]; exact hkeyed.apart
  zdnsRecords := by
    have hmap := Table.map_update (g := ZdnsRecord.id) (l := w.db.zdnsRecords)
      (f := fun _ => z.updated conf w.device.rrs rr record recordset) fun y _ (he : y.id = z.id) =>
        he.symm
    rw [h.zdnsRecords, hmap]
    exact hkeyed.zdnsRecords
  rrs := by
    rw [h.rrs]
    refine Table.update_nodup hkeyed.rrs hkeyed.rrs h.rr_key.1 fun rr' hm hne => ?_
    rw [h.newKey]
    exact h.key_ne hnames hm hne

/-- **An UPDATE that keeps the record in its recordset keeps the pairs.** -/
theorem UpdateLeaves.paired
    (h : UpdateLeaves ctx conf zone recordset record view row a z rr w w')
    (hnames : conf.NamesFresh) (hrow : row ∈ w.db.recordsOf recordset.id)
    (hstays : (writtenRow conf record.settle row).recordsetId = recordset.id)
    (hdata : (writtenRow conf record.settle row).data = record.text)
    (hpaired : Mirrored view.name zone.name recordset w) :
    Mirrored view.name zone.name recordset w' := by
  have hkeyed := hpaired.keyed
  have hnew : rr.updated conf w.device.rrs recordset.ttlValue record.text ∈ w'.device.rrs := by
    rw [h.rrs]
    exact Table.mem_update.mpr (Or.inr ⟨rr, h.rr_key.1, rfl, rfl⟩)
  have hbehind : Behind row.id (z.updated conf w.device.rrs rr record recordset) w' :=
    (h.behind hkeyed).mpr (Or.inr ⟨rfl, rfl⟩)
  -- the records of the recordset are the same but for the one that was written
  have hrecords : ∀ r, r ∈ w'.db.recordsOf recordset.id ↔
      r ∈ w.db.recordsOf recordset.id ∧ r.id ≠ row.id ∨ r = writtenRow conf record.settle row := by
    intro r
    rw [mem_recordsOf, h.records, mem_recordsOf, Table.mem_update]
    constructor
    · rintro ⟨⟨hm, hne⟩ | ⟨-, -, -, rfl⟩, hset⟩
      · exact Or.inl ⟨⟨hm, hset⟩, hne⟩
      · exact Or.inr rfl
    · rintro (⟨⟨hm, hset⟩, hne⟩ | rfl)
      · exact ⟨Or.inl ⟨hm, hne⟩, hset⟩
      · exact ⟨Or.inr ⟨row, (mem_recordsOf.mp hrow).1, rfl, rfl⟩, hstays⟩
  -- the resource record of the record was that of its zdns row
  have hown : ∀ rr' ∈ w.device.rrs, rr'.key = (z.rrId, view.name, zone.name) → rr' = rr :=
    fun rr' hm hk => Table.eq_of_key hkeyed.rrs hm h.rr_key.1 (hk.trans h.rr_key.2.symm)
  refine ⟨h.keyed hnames hkeyed, fun r hr => ?_, fun rr' hm hv hz hn ht => ?_, ?_⟩
  · rcases (hrecords r).mp hr with ⟨hr, hne⟩ | rfl
    · obtain ⟨y, hy, rr', hm, hk, hrest⟩ := hpaired.copied r hr
      refine ⟨y, (h.behind hkeyed).mpr (Or.inl ⟨hne, hy⟩), rr', ?_, hk, hrest⟩
      rw [h.rrs]
      refine Table.mem_update.mpr (Or.inl ⟨hm, fun he => hne ?_⟩)
      rw [he, h.rr_key.2] at hk
      exact (hpaired.injective row hrow r hr z y h.behind_row hy (congrArg Prod.fst hk)).symm
    · obtain ⟨y, hy, rr', hm, hk, hname, htype, -⟩ := hpaired.copied row hrow
      obtain rfl := Behind.unique hkeyed hy h.behind_row
      obtain rfl := hown rr' hm hk
      exact ⟨_, hbehind, _, hnew, h.newKey, hname, htype, hdata.symm⟩
  · rw [h.rrs] at hm
    rcases Table.mem_update.mp hm with ⟨hm, hne⟩ | ⟨-, -, -, rfl⟩
    · obtain ⟨r, hr, y, hy, hk⟩ := hpaired.owned rr' hm hv hz hn ht
      have hrne : r.id ≠ row.id := by
        intro he
        obtain rfl := Behind.unique hkeyed (he ▸ hy) h.behind_row
        exact hne (hk.trans h.rr_key.2.symm)
      exact ⟨r, (hrecords r).mpr (Or.inl ⟨hr, hrne⟩), y, (h.behind hkeyed).mpr (Or.inl ⟨hrne, hy⟩),
        hk⟩
    · exact ⟨_, (hrecords _).mpr (Or.inr rfl), _, hbehind, h.newKey⟩
  · -- the new name is none of those that the other records have
    have hfresh : ∀ r ∈ w.db.recordsOf recordset.id, r.id ≠ row.id → ∀ y, Behind r.id y w →
        y.rrId ≠ (z.updated conf w.device.rrs rr record recordset).rrId := by
      intro r hr hne y hy he
      obtain ⟨y', hy', rr', hm, hk, -⟩ := hpaired.copied r hr
      obtain rfl := Behind.unique hkeyed hy' hy
      refine h.key_ne hnames hm (fun hkey => hne ?_) (by rw [hk, he])
      rw [hkey, h.rr_key.2] at hk
      exact (hpaired.injective row hrow r hr z _ h.behind_row hy (congrArg Prod.fst hk)).symm
    intro r hr r' hr' y y' hy hy' he
    rcases (hrecords r).mp hr with ⟨hr, hne⟩ | rfl
    · have hy := ((h.behind hkeyed).mp hy).resolve_right fun h => hne h.1
      rcases (hrecords r').mp hr' with ⟨hr', hne'⟩ | rfl
      · have hy' := ((h.behind hkeyed).mp hy').resolve_right fun h => hne' h.1
        exact hpaired.injective r hr r' hr' y y' hy.2 hy'.2 he
      · have hy' := ((h.behind hkeyed).mp hy').resolve_left fun h => h.1 rfl
        exact absurd (he.trans (congrArg ZdnsRecord.rrId hy'.2)) (hfresh r hr hne y hy.2)
    · have hy := ((h.behind hkeyed).mp hy).resolve_left fun h => h.1 rfl
      rcases (hrecords r').mp hr' with ⟨hr', hne'⟩ | rfl
      · have hy' := ((h.behind hkeyed).mp hy').resolve_right fun h => hne' h.1
        exact absurd (he.symm.trans (congrArg ZdnsRecord.rrId hy.2)) (hfresh r' hr' hne' y' hy'.2)
      · rfl

end

/-! ## A DELETE -/

section

variable {row : RecordRow} {a : RecordAssociation} {z : ZdnsRecord} {rr : RR}

theorem DeleteLeaves.behind_row
    (h : DeleteLeaves ctx zone record view row a z rr w w') : Behind row.id z w :=
  ⟨a, (Table.find_mem h.associated).1, (Table.find_mem h.associated).2.1,
    (Table.find_mem h.mirrored).1, (Table.find_mem h.mirrored).2.1⟩

theorem DeleteLeaves.rr_key (h : DeleteLeaves ctx zone record view row a z rr w w') :
    rr ∈ w.device.rrs ∧ rr.key = (z.rrId, view.name, zone.name) :=
  ⟨(Table.find_mem h.onDevice).1, (Table.find_mem h.onDevice).2.1⟩

/-- Other records keep their zdns rows. -/
theorem DeleteLeaves.behind (h : DeleteLeaves ctx zone record view row a z rr w w')
    (hkeyed : Keyed w) {id : Nat} {y : ZdnsRecord} :
    Behind id y w' ↔ id ≠ row.id ∧ Behind id y w := by
  have hrow := h.behind_row
  have hzid : z.id = a.zdnsRecordId := (Table.find_mem h.mirrored).2.1
  unfold Behind
  rw [h.associations, h.zdnsRecords]
  constructor
  · rintro ⟨a', ha', haid', hy, hyid⟩
    obtain ⟨ha', hne⟩ := Table.mem_remove.mp ha'
    exact ⟨fun he => hne (haid'.trans he), a', ha', haid', (Table.mem_remove.mp hy).1, hyid⟩
  · rintro ⟨hne, a', ha', haid', hy, hyid⟩
    refine ⟨a', Table.mem_remove.mpr ⟨ha', haid' ▸ hne⟩, haid',
      Table.mem_remove.mpr ⟨hy, fun he => hne ?_⟩, hyid⟩
    obtain rfl := Table.eq_of_key hkeyed.zdnsRecords hy (Table.find_mem h.mirrored).1
      (he.trans hzid.symm)
    exact Behind.id_eq hkeyed ⟨a', ha', haid', hy, hyid⟩ hrow

theorem DeleteLeaves.keyed (h : DeleteLeaves ctx zone record view row a z rr w w')
    (hkeyed : Keyed w) : Keyed w' where
  associations := by rw [h.associations]; exact Table.remove_nodup hkeyed.associations
  apart := by
    rw [h.associations]
    exact hkeyed.apart.sublist (List.Sublist.map _ List.filter_sublist)
  zdnsRecords := by rw [h.zdnsRecords]; exact Table.remove_nodup hkeyed.zdnsRecords
  rrs := by rw [h.rrs]; exact Table.remove_nodup hkeyed.rrs

/-- **A DELETE takes one pair away.** -/
theorem DeleteLeaves.paired (h : DeleteLeaves ctx zone record view row a z rr w w')
    (hrow : row ∈ w.db.recordsOf recordset.id)
    (hpaired : Mirrored view.name zone.name recordset w) :
    Mirrored view.name zone.name recordset w' := by
  have hkeyed := hpaired.keyed
  -- one record of the recordset is gone, the others are the ones of before
  have hrecords : ∀ r, r ∈ w'.db.recordsOf recordset.id ↔
      r ∈ w.db.recordsOf recordset.id ∧ r.id ≠ row.id := by
    intro r
    rw [mem_recordsOf, h.records, mem_recordsOf, Table.mem_remove]
    exact ⟨fun ⟨⟨hm, hne⟩, hset⟩ => ⟨⟨hm, hset⟩, hne⟩, fun ⟨⟨hm, hset⟩, hne⟩ => ⟨⟨hm, hne⟩, hset⟩⟩
  refine ⟨h.keyed hkeyed, fun r hr => ?_, fun rr' hm hv hz hn ht => ?_, ?_⟩
  · obtain ⟨hr, hne⟩ := (hrecords r).mp hr
    obtain ⟨y, hy, rr', hm, hk, hrest⟩ := hpaired.copied r hr
    refine ⟨y, (h.behind hkeyed).mpr ⟨hne, hy⟩, rr', ?_, hk, hrest⟩
    rw [h.rrs]
    refine Table.mem_remove.mpr ⟨hm, fun he => hne ?_⟩
    rw [he, h.rr_key.2] at hk
    -- the mirror that went is of no other record
    exact (hpaired.injective row hrow r hr z y h.behind_row hy (congrArg Prod.fst hk)).symm
  · rw [h.rrs] at hm
    obtain ⟨hm, hne⟩ := Table.mem_remove.mp hm
    obtain ⟨r, hr, y, hy, hk⟩ := hpaired.owned rr' hm hv hz hn ht
    have hrne : r.id ≠ row.id := by
      intro he
      obtain rfl := Behind.unique hkeyed (he ▸ hy) h.behind_row
      exact hne (hk.trans h.rr_key.2.symm)
    exact ⟨r, (hrecords r).mpr ⟨hr, hrne⟩, y, (h.behind hkeyed).mpr ⟨hrne, hy⟩, hk⟩
  · intro r hr r' hr' y y' hy hy' he
    exact hpaired.injective r ((hrecords r).mp hr).1 r' ((hrecords r').mp hr').1 y y'
      ((h.behind hkeyed).mp hy).2 ((h.behind hkeyed).mp hy').2 he

end

/-! ## A new record -/

section

variable {row : RecordRow}

/-- The zdns row of a new record. -/
def newZdnsRecord (conf : Conf) (view : View) (zone : Zone) (recordset : RecordSet)
    (row : RecordRow) (w : World) : ZdnsRecord :=
  (createValues (Record.ofRow row) recordset
    (conf.rrName w.device.rrs (createData view zone (Record.ofRow row) recordset))).row (w.nextId + 1)

/-- Other records keep their zdns rows, and the new one has its own. -/
theorem createdOne_behind (hfresh : w.Fresh)
    (hrow : Inserted ctx conf zone recordset record w.db w.nextId row) {id : Nat} {y : ZdnsRecord} :
    Behind id y (w.createdOne conf view zone recordset row) ↔
      id ≠ row.id ∧ Behind id y w ∨
        id = row.id ∧ y = newZdnsRecord conf view zone recordset row w := by
  have hid := hrow.id_eq
  constructor
  · rintro ⟨a, ha, haid, hy, hyid⟩
    rcases List.mem_append.mp ha with ha | ha
    · -- old associations name old identifiers, and the new ones come after them
      have hlt := hfresh.associations a ha
      rcases List.mem_append.mp hy with hy | hy
      · exact Or.inl ⟨by omega, a, ha, haid, hy, hyid⟩
      · rw [List.mem_singleton.mp hy] at hyid
        have : w.nextId + 1 = a.zdnsRecordId := hyid
        omega
    · rw [List.mem_singleton.mp ha] at haid hyid
      rcases List.mem_append.mp hy with hy | hy
      · have := hfresh.zdnsRecords y hy
        dsimp only at hyid
        omega
      · exact Or.inr ⟨haid.symm, List.mem_singleton.mp hy⟩
  · rintro (⟨hne, a, ha, haid, hy, hyid⟩ | ⟨rfl, rfl⟩)
    · exact ⟨a, List.mem_append_left _ ha, haid, List.mem_append_left _ hy, hyid⟩
    · exact ⟨⟨row.id, w.nextId + 1⟩, List.mem_append_right _ (List.mem_singleton_self _), rfl,
        List.mem_append_right _ (List.mem_singleton_self _), rfl⟩

theorem createdOne_keyed (hnames : conf.NamesFresh) (hfresh : w.Fresh)
    (hrow : Inserted ctx conf zone recordset record w.db w.nextId row) (hkeyed : Keyed w) :
    Keyed (w.createdOne conf view zone recordset row) where
  -- the new rows have identifiers that were free before
  associations := by
    refine Table.append_nodup hkeyed.associations fun a ha => ?_
    have := hfresh.associations a ha
    have := hrow.id_eq
    dsimp only
    omega
  apart := by
    refine Table.append_nodup hkeyed.apart fun a ha => ?_
    have := hfresh.associations a ha
    dsimp only
    omega
  zdnsRecords := by
    refine Table.append_nodup hkeyed.zdnsRecords fun y hy => ?_
    have := hfresh.zdnsRecords y hy
    show y.id ≠ w.nextId + 1
    omega
  rrs := Table.append_nodup hkeyed.rrs fun rr hm =>
    hnames w.device.rrs (createData view zone (Record.ofRow row) recordset) rr hm

/-- **A new record comes with its resource record.** -/
theorem createdOne_paired (hnames : conf.NamesFresh) (hfresh : w.Fresh)
    (hrow : Inserted ctx conf zone recordset record w.db w.nextId row)
    (hpaired : Mirrored view.name zone.name recordset w) :
    Mirrored view.name zone.name recordset (w.createdOne conf view zone recordset row) := by
  have hid := hrow.id_eq
  let data := createData view zone (Record.ofRow row) recordset
  let new : RR := ⟨data, conf.rrName w.device.rrs data⟩
  have hnew : new ∈ (w.createdOne conf view zone recordset row).device.rrs :=
    List.mem_append_right _ (List.mem_singleton_self _)
  have hbehind : ∀ {id y}, Behind id y (w.createdOne conf view zone recordset row) ↔
      id ≠ row.id ∧ Behind id y w ∨ id = row.id ∧ y = newZdnsRecord conf view zone recordset row w :=
    createdOne_behind hfresh hrow
  have hold : ∀ r ∈ w.db.recordsOf recordset.id, r.id ≠ row.id := by
    intro r hr
    have := hfresh.records r (mem_recordsOf.mp hr).1
    omega
  have hsettled : (writtenRow conf (Record.ofRow row).settle row).recordsetId = recordset.id ∧
      (writtenRow conf (Record.ofRow row).settle row).data = row.data := by
    rw [writtenRow_settle_ofRow (by rw [hrow.action]; simp)]
    exact ⟨hrow.recordsetId, rfl⟩
  have hrecords : ∀ r, r ∈ (w.createdOne conf view zone recordset row).db.recordsOf recordset.id ↔
      r ∈ w.db.recordsOf recordset.id ∨ r = writtenRow conf (Record.ofRow row).settle row := by
    intro r
    rw [mem_recordsOf, mem_recordsOf]
    show r ∈ Table.update RecordRow.id row.id _ (w.db.records ++ [row]) ∧ _ ↔ _
    rw [Table.mem_update]
    constructor
    · rintro ⟨⟨hm, hne⟩ | ⟨-, -, -, rfl⟩, hset⟩
      · rcases List.mem_append.mp hm with hm | hm
        · exact Or.inl ⟨hm, hset⟩
        · exact absurd (congrArg RecordRow.id (List.mem_singleton.mp hm)) hne
      · exact Or.inr rfl
    · rintro (⟨hm, hset⟩ | rfl)
      · exact ⟨Or.inl ⟨List.mem_append_left _ hm, hold r (mem_recordsOf.mpr ⟨hm, hset⟩)⟩, hset⟩
      · exact ⟨Or.inr ⟨row, List.mem_append_right _ (List.mem_singleton_self _), rfl, rfl⟩,
          hsettled.1⟩
  -- the name of the new resource record is none of those on the device
  have hfreshName : ∀ r ∈ w.db.recordsOf recordset.id, ∀ y, Behind r.id y w →
      y.rrId ≠ conf.rrName w.device.rrs data := by
    intro r hr y hy he
    obtain ⟨y', hy', rr, hm, hk, -⟩ := hpaired.copied r hr
    obtain rfl := Behind.unique hpaired.keyed hy' hy
    exact hnames w.device.rrs data rr hm (by rw [hk, he]; rfl)
  refine ⟨createdOne_keyed hnames hfresh hrow hpaired.keyed, fun r hr => ?_,
    fun rr hm hv hz hn ht => ?_, ?_⟩
  · rcases (hrecords r).mp hr with hr | rfl
    · obtain ⟨y, hy, rr, hm, hrest⟩ := hpaired.copied r hr
      exact ⟨y, hbehind.mpr (Or.inl ⟨hold r hr, hy⟩), rr, List.mem_append_left _ hm, hrest⟩
    · exact ⟨_, hbehind.mpr (Or.inr ⟨rfl, rfl⟩), new, hnew, rfl, rfl, rfl, hsettled.2.symm⟩
  · rcases List.mem_append.mp hm with hm | hm
    · obtain ⟨r, hr, y, hy, hk⟩ := hpaired.owned rr hm hv hz hn ht
      exact ⟨r, (hrecords r).mpr (Or.inl hr), y, hbehind.mpr (Or.inl ⟨hold r hr, hy⟩), hk⟩
    · rw [List.mem_singleton.mp hm]
      exact ⟨_, (hrecords _).mpr (Or.inr rfl), _, hbehind.mpr (Or.inr ⟨rfl, rfl⟩), rfl⟩
  · intro r hr r' hr' y y' hy hy' he
    rcases (hrecords r).mp hr with hr | rfl
    · have hy := (hbehind.mp hy).resolve_right fun h => hold r hr h.1
      rcases (hrecords r').mp hr' with hr' | rfl
      · have hy' := (hbehind.mp hy').resolve_right fun h => hold r' hr' h.1
        exact hpaired.injective r hr r' hr' y y' hy.2 hy'.2 he
      · have hy' := (hbehind.mp hy').resolve_left fun h => h.1 rfl
        exact absurd (he.trans (congrArg ZdnsRecord.rrId hy'.2)) (hfreshName r hr y hy.2)
    · have hy := (hbehind.mp hy).resolve_left fun h => h.1 rfl
      rcases (hrecords r').mp hr' with hr' | rfl
      · have hy' := (hbehind.mp hy').resolve_right fun h => hold r' hr' h.1
        exact absurd (he.symm.trans (congrArg ZdnsRecord.rrId hy.2)) (hfreshName r' hr' y' hy'.2)
      · rfl

end

/-! ## The loop -/

section

variable {before : Nat} {dealwithNochange : Bool} {p : Record × Entry} {plan : Nat → Faults}
  {entries : List (Record × Entry)}

/-- A turn keeps the pairs, unless it takes a record elsewhere. -/
theorem EntryLeaves.paired
    (h : EntryLeaves ctx conf zone recordset dealwithNochange view p w w')
    (hnames : conf.NamesFresh) (hunder : Underway before recordset (p :: entries) w)
    (hstays : p.2.Updates dealwithNochange → p.1.recordsetId.write recordset.id = recordset.id)
    (hpaired : Mirrored view.name zone.name recordset w) :
    Mirrored view.name zone.name recordset w' := by
  -- the row found for the entry is a record of the recordset
  have hown : ∀ {object : Record} {row : RecordRow}, p.2.op ≠ .create →
      object.id = Text.uuidOfText p.2.id → findRecordRow ctx object.id w.db = .ok row →
      row ∈ w.db.recordsOf recordset.id := by
    intro object row hop hobj hrow
    obtain ⟨r, hr, hid, -⟩ := hunder.stored p List.mem_cons_self hop
    obtain ⟨hm, hrid, -⟩ := findRecordRow_mem hrow
    rw [hobj, hid] at hrid
    rwa [Table.eq_of_key hunder.recordIds hm (mem_recordsOf.mp hr).1 (Option.some.inj hrid).symm]
  cases h with
  | kept => exact hpaired
  | created row hop hs => exact createdOne_paired hnames hunder.fresh hs.inserted hpaired
  | updated row a z rr hop hl =>
    have hrow := hown (by rcases hop with hu | ⟨hu, -⟩ <;> rw [hu] <;> simp) rfl hl.rowFound
    obtain ⟨hdata, hmoved⟩ :=
      writtenRow_entry (hunder.texts p List.mem_cons_self) row
    rw [(mem_recordsOf.mp hrow).2, hstays hop] at hmoved
    exact hl.paired hnames hrow hmoved hdata hpaired
  | deleted row a z rr hop hl =>
    exact hl.paired (hown (by rw [hop]; simp) rfl hl.rowFound) hpaired

/-- The loop keeps the pairs. By induction on the list. -/
theorem applyEntries_paired (hnames : conf.NamesFresh)
    (hunder : Underway before recordset entries w)
    (hv : findView ctx zone.viewId w.db = .ok view)
    (hthrough : EntriesThrough ctx conf zone recordset dealwithNochange plan entries w)
    (hstays : ∀ p ∈ entries, p.2.Updates dealwithNochange →
      p.1.recordsetId.write recordset.id = recordset.id)
    (hpaired : Mirrored view.name zone.name recordset w) :
    Mirrored view.name zone.name recordset
      (applyEntries ctx conf zone recordset dealwithNochange plan entries w).2 := by
  induction entries generalizing plan w with
  | nil => exact hpaired
  | cons p entries ih =>
    -- the turn leaves what it should, and the rest of the loop starts from there
    obtain ⟨w₁, hrun, hleaves⟩ := entry_through hunder.fresh hthrough.1 hv
    have hrest := hthrough.2
    rw [hrun] at hrest
    rw [applyEntries_cons hrun]
    exact ih (hunder.step hleaves) ((findView_congr hleaves.views).trans hv) hrest
      (fun q hq => hstays q (List.mem_cons_of_mem _ hq))
      (hleaves.paired hnames hunder (hstays p List.mem_cons_self) hpaired)

end

/-! ## What was asked for -/

/-- The records and resource records of the recordset are what the entries ask for. -/
structure Carried (view zone : String) (recordset : RecordSet) (entries : List (Record × Entry))
    (w w' : World) : Prop where
  contents : (w'.db.contents w.nextId recordset.id).Perm
    ((entries.map fun p => p.2.asks).flatMap (Script.Edit.leaves (w.db.contents w.nextId recordset.id)))
  mirrored : Mirrored view zone recordset w'

/--
No UPDATE takes a record to another recordset, and none is sent for a `nochange`
entry with other data than the stored.
-/
def KeepsUnchanged (recordset : RecordSet) (ttlChanged : Bool) (entries : List (Record × Entry))
    (db : Db) : Prop :=
  ∀ p ∈ entries, p.2.Updates ttlChanged →
    p.1.recordsetId.write recordset.id = recordset.id ∧
      (p.2.op = .nochange → ∀ r ∈ db.recordsOf recordset.id,
        Text.uuidOfText p.2.id = some r.id → p.2.data = r.data)

section

variable {ttlChanged : Bool} {p : Record × Entry} {entries : List (Record × Entry)}

theorem Entry.asks_key (entry : Entry) :
    entry.asks.key = if entry.op = .create then none else some entry.named := by
  unfold Entry.asks
  cases entry.op <;> rfl

theorem Entry.does_key (recordsetId : Nat) (p : Record × Entry) :
    (Entry.does recordsetId ttlChanged p).key =
      if p.2.op = .create then none else some p.2.named := by
  have hwrites : (Entry.writes recordsetId p).key = some p.2.named := by
    unfold Entry.writes
    split <;> rfl
  unfold Entry.does
  cases p.2.op with
  | create => rfl
  | update => exact hwrites
  | nochange =>
    cases ttlChanged with
    | false => rfl
    | true => exact hwrites
  | delete => rfl

/-- The keys of the script are the names of the entries. -/
theorem keys_does {before recordsetId : Nat} {db : Db}
    (hstored : ∀ p ∈ entries, NamesStored before recordsetId p.2 db) :
    (Script.keys (entries.map (Entry.does recordsetId ttlChanged))).map some =
      namedIds entries := by
  induction entries with
  | nil => rfl
  | cons p entries ih =>
    have ih := ih fun q hq => hstored q (List.mem_cons_of_mem _ hq)
    have hkey := @Entry.does_key ttlChanged recordsetId p
    unfold namedIds at ih ⊢
    rw [List.map_cons]
    by_cases hop : p.2.op = .create
    · rw [if_pos hop] at hkey
      rw [Script.keys_cons_of_none hkey, List.filter_cons_of_neg (by simpa using hop), ih]
    · rw [if_neg hop] at hkey
      obtain ⟨r, -, hid, -⟩ := hstored p List.mem_cons_self hop
      rw [Script.keys_cons_of_some hkey, List.filter_cons_of_pos (by simpa using hop),
        List.map_cons, List.map_cons, ih, hid, Entry.named_eq hid]

/-- The cell of a record that was there before. -/
theorem contents_filter (hids : (w.db.records.map RecordRow.id).Nodup) {before : Nat} {r : RecordRow}
    (hr : r ∈ w.db.recordsOf recordset.id) (hlt : r.id < before) :
    (w.db.contents before recordset.id).filter (fun c => decide (c.1 = some r.id)) =
      [(some r.id, r.data)] := by
  have hids' : ((w.db.recordsOf recordset.id).map RecordRow.id).Nodup :=
    hids.sublist (List.Sublist.map _ List.filter_sublist)
  have hfilter := Table.filter_key hids' hr
  unfold Db.contents contentsOf
  rw [List.filter_map]
  have hsame : ((fun c : Option Nat × String => decide (c.1 = some r.id)) ∘ fun r' : RecordRow =>
      (if r'.id < before then some r'.id else none, r'.data)) =
      fun r' => decide (r'.id = r.id) := by
    funext r'
    simp only [Function.comp_apply, decide_eq_decide]
    split
    · exact ⟨Option.some.inj, congrArg some⟩
    · exact ⟨fun h => absurd h (by simp), fun h => by omega⟩
  rw [hsame, hfilter, List.map_singleton, if_pos hlt]

/-- Entry by entry: what is done leaves what is asked for, unless an UPDATE says otherwise. -/
theorem does_leaves_iff (hids : (w.db.records.map RecordRow.id).Nodup) {before : Nat}
    (hstored : NamesStored before recordset.id p.2 w.db) :
    ((Entry.does recordset.id ttlChanged p).leaves (w.db.contents before recordset.id)).Perm
        (p.2.asks.leaves (w.db.contents before recordset.id)) ↔
      (p.2.Updates ttlChanged → p.1.recordsetId.write recordset.id = recordset.id ∧
        (p.2.op = .nochange → ∀ r ∈ w.db.recordsOf recordset.id,
          Text.uuidOfText p.2.id = some r.id → p.2.data = r.data)) := by
  unfold NamesStored at hstored
  unfold Entry.does Entry.asks Entry.Updates Entry.writes
  cases hop : p.2.op with
  | create => simp
  | update =>
    by_cases hstays : p.1.recordsetId.write recordset.id = recordset.id
    · simp [hstays]
    · simp [hstays, Script.Edit.leaves]
  | nochange =>
    cases ttlChanged with
    | false => simp
    | true =>
      obtain ⟨r, hr, hid, hlt⟩ := hstored (by simp [hop])
      have hcell := contents_filter hids hr hlt
      have hkeep : (Script.Edit.keep p.2.named).leaves (w.db.contents before recordset.id) =
          [(some r.id, r.data)] := by
        rw [Entry.named_eq hid]
        exact hcell
      -- the record an entry names is the only one of its name
      have hone : (∀ r' ∈ w.db.recordsOf recordset.id,
          Text.uuidOfText p.2.id = some r'.id → p.2.data = r'.data) ↔ p.2.data = r.data := by
        refine ⟨fun h => h r hr hid, fun h r' hr' hid' => ?_⟩
        rw [h, Table.eq_of_key hids (mem_recordsOf.mp hr').1 (mem_recordsOf.mp hr).1
          (Option.some.inj (hid'.symm.trans hid))]
      rw [hone]
      by_cases hstays : p.1.recordsetId.write recordset.id = recordset.id
      · simp only [if_true, hkeep, true_and, or_true, forall_const, hstays]
        rw [Script.Edit.leaves, Entry.named_eq hid, List.perm_singleton]
        simp
      · simp only [if_true, if_neg hstays, hkeep]
        simp [Script.Edit.leaves, hstays]
  | delete => simp

end

/--
**An update does exactly what its entries ask for, unless the ttl changes and a
`nochange` entry carries other data than the stored.** Or an object carries another
recordset, which those of the API never do.
-/
theorem updateRecordset_carried_iff (ctx : Context) (conf : Conf) (plan : Nat → Faults)
    (recordset : RecordSet) (w : World) (zone : Zone) (stored : RecordSetRow) (ttlChanged : Bool)
    (entries : List (Record × Entry)) (view : View) (hwf : w.Wf) (hnames : conf.NamesFresh)
    (hacc : Accepted ctx recordset w zone stored ttlChanged entries)
    (heach : NamesEach recordset.id entries w.db)
    (hview : findView ctx zone.viewId w.db = .ok view)
    (hmirrored : Mirrored view.name zone.name recordset w)
    (hthrough : RequestThrough ctx conf zone recordset ttlChanged plan entries w) :
    Carried view.name zone.name recordset entries w (updateRecordset ctx conf plan recordset w).2 ↔
      KeepsUnchanged recordset ttlChanged entries w.db := by
  rw [updateRecordset_state hwf hacc]
  unfold RequestThrough at hthrough
  by_cases hempty : entries = []
  · subst hempty
    have hnil : w.db.recordsOf recordset.id = [] := List.map_eq_nil_iff.mp (List.Perm.nil_eq heach).symm
    rw [if_pos rfl, hnil]
    refine iff_of_true ⟨?_, hmirrored⟩ fun p hp => absurd hp List.not_mem_nil
    unfold Db.contents
    show (contentsOf w.nextId (w.db.recordsOf recordset.id)).Perm []
    rw [hnil]
    exact List.Perm.refl _
  rw [if_neg hempty] at hthrough ⊢
  have hown := heach.own hwf
  have hstored : ∀ p ∈ entries, NamesStored w.nextId recordset.id p.2 w.db := by
    intro p hp hop
    obtain ⟨r, hr, he⟩ := hown.entry hp hop
    exact ⟨r, hr, he, hwf.records r (mem_recordsOf.mp hr).1⟩
  have htexts : ∀ p ∈ entries, Entry.ofText p.1.text = some p.2 := by
    cases hacc with
    | ttlOnly => exact absurd rfl hempty
    | entries _ _ _ hlist => exact (formatValidate_spec (doUpdateGuard_ok hlist).2.2).2
  have hunder : Underway w.nextId recordset entries w :=
    ⟨hwf.toFresh, hwf.recordIds, Nat.le_refl _, htexts, hstored, hown.2⟩
  let cells := w.db.contents w.nextId recordset.id
  let does := Entry.does recordset.id ttlChanged
  have hkeys : (Script.keys (entries.map does)).map some = namedIds entries := keys_does hstored
  have hnodup : (Script.keys (entries.map does)).Nodup :=
    List.Nodup.of_map some (hkeys ▸ hown.2)
  -- every cell is one that the call found
  have hfst : cells.map Prod.fst = (w.db.recordsOf recordset.id).map fun r => some r.id := by
    show List.map Prod.fst (List.map _ _) = _
    rw [List.map_map]
    exact List.map_congr_left fun r hr => if_pos (hwf.records r (mem_recordsOf.mp hr).1)
  have hrun := Script.run_perm_of_each (l := cells) hnodup (by rw [hkeys, hfst]; exact heach)
  have hend := applyEntries_contents hunder hview hthrough
  have hiff : ((entries.map does).flatMap (Script.Edit.leaves cells)).Perm
      ((entries.map fun p => p.2.asks).flatMap (Script.Edit.leaves cells)) ↔
      KeepsUnchanged recordset ttlChanged entries w.db := by
    rw [Script.leaves_perm_iff (fun p _ => ?_) (fun p _ hnone => ?_) hnodup]
    · exact forall₂_congr fun p hp => does_leaves_iff hwf.recordIds (hstored p hp)
    · rw [Entry.does_key, Entry.asks_key]
    · rw [Entry.does_key] at hnone
      have hop : p.2.op = .create := by
        by_contra hop
        rw [if_neg hop] at hnone
        exact absurd hnone (by simp)
      show Entry.does recordset.id ttlChanged p = p.2.asks
      unfold Entry.does Entry.asks
      rw [hop]
  constructor
  · intro h
    refine hiff.mp (hrun.symm.trans ?_)
    rw [← hend]
    exact h.contents
  · intro h
    refine ⟨?_, applyEntries_paired hnames hunder hview hthrough (fun p hp hu => (h p hp hu).1)
      hmirrored⟩
    rw [hend]
    exact hrun.trans (hiff.mpr h)

/-! ## At the sample -/

theorem www_mirrored (records : List Record) :
    Mirrored "v" "example.com." (Sample.www records) Sample.world := by
  -- the three clauses on the sample, with the lists gone through one by one
  have hcopied : ∀ r ∈ Sample.world.db.recordsOf 3, ∃ z ∈ Sample.world.db.zdnsRecords,
      (∃ a ∈ Sample.world.db.recordAssociations, a.recordId = r.id ∧ z.id = a.zdnsRecordId) ∧
        ∃ rr ∈ Sample.world.device.rrs, rr.key = (z.rrId, "v", "example.com.") ∧
          rr.name = "www.example.com." ∧ rr.type = .A ∧ rr.rdata = r.data := by decide +kernel
  have howned : ∀ rr ∈ Sample.world.device.rrs, rr.view = "v" → rr.zone = "example.com." →
      rr.name = "www.example.com." → rr.type = .A → ∃ r ∈ Sample.world.db.recordsOf 3,
        ∃ z ∈ Sample.world.db.zdnsRecords,
          (∃ a ∈ Sample.world.db.recordAssociations, a.recordId = r.id ∧ z.id = a.zdnsRecordId) ∧
            rr.key = (z.rrId, "v", "example.com.") := by decide +kernel
  have hinjective : ∀ a ∈ Sample.world.db.recordAssociations,
      ∀ a' ∈ Sample.world.db.recordAssociations, ∀ z ∈ Sample.world.db.zdnsRecords,
        ∀ z' ∈ Sample.world.db.zdnsRecords, z.id = a.zdnsRecordId → z'.id = a'.zdnsRecordId →
          z.rrId = z'.rrId → a.recordId = a'.recordId := by decide +kernel
  refine ⟨⟨by decide, by decide, by decide, by decide⟩, fun r hr => ?_, fun rr hm hv hz hn ht => ?_,
    ?_⟩
  · obtain ⟨z, hz, ⟨a, ha, haid, hzid⟩, hrest⟩ := hcopied r hr
    exact ⟨z, ⟨a, ha, haid, hz, hzid⟩, hrest⟩
  · obtain ⟨r, hr, z, hz, ⟨a, ha, haid, hzid⟩, hk⟩ := howned rr hm hv hz hn ht
    exact ⟨r, hr, z, ⟨a, ha, haid, hz, hzid⟩, hk⟩
  · rintro r - r' - z z' ⟨a, ha, haid, hz, hzid⟩ ⟨a', ha', haid', hz', hzid'⟩ he
    rw [← haid, ← haid']
    exact hinjective a ha a' ha' z hz z' hz' hzid hzid' he

/-- One record of `www` gets new data, one stays. -/
def Sample.changing : List (Record × Entry) :=
  [entryOf .update "00000000-0000-0000-0000-000000000005" "192.0.2.9",
   entryOf .nochange "00000000-0000-0000-0000-000000000006" "192.0.2.2"]

/-- Nothing stops the change. -/
theorem changing_through : RequestThrough Sample.ctx Sample.conf Sample.zone
    (Sample.www (Sample.changing.map Prod.fst)) false (fun _ => Faults.none) Sample.changing
    Sample.world := by
  unfold RequestThrough
  rw [if_neg (by decide)]
  refine ⟨?_, ?_, trivial⟩
  · -- the first entry changes a record: every step of it is found and let through
    unfold EntryThrough
    rw [if_neg (by decide)]
    refine ⟨Sample.view, Sample.zdnsRecord 8 Sample.wwwRow "192.0.2.1",
      Sample.rr 8 Sample.wwwRow "192.0.2.1", Sample.record 5 3 "192.0.2.1", ?_, ?_, ?_⟩
    · unfold ChangeAccepted
      decide +kernel
    · exact ⟨⟨rfl, by decide +kernel, Or.inr (by decide +kernel), Sample.wwwRow, by decide +kernel⟩,
        rfl⟩
    · unfold SettleAccepted
      decide +kernel
  · unfold EntryThrough
    rw [if_neg (by decide)]
    trivial

theorem updateRecordset_carried_iff_sample :
    Carried "v" "example.com." (Sample.www (Sample.changing.map Prod.fst)) Sample.changing
      Sample.world
      (updateRecordset Sample.ctx Sample.conf (fun _ => Faults.none)
        (Sample.www (Sample.changing.map Prod.fst)) Sample.world).2 := by
  refine (updateRecordset_carried_iff Sample.ctx Sample.conf (fun _ => Faults.none)
    (Sample.www (Sample.changing.map Prod.fst)) Sample.world Sample.zone Sample.wwwRow false
    Sample.changing Sample.view sample_wf namesFresh_default
    (sample_accepted (by decide) (by decide +kernel) (by decide +kernel) (by decide +kernel))
    (by unfold NamesEach; decide +kernel) rfl (www_mirrored _) changing_through).mpr ?_
  unfold KeepsUnchanged Entry.Updates
  decide +kernel

/-- A new ttl, and two entries that leave the records alone, one with other data than its record's. -/
def Sample.renaming : List (Record × Entry) :=
  [entryOf .nochange "00000000-0000-0000-0000-000000000005" "192.0.2.99",
   entryOf .nochange "00000000-0000-0000-0000-000000000006" "192.0.2.2"]

/-- The record gets the other data. -/
theorem nochange_overwrites :
    (updateRecordset Sample.ctx Sample.conf (fun _ => Faults.none)
        (Sample.renewed Sample.wwwRow 600 (Sample.renaming.map Prod.fst)) Sample.world).1.toBool ∧
      NamesEach 3 Sample.renaming Sample.world.db ∧
      ¬ Carried "v" "example.com." (Sample.renewed Sample.wwwRow 600 (Sample.renaming.map Prod.fst))
        Sample.renaming Sample.world
        (updateRecordset Sample.ctx Sample.conf (fun _ => Faults.none)
          (Sample.renewed Sample.wwwRow 600 (Sample.renaming.map Prod.fst)) Sample.world).2 := by
  refine ⟨by decide +kernel, by unfold NamesEach; decide +kernel, fun h => ?_⟩
  exact absurd h.contents (by decide +kernel)

end Designate
