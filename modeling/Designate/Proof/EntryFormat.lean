import Designate.Central.RecordSets
import Designate.Proof.RecordSetValidate
import Designate.Proof.Shards

/-!
# What an entry can carry

An entry of an update is an operation, the id of a record and its data, with semicolons between
them. It is taken apart at the semicolons, so it carries what has none in it.
-/

namespace Designate

/-- The word for an operation. -/
def EntryOp.text : EntryOp → String
  | .create => "create"
  | .update => "update"
  | .nochange => "nochange"
  | .delete => "delete"

/-- The entry that asks for an operation. -/
def Entry.text (entry : Entry) : String :=
  entry.op.text ++ ";" ++ entry.id ++ ";" ++ entry.data

/-- `format_validate` accepts the entry, and `do_update` takes it apart into what it was made of. -/
structure Entry.Carried (entry : Entry) : Prop where
  parts : Text.split entry.text ';' = [entry.op.text, entry.id, entry.data]
  accepted : ∀ record : Record, record.text = entry.text →
    formatValidate [record] = some [(record, entry)]

/-- A new recordset of the type with this record is valid. -/
def Creatable (lib : Lib) (type : RRType) (data : String) : Prop :=
  ∃ (supported : List RRType) (obj : RecordSetObject Unit),
    (recordClass Sample.silent supported obj).1 = .ok type ∧
      obj.records = some [.record (.str data)] ∧
        (RecordSetObject.validate lib Sample.silent supported obj).1 = .ok ()

variable {entry : Entry}

theorem EntryOp.semicolon_not_mem (op : EntryOp) : ';' ∉ op.text.toList := by
  cases op <;> decide

theorem split_entry (hid : ';' ∉ entry.id.toList) (hdata : ';' ∉ entry.data.toList) :
    Text.split entry.text ';' = [entry.op.text, entry.id, entry.data] := by
  have htext : entry.text.toList =
      entry.op.text.toList ++ ';' :: (entry.id.toList ++ ';' :: entry.data.toList) := by
    unfold Entry.text
    simp only [String.toList_append, List.append_assoc]
    rfl
  unfold Text.split
  rw [htext, Text.splitChars_append_sep entry.op.semicolon_not_mem,
    Text.splitChars_append_sep hid, Text.splitChars_of_not_mem hdata]
  simp only [List.map_cons, List.map_nil, String.ofList_toList]

/-- `format_validate` on an entry of three parts. -/
theorem ofText_entry (hparts : Text.split entry.text ';' = [entry.op.text, entry.id, entry.data]) :
    Entry.ofText entry.text = some entry ↔
      (entry.op = .create → entry.id = "") ∧ (entry.op = .delete → entry.data ≠ "") := by
  obtain ⟨op, id, data⟩ := entry
  unfold Entry.ofText
  rw [hparts]
  cases op with
  | create =>
    show (if id = "" then some (⟨.create, id, data⟩ : Entry) else none) = _ ↔ _
    by_cases hid : id = ""
    · rw [if_pos hid]
      exact ⟨fun _ => ⟨fun _ => hid, nofun⟩, fun _ => rfl⟩
    · rw [if_neg hid]
      exact ⟨nofun, fun h => absurd (h.1 rfl) hid⟩
  | update => exact ⟨fun _ => ⟨nofun, nofun⟩, fun _ => rfl⟩
  | nochange => exact ⟨fun _ => ⟨nofun, nofun⟩, fun _ => rfl⟩
  | delete =>
    show (if data = "" then none else some (⟨.delete, id, data⟩ : Entry)) = _ ↔ _
    by_cases hdata : data = ""
    · rw [if_pos hdata]
      exact ⟨nofun, fun h => absurd hdata (h.2 rfl)⟩
    · rw [if_neg hdata]
      exact ⟨fun _ => ⟨nofun, fun _ => hdata⟩, fun _ => rfl⟩

theorem formatValidate_singleton (record : Record) :
    formatValidate [record] = some [(record, entry)] ↔ Entry.ofText record.text = some entry := by
  unfold formatValidate formatValidate
  cases Entry.ofText record.text with
  | none => exact ⟨nofun, nofun⟩
  | some e =>
    constructor
    · intro h
      have hpair := (List.cons.inj (Option.some.inj h)).1
      exact congrArg some (Prod.mk.inj hpair).2
    · intro h
      rw [Option.some.inj h]

/-- What an entry carries has no semicolon in it. -/
theorem Entry.Carried.semicolon (h : entry.Carried) :
    ';' ∉ entry.id.toList ∧ ';' ∉ entry.data.toList := by
  constructor
  · refine Text.not_mem_split (s := entry.text) ?_
    rw [h.parts]
    exact List.mem_cons_of_mem _ List.mem_cons_self
  · refine Text.not_mem_split (s := entry.text) ?_
    rw [h.parts]
    exact List.mem_cons_of_mem _ (List.mem_cons_of_mem _ List.mem_cons_self)

/-- What an entry carries passed the two guards of `format_validate`. -/
theorem Entry.Carried.guards (h : entry.Carried) :
    (entry.op = .create → entry.id = "") ∧ (entry.op = .delete → entry.data ≠ "") := by
  have htext := h.accepted (Record.new entry.text) rfl
  rw [formatValidate_singleton] at htext
  exact (ofText_entry h.parts).mp htext

/--
**An entry carries every id and every data without a semicolon**, if one that creates names no
record, and one that deletes says which data it deletes.
-/
theorem entry_carried (entry : Entry) (hid : ';' ∉ entry.id.toList)
    (hdata : ';' ∉ entry.data.toList) (hcreate : entry.op = .create → entry.id = "")
    (hdelete : entry.op = .delete → entry.data ≠ "") : entry.Carried := by
  have hparts := split_entry hid hdata
  refine ⟨hparts, fun record hrecord => ?_⟩
  rw [formatValidate_singleton, hrecord]
  exact (ofText_entry hparts).mpr ⟨hcreate, hdelete⟩

namespace Sample

/-- A new recordset of the type with one record. -/
def single (type : RRType) (data : String) : RecordSetObject Unit where
  values :=
    [("name", .json (.str "example.com.")), ("type", .json (.str type.text)),
     ("ttl", .json .null), ("description", .json .null)]
  records := some [.record (.str data)]

def recordId : String := Text.uuidText 7

end Sample

theorem creatable_single {type : RRType} {data : String}
    (hclass : (recordClass Sample.silent [type] (Sample.single type data)).1 = .ok type)
    (hfields : (Sample.single type data).fieldsValid {} type = true)
    (hgood : kind {} type (.str data) = .good) : Creatable {} type data := by
  refine ⟨[type], Sample.single type data, hclass, rfl, ?_⟩
  have hnothing : (Sample.single type data).complaints {} Sample.silent type
      [.record (.str data)] = [] := by
    refine (complaints_eq_nil _ _).mpr ⟨hfields, fun r hr => ?_⟩
    rw [List.mem_singleton.mp hr]
    exact hgood
  rw [validate_errors hclass rfl, hnothing]

theorem entry_carried_sample :
    Entry.Carried ⟨.update, Sample.recordId, "192.0.2.1"⟩ :=
  entry_carried ⟨.update, Sample.recordId, "192.0.2.1"⟩ (by decide) (by decide) nofun nofun

/--
A text with a semicolon is not carried, though a recordset can be created with it; neither is an
id where a record is created, nor an empty text where one is deleted.
-/
theorem entry_not_carried :
    (Creatable {} .TXT "v=DKIM1; k=rsa" ∧
      ¬ Entry.Carried ⟨.update, Sample.recordId, "v=DKIM1; k=rsa"⟩) ∧
    (Creatable {} .A "192.0.2.1" ∧ ¬ Entry.Carried ⟨.create, Sample.recordId, "192.0.2.1"⟩) ∧
    (Creatable {} .TXT "" ∧ ¬ Entry.Carried ⟨.delete, Sample.recordId, ""⟩) := by
  refine ⟨⟨creatable_single rfl (by decide) (by decide), fun h => ?_⟩,
    ⟨creatable_single rfl (by decide) (by decide), fun h => ?_⟩,
    ⟨creatable_single rfl (by decide) (by decide), fun h => ?_⟩⟩
  · exact h.semicolon.2 (by decide)
  · have hid : Sample.recordId = "" := h.guards.1 rfl
    exact absurd hid (by decide)
  · exact h.guards.2 rfl rfl

end Designate
