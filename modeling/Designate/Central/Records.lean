import Designate.Central.Service

/-!
# Look-ups by criterion, and the record calls of central

A look-up for one row wants exactly one: two that match are as good as none. A text in
a criterion says itself how it is compared, by a pattern or by the operator in front.

`create_record` takes the recordset itself. What a caller hands over in its place is
looked at when the call reads `recordset.id`, and not before.
-/

namespace Designate

/-! ## Criteria -/

/-- Neither a pattern nor an operator: the text is compared as it stands. -/
def plain (value : String) : Bool :=
  !value.toList.contains '%' && !(["!", "<", ">", "BETWEEN"].any (Text.startsWith value))

/-- `BETWEEN a, b`. -/
def betweenCriterion (conf : Conf) (value : String) : Except Exc (String → Bool) :=
  match value.toList.dropWhile (· != ' ') with
  | [] => .error .IndexError
  | _ :: rest =>
    match Text.splitChars ',' (Text.strip rest) with
    | low :: high :: _ =>
      .ok fun column => conf.collation (String.ofList (Text.strip low)) column &&
        conf.collation column (String.ofList (Text.strip high))
    | _ => .error .IndexError

/-- `_apply_criterion` for a text. -/
def textCriterion (conf : Conf) (value : String) : Except Exc (String → Bool) :=
  if value.toList.contains '%' then .ok fun column => conf.like value.toList column.toList
  else
    match value.toList with
    | '!' :: rest => .ok fun column => column != String.ofList rest
    | '<' :: '=' :: rest => .ok fun column => conf.collation column (String.ofList rest)
    | '<' :: rest => .ok fun column => !conf.collation (String.ofList rest) column
    | '>' :: '=' :: rest => .ok fun column => conf.collation (String.ofList rest) column
    | '>' :: rest => .ok fun column => !conf.collation column (String.ofList rest)
    | _ =>
      if Text.startsWith value "BETWEEN" then betweenCriterion conf value
      else .ok fun column => column == value

/-- The criterion on a column that may be null; nothing compares with a null. -/
def columnCriterion (conf : Conf) (value : String) : Except Exc (Option String → Bool) :=
  (textCriterion conf value).map fun p (column : Option String) => column.any p

/-- `_rname_check`: a name with a star in front is compared back to front. -/
def nameCriterion (conf : Conf) (value : String) : Except Exc (String → Bool) :=
  if Text.startsWith value "*" then
    (textCriterion conf (Text.reverse value)).map fun p (column : String) => p (Text.reverse column)
  else textCriterion conf value

/-! ## Look-ups for one row -/

section

variable (ctx : Context) (conf : Conf)

/-- `storage.find_zone`. -/
def findZoneBy (p : Zone → Bool) : Call Zone :=
  Exec.read fun w =>
    Table.one (w.db.zones.filter fun z => p z && ctx.sees z.tenantId && !z.deleted) .ZoneNotFound

/-- `storage.find_record`. -/
def findRecord (p : RecordRow → Bool) : Call RecordRow :=
  Exec.read fun w =>
    Table.one (w.db.records.filter fun r => p r && ctx.sees r.tenantId) .RecordNotFound

/-! ## The calls -/

/-- `delete_record`. -/
def deleteRecord (faults : Faults) (zoneId recordsetId recordId : Nat) : Call Record := do
  let zone ← getZone ctx zoneId
  refuseDeletingZone zone
  let recordset ← getRecordset ctx recordsetId
  let row ← getRecord ctx recordId
  Exec.raiseIf (zone.id ≠ row.zoneId) .RecordNotFound
  Exec.raiseIf (recordset.id ≠ row.recordsetId) .RecordNotFound
  Exec.raiseIf (recordset.managed && !ctx.editManagedRecords)
    (.BadRequest "Managed records may not be deleted")
  let record := Record.ofRow row
  let record := { record with action := record.action.set .DELETE }
  let _ ← recordAction ctx conf faults zone record .DELETE recordset
  pure record

/-- What stands where `create_record` takes a recordset. -/
inductive RecordSetArg where
  | recordset (recordset : RecordSet)
  /-- The id of one, as a text. -/
  | text (id : Nat)
  /-- The id of one, under a keyword `create_record` does not have. -/
  | keyword (id : Nat)

/-- `create_record`, whatever stands for the recordset. -/
def createRecordOf (faults : Faults) (zoneId : Nat) (arg : RecordSetArg) (record : Record) :
    Call Record :=
  match arg with
  | .recordset recordset => createRecord ctx conf faults zoneId recordset record
  | .text _ => do
    let zone ← getZone ctx zoneId
    refuseDeletingZone zone
    Exec.raise .AttributeError
  | .keyword _ => Exec.raise .TypeError

/--
`create_recordset` of an object whose records nobody has set, for the sake of the
recordset: it is stored, and then the loop asks for its records.
-/
def createBareRecordset (zoneId : Nat) (recordset : NewRecordSet) : Call RecordSet := do
  let zone ← getZone ctx zoneId
  refuseDeletingZone zone
  let _ ← createRecordsetInStorage ctx conf zone { recordset with records := [] }
  Exec.raise .RelationNotLoaded

end

/-- A plain text is compared as it stands. -/
theorem textCriterion_plain {conf : Conf} {value : String} (h : plain value = true) :
    textCriterion conf value = .ok fun column => column == value := by
  unfold plain at h
  simp only [Bool.and_eq_true, Bool.not_eq_true', List.any_cons, List.any_nil, Bool.or_false,
    Bool.or_eq_false_iff] at h
  obtain ⟨hpercent, hbang, hless, hmore, hbetween⟩ := h
  unfold textCriterion
  rw [if_neg (by rw [hpercent]; exact Bool.false_ne_true)]
  unfold Text.startsWith at hbang hless hmore hbetween
  split
  · rename_i rest hv; exact absurd hbang (by rw [hv]; simp)
  · rename_i rest hv; exact absurd hless (by rw [hv]; simp)
  · rename_i rest hv; exact absurd hless (by rw [hv]; simp)
  · rename_i rest hv; exact absurd hmore (by rw [hv]; simp)
  · rename_i rest hv; exact absurd hmore (by rw [hv]; simp)
  · rw [if_neg (by rw [Text.startsWith, hbetween]; exact Bool.false_ne_true)]

end Designate
