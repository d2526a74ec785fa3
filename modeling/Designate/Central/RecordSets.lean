import Designate.Worker.RecordAction

/-!
# Recordset operations of central

`create_recordset`, `create_record`, `update_recordset` with `do_update`, and
`delete_recordset`. Each sends its records to the worker one by one and counts
the responses that are not `None`. The worker call at position `n` runs under
the failing sites `plan n`.

Policy checks are left out: a refusal comes before the first step.
-/

namespace Designate

/-- `get_recordset` of central. -/
def centralGetRecordset (ctx : Context) (zoneId recordsetId : Nat) : Call RecordSet := do
  let recordset ← getRecordset ctx recordsetId
  let zone ← getZone ctx zoneId
  Exec.raiseIf (zone.id ≠ recordset.zoneId) .RecordSetNotFound
  pure recordset

/-- The fields `_create_record_in_storage` assigns. -/
def Record.pending (record : Record) (zone : Zone) : Record :=
  { record with action := record.action.set .CREATE, status := record.status.set .PENDING
                serial := record.serial.set zone.serial }

/-- `_create_record_in_storage`. -/
def createRecordInStorage (ctx : Context) (conf : Conf) (zone : Zone) (recordset : RecordSet)
    (record : Record) : Call Record :=
  transaction do
    check (enforceRecordQuota ctx conf zone recordset.id recordset.managed
      recordset.records.length)
    insertRecord ctx conf zone.id recordset.id (record.pending zone)

/-- Fail if the zone is on its way out. -/
def refuseDeletingZone (zone : Zone) : Call Unit :=
  Exec.raiseIf (zone.action = .DELETE) (.BadRequest "Can not update a deleting zone")

section Create

variable (ctx : Context) (conf : Conf)

/-- `_create_recordset_in_storage`. -/
def createRecordsetInStorage (zone : Zone) (recordset : NewRecordSet) : Call RecordSet :=
  transaction do
    check (enforceRecordsetQuota ctx conf zone)
    check (validateRecordset ctx conf zone none recordset.name recordset.type recordset.ttl
      recordset.records.length)
    insertRecordset ctx zone.id recordset

/-- Store a record and have the worker create it; the answer is `None` if the device refused. -/
def createOne (faults : Faults) (zone : Zone) (recordset : RecordSet) (record : Record) :
    Call (Record × Option RRId) := do
  let recordDb ← createRecordInStorage ctx conf zone recordset record
  let response ← recordAction ctx conf faults zone recordDb .CREATE recordset
  pure (recordDb, response)

/-- The loop of `create_recordset`: the records that reached the device. -/
def createAll (zone : Zone) (recordset : RecordSet) : (Nat → Faults) → List Record →
    Call (List Record)
  | _, [] => pure []
  | plan, record :: records => do
    let (recordDb, response) ← createOne ctx conf (plan 0) zone recordset record
    let done ← createAll zone recordset (fun n => plan (n + 1)) records
    pure (if response.isSome then recordDb :: done else done)

/-- `create_recordset`; the result is `records_ext`. -/
def createRecordset (plan : Nat → Faults) (zoneId : Nat) (recordset : NewRecordSet) :
    Call (List Record) := do
  let zone ← getZone ctx zoneId
  refuseDeletingZone zone
  let recordset ← createRecordsetInStorage ctx conf zone recordset
  let done ← createAll ctx conf zone recordset plan recordset.records
  let exist ← findRecords ctx fun r => r.recordsetId == recordset.id
  if exist.isEmpty then deleteRecordsetRow ctx recordset.id
  pure done

/--
`create_recordset` of a recordset whose records may not have been set at all: what
is validated is none, and the loop raises when it asks for them.
-/
def createRecordsetOf (plan : Nat → Faults) (zoneId : Nat) (recordset : NewRecordSet)
    (records : Option (List Record)) : Call (List Record) :=
  match records with
  | some records => createRecordset ctx conf plan zoneId { recordset with records := records }
  | none => do
    let zone ← getZone ctx zoneId
    refuseDeletingZone zone
    let _ ← createRecordsetInStorage ctx conf zone { recordset with records := [] }
    Exec.raise .RelationNotLoaded

/-- `create_record`. -/
def createRecord (faults : Faults) (zoneId : Nat) (recordset : RecordSet) (record : Record) :
    Call Record := do
  let zone ← getZone ctx zoneId
  refuseDeletingZone zone
  let (recordDb, _) ← createOne ctx conf faults zone recordset record
  pure recordDb

end Create

/-! ## Entry lists -/

/-- What an entry asks for. -/
inductive EntryOp where
  | create | update | nochange | delete
  deriving DecidableEq, Repr

/-- An entry `op;id;data`. -/
structure Entry where
  op : EntryOp
  id : String
  data : String
  deriving DecidableEq, Repr

/-- `record.data.split(';')[0] == 'create'`. -/
def isCreate (record : Record) : Bool := (Text.split record.text ';').head? == some "create"

/--
`format_validate` for one entry: two semicolons, a known operation, no id in a
`create` and some data in a `delete`.
-/
def Entry.ofText (text : String) : Option Entry :=
  match Text.split text ';' with
  | [op, id, data] =>
    if op = "create" then if id = "" then some ⟨.create, id, data⟩ else none
    else if op = "update" then some ⟨.update, id, data⟩
    else if op = "nochange" then some ⟨.nochange, id, data⟩
    else if op = "delete" then if data = "" then none else some ⟨.delete, id, data⟩
    else none
  | _ => none

/-- `format_validate`: the record objects next to the entries they carry. -/
def formatValidate : List Record → Option (List (Record × Entry))
  | [] => some []
  | record :: records =>
    match Entry.ofText record.text, formatValidate records with
    | some entry, some rest => some ((record, entry) :: rest)
    | _, _ => none

section Update

variable (ctx : Context) (conf : Conf)

/-- The object an `update` entry makes of the one that carried it. -/
def Entry.updateObject (entry : Entry) (record : Record) : Record :=
  { record with action := record.action.set .UPDATE, id := Text.uuidOfText entry.id
                data := record.data.set entry.data }

/-- The object a `delete` entry makes: its data stays the text of the entry. -/
def Entry.deleteObject (entry : Entry) (record : Record) : Record :=
  { record with action := record.action.set .DELETE, id := Text.uuidOfText entry.id }

/-- Have the worker update the record `entry` names. -/
def sendUpdate (faults : Faults) (zone : Zone) (recordset : RecordSet) (record : Record)
    (entry : Entry) : Call Bool := do
  let response ← recordAction ctx conf faults zone (entry.updateObject record) .UPDATE recordset
  pure response.isSome

/-- Have the worker delete the record `entry` names. -/
def sendDelete (faults : Faults) (zone : Zone) (recordset : RecordSet) (record : Record)
    (entry : Entry) : Call Bool := do
  let response ← recordAction ctx conf faults zone (entry.deleteObject record) .DELETE recordset
  pure response.isSome

/--
One turn of the loop of `do_update`; the result says whether the entry counts.
The loop assigns to the record objects of the list as it goes, which changes
neither the length of the list nor who is managed: what the worker and the
quota read of `recordset.records` stays the same.
-/
def applyEntry (faults : Faults) (zone : Zone) (recordset : RecordSet) (dealwithNochange : Bool)
    (record : Record) (entry : Entry) : Call Bool :=
  match entry.op with
  | .create => do
    let (_, response) ← createOne ctx conf faults zone recordset
      { record with data := record.data.set entry.data }
    pure response.isSome
  | .update => sendUpdate ctx conf faults zone recordset record entry
  | .nochange =>
    if dealwithNochange then sendUpdate ctx conf faults zone recordset record entry else pure true
  | .delete => sendDelete ctx conf faults zone recordset record entry

/-- The loop of `do_update`: how many entries count. -/
def applyEntries (zone : Zone) (recordset : RecordSet) (dealwithNochange : Bool) :
    (Nat → Faults) → List (Record × Entry) → Call Nat
  | _, [] => pure 0
  | plan, (record, entry) :: rest => do
    let done ← applyEntry ctx conf (plan 0) zone recordset dealwithNochange record entry
    let n ← applyEntries zone recordset dealwithNochange (fun n => plan (n + 1)) rest
    pure (n + done.toNat)

/-- `len(recordset.records) - create_count` against `count_records`. -/
def countMatches (recordset : RecordSet) (db : Db) : Bool :=
  recordset.records.length - recordset.records.countP isCreate ==
    countRecords ctx (fun r => r.recordsetId == recordset.id) db

/-- The guards of `do_update`: as many entries as records, each well formed. -/
def doUpdateGuard (recordset : RecordSet) : Call (List (Record × Entry)) := do
  check fun db => if countMatches ctx recordset db then .ok () else .error .NotEqual
  match formatValidate recordset.records with
  | none => Exec.raise .InvalidRecord
  | some entries => pure entries

/-- `AllFailed` if nothing counts, `PartlyFailed` if only some does. -/
def raiseUnlessAll (n len : Nat) : Call Unit :=
  if n = len then pure ()
  else if n = 0 then Exec.raise .AllFailed
  else Exec.raise .PartlyFailed

/-- `do_update`; the result is `records_ext`. -/
def doUpdate (plan : Nat → Faults) (zone : Zone) (recordset : RecordSet)
    (dealwithNochange : Bool) : Call (List (Nat × String)) := do
  let entries ← doUpdateGuard ctx recordset
  let n ← applyEntries ctx conf zone recordset dealwithNochange plan entries
  raiseUnlessAll n recordset.records.length
  let _ ← centralGetRecordset ctx zone.id recordset.id
  let records ← findRecords ctx fun r => r.recordsetId == recordset.id
  pure (records.map fun r => (r.id, r.data))

/-- The loop of `update_recordset` over the stored records, when only the ttl changes. -/
def updateAll (zone : Zone) (recordset : RecordSet) : (Nat → Faults) → List RecordRow → Call Nat
  | _, [] => pure 0
  | plan, row :: rows => do
    let record := Record.ofRow row
    let response ← recordAction ctx conf (plan 0) zone
      { record with action := record.action.set .UPDATE } .UPDATE recordset
    let n ← updateAll zone recordset (fun n => plan (n + 1)) rows
    pure (n + response.isSome.toNat)

/-- The guards of `update_recordset`: the zone, and whether the ttl changes. -/
def updateRecordsetGuard (recordset : RecordSet) : Call (Zone × Bool) := do
  let zone ← getZone ctx recordset.zoneId
  Exec.raiseIf (recordset.assigned.contains "tenant_id")
    (.BadRequest "Moving a recordset between tenants is not allowed")
  Exec.raiseIf (recordset.assigned.contains "zone_id" || recordset.assigned.contains "zone_name")
    (.BadRequest "Moving a recordset between zones is not allowed")
  Exec.raiseIf (recordset.assigned.contains "type")
    (.BadRequest "Changing a recordsets type is not allowed")
  refuseDeletingZone zone
  Exec.raiseIf (recordset.managed && !ctx.editManagedRecords)
    (.BadRequest "Managed records may not be updated")
  let stored ← getRecordset ctx recordset.id
  pure (zone, recordset.ttlValue ≠ stored.ttlValue)

/-- `update_recordset`; the result is `records_ext` where it is set. -/
def updateRecordset (plan : Nat → Faults) (recordset : RecordSet) :
    Call (Option (List (Nat × String))) := do
  let (zone, ttlChanged) ← updateRecordsetGuard ctx recordset
  if recordset.records.isEmpty then
    if ttlChanged then do
      let rows ← findRecords ctx fun r => r.recordsetId == recordset.id
      let n ← updateAll ctx conf zone recordset plan rows
      raiseUnlessAll n rows.length
      let _ ← centralGetRecordset ctx zone.id recordset.id
      pure none
    else Exec.raise .NoChange
  else do
    let ext ← doUpdate ctx conf plan zone recordset ttlChanged
    pure (some ext)

end Update

section Delete

variable (ctx : Context) (conf : Conf)

/-- The loop of `delete_recordset`. -/
def deleteAll (zone : Zone) (recordset : RecordSet) : (Nat → Faults) → List RecordRow → Call Nat
  | _, [] => pure 0
  | plan, row :: rows => do
    let record := Record.ofRow row
    let response ← recordAction ctx conf (plan 0) zone
      { record with action := record.action.set .DELETE } .DELETE recordset
    let n ← deleteAll zone recordset (fun n => plan (n + 1)) rows
    pure (n + response.isSome.toNat)

/--
`delete_recordset`. Its transaction holds nothing but the removal of the
recordset row at its end: what the worker calls back commits on its own.
-/
def deleteRecordset (plan : Nat → Faults) (zoneId recordsetId : Nat) : Call Unit := do
  let zone ← getZone ctx zoneId
  let recordset ← getRecordset ctx recordsetId
  Exec.raiseIf (zone.id ≠ recordset.zoneId) .RecordSetNotFound
  refuseDeletingZone zone
  Exec.raiseIf (recordset.managed && !ctx.editManagedRecords)
    (.BadRequest "Managed records may not be deleted")
  let rows ← findRecords ctx fun r => r.recordsetId == recordsetId
  let n ← deleteAll ctx conf zone recordset plan rows
  raiseUnlessAll n rows.length
  deleteRecordsetRow ctx recordset.id

end Delete

end Designate
