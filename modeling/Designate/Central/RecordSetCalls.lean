import Designate.Central.Service

/-!
# Calls about the recordsets of a zone

The calls that other parts of the program make, next to those of the API: a list of
records may be managed, an update may carry any of the stored objects or new ones, and
the default records are made by a call of their own.
-/

namespace Designate

/-- `objects.Record(data=data)`, with `managed=True` where the record is managed. -/
def Record.made (managed : Bool) (data : String) : Record :=
  if managed then Record.newManaged data else Record.new data

/-- A record of the list an update carries. -/
inductive ListedRecord where
  /-- The `n`-th of the stored objects, with new data if there is any. -/
  | stored (n : Nat) (data : Option String)
  | made (managed : Bool) (data : String)

/-- The objects of an entry, given the stored ones. -/
def ListedRecord.objects (stored : List Record) : ListedRecord → List Record
  | .stored n data => stored[n]?.toList.map fun record =>
      match data with
      | some data => { record with data := record.data.set data }
      | none => record
  | .made managed data => [Record.made managed data]

/-- A stored recordset as a caller hands it on, with a list of its own. -/
def RecordSet.relisted (stored : RecordSet) (ttl : Option Nat) (description : Option String)
    (list : List ListedRecord) : RecordSet :=
  { stored with ttl := stored.ttl.set ttl, description := stored.description.set description
                records := list.flatMap (ListedRecord.objects stored.records) }

inductive RecordsetCall where
  | create (plan : Nat → Faults) (zoneId : Nat) (name : String) (type : RRType)
    (ttl : Option Nat) (description : Option String) (managed : Bool) (texts : List String)
  | update (plan : Nat → Faults) (zoneId recordsetId : Nat) (ttl : Option Nat)
    (description : Option String) (list : List ListedRecord)
  | delete (plan : Nat → Faults) (zoneId recordsetId : Nat)
  /-- `create_default_record` for a stored zone. -/
  | createDefault (zoneId : Nat)

/-- A call in its context. -/
structure RecordsetInput where
  ctx : Context
  call : RecordsetCall

/-- What a call does, its result aside. -/
def RecordsetCall.body (ctx : Context) (conf : Conf) : RecordsetCall → Call Unit
  | .create plan zoneId name type ttl description managed texts => do
    let _ ← createRecordset ctx conf plan zoneId
      { name := name, type := type, ttl := ttl, description := description
        records := texts.map (Record.made managed) }
  | .update plan zoneId recordsetId ttl description list => do
    let recordset ← centralGetRecordset ctx zoneId recordsetId
    let _ ← updateRecordset ctx conf plan (recordset.relisted ttl description list)
  | .delete plan zoneId recordsetId => deleteRecordset ctx conf plan zoneId recordsetId
  | .createDefault zoneId => do
    let zone ← getZone ctx zoneId
    createDefaultRecord ctx conf zone

/-- A call under the lock of its zone is taken to its end, also when it raises. -/
def RecordsetInput.run (conf : Conf) (input : RecordsetInput) (w : World) : World :=
  (input.call.body input.ctx conf w).2

end Designate
