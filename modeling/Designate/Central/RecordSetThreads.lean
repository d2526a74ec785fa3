import Designate.Central.RecordSets
import Designate.Interleave
import Mathlib.Data.Finset.Basic

/-!
# Recordset requests on threads of one central service

The four requests on the recordsets of a zone, each as a thread handles it: whether
`synchronized_zone` has it take the lock of the zone, and the atomic steps it is made
of. `create_recordset`, `create_record` and `update_recordset` are decorated,
`delete_recordset` only has a transaction.
-/

namespace Designate

/-- A request on the recordsets of a zone, as central receives it. -/
inductive RecordSetRequest where
  | createRecordset (plan : Nat → Faults) (zoneId : Nat) (recordset : NewRecordSet)
  | createRecord (faults : Faults) (zoneId : Nat) (recordset : RecordSet) (record : Record)
  | updateRecordset (plan : Nat → Faults) (recordset : RecordSet)
  | deleteRecordset (plan : Nat → Faults) (zoneId recordsetId : Nat)

namespace RecordSetRequest

/-- The zone the request is about, which is what the decorator makes the name of the lock of. -/
def zoneId : RecordSetRequest → Nat
  | .createRecordset _ zoneId _ => zoneId
  | .createRecord _ zoneId _ _ => zoneId
  | .updateRecordset _ recordset => recordset.zoneId
  | .deleteRecordset _ zoneId _ => zoneId

/-- The function carries `@synchronized_zone()`. -/
def synchronized : RecordSetRequest → Bool
  | .createRecordset .. | .createRecord .. | .updateRecordset .. => true
  | .deleteRecordset .. => false

/-- The lock the request needs, on a thread that has the zones `held` noted as its own. -/
def lock (held : Finset Nat) (request : RecordSetRequest) : Option Nat :=
  if request.synchronized ∧ request.zoneId ∉ held then some request.zoneId else none

/-- What the request does, its result aside. -/
def call (ctx : Context) (conf : Conf) : RecordSetRequest → Call Unit
  | .createRecordset plan zoneId recordset => do
    let _ ← Designate.createRecordset ctx conf plan zoneId recordset
  | .createRecord faults zoneId recordset record => do
    let _ ← Designate.createRecord ctx conf faults zoneId recordset record
  | .updateRecordset plan recordset => do
    let _ ← Designate.updateRecordset ctx conf plan recordset
  | .deleteRecordset plan zoneId recordsetId =>
    Designate.deleteRecordset ctx conf plan zoneId recordsetId

end RecordSetRequest

/-- The steps of a call that returns or raises. -/
abbrev CallSteps (α : Type) := Steps World (Except Exc α)

section

variable (ctx : Context) (conf : Conf)

/-- The steps of `create_record`: the checks, the storage transaction, the worker's action. -/
def createRecordSteps (faults : Faults) (zoneId : Nat) (recordset : RecordSet) (record : Record) :
    CallSteps Record :=
  (Steps.atom (do let zone ← getZone ctx zoneId; refuseDeletingZone zone; pure zone)).bind
    fun zone =>
  (Steps.atom (createRecordInStorage ctx conf zone recordset record)).bind fun recordDb =>
  (Steps.atom (recordAction ctx conf faults zone recordDb .CREATE recordset)).bind fun _ =>
  .done (.ok recordDb)

/-- The steps of the loop of `delete_recordset`: an action of the worker for each record. -/
def deleteAllSteps (zone : Zone) (recordset : RecordSet) : (Nat → Faults) → List RecordRow →
    CallSteps Nat
  | _, [] => .done (.ok 0)
  | plan, row :: rows =>
    let record := Record.ofRow row
    (Steps.atom (recordAction ctx conf (plan 0) zone
      { record with action := record.action.set .DELETE } .DELETE recordset)).bind fun response =>
    (deleteAllSteps zone recordset (fun n => plan (n + 1)) rows).bind fun n =>
    .done (.ok (n + response.isSome.toNat))

/-- What `delete_recordset` looks up before its loop. -/
def deleteRecordsetGuard (zoneId recordsetId : Nat) : Call (Zone × RecordSet × List RecordRow) := do
  let zone ← getZone ctx zoneId
  let recordset ← getRecordset ctx recordsetId
  Exec.raiseIf (zone.id ≠ recordset.zoneId) .RecordSetNotFound
  refuseDeletingZone zone
  Exec.raiseIf (recordset.managed && !ctx.editManagedRecords)
    (.BadRequest "Managed records may not be deleted")
  let rows ← findRecords ctx fun r => r.recordsetId == recordsetId
  pure (zone, recordset, rows)

/-- The steps of `delete_recordset`: the look-ups, the loop, the removal of the recordset. -/
def deleteRecordsetSteps (plan : Nat → Faults) (zoneId recordsetId : Nat) : CallSteps Unit :=
  (Steps.atom (deleteRecordsetGuard ctx zoneId recordsetId)).bind fun p =>
  (deleteAllSteps ctx conf p.1 p.2.1 plan p.2.2).bind fun n =>
  Steps.atom (do raiseUnlessAll n p.2.2.length; deleteRecordsetRow ctx p.2.1.id)

end

end Designate
