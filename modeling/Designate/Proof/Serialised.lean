import Designate.Central.RecordSetThreads
import Designate.Sample

/-!
# Whether recordset requests of one zone are serialised

Two requests that both take the lock of the zone are never both under way, so the
tables and the device end up as if one had been handled after the other, whatever
atomic steps the two are made of. `delete_recordset` takes no lock, and a record may
be created between its look at the records and its removal of the recordset.
-/

namespace Designate

open Exec

section

variable {ctx : Context} {conf : Conf}

/-! ## The steps are those of the calls -/

theorem createRecordSteps_call (faults : Faults) (zoneId : Nat) (recordset : RecordSet)
    (record : Record) :
    (createRecordSteps ctx conf faults zoneId recordset record).call =
      createRecord ctx conf faults zoneId recordset record := by
  unfold createRecordSteps createRecord createOne
  simp only [Steps.call_bind, Steps.call_atom, Exec.bind_assoc]
  rfl

theorem deleteAllSteps_call (zone : Zone) (recordset : RecordSet) (plan : Nat → Faults)
    (rows : List RecordRow) :
    (deleteAllSteps ctx conf zone recordset plan rows).call =
      deleteAll ctx conf zone recordset plan rows := by
  induction rows generalizing plan with
  | nil => rfl
  | cons row rows ih =>
    unfold deleteAllSteps deleteAll
    simp only [Steps.call_bind, Steps.call_atom, ih]
    rfl

theorem deleteRecordsetSteps_call (plan : Nat → Faults) (zoneId recordsetId : Nat) :
    (deleteRecordsetSteps ctx conf plan zoneId recordsetId).call =
      deleteRecordset ctx conf plan zoneId recordsetId := by
  unfold deleteRecordsetSteps deleteRecordset deleteRecordsetGuard
  simp only [Steps.call_bind, Steps.call_atom, Exec.bind_assoc, deleteAllSteps_call]
  rfl

end

/-! ## Two requests -/

/-- The locks two requests for a zone need are one, if both are decorated and on clean threads. -/
theorem RecordSetRequest.lock_eq {request : RecordSetRequest} {held : Finset Nat} {zoneId : Nat}
    (hzone : request.zoneId = zoneId) (hs : request.synchronized = true) (hheld : zoneId ∉ held) :
    request.lock held = some zoneId := by
  unfold RecordSetRequest.lock
  rw [hzone, if_pos ⟨hs, hheld⟩]

/--
**Two requests on one zone come out as if handled one after the other**, if both take
the zone's lock, or at least are never both under way: in every schedule of their
steps, whatever the atomic steps are.
-/
theorem requests_serial (conf : Conf) (ctx : Bool → Context) (request : Bool → RecordSetRequest)
    (held : Bool → Finset Nat) (zoneId : Nat) (hzone : ∀ t, (request t).zoneId = zoneId)
    (body : Bool → CallSteps Unit) (hbody : ∀ t, (body t).call = (request t).call (ctx t) conf)
    (w : World) (schedule : List Bool)
    (hcond : (∀ t, (request t).synchronized = true ∧ zoneId ∉ held t) ∨
      Threads.Apart (fun t => (request t).lock (held t)) schedule (Threads.start w body))
    (hend : ∀ t, (Run.final (Threads.next fun t => (request t).lock (held t)) schedule
      (Threads.start w body)).phase t = .finished (.ok ())) :
    ∃ t w₁, (request t).call (ctx t) conf w = (.ok (), w₁) ∧
      (request !t).call (ctx !t) conf w₁ =
        (.ok (), (Run.final (Threads.next fun t => (request t).lock (held t)) schedule
          (Threads.start w body)).shared) := by
  have hapart : Threads.Apart (fun t => (request t).lock (held t)) schedule
      (Threads.start w body) := by
    rcases hcond with h | h
    · exact Threads.apart_of_lock (fun t => (hzone t) ▸ RecordSetRequest.lock_eq rfl (h t).1
        ((hzone t).symm ▸ (h t).2)) schedule Threads.start_not_overlapping
    · exact h
  obtain ⟨t, w₁, h₁, h₂⟩ := Threads.serial_of_apart hapart hend
  refine ⟨t, w₁, ?_, ?_⟩
  · rw [← hbody]; exact h₁
  · rw [← hbody]; exact h₂

/-! ## At the sample -/

namespace Sample

/-- A record with the given data, created in `www`. -/
def addition (text : String) : RecordSetRequest :=
  .createRecord Faults.none 2 (www []) (Record.new text)

/-- The steps of the creation. -/
def additionSteps (text : String) : CallSteps Unit :=
  (createRecordSteps ctx conf Faults.none 2 (www []) (Record.new text)).bind fun _ => .done (.ok ())

/-- Each thread creates a record of its own. -/
def additions (t : Bool) : String := if t then "192.0.2.8" else "192.0.2.9"

/-- Thread `true` deletes `www`, thread `false` creates a record in it. -/
def overlap (t : Bool) : RecordSetRequest :=
  if t then .deleteRecordset (fun _ => Faults.none) 2 3 else addition "192.0.2.8"

def overlapSteps (t : Bool) : CallSteps Unit :=
  if t then deleteRecordsetSteps ctx conf (fun _ => Faults.none) 2 3 else additionSteps "192.0.2.8"

/-- The two threads, when the record is created behind the deletion's look at the records. -/
def overlapEnd : Threads World (Except Exc Unit) :=
  Run.final (Threads.next fun t => (overlap t).lock ∅)
    [true, true, false, false, false, false, false, true, true, true, true]
    (Threads.start world overlapSteps)

end Sample

theorem additionSteps_call (text : String) :
    (Sample.additionSteps text).call = (Sample.addition text).call Sample.ctx Sample.conf := by
  unfold Sample.additionSteps
  rw [Steps.call_bind, createRecordSteps_call]
  rfl

theorem overlapSteps_call (t : Bool) :
    (Sample.overlapSteps t).call = (Sample.overlap t).call Sample.ctx Sample.conf := by
  cases t with
  | true => exact deleteRecordsetSteps_call _ _ _
  | false => exact additionSteps_call _

/-- The turns of the scheduler under which two creations try to get into each other's way. -/
def Sample.turns : List Bool :=
  [true, false, true, false, true, false, true, false, true, false, false, false, false, false]

theorem requests_serial_sample :
    ∃ t w₁, (Sample.addition (Sample.additions t)).call Sample.ctx Sample.conf Sample.world =
        (.ok (), w₁) ∧
      (Sample.addition (Sample.additions !t)).call Sample.ctx Sample.conf w₁ =
        (.ok (), (Run.final (Threads.next fun t => (Sample.addition (Sample.additions t)).lock ∅)
          Sample.turns (Threads.start Sample.world
            fun t => Sample.additionSteps (Sample.additions t))).shared) :=
  requests_serial Sample.conf (fun _ => Sample.ctx) (fun t => Sample.addition (Sample.additions t))
    (fun _ => ∅) 2 (fun _ => rfl) (fun t => Sample.additionSteps (Sample.additions t))
    (fun t => additionSteps_call _) Sample.world Sample.turns (Or.inl fun _ => ⟨rfl, by simp⟩)
    fun t => Phase.eq_of_returned (by cases t <;> decide +kernel)

/--
Both calls return. The deletion takes the new record's row along, and its resource
record stays on the device, which neither order of the two would leave there.
-/
theorem overlap_not_serial :
    (∀ t, (Sample.overlapSteps t).call = (Sample.overlap t).call Sample.ctx Sample.conf ∧
        Sample.overlapEnd.phase t = .finished (.ok ())) ∧
      ¬ ∃ t w₁, (Sample.overlap t).call Sample.ctx Sample.conf Sample.world = (.ok (), w₁) ∧
        (Sample.overlap !t).call Sample.ctx Sample.conf w₁ = (.ok (), Sample.overlapEnd.shared) := by
  refine ⟨fun t => ⟨overlapSteps_call t, Phase.eq_of_returned (by cases t <;> decide +kernel)⟩, ?_⟩
  rintro ⟨t, w₁, h₁, h₂⟩
  obtain rfl : ((Sample.overlap t).call Sample.ctx Sample.conf Sample.world).2 = w₁ := by rw [h₁]
  have hrrs := congrArg (fun out => out.2.device.rrs) h₂
  cases t with
  | true => exact absurd hrrs (by decide +kernel)
  | false => exact absurd hrrs (by decide +kernel)

end Designate
