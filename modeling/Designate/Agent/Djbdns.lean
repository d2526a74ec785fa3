import Designate.Run
import Mathlib.Logic.Function.Basic

/-!
# The djbdns agent

The agent keeps a datafile for each zone. A call puts a datafile or removes it, then reads all
datafiles, builds a `data.cdb` of them and renames it into place. No lock is taken for that, so
other calls take their steps in between.
-/

namespace Designate

namespace Djbdns

/-- What is in the datafile of each zone. -/
abbrev Datafiles := String → Option String

/-- What all datafiles were when they were read, and which of the reads that was. -/
structure Snapshot where
  data : Datafiles
  number : Nat

/-- Where a call is. -/
inductive Phase where
  /-- Its datafile is in place or gone: it is about to read all of them. -/
  | reading
  /-- It is about to build a `data.cdb`. -/
  | building (snapshot : Snapshot)
  /-- It is about to rename its `data.cdb` into place. -/
  | moving (snapshot : Snapshot)
  | returned
  | raised

/-- What a call has read and not put into place yet. -/
def Phase.snapshot : Phase → Option Snapshot
  | .building s => some s
  | .moving s => some s
  | _ => none

/-- The call has neither returned nor raised. -/
def Phase.Running : Phase → Prop
  | .returned => False
  | .raised => False
  | _ => True

structure Call where
  zoneName : String
  phase : Phase

/-- The files of the agent, and its calls in the order they began in. -/
structure Agent where
  datafiles : Datafiles
  /-- What the `data.cdb` in place was built from. -/
  dataCdb : Snapshot
  reads : Nat
  calls : List Call

namespace Agent

/-- A call that has taken its first step. -/
def enter (a : Agent) (zoneName : String) (datafiles : Datafiles) (phase : Phase) : Agent :=
  { a with datafiles := datafiles, calls := a.calls ++ [⟨zoneName, phase⟩] }

/-- A call goes on. -/
def goTo (a : Agent) (i : Nat) (call : Call) (phase : Phase) : Agent :=
  { a with calls := a.calls.set i { call with phase := phase } }

/-- `_perform_axfr_from_minidns`: what the command writes to the datafile, unless it fails. -/
def performAxfrFromMinidns (a : Agent) (zoneName : String) (axfr : Option String) : Agent :=
  match axfr with
  | some text => a.enter zoneName (Function.update a.datafiles zoneName (some text)) .reading
  | none => a.enter zoneName a.datafiles .raised

/-- `create_zone`, up to `_rebuild_data_cdb`. -/
def createZone (a : Agent) (zoneName : String) (axfr : Option String) : Agent :=
  a.performAxfrFromMinidns zoneName axfr

/-- `update_zone`, up to `_rebuild_data_cdb`. -/
def updateZone (a : Agent) (zoneName : String) (axfr : Option String) : Agent :=
  a.performAxfrFromMinidns zoneName axfr

/-- `delete_zone`, up to `_rebuild_data_cdb`. A datafile that is not there makes it return. -/
def deleteZone (a : Agent) (zoneName : String) (ok : Bool) : Agent :=
  if ok then
    match a.datafiles zoneName with
    | some _ => a.enter zoneName (Function.update a.datafiles zoneName none) .reading
    | none => a.enter zoneName a.datafiles .returned
  else a.enter zoneName a.datafiles .raised

/-- The next step of `_rebuild_data_cdb`. Each may fail, which makes the call raise. -/
def rebuildDataCdb (a : Agent) (i : Nat) (ok : Bool) : Agent :=
  match a.calls[i]? with
  | none => a
  | some call =>
    match call.phase with
    | .reading =>
      if ok then
        { a with reads := a.reads + 1 }.goTo i call (.building ⟨a.datafiles, a.reads + 1⟩)
      else a.goTo i call .raised
    | .building s => a.goTo i call (if ok then .moving s else .raised)
    | .moving s =>
      if ok then { a with dataCdb := s }.goTo i call .returned else a.goTo i call .raised
    | .returned => a
    | .raised => a

end Agent

/-- What happens next: a call begins, or one that has begun takes a step. -/
inductive Event where
  | create (zoneName : String) (axfr : Option String)
  | update (zoneName : String) (axfr : Option String)
  | delete (zoneName : String) (ok : Bool)
  | rebuild (i : Nat) (ok : Bool)

def step : Event → Agent → Agent
  | .create zoneName axfr, a => a.createZone zoneName axfr
  | .update zoneName axfr, a => a.updateZone zoneName axfr
  | .delete zoneName ok, a => a.deleteZone zoneName ok
  | .rebuild i ok, a => a.rebuildDataCdb i ok

/-- Nobody has called yet, and the datafiles there are are served. -/
def start (datafiles : Datafiles) : Agent := ⟨datafiles, ⟨datafiles, 0⟩, 0, []⟩

/-! ## What is to be served -/

/-- No call is under way. -/
def Agent.Quiet (a : Agent) : Prop := ∀ call ∈ a.calls, ¬ call.phase.Running

/-- The call is the last one of its zone to begin. -/
def Agent.IsLast (a : Agent) (i : Nat) (call : Call) : Prop :=
  a.calls[i]? = some call ∧
    ∀ j other, i < j → a.calls[j]? = some other → other.zoneName ≠ call.zoneName

/-- The zone has had no call, or the last one has returned. -/
def Agent.Settled (a : Agent) (zoneName : String) : Prop :=
  (∀ call ∈ a.calls, call.zoneName ≠ zoneName) ∨
    ∃ i call, a.IsLast i call ∧ call.zoneName = zoneName ∧ call.phase = .returned

/-- A snapshot that is in place, or may be some time. -/
def Agent.Has (a : Agent) (s : Snapshot) : Prop :=
  s = a.dataCdb ∨ ∃ call ∈ a.calls, call.phase.snapshot = some s

/-- A `data.cdb` is renamed into place only if it was read after the one there, and a deletion
finds no datafile only when no `data.cdb`, in place or under way, has the zone. -/
def Ordered : Event → Agent → Prop
  | .rebuild i true, a => ∀ call s, a.calls[i]? = some call → call.phase = .moving s →
      a.dataCdb.number < s.number
  | .delete zoneName true, a => a.datafiles zoneName = none → ∀ s, a.Has s → s.data zoneName = none
  | _, _ => True

end Djbdns

end Designate
