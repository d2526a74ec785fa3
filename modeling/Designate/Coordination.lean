import Designate.Producer.Shards
import Mathlib.Logic.Function.Basic

/-!
# How the services of a deployment share their work

The pool managers of a pool elect one of them, which alone runs the periodic tasks. The
producers cut the shards among those that are there. Both are told by a coordinator, a
library that talks to a back end: who leads a group, and who its members are. What an
instance makes of it is here; what the coordinator does is a parameter.
-/

namespace Designate

/-! ## Leaders -/

namespace Leaders

/-- What a coordinator does about the leader of one group, for the instance it belongs to. -/
structure Coordinator (ι β : Type) where
  watchElectedAsLeader : ι → β → β
  unwatchElectedAsLeader : ι → β → β
  standDownGroupLeader : ι → β → β
  /-- `run_watchers`: whether the instance has been elected, so that its callback is run. -/
  runWatchers : ι → β → Bool × β
  /-- The back end has heard no heartbeat of the instance for too long. -/
  expire : ι → β → β

/--
What is documented of a coordinator. One instance at most holds the leadership, an
election gives it to an instance that watches for it, and it goes where the instance
stands down or is not heard of any more.
-/
structure Coordinator.Exclusive {ι β : Type} (c : Coordinator ι β) (holds watches : ι → β → Prop) :
    Prop where
  one : ∀ {b i j}, holds i b → holds j b → i = j
  watch_holds : ∀ {b} i j, holds j (c.watchElectedAsLeader i b) ↔ holds j b
  watch_watches : ∀ {b} i j, watches j (c.watchElectedAsLeader i b) ↔ j = i ∨ watches j b
  unwatch_holds : ∀ {b} i j, holds j (c.unwatchElectedAsLeader i b) ↔ holds j b
  unwatch_watches : ∀ {b} i j, watches j (c.unwatchElectedAsLeader i b) ↔ j ≠ i ∧ watches j b
  standDown_holds : ∀ {b} i j, holds j (c.standDownGroupLeader i b) ↔ j ≠ i ∧ holds j b
  standDown_watches : ∀ {b} i j, watches j (c.standDownGroupLeader i b) ↔ watches j b
  elected : ∀ {b} i, (c.runWatchers i b).1 = true → watches i b
  runWatchers_holds : ∀ {b} i j, holds j (c.runWatchers i b).2 ↔
    holds j b ∨ j = i ∧ (c.runWatchers i b).1 = true
  runWatchers_watches : ∀ {b} i j, watches j (c.runWatchers i b).2 ↔ watches j b
  expire_holds : ∀ {b} i j, holds j (c.expire i b) ↔ j ≠ i ∧ holds j b
  expire_watches : ∀ {b} i j, watches j (c.expire i b) ↔ watches j b

/-- A `LeaderElection`; without a coordinator, the instance is the only one. -/
structure LeaderElection (κ : Type) where
  coordinated : Bool
  callbacks : List κ := []
  started : Bool := false
  leader : Bool := false

/-- How far a `stop` has got. -/
inductive Stage where
  | idle
  /-- It does not watch any more, and has not looked whether it is the leader. -/
  | unwatched
  /-- It is not the leader any more, and has not told the coordinator. -/
  | standingDown
  deriving DecidableEq, Repr

/-- The instances of a group, each with its election, and the back end they share. -/
structure Group (ι κ β : Type) where
  backend : β
  elections : ι → LeaderElection κ
  stages : ι → Stage := fun _ => .idle
  /-- The callbacks that were called. -/
  called : List (ι × κ) := []
  /-- The leaders the back end has given up on. -/
  expired : ι → Bool := fun _ => false

inductive Event (ι κ : Type) where
  | start (i : ι)
  /-- `stop`, up to the next call of the coordinator. -/
  | stop (i : ι)
  | runWatchers (i : ι)
  | expire (i : ι)
  | watch (i : ι) (callback : κ)
  | unwatch (i : ι) (callback : κ)

variable {ι κ β : Type} [DecidableEq ι]

/-- What becomes of one of the elections. -/
def Group.put (i : ι) (election : LeaderElection κ) (g : Group ι κ β) : Group ι κ β :=
  { g with elections := Function.update g.elections i election }

def Group.stage (i : ι) (stage : Stage) (g : Group ι κ β) : Group ι κ β :=
  { g with stages := Function.update g.stages i stage }

/-- The callbacks of an instance are called, one after the other. -/
def Group.callAll (i : ι) (g : Group ι κ β) : Group ι κ β :=
  { g with called := g.called ++ (g.elections i).callbacks.map fun callback => (i, callback) }

/-- `start`. -/
def start (c : Coordinator ι β) (i : ι) (g : Group ι κ β) : Group ι κ β :=
  let election := g.elections i
  if election.coordinated then
    { g.put i { election with started := true } with
      backend := c.watchElectedAsLeader i g.backend }
  else (g.put i { election with started := true, leader := true }).callAll i

/-- `stop`, as far as it has not got yet. -/
def stop (c : Coordinator ι β) (i : ι) (g : Group ι κ β) : Group ι κ β :=
  let election := g.elections i
  match g.stages i with
  | .idle =>
    if election.coordinated then
      { (g.put i { election with started := false }).stage i .unwatched with
        backend := c.unwatchElectedAsLeader i g.backend }
    else g.put i { election with started := false, leader := false }
  | .unwatched =>
    if election.leader then (g.put i { election with leader := false }).stage i .standingDown
    else g.stage i .idle
  | .standingDown =>
    { g.stage i .idle with
      backend := c.standDownGroupLeader i g.backend
      expired := Function.update g.expired i false }

/-- `_on_elected_leader`. -/
def onElectedLeader (i : ι) (g : Group ι κ β) : Group ι κ β :=
  (g.put i { g.elections i with leader := true }).callAll i

/-- `watch_elected_as_leader` of an election, which may call the callback at once. -/
def watchElectedAsLeader (i : ι) (callback : κ) (g : Group ι κ β) : Group ι κ β :=
  let election := g.elections i
  let g := g.put i { election with callbacks := election.callbacks ++ [callback] }
  if election.started && (election.leader || !election.coordinated) then
    { g with called := g.called ++ [(i, callback)] }
  else g

/-- `callbacks.remove(callback)`; it raises where there is no such callback. -/
def unwatchElectedAsLeader [DecidableEq κ] (i : ι) (callback : κ) (g : Group ι κ β) :
    Group ι κ β :=
  g.put i { g.elections i with callbacks := (g.elections i).callbacks.erase callback }

/-- One thing happens. A service is not started while it is being stopped. -/
def step [DecidableEq κ] (c : Coordinator ι β) : Event ι κ → Group ι κ β → Group ι κ β
  | .start i, g => if g.stages i = .idle then start c i g else g
  | .stop i, g => stop c i g
  | .runWatchers i, g =>
    match c.runWatchers i g.backend with
    | (true, backend) =>
      onElectedLeader i { g with backend, expired := Function.update g.expired i false }
    | (false, backend) => { g with backend }
  | .expire i, g =>
    { g with
      backend := c.expire i g.backend
      expired := Function.update g.expired i
        (g.expired i || (g.elections i).leader || g.stages i == .standingDown) }
  | .watch i callback, g => watchElectedAsLeader i callback g
  | .unwatch i callback, g => unwatchElectedAsLeader i callback g

/-- A group none of whose instances has been started; all have a coordinator. -/
def fresh (b : β) : Group ι κ β where
  backend := b
  elections _ := { coordinated := true }

end Leaders

/-! ## Members -/

namespace Partitioners

/-- A `Partitioner`; without a coordinator, its instance has all partitions. -/
structure Partitioner where
  coordinated : Bool := true
  callbacks : List String := []
  started : Bool := false
  myPartitions : Option (List Nat) := none

/-- The producers of a group by their names, and who is in it by now. -/
structure Cluster where
  members : List String
  partitioners : String → Partitioner := fun _ => {}
  /-- What a callback of a producer was last called with, as `on_partition_change` keeps it. -/
  told : String → String → Option (List Nat) := fun _ _ => none

/-- What can happen. A read of the members fails at the attempts that `fails` says. -/
inductive Event where
  /-- Members come and go, of themselves or because they are not heard of any more. -/
  | change (members : List String)
  | start (me : String) (fails : Nat → Bool)
  /-- A watcher runs, as it does some time after the members have changed. -/
  | groupChange (me : String) (fails : Nat → Bool)
  | watch (me callback : String)
  | unwatch (me callback : String)

/-- `_get_members`: five attempts. -/
def getMembers (fails : Nat → Bool) (members : List String) : Option (List String) :=
  if (List.range 5).all fails then none else some members

/-- `_update_partitions`; no answer where it raises. -/
def update (me : String) (fails : Nat → Bool) (cluster : Cluster) : Option (List Nat) := do
  let members ← getMembers fails cluster.members
  Shards.updatePartitions members me Shards.partitions

def Cluster.put (me : String) (partitioner : Partitioner) (cluster : Cluster) : Cluster :=
  { cluster with partitioners := Function.update cluster.partitioners me partitioner }

/-- `_run_callbacks`. -/
def runCallbacks (me : String) (cluster : Cluster) : Cluster :=
  let partitioner := cluster.partitioners me
  { cluster with
    told := Function.update cluster.told me fun callback =>
      if callback ∈ partitioner.callbacks then partitioner.myPartitions
      else cluster.told me callback }

/-- `start`: with a coordinator, the callbacks there are by now are not called. -/
def start (me : String) (fails : Nat → Bool) (cluster : Cluster) : Cluster :=
  let partitioner := cluster.partitioners me
  if partitioner.coordinated then
    match update me fails cluster with
    | some mine => cluster.put me { partitioner with myPartitions := some mine, started := true }
    | none => cluster
  else
    let cluster := runCallbacks me
      (cluster.put me { partitioner with myPartitions := some Shards.partitions })
    cluster.put me { cluster.partitioners me with started := true }

/-- `_on_group_change`. -/
def onGroupChange (me : String) (fails : Nat → Bool) (cluster : Cluster) : Cluster :=
  match update me fails cluster with
  | some mine =>
    runCallbacks me (cluster.put me { cluster.partitioners me with myPartitions := some mine })
  | none => cluster

/-- `watch_partition_change`, by the callback `on_partition_change` of a task. -/
def watchPartitionChange (me callback : String) (cluster : Cluster) : Cluster :=
  let partitioner := cluster.partitioners me
  let cluster := cluster.put me
    { partitioner with callbacks := partitioner.callbacks ++ [callback] }
  if partitioner.started then
    { cluster with
      told := Function.update cluster.told me
        (Function.update (cluster.told me) callback partitioner.myPartitions) }
  else cluster

/-- `unwatch_partition_change`. -/
def unwatchPartitionChange (me callback : String) (cluster : Cluster) : Cluster :=
  let partitioner := cluster.partitioners me
  cluster.put me { partitioner with callbacks := partitioner.callbacks.erase callback }

/-- One thing happens. -/
def step : Event → Cluster → Cluster
  | .change members, cluster => { cluster with members }
  | .start me fails, cluster => start me fails cluster
  | .groupChange me fails, cluster => onGroupChange me fails cluster
  | .watch me callback, cluster => watchPartitionChange me callback cluster
  | .unwatch me callback, cluster => unwatchPartitionChange me callback cluster

end Partitioners

end Designate
