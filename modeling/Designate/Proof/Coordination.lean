import Designate.Coordination
import Designate.Proof.Paginate
import Designate.Proof.Partition
import Designate.Run
import Mathlib.Data.List.Flatten
import Mathlib.Data.List.Perm.Basic

/-!
# One leader, and every shard with one producer

An instance takes itself for the leader from its election until it is stopped, and puts
that away before it tells the coordinator. So two instances do at once only if the
coordinator has given up on one of them, of which nobody tells it.

A producer keeps the slice that it read the members for last. Once every member has been
told of the last change, the slices are those of one list of members, and no shard is
left out or handled twice.
-/

namespace Designate

namespace Leaders

variable {ι κ β : Type} {c : Coordinator ι β} {holds watches : ι → β → Prop} {g : Group ι κ β}

/-! ## What an instance believes, and what is so -/

/--
**The invariant of one instance.** `held` and `watched` say what the coordinator has of it.
It believes to lead if it is held to, or has been given up on.
-/
structure Honest (held watched : Prop) (election : LeaderElection κ) (stage : Stage)
    (expired : Bool) (called : κ → Prop) : Prop where
  coordinated : election.coordinated = true
  watching : watched ↔ election.started = true
  stopping : stage ≠ .idle → election.started = false
  leading : election.leader = true → election.started = true ∨ stage = .unwatched
  holding : held ↔ expired = false ∧ (election.leader = true ∨ stage = .standingDown)
  told : election.started = true → election.leader = true →
    ∀ callback ∈ election.callbacks, called callback

/-- What an instance believes is so, for every instance of a group. -/
def Agreed (holds watches : ι → β → Prop) (g : Group ι κ β) : Prop :=
  ∀ i, Honest (holds i g.backend) (watches i g.backend) (g.elections i) (g.stages i) (g.expired i)
    fun callback => (i, callback) ∈ g.called

section

variable {held held' watched watched' : Prop} {election : LeaderElection κ} {stage : Stage}
  {expired : Bool} {called called' : κ → Prop}

theorem Honest.congr (h : Honest held watched election stage expired called)
    (hheld : held' ↔ held) (hwatched : watched' ↔ watched)
    (hcalled : ∀ callback, called callback → called' callback) :
    Honest held' watched' election stage expired called' where
  coordinated := h.coordinated
  watching := hwatched.trans h.watching
  stopping := h.stopping
  leading := h.leading
  holding := hheld.trans h.holding
  told hs hl callback hc := hcalled callback (h.told hs hl callback hc)

theorem Honest.start (h : Honest held watched election .idle expired called) :
    Honest held True { election with started := true } .idle expired called where
  coordinated := h.coordinated
  watching := iff_of_true trivial rfl
  stopping hne := absurd rfl hne
  leading _ := .inl rfl
  holding := h.holding
  told _ hl := h.told ((h.leading hl).resolve_right Stage.noConfusion) hl

theorem Honest.unwatch (h : Honest held watched election .idle expired called) :
    Honest held False { election with started := false } .unwatched expired called where
  coordinated := h.coordinated
  watching := iff_of_false id Bool.false_ne_true
  stopping _ := rfl
  leading _ := .inr rfl
  holding := by
    rw [h.holding]
    exact and_congr_right fun _ => or_congr_right (iff_of_false Stage.noConfusion Stage.noConfusion)
  told hs := absurd hs Bool.false_ne_true

/-- The leader gives up its belief first. -/
theorem Honest.giveUp (h : Honest held watched election .unwatched expired called)
    (hl : election.leader = true) :
    Honest held watched { election with leader := false } .standingDown expired called where
  coordinated := h.coordinated
  watching := h.watching
  stopping _ := h.stopping Stage.noConfusion
  leading hl' := absurd hl' Bool.false_ne_true
  holding := by
    rw [h.holding]
    exact and_congr_right fun _ => iff_of_true (.inl hl) (.inr rfl)
  told _ hl' := absurd hl' Bool.false_ne_true

theorem Honest.leave (h : Honest held watched election .unwatched expired called)
    (hl : election.leader = false) : Honest held watched election .idle expired called where
  coordinated := h.coordinated
  watching := h.watching
  stopping hne := absurd rfl hne
  leading hl' := absurd (hl.symm.trans hl') Bool.false_ne_true
  holding := by
    rw [h.holding]
    exact and_congr_right fun _ => or_congr_right (iff_of_false Stage.noConfusion Stage.noConfusion)
  told _ hl' := absurd (hl.symm.trans hl') Bool.false_ne_true

theorem Honest.standDown (h : Honest held watched election .standingDown expired called) :
    Honest False watched election .idle false called := by
  have hl : ¬ election.leader = true := by
    intro hl
    rcases h.leading hl with hs | hs
    · rw [h.stopping Stage.noConfusion] at hs
      cases hs
    · cases hs
  refine ⟨h.coordinated, h.watching, fun hne => absurd rfl hne, fun hl' => absurd hl' hl,
    iff_of_false id ?_, fun _ hl' => absurd hl' hl⟩
  rintro ⟨-, hl' | hs⟩
  · exact hl hl'
  · cases hs

theorem Honest.elect (h : Honest held watched election stage expired called) (hw : watched) :
    Honest True watched { election with leader := true } stage false
      fun callback => called callback ∨ callback ∈ election.callbacks where
  coordinated := h.coordinated
  watching := h.watching
  stopping := h.stopping
  leading _ := .inl (h.watching.mp hw)
  holding := iff_of_true trivial ⟨rfl, .inl rfl⟩
  told _ _ _ hc := .inr hc

theorem Honest.expire (h : Honest held watched election stage expired called) :
    Honest False watched election stage
      (expired || election.leader || stage == .standingDown) called where
  coordinated := h.coordinated
  watching := h.watching
  stopping := h.stopping
  leading := h.leading
  holding := by
    refine iff_of_false id ?_
    rintro ⟨hnone, hl | hs⟩
    · simp [hl] at hnone
    · simp [hs] at hnone
  told := h.told

/-- A callback that is registered with the leader is called at once. -/
theorem Honest.watch (h : Honest held watched election stage expired called) (callback : κ) :
    Honest held watched { election with callbacks := election.callbacks ++ [callback] } stage
      expired fun k => called k ∨
        (election.started = true ∧ election.leader = true) ∧ k = callback where
  coordinated := h.coordinated
  watching := h.watching
  stopping := h.stopping
  leading := h.leading
  holding := h.holding
  told hs hl k hk := by
    rcases List.mem_append.mp hk with hk | hk
    · exact .inl (h.told hs hl k hk)
    · exact .inr ⟨⟨hs, hl⟩, List.mem_singleton.mp hk⟩

theorem Honest.unregister [DecidableEq κ] (h : Honest held watched election stage expired called)
    (callback : κ) : Honest held watched
      { election with callbacks := election.callbacks.erase callback } stage expired called where
  coordinated := h.coordinated
  watching := h.watching
  stopping := h.stopping
  leading := h.leading
  holding := h.holding
  told hs hl k hk := h.told hs hl k (List.mem_of_mem_erase hk)

end

/-! ## The steps -/

section

variable [DecidableEq ι]

/-- A step of the instance `i` is looked at there; the others see the coordinator only. -/
theorem Agreed.of (h : Agreed holds watches g) (i : ι) {g' : Group ι κ β}
    (hsame : ∀ j, j ≠ i → g'.elections j = g.elections j ∧ g'.stages j = g.stages j ∧
      g'.expired j = g.expired j ∧ (holds j g'.backend ↔ holds j g.backend) ∧
      (watches j g'.backend ↔ watches j g.backend)) (hcalled : g.called ⊆ g'.called)
    (hi : Honest (holds i g'.backend) (watches i g'.backend) (g'.elections i) (g'.stages i)
      (g'.expired i) fun callback => (i, callback) ∈ g'.called) : Agreed holds watches g' := by
  intro j
  by_cases hji : j = i
  · exact hji ▸ hi
  · obtain ⟨helection, hstage, hexpired, hholds, hwatches⟩ := hsame j hji
    rw [helection, hstage, hexpired]
    exact (h j).congr hholds hwatches fun _ hc => hcalled hc

theorem Agreed.start (h : Agreed holds watches g) (hc : c.Exclusive holds watches) {i : ι}
    (hi : g.stages i = .idle) : Agreed holds watches (Leaders.start c i g) := by
  have hold := h i
  rw [hi] at hold
  unfold Leaders.start
  dsimp only
  rw [if_pos hold.coordinated]
  refine h.of i (fun j hj => ⟨Function.update_of_ne hj _ _, rfl, rfl, hc.watch_holds i j, ?_⟩)
    (List.Subset.refl _) ?_
  · exact (hc.watch_watches i j).trans (or_iff_right hj)
  · dsimp only [Group.put]
    rw [Function.update_self, hi]
    exact hold.start.congr (hc.watch_holds i i)
      (iff_of_true ((hc.watch_watches i i).mpr (.inl rfl)) trivial) fun _ h => h

/-- A stop takes three steps; each is by the stage the instance has reached. -/
theorem Agreed.stop (h : Agreed holds watches g) (hc : c.Exclusive holds watches) (i : ι) :
    Agreed holds watches (Leaders.stop c i g) := by
  have hold := h i
  unfold Leaders.stop
  dsimp only
  cases hstage : g.stages i with
  | idle =>
    rw [hstage] at hold
    dsimp only
    rw [if_pos hold.coordinated]
    -- to stop watching takes nothing from the others
    refine h.of i (fun j hj => ⟨Function.update_of_ne hj _ _, Function.update_of_ne hj _ _, rfl,
      hc.unwatch_holds i j, ?_⟩) (List.Subset.refl _) ?_
    · exact (hc.unwatch_watches i j).trans (and_iff_right hj)
    · dsimp only [Group.put, Group.stage]
      rw [Function.update_self, Function.update_self]
      exact hold.unwatch.congr (hc.unwatch_holds i i)
        (iff_of_false (fun hw => ((hc.unwatch_watches i i).mp hw).1 rfl) id) fun _ h => h
  | unwatched =>
    rw [hstage] at hold
    dsimp only
    split
    · -- it leads, so the lock has to be given up before it is done
      next hl =>
      refine h.of i (fun j hj => ⟨Function.update_of_ne hj _ _, Function.update_of_ne hj _ _, rfl,
        Iff.rfl, Iff.rfl⟩) (List.Subset.refl _) ?_
      dsimp only [Group.put, Group.stage]
      rw [Function.update_self, Function.update_self]
      exact hold.giveUp hl
    · next hl =>
      refine h.of i (fun j hj => ⟨rfl, Function.update_of_ne hj _ _, rfl, Iff.rfl, Iff.rfl⟩)
        (List.Subset.refl _) ?_
      dsimp only [Group.stage]
      rw [Function.update_self]
      exact hold.leave (by simpa using hl)
  | standingDown =>
    rw [hstage] at hold
    refine h.of i (fun j hj => ⟨rfl, Function.update_of_ne hj _ _, Function.update_of_ne hj _ _,
      ?_, hc.standDown_watches i j⟩) (List.Subset.refl _) ?_
    · -- only the one that stands down loses the lock
      exact (hc.standDown_holds i j).trans (and_iff_right hj)
    · dsimp only [Group.stage]
      rw [Function.update_self, Function.update_self]
      exact hold.standDown.congr
        (iff_of_false (fun hh => ((hc.standDown_holds i i).mp hh).1 rfl) id)
        (hc.standDown_watches i i) fun _ h => h

/-- A watcher that runs may find that its instance has been elected. -/
theorem Agreed.runWatchers [DecidableEq κ] (h : Agreed holds watches g) (hc : c.Exclusive holds watches) (i : ι) :
    Agreed holds watches (step c (.runWatchers i) g) := by
  unfold step
  dsimp only
  have hholds := fun j => hc.runWatchers_holds (b := g.backend) i j
  have hwatches := fun j => hc.runWatchers_watches (b := g.backend) i j
  have helected := hc.elected (b := g.backend) i
  cases hr : c.runWatchers i g.backend with
  | mk elected backend =>
    rw [hr] at hholds hwatches helected
    cases elected with
    | true =>
      -- it has the lock now, and calls back everyone who waits for that
      have hone : ∀ j, j ≠ i → (holds j backend ↔ holds j g.backend) := fun j hj =>
        (hholds j).trans (or_iff_left fun h => hj h.1)
      refine h.of i (fun j hj => ⟨Function.update_of_ne hj _ _, rfl, Function.update_of_ne hj _ _,
        hone j hj, hwatches j⟩) (List.subset_append_left _ _) ?_
      dsimp only [onElectedLeader, Group.put, Group.callAll]
      rw [Function.update_self, Function.update_self]
      refine ((h i).elect (helected rfl)).congr
        (iff_of_true ((hholds i).mpr (.inr ⟨rfl, rfl⟩)) trivial) (hwatches i) ?_
      rintro callback (hc | hc)
      · exact List.mem_append_left _ hc
      · exact List.mem_append_right _ (List.mem_map_of_mem hc)
    | false =>
      -- nothing has been won, so the lock is where it was
      have hsame : ∀ j, holds j backend ↔ holds j g.backend := fun j =>
        (hholds j).trans (or_iff_left fun h => Bool.false_ne_true h.2)
      exact fun j => (h j).congr (hsame j) (hwatches j) fun _ h => h

/-- **Every step leaves what the instances believe and what is so in agreement.** -/
theorem Agreed.step [DecidableEq κ] (h : Agreed holds watches g) (hc : c.Exclusive holds watches)
    (e : Event ι κ) : Agreed holds watches (Leaders.step c e g) := by
  cases e with
  | start i =>
    unfold Leaders.step
    dsimp only
    split
    · next hi => exact h.start hc hi
    · exact h
  | stop i => exact h.stop hc i
  | runWatchers i => exact h.runWatchers hc i
  | expire i =>
    refine h.of i (fun j hj => ⟨rfl, rfl, Function.update_of_ne hj _ _, ?_,
      hc.expire_watches i j⟩) (List.Subset.refl _) ?_
    · exact (hc.expire_holds i j).trans (and_iff_right hj)
    · dsimp only [Leaders.step]
      rw [Function.update_self]
      exact (h i).expire.congr (iff_of_false (fun hh => ((hc.expire_holds i i).mp hh).1 rfl) id)
        (hc.expire_watches i i) fun _ h => h
  | watch i callback =>
    have hnew := (h i).watch callback
    unfold Leaders.step watchElectedAsLeader
    dsimp only
    -- whether the callback is called at once depends on who leads; the rest is the same
    have hput : ∀ called, g.called ⊆ called →
        (∀ k, (i, k) ∈ g.called ∨ ((g.elections i).started = true ∧
          (g.elections i).leader = true) ∧ k = callback → (i, k) ∈ called) →
        Agreed holds watches { g.put i { g.elections i with
          callbacks := (g.elections i).callbacks ++ [callback] } with called } := by
      intro called hsub hk
      refine h.of i (fun j hj => ⟨Function.update_of_ne hj _ _, rfl, rfl, Iff.rfl, Iff.rfl⟩) hsub ?_
      dsimp only [Group.put]
      rw [Function.update_self]
      exact hnew.congr Iff.rfl Iff.rfl hk
    split
    · -- the leader calls a new callback at once, so nobody misses the election
      refine hput _ (List.subset_append_left _ _) ?_
      rintro k (hk | ⟨-, rfl⟩)
      · exact List.mem_append_left _ hk
      · exact List.mem_append_right _ List.mem_cons_self
    · next hnone =>
      refine hput g.called (List.Subset.refl _) ?_
      rintro k (hk | ⟨⟨hs, hl⟩, -⟩)
      · exact hk
      · simp [hs, hl] at hnone
  | unwatch i callback =>
    refine h.of i (fun j hj => ⟨Function.update_of_ne hj _ _, rfl, rfl, Iff.rfl, Iff.rfl⟩)
      (List.Subset.refl _) ?_
    dsimp only [Leaders.step, unwatchElectedAsLeader, Group.put]
    rw [Function.update_self]
    exact (h i).unregister callback

end

theorem agreed_fresh {b : β} (hb : ∀ i, ¬ holds i b ∧ ¬ watches i b) :
    Agreed holds watches (fresh b : Group ι κ β) := fun i =>
  { coordinated := rfl
    watching := iff_of_false (hb i).2 Bool.false_ne_true
    stopping := fun h => absurd rfl h
    leading := fun h => absurd h Bool.false_ne_true
    holding := iff_of_false (hb i).1 fun h => h.2.elim Bool.false_ne_true Stage.noConfusion
    told := fun h => absurd h Bool.false_ne_true }

/-! ## What a group can rely on -/

/-- One leader, unless the coordinator has given up on it, and none left behind. -/
structure Led (holds : ι → β → Prop) (g : Group ι κ β) : Prop where
  one : ∀ i j, (g.elections i).leader = true → (g.elections j).leader = true → i ≠ j →
    g.expired i = true ∨ g.expired j = true
  stopped : ∀ i, g.stages i = .idle → (g.elections i).started = false →
    (g.elections i).leader = false ∧ ¬ holds i g.backend
  known : ∀ i, holds i g.backend → (g.elections i).leader = true ∨ g.stages i = .standingDown
  told : ∀ i, (g.elections i).started = true → (g.elections i).leader = true →
    ∀ callback ∈ (g.elections i).callbacks, (i, callback) ∈ g.called

/--
Two leaders that both count on a lease that has not expired would both hold the lock, which is
one for all.
-/
theorem Agreed.led (h : Agreed holds watches g) (hc : c.Exclusive holds watches) :
    Led holds g where
  one i j hi hj hne := by
    -- neither lease has expired, so both hold a lock that only one can hold
    by_contra hnone
    obtain ⟨hexpi, hexpj⟩ := not_or.mp hnone
    have hholds : ∀ k, (g.elections k).leader = true → ¬ g.expired k = true →
        holds k g.backend := fun k hk hexp =>
      (h k).holding.mpr ⟨Bool.eq_false_iff.mpr hexp, .inl hk⟩
    exact hne (hc.one (hholds i hi hexpi) (hholds j hj hexpj))
  stopped i hidle hstopped := by
    have hl : (g.elections i).leader = false := by
      rw [Bool.eq_false_iff]
      intro hl
      rcases (h i).leading hl with hs | hs
      · rw [hstopped] at hs
        cases hs
      · rw [hidle] at hs
        cases hs
    refine ⟨hl, fun hheld => ?_⟩
    -- to hold it one has to lead or to have a look under way, and the stopped one does neither
    rcases ((h i).holding.mp hheld).2 with hl' | hs
    · rw [hl] at hl'
      cases hl'
    · rw [hidle] at hs
      cases hs
  known i hheld := ((h i).holding.mp hheld).2
  told i := (h i).told

/-- **Whatever happens to a group, in whatever order, there is one leader in it at most.** -/
theorem run_led [DecidableEq ι] [DecidableEq κ] (hc : c.Exclusive holds watches) {b : β}
    (hb : ∀ i, ¬ holds i b ∧ ¬ watches i b) (events : List (Event ι κ)) :
    Led holds (Run.final (step c) events (fresh b)) :=
  ((Run.invariant (I := Agreed holds watches) (G := fun _ _ => True)
    (fun e _ h _ => h.step hc e) (agreed_fresh hb) fun _ _ => trivial).2).led hc

/-! ### A coordinator that keeps a lock -/

/-- Who has the lock, and who waits for it. -/
structure Lock where
  holder : Option Nat := none
  watchers : List Nat := []

def Lock.release (i : Nat) (b : Lock) : Lock :=
  if b.holder = some i then { b with holder := none } else b

def lock : Coordinator Nat Lock where
  watchElectedAsLeader i b := { b with watchers := i :: b.watchers }
  unwatchElectedAsLeader i b := { b with watchers := b.watchers.filter (· != i) }
  standDownGroupLeader := Lock.release
  runWatchers i b :=
    if i ∈ b.watchers ∧ b.holder = none then (true, { b with holder := some i }) else (false, b)
  expire := Lock.release

theorem release_holder (i j : Nat) (b : Lock) :
    (b.release i).holder = some j ↔ j ≠ i ∧ b.holder = some j := by
  unfold Lock.release
  split
  · next h => simp [h, eq_comm]
  · next h =>
    refine ⟨fun hj => ⟨?_, hj⟩, And.right⟩
    rintro rfl
    exact h hj

theorem release_watchers (i : Nat) (b : Lock) : (b.release i).watchers = b.watchers := by
  unfold Lock.release
  split <;> rfl

theorem lock_exclusive :
    lock.Exclusive (fun i b => b.holder = some i) fun i b => i ∈ b.watchers where
  one hi hj := Option.some.inj (hi.symm.trans hj)
  watch_holds _ _ := Iff.rfl
  watch_watches _ _ := List.mem_cons
  unwatch_holds _ _ := Iff.rfl
  unwatch_watches i j := by simp [lock, and_comm]
  standDown_holds i j := release_holder i j _
  standDown_watches i j := by simp [lock, release_watchers]
  -- whoever is told to lead has found the lock free
  elected i h := by
    by_contra hnone
    simp [lock, hnone] at h
  runWatchers_holds {b} i j := by
    by_cases h : i ∈ b.watchers ∧ b.holder = none
    · simp [lock, h, eq_comm]
    · simp [lock, h]
  runWatchers_watches {b} i j := by
    by_cases h : i ∈ b.watchers ∧ b.holder = none
    · simp [lock, h]
    · simp [lock, h]
  expire_holds i j := release_holder i j _
  expire_watches i j := by simp [lock, release_watchers]

/-- One leads and is stopped, and the other takes over. -/
theorem run_led_sample : Led (fun i (b : Lock) => b.holder = some i) (Run.final (step lock)
    [.watch 1 "periodic_sync", .start 0, .start 1, .runWatchers 0, .runWatchers 1, .stop 0,
      .stop 0, .stop 0, .runWatchers 1] (fresh {})) :=
  run_led lock_exclusive (fun i => ⟨fun h => Option.some_ne_none i h.symm, List.not_mem_nil⟩) _

/-- A leader that is not heard of does not learn it: two lead at once. -/
example :
    let g : Group Nat String Lock := Run.final (step lock)
      [.start 0, .start 1, .runWatchers 0, .expire 0, .runWatchers 1] (fresh {})
    (g.elections 0).leader = true ∧ (g.elections 1).leader = true := by
  decide

end Leaders

namespace Partitioners

variable {members : List String} {me : String} {cluster : Cluster} {e : Event}

/-! ## The slices of one list of members -/

/-- Every partition is in the slice of one of the members, and of no other. -/
theorem existsUnique_slice {α : Type} {partitions : List α} {members : List String}
    (hne : members ≠ []) (hnodup : members.Nodup) (hparts : partitions.Nodup) {p : α}
    (hp : p ∈ partitions) :
    ∃! me, me ∈ members ∧ ∃ slice, Shards.partition members me partitions = some slice ∧
      p ∈ slice := by
  -- the slices in the order of the members make up all partitions
  have hflat : (Shards.slicesOf members partitions).flatten = partitions :=
    Shards.flatten_slicesOf hne
  have hassigned : members.map (fun me => Shards.partition members me partitions) =
      (Shards.slicesOf members partitions).map some := Shards.assigned_slicesOf hnodup
  have hlength : (Shards.slicesOf members partitions).length = members.length := by
    simpa using congrArg List.length hassigned.symm
  have hslice : ∀ k (hk : k < members.length), Shards.partition members members[k] partitions =
      some (Shards.slicesOf members partitions)[k] := by
    intro k hk
    have hget := List.getElem_of_eq hassigned (i := k) (by simpa using hk)
    simpa using hget
  -- and no two of them overlap
  have hapart := Shards.pairwise_disjoint_of_flatten (hflat.symm ▸ hparts)
  obtain ⟨slice, hmem, hpslice⟩ := List.mem_flatten.mp (hflat.symm ▸ hp)
  obtain ⟨k, hk, rfl⟩ := List.getElem_of_mem hmem
  have hkm : k < members.length := hlength ▸ hk
  refine ⟨members[k], ⟨List.getElem_mem hkm, _, hslice k hkm, hpslice⟩, ?_⟩
  rintro other ⟨hother, slice', hslice', hp'⟩
  -- a second member with the partition in its slice would have another place in the list
  obtain ⟨j, hj, rfl⟩ := List.getElem_of_mem hother
  rw [hslice j hj] at hslice'
  obtain rfl := Option.some.inj hslice'
  by_contra hne
  have hjk : j ≠ k := fun h => hne (by simp only [h])
  rcases Nat.lt_or_gt_of_ne hjk with hlt | hlt
  · exact List.pairwise_iff_getElem.mp hapart j k (hlength.symm ▸ hj) hk hlt hp' hpslice
  · exact List.pairwise_iff_getElem.mp hapart k j hk (hlength.symm ▸ hj) hlt hpslice hp'

theorem existsUnique_updatePartitions (hne : members ≠ []) (hnodup : members.Nodup) {p : Nat}
    (hp : p ∈ Shards.partitions) :
    ∃! me, me ∈ members ∧ ∃ slice,
      Shards.updatePartitions members me Shards.partitions = some slice ∧ p ∈ slice := by
  have hperm := List.mergeSort_perm members fun a b => decide (a ≤ b)
  have hsorted : members.mergeSort (fun a b => decide (a ≤ b)) ≠ [] := fun h =>
    hne (List.nil_perm.mp (h ▸ hperm))
  obtain ⟨me, ⟨hme, hslice⟩, honly⟩ := existsUnique_slice hsorted
    (hperm.nodup_iff.mpr hnodup) List.nodup_range hp
  exact ⟨me, ⟨hperm.mem_iff.mp hme, hslice⟩, fun other h =>
    honly other ⟨hperm.mem_iff.mpr h.1, h.2⟩⟩

/-- A member has a slice, empty as it may be. -/
theorem exists_updatePartitions (hnodup : members.Nodup) (hme : me ∈ members) :
    ∃ slice, Shards.updatePartitions members me Shards.partitions = some slice := by
  have hperm := List.mergeSort_perm members fun a b => decide (a ≤ b)
  obtain ⟨k, hk, rfl⟩ := List.getElem_of_mem (hperm.mem_iff.mpr hme)
  exact ⟨_, Shards.partition_getElem (hperm.nodup_iff.mpr hnodup) hk⟩

/-! ## What a producer has read, and what its tasks were told -/

@[simp] theorem put_members (p : Partitioner) : (cluster.put me p).members = cluster.members := rfl

@[simp] theorem put_told (p : Partitioner) : (cluster.put me p).told = cluster.told := rfl

@[simp] theorem put_same (p : Partitioner) : (cluster.put me p).partitioners me = p :=
  Function.update_self _ _ _

theorem put_other (p : Partitioner) {other : String} (h : other ≠ me) :
    (cluster.put me p).partitioners other = cluster.partitioners other :=
  Function.update_of_ne h _ _

@[simp] theorem runCallbacks_members : (runCallbacks me cluster).members = cluster.members := rfl

@[simp] theorem runCallbacks_partitioners :
    (runCallbacks me cluster).partitioners = cluster.partitioners := rfl

/-- An event that is not one of the producer `me` alone. -/
def Event.At (me : String) : Event → Prop
  | .change _ => True
  | .start other _ | .groupChange other _ | .watch other _ | .unwatch other _ => other = me

/-- What happens to one producer, the others do not see. -/
theorem step_elsewhere (cluster : Cluster) (h : ¬ e.At me) :
    (step e cluster).members = cluster.members ∧
    (step e cluster).partitioners me = cluster.partitioners me ∧
    (step e cluster).told me = cluster.told me := by
  have hput : ∀ {other : String} (p : Partitioner) (cl : Cluster), ¬ other = me →
      (cl.put other p).partitioners me = cl.partitioners me := fun p cl ho =>
    put_other p (Ne.symm ho)
  have htold : ∀ {other : String} (cl : Cluster), ¬ other = me →
      (runCallbacks other cl).told me = cl.told me := fun cl ho =>
    Function.update_of_ne (Ne.symm ho) _ _
  -- an event at another producer writes that one's entries only
  cases e with
  | change ms => exact absurd trivial h
  | start other fails =>
    unfold step start
    dsimp only
    split
    · split
      · exact ⟨rfl, hput _ _ h, rfl⟩
      · exact ⟨rfl, rfl, rfl⟩
    · exact ⟨rfl, (hput _ _ h).trans (hput _ _ h), htold _ h⟩
  | groupChange other fails =>
    unfold step onGroupChange
    dsimp only
    split
    · exact ⟨rfl, hput _ _ h, htold _ h⟩
    · exact ⟨rfl, rfl, rfl⟩
  | watch other callback =>
    unfold step watchPartitionChange
    dsimp only
    split
    · exact ⟨rfl, hput _ _ h, Function.update_of_ne (Ne.symm h) _ _⟩
    · exact ⟨rfl, hput _ _ h, rfl⟩
  | unwatch other callback => exact ⟨rfl, hput _ _ h, rfl⟩

/-- A read of the members fails, or cuts the partitions among them. -/
theorem update_eq (cluster : Cluster) (me : String) (fails : Nat → Bool) :
    update me fails cluster = none ∨
    update me fails cluster = Shards.updatePartitions cluster.members me Shards.partitions := by
  unfold update getMembers
  split
  · exact .inl rfl
  · exact .inr rfl

/-- What is true of a started member from a change on, until the next one. -/
structure Joined (members : List String) (me : String) (cluster : Cluster) : Prop where
  current : cluster.members = members
  coordinated : (cluster.partitioners me).coordinated = true
  started : (cluster.partitioners me).started = true

/-- The member has the slice of the current members, and every task of it was told so. -/
structure Settled (members : List String) (me : String) (cluster : Cluster) : Prop
    extends Joined members me cluster where
  mine : (cluster.partitioners me).myPartitions =
    Shards.updatePartitions members me Shards.partitions
  told : ∀ callback ∈ (cluster.partitioners me).callbacks,
    cluster.told me callback = (cluster.partitioners me).myPartitions

/-- A start or a change in the group, as far as it does not raise. -/
theorem start_cases (hc : (cluster.partitioners me).coordinated = true) (fails : Nat → Bool) :
    start me fails cluster = cluster ∨ ∃ mine,
      Shards.updatePartitions cluster.members me Shards.partitions = some mine ∧
      start me fails cluster = cluster.put me
        { cluster.partitioners me with myPartitions := some mine, started := true } := by
  unfold start
  dsimp only
  rw [if_pos hc]
  cases hupdate : update me fails cluster with
  | none => exact .inl rfl
  | some mine =>
    rcases update_eq cluster me fails with h | h
    · rw [h] at hupdate
      cases hupdate
    · exact .inr ⟨mine, h.symm.trans hupdate, rfl⟩

theorem onGroupChange_cases (cluster : Cluster) (me : String) (fails : Nat → Bool) :
    onGroupChange me fails cluster = cluster ∨ ∃ mine,
      Shards.updatePartitions cluster.members me Shards.partitions = some mine ∧
      onGroupChange me fails cluster = runCallbacks me (cluster.put me
        { cluster.partitioners me with myPartitions := some mine }) := by
  unfold onGroupChange
  cases hupdate : update me fails cluster with
  | none => exact .inl rfl
  | some mine =>
    rcases update_eq cluster me fails with h | h
    · rw [h] at hupdate
      cases hupdate
    · exact .inr ⟨mine, h.symm.trans hupdate, rfl⟩

theorem told_runCallbacks {callback : String}
    (hc : callback ∈ (cluster.partitioners me).callbacks) :
    (runCallbacks me cluster).told me callback = (cluster.partitioners me).myPartitions := by
  unfold runCallbacks
  dsimp only
  rw [Function.update_self, if_pos hc]

theorem Joined.step (h : Joined members me cluster) (he : ∀ ms, e ≠ .change ms) :
    Joined members me (Partitioners.step e cluster) := by
  -- what the others do, it does not notice; of its own events none lets go of the group
  by_cases hat : e.At me
  · cases e with
    | change ms => exact absurd rfl (he ms)
    | start other fails =>
      obtain rfl : other = me := hat
      rcases start_cases h.coordinated fails with hs | ⟨mine, -, hs⟩ <;>
        unfold Partitioners.step <;> dsimp only <;> rw [hs]
      · exact h
      · exact ⟨h.current, by simpa using h.coordinated, by simp⟩
    | groupChange other fails =>
      obtain rfl : other = me := hat
      rcases onGroupChange_cases cluster other fails with hs | ⟨mine, -, hs⟩ <;>
        unfold Partitioners.step <;> dsimp only <;> rw [hs]
      · exact h
      · exact ⟨h.current, by simpa using h.coordinated, by simpa using h.started⟩
    | watch other callback =>
      obtain rfl : other = me := hat
      unfold Partitioners.step watchPartitionChange
      dsimp only
      rw [if_pos h.started]
      exact ⟨h.current, by simpa using h.coordinated, by simpa using h.started⟩
    | unwatch other callback =>
      obtain rfl : other = me := hat
      exact ⟨h.current, by simpa [Partitioners.step, unwatchPartitionChange] using h.coordinated,
        by simpa [Partitioners.step, unwatchPartitionChange] using h.started⟩
  · obtain ⟨hmembers, hp, -⟩ := step_elsewhere cluster hat
    exact ⟨hmembers.trans h.current, hp ▸ h.coordinated, hp ▸ h.started⟩

/-- A start that reads the members. -/
theorem joined_start (hcurrent : cluster.members = members)
    (hc : (cluster.partitioners me).coordinated = true) {fails : Nat → Bool} {mine : List Nat}
    (hmine : Shards.updatePartitions members me Shards.partitions = some mine)
    (hread : getMembers fails members = some members) :
    Joined members me (Partitioners.step (.start me fails) cluster) := by
  have hupdate : update me fails cluster = some mine := by
    unfold update
    rw [hcurrent, hread]
    exact hmine
  simp only [Partitioners.step, start, if_pos hc, hupdate]
  exact ⟨hcurrent, by simpa using hc, by simp⟩

/-- A change in the group that a member reads settles what it has, and tells its tasks. -/
theorem Joined.groupChange (h : Joined members me cluster) {fails : Nat → Bool} {mine : List Nat}
    (hmine : Shards.updatePartitions members me Shards.partitions = some mine)
    (hread : getMembers fails members = some members) :
    Settled members me (Partitioners.step (.groupChange me fails) cluster) := by
  have hupdate : update me fails cluster = some mine := by
    unfold update
    rw [h.current, hread]
    exact hmine
  have hj := h.step (e := .groupChange me fails) fun _ => Event.noConfusion
  simp only [Partitioners.step, onGroupChange, hupdate] at hj ⊢
  refine ⟨hj, ?_, fun callback hc => told_runCallbacks hc⟩
  rw [runCallbacks_partitioners, put_same, hmine]

/-- **A member that has the slice of the current members keeps it until they change.** -/
theorem Settled.step (h : Settled members me cluster) (he : ∀ ms, e ≠ .change ms) :
    Settled members me (Partitioners.step e cluster) := by
  have hj := h.toJoined.step he
  by_cases hat : e.At me
  · cases e with
    | change ms => exact absurd rfl (he ms)
    | start other fails =>
      obtain rfl : other = me := hat
      simp only [Partitioners.step] at hj ⊢
      rcases start_cases h.coordinated fails with hs | ⟨mine, hmine, hs⟩
      · rw [hs]
        exact h
      · -- The slice is the one the tasks were told before.
        rw [h.current, ← h.mine] at hmine
        rw [hs] at hj ⊢
        refine ⟨hj, ?_, ?_⟩
        · rw [put_same, ← hmine, h.mine]
        · rw [put_same, put_told, ← hmine]
          exact h.told
    | groupChange other fails =>
      obtain rfl : other = me := hat
      simp only [Partitioners.step] at hj ⊢
      rcases onGroupChange_cases cluster other fails with hs | ⟨mine, hmine, hs⟩
      · rw [hs]
        exact h
      · rw [h.current] at hmine
        rw [hs] at hj ⊢
        refine ⟨hj, ?_, fun callback hc => told_runCallbacks hc⟩
        rw [runCallbacks_partitioners, put_same, hmine]
    | watch other callback =>
      obtain rfl : other = me := hat
      simp only [Partitioners.step, watchPartitionChange, if_pos h.started] at hj ⊢
      refine ⟨hj, by simpa using h.mine, ?_⟩
      dsimp only
      rw [put_same, put_told, Function.update_self]
      intro k hk
      by_cases hkc : k = callback
      · rw [hkc, Function.update_self]
      · rw [Function.update_of_ne hkc]
        exact h.told k ((List.mem_append.mp hk).resolve_right
          fun h => hkc (List.mem_singleton.mp h))
    | unwatch other callback =>
      obtain rfl : other = me := hat
      simp only [Partitioners.step, unwatchPartitionChange] at hj ⊢
      refine ⟨hj, by simpa using h.mine, ?_⟩
      rw [put_same, put_told]
      exact fun k hk => h.told k (List.mem_of_mem_erase hk)
  · obtain ⟨-, hp, ht⟩ := step_elsewhere cluster hat
    refine ⟨hj, hp ▸ h.mine, ?_⟩
    rw [hp, ht]
    exact h.told

/-! ## Runs -/

/-- What is so of a member from some event on, until the members change. -/
theorem run_kept {I : Cluster → Prop}
    (hstep : ∀ e cluster, I cluster → (∀ ms, e ≠ Event.change ms) → I (step e cluster))
    {events : List Event} (h : I cluster) (he : ∀ e ∈ events, ∀ ms, e ≠ .change ms) :
    I (Run.final step events cluster) :=
  (Run.invariant (I := I) (G := fun e _ => ∀ ms, e ≠ Event.change ms)
    (fun e cl hi hg => hstep e cl hi hg) h fun _ ht => he _ (Run.input_mem ht)).2

theorem coordinated_step (h : ∀ me, (cluster.partitioners me).coordinated = true) (me : String) :
    ((step e cluster).partitioners me).coordinated = true := by
  by_cases hat : e.At me
  · -- a producer that has a coordinator keeps it, whatever it does
    cases e with
    | change ms => exact h me
    | start other fails =>
      obtain rfl : other = me := hat
      simp only [step]
      rcases start_cases (h other) fails with hs | ⟨mine, -, hs⟩
      · rw [hs]
        exact h other
      · rw [hs]
        simpa using h other
    | groupChange other fails =>
      obtain rfl : other = me := hat
      simp only [step]
      rcases onGroupChange_cases cluster other fails with hs | ⟨mine, -, hs⟩
      · rw [hs]
        exact h other
      · rw [hs]
        simpa using h other
    | watch other callback =>
      obtain rfl : other = me := hat
      unfold step watchPartitionChange
      dsimp only
      split <;> simpa using h other
    | unwatch other callback =>
      obtain rfl : other = me := hat
      simpa [step, unwatchPartitionChange] using h other
  · rw [(step_elsewhere cluster hat).2.1]
    exact h me

/-- The slices are those of one list of members, and each task goes by the one it was told. -/
structure Balanced (members : List String) (cluster : Cluster) : Prop where
  told : ∀ me ∈ members, ∀ callback ∈ (cluster.partitioners me).callbacks,
    cluster.told me callback = (cluster.partitioners me).myPartitions
  once : ∀ shard ∈ Shards.partitions, ∃! me, me ∈ members ∧
    ∃ slice, (cluster.partitioners me).myPartitions = some slice ∧ shard ∈ slice

theorem balanced_of_settled (hne : members ≠ []) (hnodup : members.Nodup)
    (h : ∀ me ∈ members, Settled members me cluster) : Balanced members cluster where
  told me hme := (h me hme).told
  once shard hshard := by
    obtain ⟨me, ⟨hme, slice, hslice, hmem⟩, honly⟩ :=
      existsUnique_updatePartitions hne hnodup hshard
    refine ⟨me, ⟨hme, slice, (h me hme).mine.trans hslice, hmem⟩, ?_⟩
    rintro other ⟨hother, slice', hslice', hmem'⟩
    exact honly other ⟨hother, slice', (h other hother).mine.symm.trans hslice', hmem'⟩

/-- Only a change changes the members. -/
theorem members_step (he : ∀ ms, e ≠ .change ms) : (step e cluster).members = cluster.members := by
  cases e with
  | change ms => exact absurd rfl (he ms)
  | start me fails =>
    unfold step start
    dsimp only
    split
    · split <;> rfl
    · rfl
  | groupChange me fails =>
    unfold step onGroupChange
    dsimp only
    split <;> rfl
  | watch me callback =>
    unfold step watchPartitionChange
    dsimp only
    split <;> rfl
  | unwatch me callback => rfl

theorem coordinated_run (events : List Event) (initial : List String) (me : String) :
    ((Run.final step events { members := initial }).partitioners me).coordinated = true :=
  (Run.invariant (I := fun cluster : Cluster => ∀ me, (cluster.partitioners me).coordinated = true)
    (G := fun _ _ => True) (fun _ _ h _ me => coordinated_step h me) (fun _ => rfl)
    fun _ _ => trivial).2 me

/-- A callback stays until it is taken away. -/
theorem watched_step {callback : String} (h : callback ∈ (cluster.partitioners me).callbacks)
    (he : e ≠ .unwatch me callback) :
    callback ∈ ((step e cluster).partitioners me).callbacks := by
  by_cases hat : e.At me
  · cases e with
    | change ms => exact h
    -- a start and a change of the group call the callbacks, and keep them
    | start other fails =>
      obtain rfl : other = me := hat
      unfold step start
      dsimp only
      split
      · split
        · simpa using h
        · exact h
      · simpa [runCallbacks] using h
    | groupChange other fails =>
      obtain rfl : other = me := hat
      unfold step onGroupChange
      dsimp only
      split
      · simpa [runCallbacks] using h
      · exact h
    | watch other callback' =>
      obtain rfl : other = me := hat
      unfold step watchPartitionChange
      dsimp only
      split <;> simp [h]
    | unwatch other callback' =>
      obtain rfl : other = me := hat
      -- another callback goes
      have hne : callback ≠ callback' := fun hc => he (hc ▸ rfl)
      unfold step unwatchPartitionChange
      simpa using (List.mem_erase_of_ne hne).mpr h
  · rw [(step_elsewhere cluster hat).2.1]
    exact h

theorem watch_watched {callback : String} :
    callback ∈ ((step (.watch me callback) cluster).partitioners me).callbacks := by
  unfold step watchPartitionChange
  dsimp only
  split <;> simp

/--
A member reads the members: one that has started when its watcher runs, and one that is new in
the group when it starts. A start calls no callbacks, so no task of a newcomer watches by then.
-/
inductive Reads (members : List String) (me : String) (cluster : Cluster) : Event → Prop where
  | watcher (fails : Nat → Bool) (hread : getMembers fails members = some members)
      (hstarted : (cluster.partitioners me).started = true) :
      Reads members me cluster (.groupChange me fails)
  | start (fails : Nat → Bool) (hread : getMembers fails members = some members)
      (hnew : (cluster.partitioners me).callbacks = []) :
      Reads members me cluster (.start me fails)

/-- The members change for the last time, and each of them reads the change. -/
structure LastRead (initial members : List String) (before after : List Event) : Prop where
  ne : members ≠ []
  nodup : members.Nodup
  last : ∀ e ∈ after, ∀ ms, e ≠ .change ms
  read : ∀ me ∈ members, ∃ first e second, after = first ++ e :: second ∧
    Reads members me (Run.final step (before ++ .change members :: first) { members := initial }) e

/-- The group at the end of such a run. -/
def reached (initial members : List String) (before after : List Event) : Cluster :=
  Run.final step (before ++ .change members :: after) { members := initial }

/-- The slice of a newcomer is that of the members it starts among, and no task knows another. -/
theorem settled_start (hcurrent : cluster.members = members)
    (hc : (cluster.partitioners me).coordinated = true) {fails : Nat → Bool} {mine : List Nat}
    (hmine : Shards.updatePartitions members me Shards.partitions = some mine)
    (hread : getMembers fails members = some members)
    (hnew : (cluster.partitioners me).callbacks = []) :
    Settled members me (Partitioners.step (.start me fails) cluster) := by
  have hupdate : update me fails cluster = some mine := by
    unfold update
    rw [hcurrent, hread]
    exact hmine
  have hj := joined_start hcurrent hc hmine hread
  simp only [Partitioners.step, start, if_pos hc, hupdate] at hj ⊢
  refine ⟨hj, ?_, ?_⟩
  · rw [put_same, hmine]
  · rw [put_same]
    intro callback hcallback
    exact absurd (hnew ▸ hcallback) List.not_mem_nil

/-- **A member that has read the last change has its slice, and its tasks know.** -/
theorem settled_run {initial : List String} {before after : List Event}
    (h : LastRead initial members before after) (hme : me ∈ members) :
    Settled members me (reached initial members before after) := by
  obtain ⟨mine, hmine⟩ := exists_updatePartitions h.nodup hme
  obtain ⟨first, e, second, rfl, hreads⟩ := h.read me hme
  have hcoord := coordinated_run (before ++ .change members :: first) initial me
  -- from the change to the read the members are these, whoever starts meanwhile
  have hmembers : (Run.final step (before ++ .change members :: first)
      { members := initial }).members = members := by
    rw [Run.final_append, Run.final]
    exact run_kept (I := fun cluster : Cluster => cluster.members = members)
      (fun e cluster h he => (members_step he).trans h) rfl
      fun e he => h.last e (List.mem_append_left _ he)
  have hsettled : Settled members me (step e
      (Run.final step (before ++ .change members :: first) { members := initial })) := by
    cases hreads with
    | watcher fails hread hstarted => exact Joined.groupChange ⟨hmembers, hcoord, hstarted⟩ hmine hread
    | start fails hread hnew => exact settled_start hmembers hcoord hmine hread hnew
  -- and from the read on the slice stays as it is
  have hend := run_kept (I := Settled members me) (fun _ _ h he => h.step he) hsettled
    fun e he => h.last e (List.mem_append_right _ (List.mem_cons_of_mem _ he))
  unfold reached
  simpa only [Run.final, Run.final_append] using hend

/--
**Once every member has read the last change, each shard is with one of them.** Whatever
happened before, and however the reads, the starts and the tasks that come and go lie
among one another after it.
-/
theorem run_balanced {initial : List String} {before after : List Event}
    (h : LastRead initial members before after) :
    Balanced members (reached initial members before after) :=
  balanced_of_settled h.ne h.nodup fun _ hme => settled_run h hme

/-- A producer starts alone, and its tasks are told of the partitions from then on. -/
def starting : List Event :=
  [.start "a" fun _ => false, .watch "a" "periodic_exists", .watch "a" "periodic_secondary_refresh",
    .watch "a" "worker_periodic_recovery"]

/-- Another one has joined: it starts, and the first reads the members at the fifth attempt. -/
def reading : List Event :=
  [.start "b" fun _ => false, .watch "b" "periodic_exists", .watch "b" "periodic_secondary_refresh",
    .watch "b" "worker_periodic_recovery", .groupChange "a" fun attempt => attempt < 4]

/-- The first producer has started long before its watcher runs. -/
theorem starting_started : ((Run.final step (starting ++ .change ["a", "b"] :: reading.take 4)
    { members := ["a"] }).partitioners "a").started = true := by
  obtain ⟨mine, hmine⟩ := exists_updatePartitions (show ["a"].Nodup by decide)
    (show "a" ∈ ["a"] by decide)
  have hcoord : (({ members := ["a"] } : Cluster).partitioners "a").coordinated = true := rfl
  have hjoined : Joined ["a"] "a" (step (.start "a" fun _ => false) { members := ["a"] }) :=
    joined_start (show ({ members := ["a"] } : Cluster).members = ["a"] from rfl) hcoord hmine rfl
  have halone : Joined ["a"] "a" (Run.final step starting { members := ["a"] }) := by
    rw [starting, Run.final]
    exact run_kept (I := Joined ["a"] "a") (fun _ _ h he => h.step he) hjoined (by simp)
  -- the change is not its own doing, and leaves it started
  have hchange : Joined ["a", "b"] "a" (step (.change ["a", "b"])
      (Run.final step starting { members := ["a"] })) := ⟨rfl, halone.coordinated, halone.started⟩
  rw [Run.final_append]
  exact (run_kept (I := Joined ["a", "b"] "a") (fun _ _ h he => h.step he) hchange
    (by simp [reading])).started

/-- Nothing has happened to the second producer before it starts. -/
theorem starting_fresh : ((Run.final step (starting ++ [.change ["a", "b"]])
    { members := ["a"] }).partitioners "b").callbacks = [] := by
  have hfresh : (Run.final step starting { members := ["a"] }).partitioners "b" = {} :=
    (Run.invariant (I := fun cluster : Cluster => cluster.partitioners "b" = {})
      (G := fun e _ => ¬ e.At "b") (fun _ cluster h he => (step_elsewhere cluster he).2.1.trans h)
      rfl fun t ht => by
        have hinput := Run.input_mem ht
        simp only [starting, List.mem_cons, List.not_mem_nil, or_false] at hinput
        rcases hinput with h | h | h | h <;> rw [h] <;> unfold Event.At <;> decide).2
  rw [Run.final_append]
  exact congrArg Partitioner.callbacks hfresh

theorem starting_read : LastRead ["a"] ["a", "b"] starting reading where
  ne := by decide
  nodup := by decide
  last := by simp [reading]
  read := by
    intro me hme
    simp only [List.mem_cons, List.not_mem_nil, or_false] at hme
    rcases hme with rfl | rfl
    · exact ⟨reading.take 4, _, [], rfl, .watcher _ rfl starting_started⟩
    · exact ⟨[], _, _, rfl, .start _ rfl starting_fresh⟩

/-- The tasks of both producers are told. -/
theorem starting_watched (me task : String) (hme : me ∈ ["a", "b"])
    (htask : task ∈ ["periodic_exists", "periodic_secondary_refresh",
      "worker_periodic_recovery"]) :
    task ∈ ((reached ["a"] ["a", "b"] starting reading).partitioners me).callbacks := by
  -- from the event at which it is added the callback stays to the end
  have hwatch : ∀ first rest, starting ++ .change ["a", "b"] :: reading =
      first ++ .watch me task :: rest →
      (∀ e ∈ starting ++ .change ["a", "b"] :: reading, e ≠ .unwatch me task) →
      task ∈ ((reached ["a"] ["a", "b"] starting reading).partitioners me).callbacks := by
    intro first rest hsplit hunwatch
    unfold reached
    rw [hsplit, Run.final_append]
    refine (Run.invariant (I := fun cluster : Cluster =>
      task ∈ (cluster.partitioners me).callbacks) (G := fun e _ => e ≠ .unwatch me task)
      (fun e cluster h he => watched_step h he) watch_watched fun t ht => ?_).2
    exact hunwatch _ (hsplit ▸ List.mem_append_right _ (List.mem_cons_of_mem _ (Run.input_mem ht)))
  have hunwatch : ∀ e ∈ starting ++ .change ["a", "b"] :: reading, e ≠ .unwatch me task := by
    simp [starting, reading]
  simp only [List.mem_cons, List.not_mem_nil, or_false] at hme htask
  -- each of the six is added at an event of its own
  rcases hme with rfl | rfl <;> rcases htask with rfl | rfl | rfl
  · exact hwatch [_] _ rfl hunwatch
  · exact hwatch [_, _] _ rfl hunwatch
  · exact hwatch [_, _, _] _ rfl hunwatch
  · exact hwatch [_, _, _, _, _, _] _ rfl hunwatch
  · exact hwatch [_, _, _, _, _, _, _] _ rfl hunwatch
  · exact hwatch [_, _, _, _, _, _, _, _] _ rfl hunwatch

theorem run_balanced_sample :
    Balanced ["a", "b"] (reached ["a"] ["a", "b"] starting reading) :=
  run_balanced starting_read

end Partitioners

namespace Shards

/-! ## What a periodic task goes through -/

section

variable {members : List String} {me : String} {id shard : Nat}

/-- The partitions of the slice at place `k`. -/
theorem mem_slice_iff {c size k p : Nat} :
    p ∈ ((List.range c).drop (size * k)).take (size * k + size - size * k) ↔
      size * k ≤ p ∧ p < size * k + size ∧ p < c := by
  rw [List.range_eq_range', List.drop_range', Nat.add_sub_cancel_left]
  rcases Nat.le_total (c - size * k) size with h | h
  · rw [List.take_range'_of_length_le h, List.mem_range'_1]
    omega
  · rw [List.take_range'_of_length_ge h, List.mem_range'_1]
    omega

/-- **A producer handles the zones of the partitions in its slice.** -/
theorem handles_iff_mem (hshard : defaultShard id = some shard) (hme : me ∈ members) :
    handles members me id = true ↔
      ∃ slice, updatePartitions members me partitions = some slice ∧ shard ∈ slice := by
  -- the place of the producer among the sorted members is that of its slice
  have hperm := List.mergeSort_perm members fun a b => decide (a ≤ b)
  obtain ⟨k, hk⟩ : ∃ k, (members.mergeSort fun a b => decide (a ≤ b)).idxOf? me = some k :=
    Option.isSome_iff_exists.mp (List.isSome_idxOf?.mpr (hperm.mem_iff.mpr hme))
  rw [handles_iff hshard hk, updatePartitions_place hk]
  constructor
  · intro h
    exact ⟨_, rfl, mem_slice_iff.mpr h⟩
  · rintro ⟨slice, hslice, hmem⟩
    obtain rfl := Option.some.inj hslice
    exact mem_slice_iff.mp hmem

theorem mem_partitions_of_slice {slice : List Nat} {p : Nat}
    (hslice : updatePartitions members me partitions = some slice) (hp : p ∈ slice) :
    p ∈ partitions := by
  unfold updatePartitions partition at hslice
  split at hslice
  · cases hslice
  · obtain ⟨k, -, hk⟩ := Option.bind_eq_some_iff.mp hslice
    cases hk
    exact List.mem_of_mem_drop (List.mem_of_mem_take hp)

/-- What a task asks for is what the producer handles. -/
theorem handles_eq_any (hshard : defaultShard id = some shard) :
    handles members me id =
      ((updatePartitions members me partitions).bind shardRange).any (· shard) := by
  unfold handles
  rw [hshard]
  cases updatePartitions members me partitions with
  | none => rfl
  | some mine =>
    simp only [Option.bind_eq_bind, Option.bind_some, shardRange]
    cases filterBetween mine with
    | none => rfl
    | some criterion =>
      simp only [Option.bind_some]
      cases betweenBounds criterion with
      | none => rfl
      | some bounds => rfl

end

section

variable {α β ρ V ε : Type}

/-- Who picks an element: as many copies of it come together. -/
theorem perm_flatMap_filter (members : List β) (p : β → α → Bool) : ∀ l : List α,
    (members.flatMap fun m => l.filter (p m)).Perm
      (l.flatMap fun a => List.replicate (members.countP fun m => p m a) a)
  | [] => by simp
  | a :: l => by
    -- the head comes from each member that picks it
    have hone : ∀ ms : List β, (ms.flatMap fun m => if p m a = true then [a] else []) =
        List.replicate (ms.countP fun m => p m a) a := by
      intro ms
      induction ms with
      | nil => rfl
      | cons m ms ih =>
        rw [List.flatMap_cons, ih, List.countP_cons]
        by_cases h : p m a = true
        · rw [if_pos h, if_pos h, List.replicate_succ]
          rfl
        · rw [if_neg h, if_neg h]
          rfl
    -- and what is picked of the tail stands behind it
    have hsplit : ∀ m, (a :: l).filter (p m) =
        (if p m a = true then [a] else []) ++ l.filter (p m) := by
      intro m
      rw [List.filter_cons]
      by_cases h : p m a = true
      · rw [if_pos h, if_pos h]
        rfl
      · rw [if_neg h, if_neg h]
        rfl
    rw [List.flatMap_cons, ← hone members]
    refine List.Perm.trans ?_ ((perm_flatMap_filter members p l).append_left _)
    simp only [hsplit]
    exact (List.flatMap_append_perm members _ _).symm

/-- **What is picked by exactly one, or else by nobody, comes once.** -/
theorem perm_filter_of_once {members : List β} (hnodup : members.Nodup) {p : β → α → Bool}
    {q : α → Bool} {l : List α}
    (honce : ∀ a ∈ l, q a = true → ∃! m, m ∈ members ∧ p m a = true)
    (hnone : ∀ a ∈ l, q a = false → ∀ m ∈ members, p m a = false) :
    (members.flatMap fun m => l.filter (p m)).Perm (l.filter q) := by
  refine (perm_flatMap_filter members p l).trans (List.Perm.of_eq ?_)
  -- an element comes as often as it is picked
  have hcount : ∀ a ∈ l, List.replicate (members.countP fun m => p m a) a =
      if q a = true then [a] else [] := by
    intro a ha
    by_cases hq : q a = true
    · obtain ⟨m, ⟨hm, hp⟩, honly⟩ := honce a ha hq
      have hone : members.countP (fun m => p m a) = 1 := by
        rw [List.countP_eq_length_filter]
        -- it is picked by one member, so those that pick it are that one
        have hfilter : members.filter (fun m => p m a) = [m] := by
          refine List.perm_singleton.mp ((List.perm_ext_iff_of_nodup (hnodup.filter _)
            (List.nodup_singleton m)).mpr fun m' => ?_)
          rw [List.mem_filter, List.mem_singleton]
          constructor
          · intro hm'
            exact honly m' hm'
          · rintro rfl
            exact ⟨hm, hp⟩
        rw [hfilter]
        rfl
      rw [hone, if_pos hq]
      rfl
    · have hzero : members.countP (fun m => p m a) = 0 := by
        rw [List.countP_eq_zero]
        intro m hm
        rw [hnone a ha (by simpa using hq) m hm]
        exact Bool.false_ne_true
      rw [hzero, if_neg hq]
      rfl
  rw [List.flatMap_congr hcount]
  -- what is left is about the list alone
  clear honce hnone hcount
  induction l with
  | nil => rfl
  | cons a l ih =>
    rw [List.flatMap_cons, ih, List.filter_cons]
    by_cases h : q a = true
    · rw [if_pos h, if_pos h]
      rfl
    · rw [if_neg h, if_neg h]
      rfl

/-- A loop that does not raise sees what the pages have. -/
theorem visited_of_iter {method : Option V → Except ε (List ρ)} {id : ρ → V} {pages : Nat} :
    ∀ {marker : Option V} {all : List ρ},
      Sqlalchemy.iter method id pages marker = some (.ok all) →
      visited method id pages marker = some all := by
  induction pages with
  | zero =>
    intro marker all h
    exact absurd h (by simp [Sqlalchemy.iter])
  | succ pages ih =>
    intro marker all h
    -- both loops ask for the same page and go on from the same marker
    unfold Sqlalchemy.iter at h
    unfold visited
    cases hitems : method marker with
    | error e =>
      rw [hitems] at h
      exact absurd h (by simp)
    | ok items =>
      rw [hitems] at h
      dsimp only at h ⊢
      cases hlast : items.getLast? with
      | none =>
        rw [hlast] at h
        cases h
        rfl
      | some last =>
        rw [hlast] at h
        dsimp only at h ⊢
        obtain ⟨rest, hrest, hall⟩ := Option.map_eq_some_iff.mp h
        cases rest with
        | error e => cases hall
        | ok rest =>
          cases hall
          rw [ih hrest]
          rfl

section

open Sqlalchemy

variable [LinearOrder V] {engine : Engine V} {columns : Columns ρ V} {table : List ρ}
  {matching : ρ → Bool} {cell : ρ → Option V} {perPage : Nat}

/-- Zones with a time of creation are found page by page, each of them once. -/
theorem visited_perm (hagree : engine.SortsAlike columns cell) (hids : (table.map columns.id).Nodup)
    (hkey : columns.get "created_at" = some cell)
    (hcreated : ∀ row ∈ table, matching row = true → (cell row).isSome = true)
    (hpage : 0 < perPage) :
    ∃ pages all, visited (fun marker => find engine columns table matching marker (some perPage)
      none none) columns.id pages none = some all ∧ all.Perm (table.filter matching) := by
  -- without any zone the first page is empty and the loop ends
  by_cases hempty : wanted engine columns table matching none cell = []
  · have hrows : table.filter matching = [] :=
      ((Keyset.arranged_perm _).symm.trans (List.Perm.of_eq hempty)).eq_nil
    have hfirst : find engine columns table matching none (some perPage) none none =
        .ok ((wanted engine columns table matching none cell).take perPage) := find_first hkey
    refine ⟨1, [], ?_, List.Perm.of_eq hrows.symm⟩
    unfold visited
    dsimp only
    rw [hfirst, hempty, List.take_nil]
    rfl
  · obtain ⟨init, last, htake⟩ := take_eq_concat hempty hpage
    -- no marker is NULL, since each row has its time of creation
    have hsome : ∀ row ∈ last :: (wanted engine columns table matching none cell).drop perPage,
        (cell row).isSome = true := by
      intro row hrow
      have hmem : row ∈ wanted engine columns table matching none cell := by
        rcases List.mem_cons.mp hrow with rfl | hrow
        · exact List.mem_of_mem_take (htake ▸ List.mem_append_right _ List.mem_cons_self)
        · exact List.mem_of_mem_drop hrow
      have hrow' := List.mem_filter.mp ((Keyset.arranged_perm _).mem_iff.mp hmem)
      exact hcreated row hrow'.1 hrow'.2
    have hdefault : columns.get (sortKeyOf none) = some cell := hkey
    obtain ⟨pages, all, hiter, hperm, -⟩ := complete_of_isSome hagree hids hdefault hpage
      htake hsome
    exact ⟨pages, all, visited_of_iter hiter, hperm⟩

end

end

section

open Sqlalchemy

variable {ρ V : Type} [LinearOrder V] {engine : Engine V} {columns : Columns ρ V} {table : List ρ}
  {zoneId : ρ → Nat} {matching : ρ → Bool} {cell : ρ → Option V} {perPage : Nat}
  {members : List String}

/-- A task that goes by its slice sees what its producer handles. -/
theorem iterZones_perm (hagree : engine.SortsAlike columns cell) (zoneId : ρ → Nat)
    (members : List String) (me : String) (hids : (table.map columns.id).Nodup)
    (hkey : columns.get "created_at" = some cell)
    (hcreated : ∀ row ∈ table, matching row = true → (cell row).isSome = true)
    (hpage : 0 < perPage) :
    ∃ pages zones, iterZones (findZones engine columns table zoneId matching perPage) columns.id
        (updatePartitions members me partitions) pages = some zones ∧
      zones.Perm (table.filter fun row => matching row && handles members me (zoneId row)) := by
  have hhandles : ∀ row, handles members me (zoneId row) =
      ((updatePartitions members me partitions).bind shardRange).any fun shards =>
        (defaultShard (zoneId row)).any shards := by
    intro row
    obtain ⟨shard, hshard, -⟩ := defaultShard_lt (zoneId row)
    rw [handles_eq_any hshard, hshard]
    rfl
  unfold iterZones
  cases hrange : (updatePartitions members me partitions).bind shardRange with
  | none =>
    -- an empty slice has no range, and the task raises
    refine ⟨0, [], rfl, List.Perm.of_eq (List.filter_eq_nil_iff.mpr fun row _ => ?_).symm⟩
    rw [hhandles, hrange]
    simp
  | some shards =>
    obtain ⟨pages, zones, hvisited, hperm⟩ := visited_perm hagree hids hkey
      (fun row hrow hmatching => hcreated row hrow (Bool.and_eq_true_iff.mp hmatching).1) hpage
    refine ⟨pages, zones, hvisited, hperm.trans (List.Perm.of_eq (List.filter_congr ?_))⟩
    intro row _
    rw [hhandles, hrange]
    rfl

/-- **Each zone is handled by one producer, but for the last shard.** -/
theorem handled_perm (hne : members ≠ []) (hnodup : members.Nodup) :
    (members.flatMap fun me =>
        table.filter fun row => matching row && handles members me (zoneId row)).Perm
      (table.filter fun row => matching row && defaultShard (zoneId row) != some 0xfff) := by
  refine perm_filter_of_once hnodup ?_ ?_
  · intro row _ hrow
    obtain ⟨hmatching, hlast⟩ := Bool.and_eq_true_iff.mp hrow
    obtain ⟨shard, hshard, hlt⟩ := defaultShard_lt (zoneId row)
    -- all shards but the last are partitions
    have hmem : shard ∈ partitions := by
      refine List.mem_range.mpr ?_
      have : shard ≠ 0xfff := by
        rintro rfl
        simp [hshard] at hlast
      omega
    obtain ⟨me, ⟨hme, hslice⟩, honly⟩ :=
      Partitioners.existsUnique_updatePartitions hne hnodup hmem
    refine ⟨me, ⟨hme, ?_⟩, ?_⟩
    · rw [hmatching, Bool.true_and]
      exact (handles_iff_mem hshard hme).mpr hslice
    · rintro other ⟨hother, hhandles⟩
      rw [hmatching, Bool.true_and] at hhandles
      exact honly other ⟨hother, (handles_iff_mem hshard hother).mp hhandles⟩
  · intro row _ hrow me hme
    rw [Bool.and_eq_false_iff] at hrow
    rcases hrow with hmatching | hlast
    · rw [hmatching, Bool.false_and]
    · -- the last shard is in no slice, so nobody handles it
      obtain ⟨shard, hshard, -⟩ := defaultShard_lt (zoneId row)
      have hfff : shard = 0xfff := by
        simpa [hshard] using hlast
      rw [Bool.and_eq_false_iff]
      refine .inr (Bool.eq_false_iff.mpr fun hhandles => ?_)
      obtain ⟨slice, hslice, hmem⟩ := (handles_iff_mem hshard hme).mp hhandles
      have hpart := mem_partitions_of_slice hslice hmem
      have := List.mem_range.mp hpart
      omega

end

end Shards

namespace Partitioners

/-! ## One event for each zone, and one transfer -/

section

open Sqlalchemy Shards

variable {ρ V : Type} [LinearOrder V] {engine : Engine V} {columns : Columns ρ V} {table : List ρ}
  {matching : ρ → Bool} {cell : ρ → Option V} {perPage : Nat} {initial : List String}
  {before after : List Event}

/-- The rows have identifiers of their own, and those that match a time of creation. -/
structure Listable (engine : Engine V) (columns : Columns ρ V) (table : List ρ)
    (matching : ρ → Bool) (cell : ρ → Option V) : Prop where
  ids : (table.map columns.id).Nodup
  key : columns.get "created_at" = some cell
  created : ∀ row ∈ table, matching row = true → (cell row).isSome = true
  /-- Neither is an `ENUM`. -/
  alike : engine.SortsAlike columns cell

/-- What the producers have to go through: all that matches, but for the last shard. -/
def covered (table : List ρ) (zoneId : ρ → Nat) (matching : ρ → Bool) : List ρ :=
  table.filter fun row => matching row && defaultShard (zoneId row) != some 0xfff

/-- Producers that are settled go through the zones once, each through its own. -/
theorem settled_visits {callback : String} (engine : Engine V) (zoneId : ρ → Nat) (hne : members ≠ [])
    (hnodup : members.Nodup) (hsettled : ∀ me ∈ members, Settled members me cluster)
    (hwatch : ∀ me ∈ members, callback ∈ (cluster.partitioners me).callbacks)
    (hrows : Listable engine columns table matching cell) (hpage : 0 < perPage) :
    ∃ zones : String → List ρ,
      (∀ me ∈ members, ∃ pages, iterZones (findZones engine columns table zoneId matching perPage)
        columns.id (cluster.told me callback) pages = some (zones me)) ∧
      (members.flatMap zones).Perm (covered table zoneId matching) := by
  choose pages zones hvisits hperm using fun me =>
    iterZones_perm hrows.alike zoneId members me hrows.ids hrows.key hrows.created hpage
  refine ⟨zones, fun me hme => ⟨pages me, ?_⟩, ?_⟩
  · rw [(hsettled me hme).told callback (hwatch me hme), (hsettled me hme).mine]
    exact hvisits me
  · exact (List.Perm.flatMap_left members fun me _ => hperm me).trans (handled_perm hne hnodup)

/--
**Once every member has read the last change, the producers together tell once of each zone**
that it is there, but for those of the last shard.
-/
theorem run_exists_once (engine : Engine V) (zoneId : ρ → Nat)
    (h : LastRead initial members before after)
    (hwatch : ∀ me ∈ members, "periodic_exists" ∈
      ((reached initial members before after).partitioners me).callbacks)
    (hrows : Listable engine columns table matching cell) (hpage : 0 < perPage) :
    ∃ emitted : String → List (String × ρ),
      (∀ me ∈ members, ∃ pages,
        periodicExists (findZones engine columns table zoneId matching perPage) columns.id
          ((reached initial members before after).told me "periodic_exists") pages =
            some (emitted me)) ∧
      (members.flatMap emitted).Perm ((covered table zoneId matching).flatMap existsEvents) := by
  -- each zone is visited by one producer, and a visit tells of it once
  obtain ⟨zones, hvisits, hperm⟩ := settled_visits engine zoneId h.ne h.nodup
    (fun me hme => settled_run h hme) hwatch hrows hpage
  refine ⟨fun me => (zones me).flatMap existsEvents, fun me hme => ?_, ?_⟩
  · obtain ⟨pages, hpages⟩ := hvisits me hme
    refine ⟨pages, ?_⟩
    unfold periodicExists
    rw [hpages]
    rfl
  · rw [← List.flatMap_assoc]
    exact hperm.flatMap_right _

/-- The calls of a loop are some of those it wants to make, and all if none raises. -/
theorem callsUpTo_sublist (raises : ρ → Bool) : ∀ l, (callsUpTo raises l).Sublist l ∧
    ((∀ a ∈ l, raises a = false) → callsUpTo raises l = l)
  | [] => ⟨List.Sublist.refl _, fun _ => rfl⟩
  | a :: l => by
    obtain ⟨hsublist, hall⟩ := callsUpTo_sublist raises l
    unfold callsUpTo
    by_cases h : raises a = true
    · rw [if_pos h]
      refine ⟨(List.nil_sublist l).cons_cons a, fun hnone => ?_⟩
      rw [hnone a List.mem_cons_self] at h
      exact absurd h Bool.false_ne_true
    · rw [if_neg h]
      refine ⟨hsublist.cons_cons a, fun hnone => ?_⟩
      rw [hall fun b hb => hnone b (List.mem_cons_of_mem _ hb)]

/--
**Then they also ask once for the transfer of each zone that is due**, of another zone never, and
of none twice, even where a transfer raises and ends its task.
-/
theorem run_refreshed_once (engine : Engine V) (zoneId : ρ → Nat) (due raises : ρ → Bool)
    (h : LastRead initial members before after)
    (hwatch : ∀ me ∈ members, "periodic_secondary_refresh" ∈
      ((reached initial members before after).partitioners me).callbacks)
    (hrows : Listable engine columns table matching cell) (hpage : 0 < perPage) :
    ∃ transfers : String → List ρ,
      (∀ me ∈ members, ∃ pages,
        secondaryRefresh (findZones engine columns table zoneId matching perPage) columns.id due
          raises ((reached initial members before after).told me "periodic_secondary_refresh")
            pages = some (transfers me)) ∧
      (members.flatMap transfers).Subperm ((covered table zoneId matching).filter due) ∧
      ((∀ row ∈ table, due row = true → raises row = false) →
        (members.flatMap transfers).Perm ((covered table zoneId matching).filter due)) := by
  obtain ⟨zones, hvisits, hperm⟩ := settled_visits engine zoneId h.ne h.nodup
    (fun me hme => settled_run h hme) hwatch hrows hpage
  -- what all of them visit is covered once, so what is due of it is too
  have hdue : (members.flatMap fun me => (zones me).filter due).Perm
      ((covered table zoneId matching).filter due) := by
    rw [← List.filter_flatMap]
    exact hperm.filter _
  refine ⟨fun me => callsUpTo raises ((zones me).filter due), fun me hme => ?_, ?_, fun hnone => ?_⟩
  · obtain ⟨pages, hpages⟩ := hvisits me hme
    refine ⟨pages, ?_⟩
    unfold secondaryRefresh
    rw [hpages]
    rfl
  · -- a task that a transfer ends has asked for a part of its zones
    refine List.Subperm.trans (List.Sublist.subperm ?_) hdue.subperm
    exact List.Sublist.flatMap_right members fun me _ => (callsUpTo_sublist raises _).1
  · refine List.Perm.trans (List.Perm.of_eq (List.flatMap_congr fun me hme => ?_)) hdue
    refine (callsUpTo_sublist raises _).2 fun row hrow => ?_
    -- no transfer of a zone that is there raises, so no task ends early
    have hmem : row ∈ members.flatMap fun me => (zones me).filter due :=
      List.mem_flatMap.mpr ⟨me, hme, hrow⟩
    obtain ⟨hrow', hdue'⟩ := List.mem_filter.mp (hdue.mem_iff.mp hmem)
    exact hnone row (List.mem_of_mem_filter hrow') hdue'

end

/-- Zones with their identifiers and times of creation, the third of them in the last shard. -/
def someZones : List (Nat × Option Nat) :=
  [(0, some 7), (2 ^ 127, some 5), (0xfff * 2 ^ 116, some 9)]

def zoneColumns : Sqlalchemy.Columns (Nat × Option Nat) Nat where
  id row := row.1
  other name := if name = "created_at" then some fun row => row.2 else none

theorem someZones_listable :
    Listable Sqlalchemy.sampleEngine zoneColumns someZones (fun _ => true) (fun row => row.2) where
  ids := by decide
  key := rfl
  created := by decide
  alike := Sqlalchemy.sampleEngine_alike _ _

theorem run_exists_once_sample :
    covered someZones (fun row => row.1) (fun _ => true) = [(0, some 7), (2 ^ 127, some 5)] ∧
    ∃ emitted : String → List (String × (Nat × Option Nat)),
      (∀ me ∈ ["a", "b"], ∃ pages,
        Shards.periodicExists
          (Shards.findZones Sqlalchemy.sampleEngine zoneColumns someZones (fun row => row.1)
            (fun _ => true) 1) zoneColumns.id
          ((reached ["a"] ["a", "b"] starting reading).told me "periodic_exists") pages =
            some (emitted me)) ∧
      (["a", "b"].flatMap emitted).Perm
        ((covered someZones (fun row => row.1) fun _ => true).flatMap Shards.existsEvents) := by
  have hwatch : ∀ me ∈ ["a", "b"], "periodic_exists" ∈
      ((reached ["a"] ["a", "b"] starting reading).partitioners me).callbacks :=
    fun me hme => starting_watched me _ hme (by decide)
  have honce := run_exists_once Sqlalchemy.sampleEngine (fun row => row.1) starting_read
    hwatch someZones_listable Nat.one_pos
  exact ⟨by decide +kernel, honce⟩

/-- An hour after the zones but one were transferred. -/
def zoneDue (row : Nat × Option Nat) : Bool :=
  Shards.refreshDue (row.2.map fun t => (t : Int)) 3600 3600000008

/-- The first zone is due, and its transfer raises; the second is due as well. -/
theorem run_refreshed_once_sample :
    someZones.filter zoneDue = [(0, some 7), (2 ^ 127, some 5)] ∧
    ∃ transfers : String → List (Nat × Option Nat),
      (∀ me ∈ ["a", "b"], ∃ pages,
        Shards.secondaryRefresh
          (Shards.findZones Sqlalchemy.sampleEngine zoneColumns someZones (fun row => row.1)
            (fun _ => true) 1) zoneColumns.id zoneDue (fun row => row.1 == 0)
          ((reached ["a"] ["a", "b"] starting reading).told me "periodic_secondary_refresh")
            pages = some (transfers me)) ∧
      (["a", "b"].flatMap transfers).Subperm
        ((covered someZones (fun row => row.1) fun _ => true).filter zoneDue) ∧
      ((∀ row ∈ someZones, zoneDue row = true → (row.1 == 0) = false) →
        (["a", "b"].flatMap transfers).Perm
          ((covered someZones (fun row => row.1) fun _ => true).filter zoneDue)) := by
  -- the callback has been registered before the start
  have hwatch : ∀ me ∈ ["a", "b"], "periodic_secondary_refresh" ∈
      ((reached ["a"] ["a", "b"] starting reading).partitioners me).callbacks :=
    fun me hme => starting_watched me _ hme (by decide)
  have honce := run_refreshed_once Sqlalchemy.sampleEngine (fun row => row.1) zoneDue
    (fun row => row.1 == 0) starting_read hwatch someZones_listable Nat.one_pos
  exact ⟨by decide +kernel, honce⟩

end Partitioners

end Designate
