import Designate.PoolManager.Consensus
import Mathlib.Data.Nat.Cast.Order.Field
import Mathlib.Algebra.Order.Field.Rat
import Mathlib.Tactic.FieldSimp
import Mathlib.Tactic.Linarith

/-!
# What the pool manager's consensus counts

A serial has the consensus of the nameservers when the threshold's share of them holds it
or a later one. The search counts the nameservers, and takes the share of the targets: it
finds the right serial exactly when no reported serial has enough nameservers for the one
share and too few for the other.
-/

namespace Designate

namespace PoolManager

variable {γ : Type} {svc : Service γ}

/-- How many of the nameservers hold this serial or a later one. -/
def holders (statuses : List PoolManagerStatus) (serial : Nat) : Nat :=
  Quorum.support (serials statuses) serial

/-- Enough of the pool's nameservers hold this serial or a later one. -/
def Served (svc : Service γ) (statuses : List PoolManagerStatus) (serial : Nat) : Prop :=
  meets svc.threshold (holders statuses serial) svc.pool.nameservers.length = true

/-- The greatest reported serial that enough of the nameservers hold, or 0 when none is. -/
def IsConsensusSerial (svc : Service γ) (statuses : List PoolManagerStatus) (c : Nat) : Prop :=
  (c ∈ serials statuses ∧ Served svc statuses c ∧
      ∀ b ∈ serials statuses, Served svc statuses b → b ≤ c) ∨
    (c = 0 ∧ ∀ b ∈ serials statuses, ¬ Served svc statuses b)

/--
No reported serial but 0 is held by so many nameservers that they are the threshold's share
of the targets and not of the nameservers, or the other way round.
-/
def SameVerdict (svc : Service γ) (statuses : List PoolManagerStatus) : Prop :=
  ∀ s ∈ serials statuses, s ≠ 0 →
    meets svc.threshold (holders statuses s) svc.pool.targets.length =
      meets svc.threshold (holders statuses s) svc.pool.nameservers.length

/-! ## Shares -/

/-- How many of `total` the threshold's share is. -/
def share (threshold total : Nat) : Nat := (threshold * total + 99) / 100

theorem meets_iff {threshold count total : Nat} (h : 0 < total) :
    meets threshold count total = true ↔ share threshold total ≤ count := by
  have hpos : (0 : ℚ) < total := by exact_mod_cast h
  have hcross : (threshold : ℚ) ≤ percentage count total ↔ threshold * total ≤ count * 100 := by
    unfold percentage
    rw [div_mul_eq_mul_div, le_div_iff₀ hpos]
    exact_mod_cast Iff.rfl
  unfold meets share
  rw [decide_eq_true_iff, hcross]
  omega

/-- More of them are a larger share. -/
theorem meets_mono {threshold count count' total : Nat} (hle : count ≤ count')
    (h : meets threshold count total = true) : meets threshold count' total = true := by
  rcases Nat.eq_zero_or_pos total with rfl | hpos
  · simpa [meets, percentage] using h
  · exact (meets_iff hpos).mpr (Nat.le_trans ((meets_iff hpos).mp h) hle)

theorem exceedOrMeetThreshold_self (count : Nat) :
    exceedOrMeetThreshold svc count (some svc.threshold) =
      meets svc.threshold count svc.pool.targets.length := by
  unfold exceedOrMeetThreshold
  cases h : svc.threshold with
  | zero => simp
  | succ n => simp

theorem targets_pos : 0 < svc.pool.targets.length := List.length_pos_iff.mpr svc.pool.targets_ne

/-! ## The search -/

section Search

variable {statuses : List PoolManagerStatus}

/-- The search finds the serial in the place of the targets' share. -/
theorem consensusSerial_eq_place :
    consensusSerial svc statuses =
      (Quorum.place (serials statuses) (share svc.threshold svc.pool.targets.length)).getD 0 := by
  unfold consensusSerial
  refine congrArg (·.getD 0) (Quorum.search_eq_place ?_)
  intro n
  rw [exceedOrMeetThreshold_self]
  exact meets_iff targets_pos

/-- The right serial is the one in the place of the nameservers' share. -/
theorem isConsensusSerial_iff (hns : 0 < svc.pool.nameservers.length) {c : Nat} :
    IsConsensusSerial svc statuses c ↔
      c = (Quorum.place (serials statuses)
        (share svc.threshold svc.pool.nameservers.length)).getD 0 := by
  have hgreatest := Quorum.place_isGreatest (serials statuses)
    (share svc.threshold svc.pool.nameservers.length)
  have hserved : ∀ s, Served svc statuses s ↔
      share svc.threshold svc.pool.nameservers.length ≤
        Quorum.support (serials statuses) s := fun s => meets_iff hns
  unfold IsConsensusSerial
  simp only [hserved]
  cases hp : Quorum.place (serials statuses)
      (share svc.threshold svc.pool.nameservers.length) with
  | none =>
    rw [hp] at hgreatest
    constructor
    · intro h
      rcases h with ⟨hc, hs, -⟩ | ⟨h, -⟩
      · exact absurd hs (hgreatest c hc)
      · exact h
    · intro h
      exact .inr ⟨h, hgreatest⟩
  | some a =>
    rw [hp] at hgreatest
    obtain ⟨ha, hs, hmax⟩ := hgreatest
    constructor
    · intro h
      rcases h with ⟨hc, hcs, hcmax⟩ | ⟨-, hnone⟩
      · exact le_antisymm (hmax c hc hcs) (hcmax a ha hs)
      · exact absurd hs (hnone a ha)
    · intro h
      subst h
      exact .inl ⟨ha, hs, hmax⟩

/-- Two shares pick one serial exactly when they judge every reported serial but 0 alike. -/
theorem place_getD_eq_iff (l : List Nat) (k k' : Nat) :
    (Quorum.place l k).getD 0 = (Quorum.place l k').getD 0 ↔
      ∀ s ∈ l, s ≠ 0 → (k ≤ Quorum.support l s ↔ k' ≤ Quorum.support l s) := by
  constructor
  · intro h s hs hpos
    -- a serial with one share is at most the serial found, which has the other share too
    have key : ∀ i j : Nat, (Quorum.place l i).getD 0 = (Quorum.place l j).getD 0 →
        i ≤ Quorum.support l s → j ≤ Quorum.support l s := by
      intro i j hij hsupport
      obtain ⟨a, ha, hle⟩ := Quorum.le_place hs hsupport
      have hb : Quorum.place l j = some a := by
        rw [ha] at hij
        cases hj : Quorum.place l j with
        | none =>
          rw [hj] at hij
          simp only [Option.getD_some, Option.getD_none] at hij
          omega
        | some b =>
          rw [hj] at hij
          simpa using hij.symm
      have hgreatest := Quorum.place_isGreatest l j
      rw [hb] at hgreatest
      exact le_trans hgreatest.2.1 (Quorum.support_antitone hle)
    exact ⟨key k k' h, key k' k h.symm⟩
  · intro h
    -- each of the two serials found is at most the other
    have key : ∀ i j : Nat,
        (∀ s ∈ l, s ≠ 0 → i ≤ Quorum.support l s → j ≤ Quorum.support l s) →
        (Quorum.place l i).getD 0 ≤ (Quorum.place l j).getD 0 := by
      intro i j hij
      cases hi : Quorum.place l i with
      | none => exact Nat.zero_le _
      | some a =>
        have hgreatest := Quorum.place_isGreatest l i
        rw [hi] at hgreatest
        rcases Nat.eq_zero_or_pos a with hzero | hpos
        · simp [hzero]
        · have hj := hij a hgreatest.1 (by omega) hgreatest.2.1
          obtain ⟨b, hb, hle⟩ := Quorum.le_place hgreatest.1 hj
          simpa [hb] using hle
    exact le_antisymm (key k k' fun s hs hpos => (h s hs hpos).mp)
      (key k' k fun s hs hpos => (h s hs hpos).mpr)

theorem sameVerdict_iff (hns : 0 < svc.pool.nameservers.length) :
    SameVerdict svc statuses ↔ ∀ s ∈ serials statuses, s ≠ 0 →
      (share svc.threshold svc.pool.targets.length ≤ Quorum.support (serials statuses) s ↔
        share svc.threshold svc.pool.nameservers.length ≤
          Quorum.support (serials statuses) s) := by
  unfold SameVerdict
  simp only [Bool.eq_iff_iff, meets_iff hns, meets_iff targets_pos, holders]

/-- **The search finds the right serial exactly when both shares give the same verdicts.** -/
theorem isConsensusSerial_consensusSerial_iff (hns : 0 < svc.pool.nameservers.length) :
    IsConsensusSerial svc statuses (consensusSerial svc statuses) ↔
      SameVerdict svc statuses := by
  rw [isConsensusSerial_iff hns, consensusSerial_eq_place, sameVerdict_iff hns]
  exact place_getD_eq_iff _ _ _

/-- A consensus serial other than 0 is served. -/
theorem IsConsensusSerial.served {c : Nat} (h : IsConsensusSerial svc statuses c) (hc : c ≠ 0) :
    Served svc statuses c := by
  rcases h with ⟨-, hs, -⟩ | ⟨h, -⟩
  · exact hs
  · exact absurd h hc

end Search

/-! ## What the handling of a report keeps -/

section Keeps

variable {I : Manager γ → Prop} {zone : ZoneView} {action : Action}

variable (svc) in
theorem keeps_retrieveStatusesOf
    (hone : ∀ nameserver, Exec.Keeps I (retrieveStatus svc zone action nameserver)) :
    ∀ nameservers, Exec.Keeps I (retrieveStatusesOf svc zone action nameservers)
  | [] => Exec.Keeps.pure _
  | nameserver :: nameservers =>
    Exec.Keeps.bind (hone nameserver) fun _ =>
      Exec.Keeps.bind (keeps_retrieveStatusesOf hone nameservers) fun _ => Exec.Keeps.pure _

theorem keeps_isConsensus
    (hone : ∀ nameserver, Exec.Keeps I (retrieveStatus svc zone action nameserver))
    (status : Status) (threshold : Option Nat) :
    Exec.Keeps I (isConsensus svc zone action status threshold) :=
  Exec.Keeps.bind (keeps_retrieveStatusesOf svc hone _) fun _ => Exec.Keeps.pure _

theorem keeps_getErrorSerial
    (hone : ∀ nameserver, Exec.Keeps I (retrieveStatus svc zone (actionOf zone) nameserver))
    (consensusSerial : Nat) : Exec.Keeps I (getErrorSerial svc zone consensusSerial) := by
  refine Exec.Keeps.bind (keeps_isConsensus hone _ _) ?_
  intro agreed
  refine Exec.Keeps.ite ?_ ?_
  · intro _
    exact Exec.Keeps.bind (keeps_retrieveStatusesOf svc hone _) fun _ => Exec.Keeps.pure _
  · intro _
    exact Exec.Keeps.pure _

/-- A message of failure is no message of success. -/
theorem keeps_tellFailure
    (hone : ∀ nameserver, Exec.Keeps I (retrieveStatus svc zone (actionOf zone) nameserver))
    (htell : ∀ m : Message, m.status ≠ .SUCCESS → Exec.Keeps I (tell svc m)) (status : Status)
    (consensusSerial : Nat) : Exec.Keeps I (tellFailure svc zone status consensusSerial) := by
  unfold tellFailure
  split
  · refine Exec.Keeps.bind (keeps_getErrorSerial hone _) ?_
    intro errorSerial
    refine Exec.Keeps.ite ?_ ?_
    · intro _
      exact htell _ (by simp)
    · intro _
      exact Exec.Keeps.pure _
  · exact htell _ (by simp)
  · exact Exec.Keeps.pure _

theorem keeps_tidyUp
    (hone : ∀ nameserver, Exec.Keeps I (retrieveStatus svc zone (actionOf zone) nameserver))
    (hclear : ∀ nameserver,
      Exec.Keeps I (call (svc.clear (buildStatusObject nameserver zone (actionOf zone)))))
    (consensusSerial : Nat) : Exec.Keeps I (tidyUp svc zone consensusSerial) := by
  unfold tidyUp
  refine Exec.Keeps.ite ?_ ?_
  · intro _
    refine Exec.Keeps.bind (keeps_isConsensus hone _ _) ?_
    intro done
    refine Exec.Keeps.ite ?_ ?_
    · intro _
      exact Exec.Keeps.forEach fun nameserver _ =>
        Exec.Keeps.catching (hclear nameserver) (Exec.Keeps.pure _)
    · intro _
      exact Exec.Keeps.pure _
  · intro _
    exact Exec.Keeps.pure _

end Keeps

/-! ## What central is told -/

/-- Since the messages `old`, central has only been told what `P` allows. -/
def Told (old : List Message) (P : Message → Prop) (w : Manager γ) : Prop :=
  ∃ news, w.told = old ++ news ∧ ∀ m ∈ news, P m

section Told

variable {old : List Message} {P : Message → Prop} {α : Type}

theorem keeps_call (m : Exec γ Fault α) : Exec.Keeps (Told old P) (call m) :=
  fun _ h => h

theorem keeps_tell {m : Message} (hm : P m) : Exec.Keeps (Told old P) (tell svc m) := by
  refine Exec.Keeps.bind (Exec.Keeps.modify ?_) fun _ => keeps_call _
  intro w h
  obtain ⟨news, htold, hnews⟩ := h
  refine ⟨news ++ [m], by simp [htold], ?_⟩
  intro m' hm'
  rcases List.mem_append.mp hm' with hm' | hm'
  · exact hnews m' hm'
  · exact List.mem_singleton.mp hm' ▸ hm

theorem keeps_retrieveFromMdns (nameserver : Nameserver) (zone : ZoneView) (action : Action) :
    Exec.Keeps (Told old P) (retrieveFromMdns svc nameserver zone action) := by
  refine Exec.Keeps.bind ?_ ?_
  · exact Exec.Keeps.catching
      (Exec.Keeps.bind (keeps_call _) fun _ => Exec.Keeps.pure _) (Exec.Keeps.pure _)
  · intro answer
    cases answer with
    | none => exact Exec.Keeps.pure _
    | some answer => exact Exec.Keeps.bind (keeps_call _) fun _ => Exec.Keeps.pure _

theorem keeps_retrieveStatus (zone : ZoneView) (action : Action) (nameserver : Nameserver) :
    Exec.Keeps (Told old P) (retrieveStatus svc zone action nameserver) :=
  Exec.Keeps.catching (Exec.Keeps.bind (keeps_call _) fun _ => Exec.Keeps.pure _)
    (keeps_retrieveFromMdns nameserver zone action)

variable (svc) in
theorem keeps_recordStatus (zone : ZoneView) (nameserver : Nameserver) (status : Status)
    (actualSerial : Option Nat) :
    Exec.Keeps (Told old P) (recordStatus svc zone nameserver status actualSerial) := by
  refine Exec.Keeps.bind (Exec.Keeps.catching (keeps_call _) (keeps_call _)) ?_
  intro current
  dsimp only
  split
  · refine Exec.Keeps.ite ?_ ?_
    · intro _
      exact Exec.Keeps.bind (keeps_call _) fun _ => Exec.Keeps.pure _
    · intro _
      exact Exec.Keeps.pure _
  · exact Exec.Keeps.pure _

end Told

/-- The consensus serial of a run is the search's, among the statuses the run retrieves. -/
theorem getConsensusSerial_of {zone : ZoneView} {statuses : List PoolManagerStatus}
    {w w' : Manager γ} (h : retrieveStatuses svc zone (actionOf zone) w = (.ok statuses, w')) :
    getConsensusSerial svc zone w = (.ok (consensusSerial svc statuses), w') := by
  unfold getConsensusSerial
  rw [Exec.bind_apply, h]
  exact Exec.pure_apply _ _

/--
With the right serial found, what `update_status` tells central to have succeeded is held
by enough of the nameservers.
-/
theorem told_updateStatus {zone : ZoneView} {statuses : List PoolManagerStatus}
    {w₀ w w' : Manager γ} {nameserver : Nameserver} {status : Status}
    {actualSerial : Option Nat} {cacheSerial : Nat}
    (hright : IsConsensusSerial svc statuses (consensusSerial svc statuses))
    (hrecord : recordStatus svc zone nameserver status actualSerial w₀ = (.ok cacheSerial, w))
    (h : retrieveStatuses svc zone (actionOf zone) w = (.ok statuses, w')) :
    Told w₀.told (fun m => m.status = .SUCCESS → Served svc statuses m.serial)
      (updateStatus svc zone nameserver status actualSerial w₀).2 := by
  -- until the messages begin, nothing is told
  have hquiet : Told w₀.told (fun m => m.status = .SUCCESS → Served svc statuses m.serial) w := by
    have hstart : Told w₀.told (fun m => m.status = .SUCCESS → Served svc statuses m.serial) w₀ :=
      ⟨[], (List.append_nil _).symm, by simp⟩
    have := keeps_recordStatus svc zone nameserver status actualSerial w₀ hstart
    rwa [hrecord] at this
  have hquiet' : Told w₀.told (fun m => m.status = .SUCCESS → Served svc statuses m.serial) w' := by
    have := keeps_retrieveStatusesOf svc (keeps_retrieveStatus zone (actionOf zone))
      svc.pool.nameservers w hquiet
    unfold retrieveStatuses at h
    rwa [h] at this
  unfold updateStatus
  rw [Exec.bind_apply, hrecord]
  dsimp only
  rw [Exec.bind_apply, getConsensusSerial_of h]
  dsimp only
  refine Exec.Keeps.bind ?_ (fun _ => Exec.Keeps.bind ?_ fun _ =>
    keeps_tidyUp (keeps_retrieveStatus zone _) (fun _ => keeps_call _) _) w' hquiet'
  · refine Exec.Keeps.ite ?_ ?_
    · intro hc
      exact keeps_tell fun _ => hright.served hc.1
    · intro _
      exact Exec.Keeps.pure _
  · refine keeps_tellFailure (keeps_retrieveStatus zone _) ?_ status _
    intro m hm
    exact keeps_tell fun hs => absurd hs hm

/--
**The consensus serial is the nameservers' exactly when both shares give the same
verdicts**, and then central is told of a success only when enough nameservers serve it.
-/
theorem consensus_serial_iff (svc : Service γ) (hns : 0 < svc.pool.nameservers.length)
    (zone : ZoneView) {statuses : List PoolManagerStatus} {w w' : Manager γ}
    (h : retrieveStatuses svc zone (actionOf zone) w = (.ok statuses, w')) :
    ((∃ c, getConsensusSerial svc zone w = (.ok c, w') ∧ IsConsensusSerial svc statuses c) ↔
      SameVerdict svc statuses) ∧
    (SameVerdict svc statuses → ∀ nameserver status actualSerial cacheSerial w₀,
      recordStatus svc zone nameserver status actualSerial w₀ = (.ok cacheSerial, w) →
        Told w₀.told (fun m => m.status = .SUCCESS → Served svc statuses m.serial)
          (updateStatus svc zone nameserver status actualSerial w₀).2) := by
  constructor
  · rw [getConsensusSerial_of h, ← isConsensusSerial_consensusSerial_iff hns]
    constructor
    · intro hc
      obtain ⟨c, hc, hright⟩ := hc
      cases hc
      exact hright
    · intro hright
      exact ⟨_, rfl, hright⟩
  · intro hsame nameserver status actualSerial cacheSerial w₀ hrecord
    exact told_updateStatus ((isConsensusSerial_consensusSerial_iff hns).mpr hsame) hrecord h

/-! ## A pool with one target -/

/-- A manager of a pool with one target and two nameservers; its cache has what they serve. -/
def sampleService (serial₁ serial₂ : Nat) : Service Unit where
  pool :=
    { targets := ["target"]
      nameservers := [⟨"one", "192.0.2.1", 53⟩, ⟨"two", "192.0.2.2", 53⟩]
      targets_ne := by simp }
  threshold := 100
  retrieve nameserver zone action :=
    pure { nameserverId := nameserver, zoneId := zone, status := some .SUCCESS,
           serialNumber := if nameserver = "one" then serial₁ else serial₂, action := action }
  store status := pure status
  clear _ := pure ()
  getSerialNumber _ _ := Exec.raise .MessagingException
  updateStatus _ := pure ()

/-- A zone with a change under way. -/
def sampleZone : ZoneView := ⟨"zone", 5, .UPDATE, .PENDING⟩

/-- With both nameservers on one serial, the pool's single target makes no difference. -/
theorem consensus_serial_iff_sample :
    ∃ c, getConsensusSerial (sampleService 5 5) sampleZone ⟨(), []⟩ = (.ok c, ⟨(), []⟩) ∧
      IsConsensusSerial (sampleService 5 5)
        [⟨none, "one", "zone", some .SUCCESS, 5, .UPDATE⟩,
          ⟨none, "two", "zone", some .SUCCESS, 5, .UPDATE⟩] c := by
  refine (consensus_serial_iff (sampleService 5 5) (by decide) sampleZone rfl).1.mpr ?_
  intro s hs _
  rw [Bool.eq_iff_iff, meets_iff (by decide), meets_iff (by decide)]
  have hs : s = 5 := by simpa [serials] using hs
  subst hs
  decide

/-- Half of the nameservers serve serial 5, and the consensus of all of them is 5. -/
theorem consensus_of_one_target :
    getConsensusSerial (sampleService 5 4) sampleZone ⟨(), []⟩ = (.ok 5, ⟨(), []⟩) ∧
      ¬ IsConsensusSerial (sampleService 5 4)
        [⟨none, "one", "zone", some .SUCCESS, 5, .UPDATE⟩,
          ⟨none, "two", "zone", some .SUCCESS, 4, .UPDATE⟩] 5 ∧
      retrieveStatuses (sampleService 5 4) sampleZone .UPDATE ⟨(), []⟩ =
        (.ok [⟨none, "one", "zone", some .SUCCESS, 5, .UPDATE⟩,
          ⟨none, "two", "zone", some .SUCCESS, 4, .UPDATE⟩], ⟨(), []⟩) := by
  have hrun : retrieveStatuses (sampleService 5 4) sampleZone .UPDATE ⟨(), []⟩ =
      (.ok [⟨none, "one", "zone", some .SUCCESS, 5, .UPDATE⟩,
        ⟨none, "two", "zone", some .SUCCESS, 4, .UPDATE⟩], ⟨(), []⟩) := rfl
  -- of the two serials, 5 is the greatest that one nameserver holds
  have hplace : Quorum.place [5, 4] 1 = some 5 := by
    refine (Quorum.isGreatest_iff.mp ?_).symm
    exact ⟨by decide, by decide, by decide⟩
  refine ⟨?_, ?_, hrun⟩
  · rw [getConsensusSerial_of hrun, consensusSerial_eq_place]
    exact congrArg (fun o => (Except.ok (Option.getD o 0), (⟨(), []⟩ : Manager Unit))) hplace
  · intro h
    have hserved := h.served (by decide)
    unfold Served at hserved
    rw [meets_iff (by decide)] at hserved
    revert hserved
    decide

end PoolManager

end Designate
