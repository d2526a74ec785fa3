import Designate.Worker.ZonePoller
import Mathlib.Data.List.Induction
import Mathlib.Order.Bounds.Lattice
import Mathlib.Tactic.FieldSimp
import Mathlib.Tactic.Linarith

/-!
# What the last round decides

The loop of `parse_query_results` counts who confirms and keeps the least serial that does,
with 0 for none. A zone has a serial of at least 1, so no serial that confirms is taken for
"none yet", and who answers "no zone" does not confirm an update. So the two comparisons of
`_threshold_met` cannot disagree about a success, and the loop of `_do_poll` stops early at
what is going to be a success only.
-/

namespace Designate

namespace ZonePoller

variable {threshold : ℚ} {zone : ZoneView} {results : Results}

/-! ## Counting -/

/-- The tally of a list of answers. -/
def tally (zone : ZoneView) (results : Results) : Tally := results.foldl (Tally.count zone) {}

theorem tally_snoc (results : Results) (answer : Option Nat) :
    tally zone (results ++ [answer]) = (tally zone results).count zone answer := by
  unfold tally
  rw [List.foldl_append]
  rfl

theorem count_positives (t : Tally) (answer : Option Nat) :
    (t.count zone answer).positives = t.positives + if confirms zone answer then 1 else 0 := by
  cases answer with
  | none => rfl
  | some serial =>
    by_cases hdelete : zone.action = .DELETE
    · by_cases hzero : serial = 0
      · simp [Tally.count, confirms, hdelete, hzero]
      · simp [Tally.count, confirms, hdelete, hzero]
    · by_cases hserial : zone.serial ≤ serial
      · simp [Tally.count, confirms, hdelete, hserial]
      · by_cases hzero : serial = 0
        · subst hzero
          have hne : zone.serial ≠ 0 := by omega
          simp [Tally.count, confirms, hdelete, hne]
        · simp [Tally.count, confirms, hdelete, hserial, hzero]

theorem count_noZones (hserial : 1 ≤ zone.serial) (t : Tally) (answer : Option Nat) :
    (t.count zone answer).noZones = t.noZones + if answer == some 0 then 1 else 0 := by
  cases answer with
  | none => rfl
  | some serial =>
    by_cases hdelete : zone.action = .DELETE
    · by_cases hzero : serial = 0
      · simp [Tally.count, hdelete, hzero]
      · simp [Tally.count, hdelete, hzero]
    · by_cases hzero : serial = 0
      · -- a serial of at least 1 is not confirmed by a 0
        subst hzero
        have hne : zone.serial ≠ 0 := by omega
        simp [Tally.count, hdelete, hne]
      · by_cases hreached : zone.serial ≤ serial
        · simp [Tally.count, hdelete, hzero, hreached]
        · simp [Tally.count, hdelete, hzero, hreached]

theorem tally_positives (results : Results) :
    (tally zone results).positives = results.countP (confirms zone) := by
  induction results using List.reverseRecOn with
  | nil => rfl
  | append_singleton results answer ih =>
    rw [tally_snoc, count_positives, ih, List.countP_append, List.countP_singleton]

theorem tally_noZones (hserial : 1 ≤ zone.serial) (results : Results) :
    (tally zone results).noZones = results.countP (· == some 0) := by
  induction results using List.reverseRecOn with
  | nil => rfl
  | append_singleton results answer ih =>
    rw [tally_snoc, count_noZones hserial, ih, List.countP_append, List.countP_singleton]

theorem confirming_snoc (results : Results) (answer : Option Nat) :
    confirming zone (results ++ [answer]) =
      confirming zone results ∪ {serial | answer = some serial ∧ zone.serial ≤ serial} := by
  ext serial
  simp only [confirming, List.mem_append, List.mem_singleton, Set.mem_ofPred_eq, Set.mem_union]
  constructor
  · rintro ⟨hmem | heq, hle⟩
    · exact .inl ⟨hmem, hle⟩
    · exact .inr ⟨heq.symm, hle⟩
  · rintro (⟨hmem, hle⟩ | ⟨heq, hle⟩)
    · exact ⟨.inl hmem, hle⟩
    · exact ⟨.inr heq.symm, hle⟩

/-- The loop keeps 0 as long as nobody confirms, and the least serial that confirms after that. -/
theorem tally_lowSerial (hserial : 1 ≤ zone.serial) (hupdate : zone.action ≠ .DELETE)
    (results : Results) :
    ((tally zone results).lowSerial = 0 ∧ confirming zone results = ∅) ∨
      IsLeast (confirming zone results) (tally zone results).lowSerial := by
  induction results using List.reverseRecOn with
  | nil =>
    refine .inl ⟨rfl, ?_⟩
    ext serial
    simp [confirming]
  | append_singleton results answer ih =>
    rw [tally_snoc, confirming_snoc]
    by_cases hconfirms : ∃ serial, answer = some serial ∧ zone.serial ≤ serial
    · obtain ⟨serial, rfl, hreached⟩ := hconfirms
      have hset : {s | some serial = some s ∧ zone.serial ≤ s} = {serial} := by
        ext s
        constructor
        · rintro ⟨heq, -⟩
          exact (Option.some.inj heq).symm
        · rintro rfl
          exact ⟨rfl, hreached⟩
      have hlow : ((tally zone results).count zone (some serial)).lowSerial =
          if (tally zone results).lowSerial = 0 ∨ serial < (tally zone results).lowSerial then
            serial else (tally zone results).lowSerial := by
        simp [Tally.count, hupdate, hreached]
      rw [hset, hlow]
      refine .inr ?_
      rcases ih with ⟨hzero, hempty⟩ | hleast
      · rw [if_pos (.inl hzero), hempty, Set.empty_union]
        exact isLeast_singleton
      · -- what is kept confirms, so it is not 0
        have hkept : zone.serial ≤ (tally zone results).lowSerial := hleast.1.2
        by_cases hless : serial < (tally zone results).lowSerial
        · rw [if_pos (.inr hless)]
          have := hleast.union isLeast_singleton (b := serial)
          rwa [min_eq_right (by omega)] at this
        · rw [if_neg (by omega)]
          have := hleast.union isLeast_singleton (b := serial)
          rwa [min_eq_left (by omega)] at this
    · have hset : {s | answer = some s ∧ zone.serial ≤ s} = ∅ := by
        ext s
        exact ⟨fun h => hconfirms ⟨s, h⟩, False.elim⟩
      have hlow : ((tally zone results).count zone answer).lowSerial =
          (tally zone results).lowSerial := by
        cases answer with
        | none => rfl
        | some serial =>
          have hbelow : ¬ zone.serial ≤ serial := fun h => hconfirms ⟨serial, rfl, h⟩
          by_cases hzero : serial = 0
          · subst hzero
            have hne : zone.serial ≠ 0 := by omega
            simp [Tally.count, hupdate, hne]
          · simp [Tally.count, hupdate, hzero, hbelow]
      rw [hset, hlow, Set.union_empty]
      exact ih

/-! ## The two comparisons -/

theorem percentage_mono {a b : Nat} (h : a ≤ b) (whole : Nat) :
    percentage a whole ≤ percentage b whole := by
  unfold percentage
  split
  · exact le_refl _
  · have hcast : (a : ℚ) ≤ b := by exact_mod_cast h
    gcongr

theorem percentage_sub {part whole : Nat} (hle : part ≤ whole) (hwhole : whole ≠ 0) :
    percentage (whole - part) whole = 100 - percentage part whole := by
  unfold percentage
  rw [if_neg hwhole, if_neg hwhole, Nat.cast_sub hle]
  have hcast : (whole : ℚ) ≠ 0 := by exact_mod_cast hwhole
  field_simp

/-- Who does not have the zone does not confirm that it was changed. -/
theorem confirms_or_missing (hserial : 1 ≤ zone.serial) (hupdate : zone.action ≠ .DELETE)
    (results : Results) :
    results.countP (confirms zone) + results.countP (· == some 0) ≤ results.length := by
  induction results with
  | nil => simp
  | cons answer results ih =>
    rw [List.countP_cons, List.countP_cons, List.length_cons]
    -- a serial of 0 is no later than that of the zone
    by_cases hzero : answer = some 0
    · have hnot : confirms zone answer = false := by
        rw [hzero, confirms, if_neg hupdate]
        exact decide_eq_false (by omega)
      rw [hnot, hzero]
      simp
      omega
    · have hnot : (answer == some 0) = false := beq_eq_false_iff_ne.mpr hzero
      rw [hnot]
      split
      · simp
        omega
      · simp
        omega

variable (threshold) in
theorem positives_met (zone : ZoneView) (results : Results) :
    compareThreshold threshold (parseQueryResults results zone).positives results.length = true ↔
      Confirmed threshold zone results := by
  have hpositives : (parseQueryResults results zone).positives = results.countP (confirms zone) :=
    tally_positives results
  rw [hpositives]
  exact decide_eq_true_iff

variable (threshold) in
theorem noZones_met (hserial : 1 ≤ zone.serial) (hresults : results ≠ []) :
    compareThreshold threshold (results.length - (parseQueryResults results zone).noZones)
      results.length = true ↔ ¬ Missing threshold results := by
  have hnoZones : (parseQueryResults results zone).noZones = results.countP (· == some 0) :=
    tally_noZones hserial results
  rw [hnoZones]
  unfold compareThreshold Missing
  rw [decide_eq_true_iff,
    percentage_sub List.countP_le_length (fun h => hresults (List.length_eq_zero_iff.mp h)), not_lt]
  constructor
  · intro h
    linarith
  · intro h
    linarith

/-- Enough nameservers that confirm an update are enough that have the zone. -/
theorem not_missing_of_confirmed (hserial : 1 ≤ zone.serial) (hupdate : zone.action ≠ .DELETE)
    (hresults : results ≠ []) (h : Confirmed threshold zone results) :
    ¬ Missing threshold results := by
  have hle : results.countP (confirms zone) ≤ results.length - results.countP (· == some 0) := by
    have := confirms_or_missing hserial hupdate results
    omega
  have hmono := percentage_mono hle results.length
  rw [percentage_sub List.countP_le_length
    (fun h => hresults (List.length_eq_zero_iff.mp h))] at hmono
  unfold Missing
  unfold Confirmed at h
  rw [not_lt]
  linarith

variable (threshold) in
/-- What the status says of the last round. -/
theorem thresholdMet_eq (hserial : 1 ≤ zone.serial) (hresults : results ≠ []) :
    (thresholdMet threshold zone (parseQueryResults results zone) = (true, .SUCCESS) ∧
        Confirmed threshold zone results ∧
        ¬ (zone.action ≠ .DELETE ∧ Missing threshold results)) ∨
      (thresholdMet threshold zone (parseQueryResults results zone) = (false, .NO_ZONE) ∧
        ¬ Confirmed threshold zone results ∧
        (zone.action ≠ .DELETE ∧ Missing threshold results)) ∨
      (thresholdMet threshold zone (parseQueryResults results zone) = (false, .ERROR) ∧
        ¬ Confirmed threshold zone results ∧
        ¬ (zone.action ≠ .DELETE ∧ Missing threshold results)) := by
  have hpositives := positives_met threshold zone results
  have hnoZones := noZones_met threshold hserial hresults
  -- the source asks for a missing zone first, so that case hides the other two
  have hmet : thresholdMet threshold zone (parseQueryResults results zone) =
      if (!compareThreshold threshold
          (results.length - (parseQueryResults results zone).noZones) results.length &&
          zone.action != .DELETE) = true then (false, .NO_ZONE)
      else if (!compareThreshold threshold (parseQueryResults results zone).positives
          results.length) = true then (false, .ERROR)
      else (true, .SUCCESS) := rfl
  rw [hmet]
  by_cases hmissing : zone.action ≠ .DELETE ∧ Missing threshold results
  · have hover := mt hnoZones.mp (not_not_intro hmissing.2)
    rw [Bool.not_eq_true] at hover
    refine .inr (.inl ⟨?_, fun h => ?_, hmissing⟩)
    · simp [hover, hmissing.1]
    · -- a confirmation would need answers that the missing ones leave too few of
      exact not_missing_of_confirmed hserial hmissing.1 hresults h hmissing.2
  · have hfirst : (!compareThreshold threshold
        (results.length - (parseQueryResults results zone).noZones) results.length &&
        zone.action != .DELETE) = false := by
      by_cases hdelete : zone.action = .DELETE
      · simp [hdelete]
      · rw [hnoZones.mpr fun h => hmissing ⟨hdelete, h⟩]
        rfl
    rw [hfirst]
    by_cases hconfirmed : Confirmed threshold zone results
    · refine .inl ⟨?_, hconfirmed, hmissing⟩
      simp [hpositives.mpr hconfirmed]
    · have hfew := mt hpositives.mp hconfirmed
      rw [Bool.not_eq_true] at hfew
      refine .inr (.inr ⟨?_, hconfirmed, hmissing⟩)
      simp [hfew]

/-! ## The rounds -/

theorem doPoll_succ (polls : Nat → Results) (left n : Nat)
    (polled : List Results × Option DNSQueryResult) :
    doPoll threshold zone polls n (left + 1) polled =
      if compareThreshold threshold (parseQueryResults (polls n) zone).positives
          (polls n).length = true then
        (polled.1 ++ [polls n], some (parseQueryResults (polls n) zone))
      else doPoll threshold zone polls (n + 1) left
        (polled.1 ++ [polls n], some (parseQueryResults (polls n) zone)) := rfl

variable (threshold zone) in
/-- The rounds end with the first one that is confirmed, or with the last one there is. -/
theorem doPoll_eq (polls : Nat → Results) (left n : Nat)
    (polled : List Results × Option DNSQueryResult) :
    ∃ k, k ≤ left ∧
      doPoll threshold zone polls n (left + 1) polled =
        (polled.1 ++ (List.range' n (k + 1)).map polls,
          some (parseQueryResults (polls (n + k)) zone)) ∧
      (∀ j, j < k → ¬ Confirmed threshold zone (polls (n + j))) ∧
      (k < left → Confirmed threshold zone (polls (n + k))) := by
  induction left generalizing n polled with
  | zero =>
    refine ⟨0, le_refl 0, ?_, fun j hj => absurd hj (Nat.not_lt_zero j),
      fun h => absurd h (lt_irrefl 0)⟩
    rw [doPoll_succ]
    exact ite_self _
  | succ left ih =>
    rw [doPoll_succ]
    -- the loop breaks on the first round that is confirmed
    by_cases hconfirmed : Confirmed threshold zone (polls n)
    · rw [if_pos ((positives_met threshold zone (polls n)).mpr hconfirmed)]
      refine ⟨0, Nat.zero_le _, rfl, fun j hj => absurd hj (Nat.not_lt_zero j), fun _ => ?_⟩
      exact hconfirmed
    · rw [if_neg fun h => hconfirmed ((positives_met threshold zone (polls n)).mp h)]
      obtain ⟨k, hk, hpoll, hbefore, hlast⟩ := ih (n + 1)
        (polled.1 ++ [polls n], some (parseQueryResults (polls n) zone))
      have hnext : n + 1 + k = n + (k + 1) := by omega
      refine ⟨k + 1, by omega, ?_, fun j hj => ?_, fun h => ?_⟩
      · rw [hpoll, hnext, List.append_assoc, List.range'_succ]
        rfl
      · cases j with
        | zero => exact hconfirmed
        | succ j =>
          have := hbefore j (by omega)
          rwa [Nat.add_assoc, Nat.add_comm 1 j] at this
      · rw [← hnext]
        exact hlast (by omega)

/--
**The last round polled decides.** Polling ends with the first round that is confirmed, or when
there have been `maxRetries`. The zone is reported a success exactly if its last round is
confirmed, an update then with the least serial that confirms it; it is reported missing exactly
if too many answer that they do not have a zone that ought to be there.
-/
theorem call_decides (threshold : ℚ) (zone : ZoneView) (polls : Nat → Results)
    (hserial : 1 ≤ zone.serial) (hthreshold : 1 ≤ threshold ∧ threshold ≤ 100)
    {maxRetries : Nat} (hretries : 1 ≤ maxRetries) (hpolls : ∀ n, polls n ≠ []) :
    ∃ outcome last, call threshold zone polls maxRetries = .ok outcome ∧
      outcome.rounds.getLast? = some last ∧
      (∃ k, k < maxRetries ∧ outcome.rounds = (List.range (k + 1)).map polls ∧
        (∀ j, j < k → ¬ Confirmed threshold zone (polls j)) ∧
        (k + 1 < maxRetries → Confirmed threshold zone (polls k))) ∧
      (outcome.zone.status = .SUCCESS ↔ Confirmed threshold zone last) ∧
      (outcome.zone.status = .SUCCESS → zone.action ≠ .DELETE →
        IsLeast (confirming zone last) outcome.zone.serial ∧ zone.serial ≤ outcome.zone.serial) ∧
      (outcome.zone.status = .NO_ZONE ↔
        zone.action ≠ .DELETE ∧ Missing threshold last) := by
  obtain ⟨left, rfl⟩ : ∃ left, maxRetries = left + 1 := ⟨maxRetries - 1, by omega⟩
  obtain ⟨k, hk, hpoll, hbefore, hlast⟩ :=
    doPoll_eq threshold zone polls left 0 ([], none)
  simp only [Nat.zero_add, List.nil_append, ← List.range_eq_range'] at hpoll hbefore hlast
  have hrounds : ((List.range (k + 1)).map polls).getLast? = some (polls k) := by
    rw [List.range_succ, List.map_append, List.map_singleton, List.getLast?_concat]
  have hranged : ∃ k', k' < left + 1 ∧
      (List.range (k + 1)).map polls = (List.range (k' + 1)).map polls ∧
      (∀ j, j < k' → ¬ Confirmed threshold zone (polls j)) ∧
      (k' + 1 < left + 1 → Confirmed threshold zone (polls k')) :=
    ⟨k, by omega, rfl, hbefore, fun h => hlast (by omega)⟩
  -- what the last round says is all that counts from here on
  rcases thresholdMet_eq threshold hserial (hpolls k) with
    ⟨hmet, hconfirmed, hmissing⟩ | ⟨hmet, hconfirmed, hmissing⟩ | ⟨hmet, hconfirmed, hmissing⟩
  · refine ⟨⟨_, onSuccess zone (parseQueryResults (polls k) zone) .SUCCESS, true⟩, polls k, ?_,
      hrounds, hranged, iff_of_true rfl hconfirmed, fun _ hupdate => ?_,
      iff_of_false (by simp [onSuccess]) hmissing⟩
    · simp [call, hpoll, hmet]
    · have hleast : IsLeast (confirming zone (polls k)) (tally zone (polls k)).lowSerial := by
        rcases tally_lowSerial hserial hupdate (polls k) with ⟨-, hempty⟩ | hleast
        · -- at least one percent of somebody is somebody
          exfalso
          have hnone : (polls k).countP (confirms zone) = 0 := by
            rw [List.countP_eq_zero]
            intro answer hanswer hconfirms
            cases answer with
            | none => exact absurd hconfirms Bool.false_ne_true
            | some serial =>
              rw [confirms, if_neg hupdate, decide_eq_true_iff] at hconfirms
              have hmem : serial ∈ confirming zone (polls k) := ⟨hanswer, hconfirms⟩
              rw [hempty] at hmem
              exact hmem
          unfold Confirmed at hconfirmed
          rw [hnone, percentage] at hconfirmed
          simp at hconfirmed
          linarith [hthreshold.1]
        · exact hleast
      exact ⟨hleast, hleast.1.2⟩
  · refine ⟨⟨_, onFailure zone .NO_ZONE, false⟩, polls k, ?_, hrounds, hranged,
      iff_of_false (by simp [onFailure]) hconfirmed, fun h => absurd h (by simp [onFailure]),
      iff_of_true rfl hmissing⟩
    simp [call, hpoll, hmet]
  · refine ⟨⟨_, onFailure zone .ERROR, false⟩, polls k, ?_, hrounds, hranged,
      iff_of_false (by simp [onFailure]) hconfirmed, fun h => absurd h (by simp [onFailure]),
      iff_of_false (by simp [onFailure]) hmissing⟩
    simp [call, hpoll, hmet]

/-- Two nameservers of three have reached the serial 5, one of them a later one. -/
theorem call_decides_sample :
    ∃ outcome, call 60 ⟨5, .UPDATE, .PENDING⟩ (fun _ => [some 7, some 5, some 0]) 1 = .ok outcome ∧
      outcome.zone.status = .SUCCESS ∧
      IsLeast (confirming ⟨5, .UPDATE, .PENDING⟩ [some 7, some 5, some 0]) outcome.zone.serial := by
  obtain ⟨outcome, last, hcall, hrounds, ⟨k, hk, hpolled, -⟩, hsuccess, hleast, -⟩ :=
    call_decides 60 ⟨5, .UPDATE, .PENDING⟩ (fun _ => [some 7, some 5, some 0]) (by decide)
      (by norm_num) (le_refl 1) (fun _ => List.cons_ne_nil _ _)
  obtain rfl : k = 0 := by omega
  rw [hpolled] at hrounds
  obtain rfl := Option.some.inj hrounds
  have hconfirmed : Confirmed 60 ⟨5, .UPDATE, .PENDING⟩ [some 7, some 5, some 0] := by
    have hcount : [some 7, some 5, some 0].countP (confirms ⟨5, .UPDATE, .PENDING⟩) = 2 := by decide
    rw [Confirmed, hcount, percentage]
    norm_num
  exact ⟨outcome, hcall, hsuccess.mpr hconfirmed,
    (hleast (hsuccess.mpr hconfirmed) (by decide)).1⟩

end ZonePoller

end Designate
