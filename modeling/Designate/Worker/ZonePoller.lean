import Designate.Objects
import Mathlib.Data.Rat.Defs
import Mathlib.Algebra.Order.Ring.Unbundled.Rat

/-!
# The worker's zone poller

`ZonePoller` asks all nameservers of a pool for the serial of a zone, again and again, until
enough of them confirm the change or it has asked often enough. A nameserver that does not
have the zone answers with the serial 0, one that does not answer counts as `None`. What was
asked last decides which status the zone gets.

Percentages are rational numbers.
-/

namespace Designate

namespace ZonePoller

/-- The fields of a zone the poller reads and assigns. -/
structure ZoneView where
  serial : Nat
  action : Action
  status : Status
  deriving DecidableEq, Repr

/-- The answers of the nameservers of a pool, one each. -/
abbrev Results := List (Option Nat)

/-- `DNSQueryResult`. -/
structure DNSQueryResult where
  positives : Nat
  noZones : Nat
  consensusSerial : Nat
  results : Results
  deriving DecidableEq, Repr

/-- `percentage`. A share of nothing is 0, as the source guards the division. -/
def percentage (part whole : Nat) : ℚ := if whole = 0 then 0 else 100 * (part : ℚ) / (whole : ℚ)

/-- `_compare_threshold`. The threshold counts as met when it is reached exactly. -/
def compareThreshold (threshold : ℚ) (successes total : Nat) : Bool :=
  decide (threshold ≤ percentage successes total)

/-- What `parse_query_results` has counted so far; a `lowSerial` of 0 stands for none yet. -/
structure Tally where
  positives : Nat := 0
  noZones : Nat := 0
  lowSerial : Nat := 0
  deriving DecidableEq, Repr

/--
One turn of the loop of `parse_query_results`. For a DELETE the answer that there is no zone is
the good one, so a serial of 0 counts twice; for every other action a serial of 0 is an answer of
its own, apart from one that is merely too low.
-/
def Tally.count (zone : ZoneView) (tally : Tally) : Option Nat → Tally
  | none => tally
  | some serial =>
    if zone.action = .DELETE then
      if serial = 0 then
        { tally with noZones := tally.noZones + 1, positives := tally.positives + 1 }
      else tally
    else if zone.serial ≤ serial then
      { tally with
        positives := tally.positives + 1
        lowSerial := if tally.lowSerial = 0 ∨ serial < tally.lowSerial then serial
          else tally.lowSerial }
    else if serial = 0 then { tally with noZones := tally.noZones + 1 }
    else tally

/--
`parse_query_results`. The consensus serial is the lowest of those that confirm, the one every
confirming nameserver has reached.
-/
def parseQueryResults (results : Results) (zone : ZoneView) : DNSQueryResult :=
  let tally := results.foldl (Tally.count zone) {}
  ⟨tally.positives, tally.noZones, tally.lowSerial, results⟩

section

variable (threshold : ℚ) (zone : ZoneView) (polls : Nat → Results)

/--
`_do_poll` from round `n` on, with `left` more rounds to go: what was answered in each round,
and what the last round came to.
-/
def doPoll (n : Nat) :
    Nat → List Results × Option DNSQueryResult → List Results × Option DNSQueryResult
  | 0, polled => polled
  | left + 1, (rounds, _) =>
    let queryResult := parseQueryResults (polls n) zone
    if compareThreshold threshold queryResult.positives (polls n).length then
      (rounds ++ [polls n], some queryResult)
    else doPoll (n + 1) left (rounds ++ [polls n], some queryResult)

/--
`_threshold_met`: the status, and whether it is one of success. The zones that are missing are
asked for first: `total - noZones` is compared, so a nameserver that does not answer counts as
one that has the zone.
-/
def thresholdMet (queryResult : DNSQueryResult) : Bool × Status :=
  let total := queryResult.results.length
  let overNoZoneThreshold := compareThreshold threshold (total - queryResult.noZones) total
  if !overNoZoneThreshold && zone.action != .DELETE then (false, .NO_ZONE)
  else if !compareThreshold threshold queryResult.positives total then (false, .ERROR)
  else (true, .SUCCESS)

/--
`_on_success`. The serial that is reported is what was seen, which may be above the one that was
asked for.
-/
def onSuccess (queryResult : DNSQueryResult) (status : Status) : ZoneView :=
  { zone with status := status, serial := queryResult.consensusSerial }

/-- `_on_failure`. A zone that is missing is to be created again, whatever was being done to it. -/
def onFailure (errorStatus : Status) : ZoneView :=
  { zone with status := errorStatus
              action := if errorStatus = .NO_ZONE then .CREATE else zone.action }

/-- A poll that has come to its end: the rounds, and the zone as `UpdateStatus` sends it. -/
structure Outcome where
  rounds : List Results
  zone : ZoneView
  success : Bool
  deriving DecidableEq, Repr

/-- `ZonePoller.__call__`. Without any round the results are a number, which has no length. -/
def call (maxRetries : Nat) : Except Exc Outcome :=
  match doPoll threshold zone polls 0 maxRetries ([], none) with
  | (_, none) => .error .TypeError
  | (rounds, some queryResult) =>
    let (success, status) := thresholdMet threshold zone queryResult
    .ok ⟨rounds, if success then onSuccess zone queryResult status else onFailure zone status,
      success⟩

end

/-! ## What a round says -/

/-- A nameserver confirms the change. -/
def confirms (zone : ZoneView) : Option Nat → Bool
  | none => false
  | some serial => if zone.action = .DELETE then serial = 0 else zone.serial ≤ serial

/-- Enough nameservers confirm the change. -/
def Confirmed (threshold : ℚ) (zone : ZoneView) (results : Results) : Prop :=
  threshold ≤ percentage (results.countP (confirms zone)) results.length

instance (threshold : ℚ) (zone : ZoneView) (results : Results) :
    Decidable (Confirmed threshold zone results) :=
  inferInstanceAs (Decidable (_ ≤ _))

/-- The serials that confirm a change. -/
def confirming (zone : ZoneView) (results : Results) : Set Nat :=
  {serial | some serial ∈ results ∧ zone.serial ≤ serial}

/--
Too many nameservers do not have the zone. The complement of the comparison in `thresholdMet`: so
few are left that the threshold is out of reach.
-/
def Missing (threshold : ℚ) (results : Results) : Prop :=
  100 - threshold < percentage (results.countP (· == some 0)) results.length

end ZonePoller

end Designate
