import Designate.Mdns.Notify

/-!
# What a poll finds

A poll sends no more messages than it has retries, and its outcome is that of everything it
has received. An SOA with the expected serial is success, whatever was received before it. If
there is none, one answer that there is no such zone is enough for the zone to be missing: the
SOAs received before and after do not count, not even the last of the answers.
-/

namespace Designate

namespace Notify

open PoolManager

variable {zoneName : String} {zone : ZoneView}

/-! ## Sends -/

/-- What has become of a wire after so many messages, of which the last may have been answered. -/
structure Sends (w w' : Wire) (messages : Nat) (response : Option Response) : Prop where
  messages : w'.messages = w.messages + messages
  received : w'.received = w.received ++ response.toList
  answered : ∀ r, response = some r → .response r ∈ w.sends
  sends : w'.sends ⊆ w.sends

theorem Sends.trans {w w' w'' : Wire} {n n' : Nat} {response : Option Response}
    (h : Sends w w' n none) (h' : Sends w' w'' n' response) : Sends w w'' (n' + n) response where
  messages := by rw [h'.messages, h.messages]; omega
  received := by rw [h'.received, h.received, Option.toList_none, List.append_nil]
  answered r hr := h.sends (h'.answered r hr)
  sends := List.Subset.trans h'.sends h.sends

theorem sendDnsMessage_run (w : Wire) :
    ∃ sent w', sendDnsMessage w = (.ok sent, w') ∧ (sent = .timeout ∨ sent ∈ w.sends) ∧
      ((∃ r, sent = .response r ∧ Sends w w' 1 (some r)) ∨
        (∀ r, sent ≠ .response r) ∧ Sends w w' 1 none) := by
  unfold sendDnsMessage
  split
  · exact ⟨_, _, rfl, .inl rfl, .inr ⟨by simp, rfl, by simp, by simp, List.Subset.refl _⟩⟩
  · next r sends heq =>
    have hmem : Sent.response r ∈ w.sends := by simp [heq]
    refine ⟨_, _, rfl, .inr hmem, .inl ⟨r, rfl, rfl, rfl, ?_, ?_⟩⟩
    · intro r' hr'
      cases hr'
      exact hmem
    · rw [heq]
      exact List.subset_cons_self _ _
  · next sent sends hother heq =>
    have hmem : sent ∈ w.sends := by simp [heq]
    refine ⟨_, _, rfl, .inr hmem, .inr ⟨hother, rfl, by simp, by simp, ?_⟩⟩
    rw [heq]
    exact List.subset_cons_self _ _

/-- What sending comes to that uses up so many retries at most, and one at least if it may. -/
def Fits (left : Nat) (w : Wire) : Except Fault (Option Response × Nat) × Wire → Prop
  | (.error e, w') => e = socketError ∧ .raised ∈ w.sends ∧ ∃ n ≤ left, Sends w w' n none
  | (.ok (response, retry), w') =>
    retry ≤ left ∧ (left ≠ 0 → retry ≠ 0) ∧ Sends w w' retry response

/-- A message that has to be sent once more. -/
theorem fits_again {left : Nat} {w w₁ : Wire} (hsend : Sends w w₁ 1 none)
    (h : Fits left w₁ (sendUntil left w₁)) :
    Fits (left + 1) w ((do
      let (response, retry) ← sendUntil left
      pure (response, retry + 1) : Exec Wire Fault (Option Response × Nat)) w₁) := by
  rw [Exec.bind_apply]
  cases hrun : sendUntil left w₁ with
  | mk result w₂ =>
    rw [hrun] at h
    cases result with
    | error e =>
      obtain ⟨he, hraised, n, hn, hsends⟩ := h
      exact ⟨he, hsend.sends hraised, n + 1, by omega, hsend.trans hsends⟩
    | ok answer =>
      obtain ⟨hle, _, hsends⟩ := h
      exact ⟨Nat.succ_le_succ hle, fun _ => Nat.succ_ne_zero _, hsend.trans hsends⟩

/-- **A message is sent until it is answered**, as often as it may be. By induction on that. -/
theorem sendUntil_run (left : Nat) : ∀ w : Wire, Fits left w (sendUntil left w) := by
  induction left with
  | zero =>
    intro w
    exact ⟨Nat.le_refl _, fun h => absurd rfl h, rfl, by simp, by simp, List.Subset.refl _⟩
  | succ left ih =>
    intro w
    obtain ⟨sent, w₁, hsend, hfrom, hsends⟩ := sendDnsMessage_run w
    unfold sendUntil
    rw [Exec.bind_ok hsend]
    rcases hsends with ⟨r, rfl, hsends⟩ | ⟨hnone, hsends⟩
    · exact ⟨by omega, fun _ => by omega, hsends⟩
    · cases sent with
      | response r => exact absurd rfl (hnone r)
      | badResponse => exact ⟨by omega, fun _ => by omega, hsends⟩
      | raised => exact ⟨rfl, hfrom.resolve_left (by simp), 1, by omega, hsends⟩
      | again => exact fits_again hsends (ih w₁)
      | timeout => exact fits_again hsends (ih w₁)

theorem makeAndSendDnsMessage_run (left : Nat) (w : Wire) :
    (∃ w', makeAndSendDnsMessage left w = (.error socketError, w') ∧ .raised ∈ w.sends ∧
      ∃ n ≤ left, Sends w w' n none) ∨
    ∃ response retry w', makeAndSendDnsMessage left w =
        (.ok (response.filter Response.expected, retry), w') ∧ retry ≤ left ∧
      (left ≠ 0 → retry ≠ 0) ∧ Sends w w' retry response := by
  have h := sendUntil_run left w
  cases hrun : sendUntil left w with
  | mk result w' =>
    rw [hrun] at h
    cases result with
    | error e =>
      obtain ⟨rfl, h⟩ := h
      exact .inl ⟨w', Exec.bind_error hrun, h⟩
    | ok answer => exact .inr ⟨answer.1, answer.2, w', Exec.bind_ok hrun, h⟩

/-! ## Answers -/

/-- Of what is handed on, only an answer that there is no zone is taken for one. -/
theorem Response.misses_iff {r : Response} (hexpected : r.expected = true) :
    r.misses = r.noZone := by
  unfold Response.expected at hexpected
  unfold Response.misses
  unfold Response.noZone at hexpected ⊢
  cases hrefuses : r.refuses
  · cases hcode : r.rcode == .NOERROR
    · simp [hrefuses, hcode] at hexpected
    · simp
  · rfl

/-- The response is the SOA of the zone, with this serial or a later one. -/
def reaches (zoneName : String) (serial : Nat) (r : Response) : Bool :=
  (r.serial zoneName).any fun s => decide (serial ≤ s)

/-- What everything that was received says of a zone. -/
def verdict (zoneName : String) (serial : Nat) (received : List Response) : Status :=
  if received.any (reaches zoneName serial) then .SUCCESS
  else if received.any Response.noZone then .NO_ZONE
  else .ERROR

/-- A response that was not expected is none that counts. -/
theorem Response.silent {r : Response} (h : r.expected = false) :
    r.serial zoneName = none ∧ r.noZone = false := by
  refine ⟨by simp [Response.serial, h], ?_⟩
  unfold Response.expected at h
  exact (Bool.or_eq_false_iff.mp h).1

/-- An actual serial other than 0 is that of an SOA. -/
def Founded (zoneName : String) (actualSerial : Option Nat) (received : List Response) : Prop :=
  ∀ s, actualSerial = some s → 0 < s → ∃ r ∈ received, r.serial zoneName = some s

/-- A poll that is not over: no SOA has had the serial, nor has the serial that is kept. -/
structure Pending (zoneName : String) (serial : Nat) (status : Status)
    (actualSerial : Option Nat) (received : List Response) : Prop where
  none_reaches : received.any (reaches zoneName serial) = false
  status : status = if received.any Response.noZone then .NO_ZONE else .ERROR
  actual : actualSerial.any (fun s => decide (serial ≤ s)) = false
  founded : Founded zoneName actualSerial received

theorem Pending.verdict {serial : Nat} {status : Status} {actualSerial : Option Nat}
    {received : List Response} (h : Pending zoneName serial status actualSerial received) :
    status = verdict zoneName serial received := by
  unfold Notify.verdict
  rw [h.none_reaches, h.status]
  rfl

/-! ## Polls -/

theorem Founded.mono {actualSerial : Option Nat} {received received' : List Response}
    (h : Founded zoneName actualSerial received) (hle : received ⊆ received') :
    Founded zoneName actualSerial received' := by
  intro s hs hpos
  obtain ⟨r, hr, hserial⟩ := h s hs hpos
  exact ⟨r, hle hr, hserial⟩

/-- A response that says nothing of the zone changes nothing. -/
theorem Pending.append {serial : Nat} {status : Status} {actualSerial : Option Nat}
    {received : List Response} {r : Response}
    (h : Pending zoneName serial status actualSerial received)
    (hserial : r.serial zoneName = none) (hzone : r.noZone = false) :
    Pending zoneName serial status actualSerial (received ++ [r]) where
  none_reaches := by simp [h.none_reaches, reaches, hserial]
  status := by simp [h.status, hzone]
  actual := h.actual
  founded := h.founded.mono (List.subset_append_left _ _)

/-- The response is one at which a poll of a zone that is to be gone ends. -/
def ends (zone : ZoneView) (response : Option Response) : Bool :=
  response.any Response.misses && expectedGone zone

/-- One more response to a poll that is not over ends it rightly, or leaves it to go on. -/
theorem Pending.noted {status : Status} {actualSerial : Option Nat} {received : List Response}
    (h : Pending zoneName zone.serial status actualSerial received) (response : Option Response)
    {received' : List Response} (hreceived : received' = received ++ response.toList)
    {expected : Option Response} (hexp : expected = response.filter Response.expected)
    {now : Status × Option Nat} (hnow : now = noted zoneName zone expected status actualSerial) :
    ends zone expected = true ∧ now.1 = Notify.verdict zoneName zone.serial received' ∧
        Founded zoneName now.2 received' ∨
      ends zone expected = false ∧ now.2.any (fun s => decide (zone.serial ≤ s)) = true ∧
        .SUCCESS = Notify.verdict zoneName zone.serial received' ∧
        Founded zoneName now.2 received' ∨
      ends zone expected = false ∧ Pending zoneName zone.serial now.1 now.2 received' := by
  subst hreceived hnow
  cases response with
  -- no answer: nothing is learnt, and the poll goes on with what it has
  | none =>
    subst hexp
    exact .inr (.inr ⟨rfl, by simpa [Notify.noted] using h⟩)
  | some r =>
    rw [Option.toList_some]
    cases hexpected : r.expected with
    | false =>
      obtain ⟨hserial, hzone⟩ := r.silent hexpected
      obtain rfl : expected = none := by simp [hexp, Option.filter, hexpected]
      exact .inr (.inr ⟨rfl, h.append hserial hzone⟩)
    | true =>
      obtain rfl : expected = some r := by simp [hexp, Option.filter, hexpected]
      unfold Notify.noted ends
      dsimp only [Option.any_some]
      -- an answer that misses the zone ends the poll only if the zone is expected to be gone
      cases hmisses : r.misses with
      | true =>
        have hserial : r.serial zoneName = none := by simp [Response.serial, hmisses]
        have hzone : r.noZone = true := (r.misses_iff hexpected).symm.trans hmisses
        have hnone : (received ++ [r]).any (reaches zoneName zone.serial) = false := by
          simp [h.none_reaches, reaches, hserial]
        cases hgone : expectedGone zone with
        | true =>
          refine .inl ⟨rfl, by simp [Notify.verdict, hnone, hzone], ?_⟩
          intro s hs hpos
          cases hs
          omega
        | false =>
          refine .inr (.inr ⟨rfl, hnone, by simp [hzone], h.actual, ?_⟩)
          exact h.founded.mono (List.subset_append_left _ _)
      | false =>
        have hzone : r.noZone = false := (r.misses_iff hexpected).symm.trans hmisses
        cases hserial : r.serial zoneName with
        | none => exact .inr (.inr ⟨rfl, h.append hserial hzone⟩)
        | some s =>
          have hfounded : Founded zoneName (some s) (received ++ [r]) := by
            intro s' hs' _
            cases hs'
            exact ⟨r, List.mem_append_right _ List.mem_cons_self, hserial⟩
          -- a serial that is high enough ends it, a lower one is kept for the next round
          by_cases hle : zone.serial ≤ s
          · refine .inr (.inl ⟨rfl, by simpa using hle, ?_, hfounded⟩)
            simp [Notify.verdict, reaches, hserial, hle]
          · refine .inr (.inr ⟨rfl, ?_, ?_, by simpa using hle, hfounded⟩)
            · simp [h.none_reaches, reaches, hserial, hle]
            · simpa [hzone] using h.status

/-- What a poll has come to that had so many retries. -/
structure Outcome (zoneName : String) (serial left : Nat) (w : Wire)
    (result : Except Fault (Status × Option Nat × Int)) (w' : Wire) : Prop where
  messages : w'.messages ≤ w.messages + left
  received : ∀ r ∈ w'.received, r ∈ w.received ∨ .response r ∈ w.sends
  result : result = .error socketError ∧ .raised ∈ w.sends ∨
    ∃ actualSerial left', 0 ≤ left' ∧ Founded zoneName actualSerial w'.received ∧
      result = .ok (verdict zoneName serial w'.received, actualSerial, left')

/-- A poll that is over. -/
theorem Outcome.over {serial left : Nat} {w : Wire} {status : Status} {actualSerial : Option Nat}
    {left' : Int} (hstatus : status = verdict zoneName serial w.received)
    (hfounded : Founded zoneName actualSerial w.received) (hleft : 0 ≤ left') :
    Outcome zoneName serial left w (.ok (status, actualSerial, left')) w where
  messages := Nat.le_add_right _ _
  received _ hr := .inl hr
  result := .inr ⟨actualSerial, left', hleft, hfounded, by rw [hstatus]⟩

/-- A poll that goes on with fewer retries, after so many messages. -/
theorem Outcome.later {serial left n : Nat} {w w₁ w' : Wire} {response : Option Response}
    {result : Except Fault (Status × Option Nat × Int)} (hle : n ≤ left)
    (hsends : Sends w w₁ n response) (h : Outcome zoneName serial (left - n) w₁ result w') :
    Outcome zoneName serial left w result w' where
  messages := by
    have hfirst := hsends.messages
    have hthen := h.messages
    omega
  received r hr := by
    rcases h.received r hr with hr | hr
    · rw [hsends.received] at hr
      rcases List.mem_append.mp hr with hr | hr
      · exact .inl hr
      · exact .inr (hsends.answered r (Option.mem_toList.mp hr))
    · exact .inr (hsends.sends hr)
  result := h.result.imp_left fun h => ⟨h.1, hsends.sends h.2⟩

/--
**A poll that is not over comes to what it has received in the end.** By induction on the
rounds, of which there are more than retries.
-/
theorem pollUntil_run {rounds : Nat} :
    ∀ {left : Nat} {status : Status} {actualSerial : Option Nat} {w w' : Wire}
      {result : Except Fault (Status × Option Nat × Int)}, left < rounds →
      Pending zoneName zone.serial status actualSerial w.received →
      pollUntil zoneName zone rounds left status actualSerial w = (result, w') →
      Outcome zoneName zone.serial left w result w' := by
  induction rounds with
  | zero => intro left status actualSerial w w' result hleft; omega
  | succ rounds ih =>
    intro left status actualSerial w w' result hleft hpending hrun
    unfold pollUntil at hrun
    rw [Int.toNat_natCast] at hrun
    -- the message raises, which ends the call, or leaves `retry` of the retries used
    rcases makeAndSendDnsMessage_run left w with
      ⟨w₁, hsend, hraised, n, hn, hsends⟩ | ⟨response, retry, w₁, hsend, hretry, hpos, hsends⟩
    · rw [Exec.bind_error hsend] at hrun
      cases hrun
      refine ⟨by rw [hsends.messages]; omega, ?_, .inl ⟨rfl, hraised⟩⟩
      intro r hr
      rw [hsends.received, Option.toList_none, List.append_nil] at hr
      exact .inl hr
    · rw [Exec.bind_ok hsend] at hrun
      refine Outcome.later hretry hsends ?_
      have hnoted := hpending.noted response hsends.received rfl rfl
      dsimp only at hrun
      rw [← ends] at hrun
      generalize response.filter Response.expected = expected at hnoted hrun
      generalize noted zoneName zone expected status actualSerial = now at hnoted hrun
      rcases hnoted with ⟨hends, hverdict, hfounded⟩ | ⟨hends, hserial, hverdict, hfounded⟩ |
        ⟨hends, hpending⟩
      · rw [if_pos hends] at hrun
        cases hrun
        exact .over hverdict hfounded (by omega)
      · rw [if_neg (by simp [hends]), if_pos hserial] at hrun
        cases hrun
        exact .over hverdict hfounded (by omega)
      · rw [if_neg (by simp [hends]), if_neg (by simp [hpending.actual])] at hrun
        -- the last retry: what is pending is the outcome
        by_cases hover : (left : Int) - retry = 0
        · rw [if_pos hover] at hrun
          cases hrun
          exact .over hpending.verdict hpending.founded (by omega)
        · rw [if_neg hover, ← Int.natCast_sub hretry] at hrun
          exact ih (by omega) hpending hrun

/--
**A poll ends, after no more messages than it may send.** It is a success if an SOA had the
serial, and otherwise the zone is missing if an answer, were it the first, said so.
-/
theorem getSerialNumber_outcome (zoneName : String) (zone : ZoneView) (maxRetries : Nat)
    (sends : List Sent) :
    Outcome zoneName zone.serial maxRetries { sends }
      (getSerialNumber zoneName zone maxRetries { sends }).1
      (getSerialNumber zoneName zone maxRetries { sends }).2 :=
  pollUntil_run (Nat.lt_succ_self _) ⟨rfl, rfl, rfl, fun s hs => absurd hs (by simp)⟩ rfl

/-- A nameserver that denies the zone and then serves it: the last answer does not count. -/
theorem missing_before_last :
    let poll := getSerialNumber "example.org." ⟨"zone", 7, .UPDATE, .PENDING⟩ 2
      { sends := [.response ⟨.NXDOMAIN, false, []⟩,
          .response ⟨.NOERROR, true, [⟨"example.org.", true, some 5⟩]⟩] }
    poll.1 = .ok (.NO_ZONE, some 5, 0) ∧
      poll.2.received.getLast?.map Response.noZone = some false := by
  decide

/-! ## What is received -/

/-- **A poll receives only what the nameserver sends back.** -/
theorem received_sent {maxRetries : Nat} {sends : List Sent} {r : Response}
    (h : r ∈ (getSerialNumber zoneName zone maxRetries { sends }).2.received) :
    .response r ∈ sends :=
  ((getSerialNumber_outcome zoneName zone maxRetries sends).received r h).resolve_left
    List.not_mem_nil

/-- **What a poll reports rests on what it received**, the status as well as the serial. -/
theorem getSerialNumber_founded {maxRetries : Nat} {sends : List Sent} {status : Status}
    {actualSerial : Option Nat} {left : Int} {w : Wire}
    (h : getSerialNumber zoneName zone maxRetries { sends } =
      (.ok (status, actualSerial, left), w)) :
    status = verdict zoneName zone.serial w.received ∧
      Founded zoneName actualSerial w.received := by
  have houtcome := (getSerialNumber_outcome zoneName zone maxRetries sends).result
  rw [h] at houtcome
  rcases houtcome with ⟨hraised, _⟩ | ⟨_, _, _, hfounded, hresult⟩
  · cases hraised
  · simp only [Except.ok.injEq, Prod.mk.injEq] at hresult
    obtain ⟨rfl, rfl, rfl⟩ := hresult
    exact ⟨rfl, hfounded⟩

/-- A zone is missing only if an answer has said so. -/
theorem exists_noZone_of_verdict {serial : Nat} {received : List Response}
    (h : verdict zoneName serial received = .NO_ZONE) : ∃ r ∈ received, r.noZone = true := by
  unfold verdict at h
  split at h
  · cases h
  · split at h
    · next hmissing => simpa using hmissing
    · cases h

/-- A success is that of an SOA. -/
theorem exists_reaches_of_verdict {serial : Nat} {received : List Response}
    (h : verdict zoneName serial received = .SUCCESS) :
    ∃ r ∈ received, reaches zoneName serial r = true := by
  unfold verdict at h
  split at h
  · next hreached => simpa using hreached
  · split at h
    · cases h
    · cases h

end Notify

end Designate
