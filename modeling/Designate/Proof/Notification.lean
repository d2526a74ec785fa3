import Designate.Central.Notification
import Mathlib.Data.List.Palindrome

/-!
# What the notifier gets, and in which order

While a call is under way the calls inside it only put notices into the queue, one in
front of the other: behind them the queue is what it was, with what they completed in
front of it, back to front. The outermost call sends this queue from its left end on. So
everything gets through exactly once, and everything gets through back to front.
-/

namespace Designate

namespace Notification

open Exec

variable {κ π : Type}

/-- No call is under way, and nothing waits to be sent. -/
def Thread.Idle (s : Thread κ π) : Prop := s.buffer = none ∨ s.buffer = some ⟨0, []⟩

theorem Thread.Idle.loaded {s : Thread κ π} (h : s.Idle) : s.loaded = ⟨0, []⟩ := by
  unfold Thread.loaded
  rcases h with h | h <;> rw [h] <;> rfl

theorem loaded_some (b : Buffer κ π) (sent : List (Notice κ π)) :
    (⟨some b, sent⟩ : Thread κ π).loaded = b := rfl

/-- Payloads are put in front of the queue one by one: the last of them comes first. -/
theorem enqueue_queue (context : Option κ) (type : String) (payloads : List π)
    (queue : List (Notice κ π)) :
    payloads.foldl (fun queue payload => ⟨context, type, payload⟩ :: queue) queue =
      (payloads.map fun payload => ⟨context, type, payload⟩).reverse ++ queue := by
  induction payloads generalizing queue with
  | nil => rfl
  | cons payload payloads ih =>
    rw [List.foldl_cons, ih, List.map_cons, List.reverse_cons, List.append_assoc]
    rfl

/-- The `finally` block of a call inside another one only counts down. -/
theorem leave_nested (n : Nat) (queue sent : List (Notice κ π)) :
    (⟨some ⟨n + 2, queue⟩, sent⟩ : Thread κ π).leave = ⟨some ⟨n + 1, queue⟩, sent⟩ := by
  unfold Thread.leave
  rw [loaded_some]
  exact if_neg (by simp)

/-- The `finally` block of an outermost call sends the queue. -/
theorem leave_outermost (queue sent : List (Notice κ π)) :
    (⟨some ⟨1, queue⟩, sent⟩ : Thread κ π).leave = ⟨some ⟨0, []⟩, sent ++ queue⟩ := rfl

/-- The queue behind a body that began with `queue` and what it makes of its result. -/
theorem notification_snd (type : String) (context : Option κ) {body : Calls κ π}
    (result : Option (List π)) {s inside : Thread κ π} (h : body.run s.enter = inside) :
    (notification type context id
        (do Exec.modify body.run; finish result : Exec (Thread κ π) Unit (List π)) s).2 =
      (inside.enqueue context type (result.getD [])).leave := by
  subst h
  unfold notification
  cases result with
  | some payloads => rfl
  | none =>
    -- a body that raises queues nothing, but the `finally` block runs all the same
    show (body.run s.enter).leave = ((body.run s.enter).enqueue context type []).leave
    cases hb : (body.run s.enter).buffer with
    | none =>
      unfold Thread.leave Thread.enqueue Thread.loaded
      simp [hb]
    | some b =>
      unfold Thread.leave Thread.enqueue Thread.loaded
      simp [hb]

/--
**Below a call that is under way, calls only add to the left end of the queue.** By
induction on the tree, over all heights of the stack.
-/
theorem run_nested (calls : Calls κ π) (n : Nat) (queue sent : List (Notice κ π)) :
    calls.run ⟨some ⟨n + 1, queue⟩, sent⟩ =
      ⟨some ⟨n + 1, calls.completed.reverse ++ queue⟩, sent⟩ := by
  induction calls generalizing n queue with
  | nil => rfl
  | call type context body result next ihb ihn =>
    have hbody := ihb (n + 1) queue
    have hstep := notification_snd type context result
      (s := ⟨some ⟨n + 1, queue⟩, sent⟩) hbody
    -- the call itself is not the outermost one, so nothing is sent at its end
    have hleave : ((⟨some ⟨n + 1 + 1, body.completed.reverse ++ queue⟩, sent⟩ :
        Thread κ π).enqueue context type (result.getD [])).leave =
        ⟨some ⟨n + 1, ((result.getD []).map fun payload => ⟨context, type, payload⟩).reverse ++
          (body.completed.reverse ++ queue)⟩, sent⟩ := by
      unfold Thread.enqueue
      simp only [loaded_some, enqueue_queue]
      exact leave_nested n _ sent
    rw [hleave] at hstep
    rw [Calls.run, hstep, ihn]
    simp only [Calls.completed, List.reverse_append, List.append_assoc]

/-- **The outermost call sends all that was completed inside it, the last first.** -/
theorem run_outermost (type : String) (context : Option κ) (body : Calls κ π)
    (result : Option (List π)) {s : Thread κ π} (hs : s.Idle) :
    (Calls.call type context body result .nil).run s =
      ⟨some ⟨0, []⟩, s.sent ++ (Calls.call type context body result .nil).completed.reverse⟩ := by
  have henter : s.enter = ⟨some ⟨0 + 1, []⟩, s.sent⟩ := by
    unfold Thread.enter
    rw [hs.loaded]
  have hbody : body.run s.enter = ⟨some ⟨0 + 1, body.completed.reverse ++ []⟩, s.sent⟩ := by
    rw [henter]
    exact run_nested body 0 [] s.sent
  have hstep := notification_snd type context result hbody
  have hleave : ((⟨some ⟨0 + 1, body.completed.reverse ++ []⟩, s.sent⟩ :
      Thread κ π).enqueue context type (result.getD [])).leave =
      ⟨some ⟨0, []⟩, s.sent ++ (((result.getD []).map fun payload =>
        ⟨context, type, payload⟩).reverse ++ (body.completed.reverse ++ []))⟩ := by
    unfold Thread.enqueue
    simp only [loaded_some, enqueue_queue]
    exact leave_outermost _ s.sent
  rw [hleave] at hstep
  rw [Calls.run, hstep, Calls.run]
  simp only [Calls.completed, List.reverse_append, List.append_nil]

/-- A thread that has finished its calls is idle again. By induction on the calls. -/
theorem run_idle (calls : Calls κ π) {s : Thread κ π} (hs : s.Idle) : (calls.run s).Idle := by
  induction calls generalizing s with
  | nil => exact hs
  | call type context body result next _ ihn =>
    have hfirst := run_outermost type context body result hs
    rw [Calls.run, Calls.run] at hfirst
    rw [Calls.run, hfirst]
    exact ihn (Or.inr rfl)

/-! ## Exactly once -/

/--
**An outermost call gives the notifier every notice of every call inside it that
returned, and of itself if it returned, exactly once, and nothing else.** Whatever calls
the thread made before; behind it the queue is empty and the counter at zero.
-/
theorem outermost_notifies (earlier : Calls κ π) (type : String) (context : Option κ)
    (body : Calls κ π) (result : Option (List π)) :
    let s := earlier.run {}
    let s' := (Calls.call type context body result .nil).run s
    s'.buffer = some ⟨0, []⟩ ∧
      ∃ news, s'.sent = s.sent ++ news ∧
        news.Perm (Calls.call type context body result .nil).completed := by
  intro s s'
  have hs : s.Idle := run_idle earlier (Or.inl rfl)
  have hrun : s' = _ := run_outermost type context body result hs
  rw [hrun]
  exact ⟨rfl, _, rfl, List.reverse_perm _⟩

/-! ## In which order -/

/--
**The notices of an outermost call are sent newest first.** Whatever calls are inside it
and whatever the thread called before, the queue goes out in the reverse of the order in
which it was filled, and so in that order exactly if it reads the same from both ends.
-/
theorem outermost_newest_first (earlier : Calls κ π) (type : String) (context : Option κ)
    (body : Calls κ π) (result : Option (List π)) :
    let s := earlier.run {}
    let call := Calls.call type context body result .nil
    (call.run s).sent = s.sent ++ call.completed.reverse ∧
      ((call.run s).sent = s.sent ++ call.completed ↔ call.completed.Palindrome) := by
  intro s call
  have hs : s.Idle := run_idle earlier (Or.inl rfl)
  have hrun : call.run s = _ := run_outermost type context body result hs
  refine ⟨by rw [hrun], ?_⟩
  rw [hrun, List.append_cancel_left_eq]
  constructor
  · intro h
    exact List.Palindrome.of_reverse_eq h
  · intro h
    exact h.reverse_eq

/-- `create_zone` has two decorators: what the inner one queued first is sent last. -/
theorem created_zone_out_of_order :
    let call : Calls Nat String :=
      .call "dns.domain.create" (some 1)
        (.call "dns.zone.create" (some 1) .nil (some ["example.com."]) .nil)
        (some ["example.com."]) .nil
    call.completed = [⟨some 1, "dns.zone.create", "example.com."⟩,
        ⟨some 1, "dns.domain.create", "example.com."⟩] ∧
      (call.run {}).sent = [⟨some 1, "dns.domain.create", "example.com."⟩,
        ⟨some 1, "dns.zone.create", "example.com."⟩] ∧
      ¬ ((call.run {}).sent = call.completed) := by
  decide

end Notification

end Designate
