import Designate.PoolManager.Consensus

/-!
# How the mini DNS polls a nameserver

A nameserver is asked for the SOA of a zone until it serves the expected serial or the retries
are used up. A send that gets lost is made again, and every send counts as a retry. An answer
that there is no such zone is the end of a poll if that is what was expected of a zone that is
to be deleted, and its expected serial is 0; otherwise it is remembered, and the poll goes on.

What has been received, and how many messages were sent for it, is kept for what is said
about a poll.
-/

namespace Designate

namespace Notify

open PoolManager

inductive Rcode where
  | NOERROR | NXDOMAIN | REFUSED | SERVFAIL
  | other (n : Nat)
  deriving DecidableEq, Repr

/-- A record set of an answer; one of SOA records has the serial of its first. -/
structure RRset where
  name : String
  isIN : Bool
  soa : Option Nat
  deriving DecidableEq, Repr

structure Response where
  rcode : Rcode
  authoritative : Bool
  answer : List RRset
  deriving DecidableEq, Repr

/-- The response code is one of a server that does not have the zone. -/
def Response.refuses (r : Response) : Bool :=
  r.rcode == .NXDOMAIN || r.rcode == .REFUSED || r.rcode == .SERVFAIL

/-- The nameserver answers that it does not have the zone. -/
def Response.noZone (r : Response) : Bool :=
  r.refuses || r.rcode == .NOERROR && r.answer.isEmpty

/-- What `get_serial_number` takes for an answer that there is no zone. -/
def Response.misses (r : Response) : Bool := r.refuses || r.answer.isEmpty

/-- The response is one `_make_and_send_dns_message` hands on. -/
def Response.expected (r : Response) : Bool :=
  r.noZone || r.authoritative && r.rcode == .NOERROR

/-- The serial of the SOA of the zone that the nameserver answers with. -/
def Response.serial (zoneName : String) (r : Response) : Option Nat :=
  if r.misses || !r.expected then none
  else
    match r.answer with
    | [rrset] => if rrset.name = zoneName ∧ rrset.isIN then rrset.soa else none
    | _ => none

/-- What comes of one send. -/
inductive Sent where
  | response (r : Response)
  | again | timeout | badResponse
  /-- A socket error other than `EAGAIN`. -/
  | raised
  deriving DecidableEq, Repr

/-- What will come of the sends, after which they time out, and what has been received. -/
structure Wire where
  sends : List Sent
  received : List Response := []
  /-- How many messages have been sent. -/
  messages : Nat := 0
  deriving DecidableEq, Repr

/-- `_send_dns_message`. -/
def sendDnsMessage : Exec Wire Fault Sent := fun w =>
  match w.sends with
  | [] => (.ok .timeout, { w with messages := w.messages + 1 })
  | .response r :: sends => (.ok (.response r), ⟨sends, w.received ++ [r], w.messages + 1⟩)
  | sent :: sends => (.ok sent, { w with sends, messages := w.messages + 1 })

/-- A socket error that a send does not retry. -/
def socketError : Fault := .other "socket.error"

/-- The loop of `_make_and_send_dns_message`, with the number of retries it has made. -/
def sendUntil : Nat → Exec Wire Fault (Option Response × Nat)
  | 0 => pure (none, 0)
  | left + 1 => do
    let sent ← sendDnsMessage
    match sent with
    | .response r => pure (some r, 1)
    | .badResponse => pure (none, 1)
    | .raised => Exec.raise socketError
    | _ =>
      let (response, retry) ← sendUntil left
      pure (response, retry + 1)

/-- `_make_and_send_dns_message`. -/
def makeAndSendDnsMessage (maxRetries : Nat) : Exec Wire Fault (Option Response × Nat) := do
  let (response, retry) ← sendUntil maxRetries
  pure (response.filter Response.expected, retry)

/-- The zone is one that is expected to be gone. -/
def expectedGone (zone : ZoneView) : Bool :=
  zone.serial == 0 && (zone.action == .DELETE || zone.action == .NONE)

/-- What a response makes of the status and the actual serial. -/
def noted (zoneName : String) (zone : ZoneView) (response : Option Response) (status : Status)
    (actualSerial : Option Nat) : Status × Option Nat :=
  match response with
  | none => (status, actualSerial)
  | some r =>
    if r.misses then
      (.NO_ZONE, if expectedGone zone then some 0 else actualSerial)
    else (status, ((r.serial zoneName).map some).getD actualSerial)

/--
The loop of `get_serial_number`, with the retries that are left. It is cut off after so many
rounds, and no poll has as many.
-/
def pollUntil (zoneName : String) (zone : ZoneView) :
    Nat → Int → Status → Option Nat → Exec Wire Fault (Status × Option Nat × Int)
  | 0, _, _, _ => Exec.raise (.other "cut off")
  | rounds + 1, left, status, actualSerial => do
    let (response, retry) ← makeAndSendDnsMessage left.toNat
    let (status, actualSerial) := noted zoneName zone response status actualSerial
    if response.any Response.misses && expectedGone zone then
      pure (status, actualSerial, left)
    else if actualSerial.any fun s => decide (zone.serial ≤ s) then
      pure (.SUCCESS, actualSerial, left)
    else if left - retry = 0 then pure (status, actualSerial, left - retry)
    else pollUntil zoneName zone rounds (left - retry) status actualSerial

/-- `get_serial_number`. -/
def getSerialNumber (zoneName : String) (zone : ZoneView) (maxRetries : Nat) :
    Exec Wire Fault (Status × Option Nat × Int) :=
  pollUntil zoneName zone (maxRetries + 1) maxRetries .ERROR none

/-- A nameserver that still has serial 5, and then refuses: the zone is missing, with a serial. -/
example :
    (getSerialNumber "example.org." ⟨"zone", 7, .UPDATE, .PENDING⟩ 2
      { sends := [.response ⟨.NOERROR, true, [⟨"example.org.", true, some 5⟩]⟩,
          .response ⟨.REFUSED, false, []⟩] }).1 = .ok (.NO_ZONE, some 5, 0) := by
  decide

end Notify

end Designate
