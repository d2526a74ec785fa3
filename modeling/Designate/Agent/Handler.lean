import Designate.Agent.Gdnsd
import Designate.Run

/-!
# The agent, and the backend that talks to it

The agent backend of a pool manager has the agent create or delete a zone by a query with an
opcode of its own. It takes an authoritative answer without an error for success. The agent
fetches a zone by a transfer from one of its masters and hands it to its driver.

Queries and answers go by UDP. They get lost or come late, twice or in another order, and a
query can be anybody's. The agent works on many of them at once.
-/

namespace Designate

namespace Agent

/-! ## Messages -/

def NOTIFY : Nat := 4

/-- The private opcode, class and types. -/
def CC : Nat := 14

def CLASSCC : Nat := 65280

def CREATE : Nat := 65282

def DELETE : Nat := 65283

def NOERROR : Nat := 0

def SERVFAIL : Nat := 2

def REFUSED : Nat := 5

structure Question where
  name : String
  rdtype : Nat
  rdclass : Nat
  deriving DecidableEq, Repr

structure Message where
  id : Nat
  qr : Bool := false
  aa : Bool := false
  opcode : Nat
  rcode : Nat := NOERROR
  question : List Question
  deriving DecidableEq, Repr

structure Addr where
  host : String
  port : Nat
  deriving DecidableEq, Repr

/-- A query on its way, who says to have sent it, and when. -/
structure Packet where
  addr : Addr
  message : Message
  sent : Nat
  deriving DecidableEq, Repr

/-- `dns.message.make_response`; it raises where the query is none. -/
def makeResponse (query : Message) : Option Message :=
  if query.qr then none
  else some { id := query.id, qr := true, opcode := query.opcode, question := query.question }

/-- Two questions are the same; the case of a name does not matter. -/
def Question.same (q q' : Question) : Bool :=
  Gdnsd.lower q.name == Gdnsd.lower q'.name && q.rdtype == q'.rdtype && q.rdclass == q'.rdclass

/-- `is_response`. -/
def Message.isResponse (query response : Message) : Bool :=
  response.qr && query.id == response.id && query.opcode == response.opcode &&
    query.question.all (fun q => response.question.any q.same) &&
    response.question.all fun q => query.question.any q.same

/-! ## The agent -/

structure Options where
  masters : List Addr
  allowNotify : List String := []

/-- What a handler does, and the verb it is logged by. -/
inductive Verb where
  | CREATE | NOTIFY | DELETE
  deriving DecidableEq, Repr

/-- A change that a handler makes, or a reason to make none. -/
inductive What (ζ : Type) where
  /-- The zone is there already. -/
  | found
  /-- The zone is not there any more. -/
  | missing
  /-- The driver creates or updates a zone, transferred at this time from this master. -/
  | applied (verb : Verb) (master : Addr) (transferred : Nat) (zone : ζ) (ok : Bool)
  | deleted (ok : Bool)
  deriving DecidableEq, Repr

/-- How far a handler has got. -/
inductive Stage (ζ : Type) where
  | received
  | transferring (verb : Verb) (response : Message)
  | applying (verb : Verb) (response : Message) (master : Addr) (transferred : Nat) (zone : ζ)
  | deleting (response : Message)
  | done

/-- What becomes of a handler, what it has changed and what it answers. -/
structure Move (ζ : Type) where
  stage : Stage ζ := .done
  what : Option (What ζ) := none
  answer : Option Message := none

section

variable {ζ : Type}

/-- `_allowed`. -/
def Options.allowed (opts : Options) (requester : String) : Bool :=
  opts.allowNotify.isEmpty || opts.allowNotify.contains requester

/-- `__call__`: who handles a query; it is refused if nobody does. -/
def verb (opcode : Nat) (question : Question) : Option Verb :=
  if opcode = NOTIFY then some .NOTIFY
  else if opcode = CC then
    if question.rdclass = CLASSCC then
      if question.rdtype = CREATE then some .CREATE
      else if question.rdtype = DELETE then some .DELETE
      else none
    else none
  else none

/-- `_handle_create`, up to the transfer. -/
def handleCreate (response : Message) (serial : Option Nat) : Move ζ :=
  match serial with
  | some _ => { what := some .found, answer := some { response with aa := true } }
  | none => { stage := .transferring .CREATE response }

/-- `_handle_notify`, up to the transfer. -/
def handleNotify (response : Message) (serial : Option Nat) : Move ζ :=
  match serial with
  | some _ => { stage := .transferring .NOTIFY response }
  | none => { answer := some { response with rcode := REFUSED } }

/-- `_handle_delete`, up to the call of the driver; it is authoritative whatever comes of that. -/
def handleDelete (response : Message) (serial : Option Nat) : Move ζ :=
  match serial with
  | some _ => { stage := .deleting { response with aa := true } }
  | none => { what := some .missing, answer := some { response with aa := true } }

/--
`__call__`, up to where a handler waits. The driver's `find_zone_serial` has given `serial`. A
query without a question makes it raise, and so does one that is none.
-/
def handle (opts : Options) (packet : Packet) (serial : Option Nat) : Move ζ :=
  match packet.message.question, makeResponse packet.message with
  | question :: _, some response =>
    match verb packet.message.opcode question with
    | none => { answer := some { response with rcode := REFUSED } }
    | some verb =>
      if opts.allowed packet.addr.host then
        match verb with
        | .CREATE => handleCreate response serial
        | .NOTIFY => handleNotify response serial
        | .DELETE => handleDelete response serial
      else { answer := some { response with rcode := REFUSED } }
  | _, _ => {}

/-- `do_axfr`: the servers in the order they are tried in, and whether one can be reached. -/
def doAxfr (served : Addr → Option ζ) : List (Addr × Bool) → Option (Addr × ζ)
  | [] => none
  | (server, reached) :: servers =>
    if reached then
      match served server with
      | some zone => some (server, zone)
      | none => doAxfr served servers
    else doAxfr served servers

/-- The transfer of a creation or an update, at this time. -/
def transfer (served : Addr → Option ζ) (servers : List (Addr × Bool)) (now : Nat) (verb : Verb)
    (response : Message) : Move ζ :=
  match doAxfr served servers with
  | some (master, zone) => { stage := .applying verb response master now zone }
  | none => { answer := some { response with rcode := SERVFAIL } }

/-- The driver creates or updates a zone. -/
def apply (verb : Verb) (response : Message) (master : Addr) (transferred : Nat) (zone : ζ)
    (ok : Bool) : Move ζ where
  what := some (.applied verb master transferred zone ok)
  answer := some (if ok then { response with aa := true } else { response with rcode := SERVFAIL })

/-- The driver deletes a zone. -/
def delete (response : Message) (ok : Bool) : Move ζ where
  what := some (.deleted ok)
  answer := some (if ok then response else { response with rcode := SERVFAIL })

end

/-! ## The backend -/

inductive Command where
  | create | delete
  deriving DecidableEq, Repr

def Command.rdtype : Command → Nat
  | .create => CREATE
  | .delete => DELETE

inductive Outcome where
  | pending
  | returned (time : Nat)
  /-- With `exceptions.Backend`, or with what the socket raised. -/
  | raised
  deriving DecidableEq, Repr

/-- A call of `create_zone` or `delete_zone`, from a socket of its own. -/
structure Call where
  command : Command
  zoneName : String
  addr : Addr
  id : Nat
  started : Nat
  outcome : Outcome := .pending
  deriving DecidableEq, Repr

/-- `_make_dns_message`; dnspython has drawn the identifier. -/
def makeDnsMessage (zoneName : String) (opcode rdatatype rdclass id : Nat) : Message :=
  { id, aa := true, opcode, question := [⟨zoneName, rdatatype, rdclass⟩] }

def Call.query (call : Call) : Message :=
  makeDnsMessage call.zoneName CC call.command.rdtype CLASSCC call.id

/-- `_make_and_send_dns_message`, from the answer on that came for it. -/
def Call.receive (call : Call) (response : Message) (now : Nat) : Call :=
  if call.query.isResponse response && response.aa && response.rcode == NOERROR then
    { call with outcome := .returned now }
  else { call with outcome := .raised }

/-! ## Both of them -/

structure Handler (ζ : Type) where
  packet : Packet
  arrived : Nat
  stage : Stage ζ := .received

/-- What a handler has done, for which query, and when. -/
structure Effect (ζ : Type) where
  packet : Packet
  arrived : Nat
  time : Nat
  what : What ζ
  deriving DecidableEq, Repr

structure Reply where
  addr : Addr
  message : Message
  deriving DecidableEq, Repr

/-- From this time on, a transfer of the zone from this master has this content. -/
structure Publication (ζ : Type) where
  time : Nat
  master : Addr
  zoneName : String
  content : Option ζ

/-- Everything that was sent stays on its way. -/
structure State (ζ : Type) where
  now : Nat := 0
  calls : List Call := []
  packets : List Packet := []
  handlers : List (Handler ζ) := []
  replies : List Reply := []
  effects : List (Effect ζ) := []
  publications : List (Publication ζ) := []

inductive Event (ζ : Type) where
  | call (command : Command) (zoneName : String) (addr : Addr) (id : Nat)
  /-- Anybody sends a query, under any address. -/
  | inject (addr : Addr) (message : Message)
  | deliver (packet : Nat)
  /-- A NOTIFY is thrown away, since another one is being worked on. -/
  | throwAway (handler : Nat)
  | handle (handler : Nat) (serial : Option Nat)
  | transfer (handler : Nat) (servers : List (Addr × Bool))
  | drive (handler : Nat) (ok : Bool)
  | reply (call reply : Nat)
  /-- A call runs into a timeout, or its socket raises. -/
  | fail (call : Nat)
  | publish (master : Addr) (zoneName : String) (content : Option ζ)

variable {ζ : Type}

/-- What the masters serve of a zone before this time. -/
def servedAt (publications : List (Publication ζ)) (time : Nat) (zoneName : String)
    (master : Addr) : Option ζ :=
  let earlier := publications.filter fun p =>
    decide (p.time < time) && p.master == master && p.zoneName == zoneName
  earlier.getLast?.bind Publication.content

/-- The name of the zone that a query asks about first. -/
def Packet.zoneName (packet : Packet) : String :=
  (packet.message.question.head?.map Question.name).getD ""

/-- A handler makes its move. -/
def State.move (s : State ζ) (k : Nat) (h : Handler ζ) (m : Move ζ) : State ζ :=
  { s with
    handlers := s.handlers.set k { h with stage := m.stage }
    effects := s.effects ++ m.what.toList.map fun what => ⟨h.packet, h.arrived, s.now, what⟩
    replies := s.replies ++ m.answer.toList.map fun message => ⟨h.packet.addr, message⟩ }

/-- What the handler of a query does next, if it is its turn to. -/
def State.turn (opts : Options) (s : State ζ) (h : Handler ζ) : Event ζ → Option (Move ζ)
  | .throwAway _ =>
    match h.stage, makeResponse h.packet.message with
    | .received, some response =>
      if h.packet.message.opcode = NOTIFY then
        some { answer := some { response with aa := true } }
      else none
    | _, _ => none
  | .handle _ serial =>
    match h.stage with
    | .received => some (handle opts h.packet serial)
    | _ => none
  | .transfer _ servers =>
    match h.stage with
    | .transferring verb response =>
      if (servers.map Prod.fst).isPerm opts.masters then
        some (transfer (servedAt s.publications s.now h.packet.zoneName) servers s.now verb response)
      else none
    | _ => none
  | .drive _ ok =>
    match h.stage with
    | .applying verb response master transferred zone =>
      some (apply verb response master transferred zone ok)
    | .deleting response => some (delete response ok)
    | _ => none
  | _ => none

/-- The handler of a query takes its turn. -/
def State.run (opts : Options) (s : State ζ) (k : Nat) (e : Event ζ) : State ζ :=
  match s.handlers[k]? with
  | none => s
  | some h =>
    match s.turn opts h e with
    | none => s
    | some m => s.move k h m

/-- One thing happens. -/
def State.next (opts : Options) (s : State ζ) : Event ζ → State ζ
  | .call command zoneName addr id =>
    let call : Call := { command, zoneName, addr, id, started := s.now }
    { s with calls := s.calls ++ [call], packets := s.packets ++ [⟨addr, call.query, s.now⟩] }
  | .inject addr message => { s with packets := s.packets ++ [⟨addr, message, s.now⟩] }
  | .deliver k =>
    match s.packets[k]? with
    | none => s
    | some packet => { s with handlers := s.handlers ++ [{ packet, arrived := s.now }] }
  | .throwAway k => s.run opts k (.throwAway k)
  | .handle k serial => s.run opts k (.handle k serial)
  | .transfer k servers => s.run opts k (.transfer k servers)
  | .drive k ok => s.run opts k (.drive k ok)
  | .reply j k =>
    match s.calls[j]?, s.replies[k]? with
    | some call, some reply =>
      if call.outcome = .pending ∧ reply.addr = call.addr then
        { s with calls := s.calls.set j (call.receive reply.message s.now) }
      else s
    | _, _ => s
  | .fail j =>
    match s.calls[j]? with
    | none => s
    | some call =>
      if call.outcome = .pending then
        { s with calls := s.calls.set j { call with outcome := .raised } }
      else s
  | .publish master zoneName content =>
    { s with publications := s.publications ++ [⟨s.now, master, zoneName, content⟩] }

/-- Time goes on with every event. -/
def step (opts : Options) (e : Event ζ) (s : State ζ) : State ζ :=
  { s.next opts e with now := s.now + 1 }

end Agent

end Designate
