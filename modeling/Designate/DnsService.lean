import Designate.Exec
import Designate.Framing

/-!
# A DNS service over TCP

A client's connection is handled query by query: two bytes that tell the length of a query are
asked for at once, then the query until it is complete or the client has closed. A `recv` gives
back what is left of the segment that has come in, or the part of it that was asked for. Every
exception ends the connection.

The queries that were handed to the application are kept for what is said about them.
-/

namespace Designate

namespace DnsService

inductive Fault where
  | timeout | socketError | structError
  | other (name : String)
  deriving DecidableEq, Repr

/-- A byte that comes in, and whether its segment ends with it. -/
structure Incoming where
  byte : UInt8
  last : Bool
  deriving DecidableEq, Repr

/-- A connection, next to whatever else the application and the client's socket depend on. -/
structure Conn (σ : Type) where
  incoming : List Incoming
  /-- What a `recv` raises when nothing is left. Without it, the client has closed by then. -/
  ending : Option Fault
  handed : List (List UInt8)
  rest : σ

/-- The application, and the sending side of the client's socket. -/
structure Parties (σ : Type) where
  /-- The responses to a query, and the exception they end with. -/
  application : List UInt8 → Exec σ Fault (List (Option (List UInt8)) × Option Fault)
  sendall : List UInt8 → Exec σ Fault Unit

/-- `_TCP_RECV_MAX_SIZE`. -/
def tcpRecvMaxSize : Nat := 65535

/-- The length that two bytes tell, the high one first. -/
def lengthOf (high low : UInt8) : Nat := high.toNat * 256 + low.toNat

/-- `struct.unpack('!H', ..)`. -/
def unpack : List UInt8 → Except Fault Nat
  | [high, low] => .ok (lengthOf high low)
  | _ => .error .structError

/-- `struct.pack("!H", ..)`. -/
def pack (n : Nat) : Except Fault (List UInt8) :=
  if n < 65536 then .ok [UInt8.ofNat (n / 256), UInt8.ofNat (n % 256)] else .error .structError

/-- As many of the bytes as are asked for and the segment has, and what is left. -/
def arrived : Nat → List Incoming → List UInt8 × List Incoming
  | 0, incoming => ([], incoming)
  | _ + 1, [] => ([], [])
  | size + 1, b :: incoming =>
    -- a `recv` does not go on into the next segment
    if b.last then ([b.byte], incoming)
    else
      let (data, incoming) := arrived size incoming
      (b.byte :: data, incoming)

variable {σ : Type}

/-- `client.recv`. -/
def recv (size : Nat) : Exec (Conn σ) Fault (List UInt8) := fun c =>
  match c.incoming, c.ending with
  | [], none => (.ok [], c)
  | [], some e => (.error e, c)
  | incoming, _ =>
    let (data, incoming) := arrived size incoming
    (.ok data, { c with incoming })

/-- The loop over a query of which so much is missing. Every `recv` but the last gives a byte. -/
def recvQuery : Nat → Nat → Exec (Conn σ) Fault (List UInt8)
  | 0, _ => pure []
  | _ + 1, 0 => pure []
  | rounds + 1, missing => do
    let data ← recv (min missing tcpRecvMaxSize)
    -- the client has closed: what has come in so far is taken for the query
    if data = [] then pure []
    else
      let more ← recvQuery rounds (missing - data.length)
      pure (data ++ more)

/-- A response is sent back only if present. -/
def respond (P : Parties σ) : Option (List UInt8) → Exec σ Fault Unit
  | none => pure ()
  | some response => do
    let msgLength ← Exec.read fun _ => pack response.length
    P.sendall (msgLength ++ response)

/-- The loop over the responses to a query. -/
def answer (P : Parties σ) (query : List UInt8) : Exec σ Fault Unit := do
  let (responses, fault) ← P.application query
  Exec.forEach (respond P) responses
  match fault with
  | none => pure ()
  | some e => Exec.raise e

/-- A query is handed to the application. -/
def hand (P : Parties σ) (query : List UInt8) : Exec (Conn σ) Fault Unit := fun c =>
  let (result, rest) := answer P query c.rest
  -- it has been handed on, however it is answered
  (result, { c with handed := c.handed ++ [query], rest })

/-- The loop of `_dns_handle_tcp_conn`, cut off after so many queries. -/
def handleQueries (P : Parties σ) : Nat → Exec (Conn σ) Fault Unit
  | 0 => Exec.raise (.other "cut off")
  | rounds + 1 => do
    let expectedLengthRaw ← recv 2
    let expectedLength ← Exec.read fun _ => unpack expectedLengthRaw
    let query ← recvQuery expectedLength expectedLength
    hand P query
    handleQueries P rounds

/--
`_dns_handle_tcp_conn`: no exception leaves it. A query takes two bytes at least, so that no
connection is cut off.
-/
def dnsHandleTcpConn (P : Parties σ) (c : Conn σ) : Conn σ :=
  (handleQueries P (c.incoming.length + 1) c).2

end DnsService

end Designate
