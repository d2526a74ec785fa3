import Designate.Lockstep
import Mathlib.Logic.Function.Basic

/-!
# The two caches of the pool manager

The pool manager keeps the status and serial number that a nameserver was last seen to have of a
zone and action. With memcache these are two values under keys made of the three names. With
SQLAlchemy they are a row, which is inserted if the object has no identifier and updated by its
identifier if it has one; only what has changed in the object is written. The objects live with
the pool manager, and each cache changes them in its own way.

Without servers, memcache is a client within the process, which lets its values expire.
-/

namespace Designate

namespace PoolCache

open Lockstep

/-- `UPDATE_STATUSES`. -/
inductive UpdateStatus where
  | SUCCESS | ERROR
  deriving DecidableEq, Repr

/-- `UPDATE_ACTIONS`. -/
inductive UpdateAction where
  | CREATE | DELETE | UPDATE
  deriving DecidableEq, Repr

def UpdateStatus.text : UpdateStatus → String
  | SUCCESS => "SUCCESS"
  | ERROR => "ERROR"

def UpdateAction.text : UpdateAction → String
  | CREATE => "CREATE"
  | DELETE => "DELETE"
  | UPDATE => "UPDATE"

/-- An identifier, as text. -/
structure Uuid where
  text : String
  length : text.length = 36
  deriving DecidableEq

/--
What both caches keep a status under; memcache writes it as one text, the table as a unique
index.
-/
structure Key where
  nameserverId : Uuid
  zoneId : Uuid
  action : UpdateAction
  deriving DecidableEq

/-- `PoolManagerStatus`, and which of its fields are among its changes. -/
structure StatusObject where
  id : Option Nat := none
  key : Key
  status : Option UpdateStatus
  serialNumber : Nat
  statusChanged : Bool
  serialChanged : Bool
  deriving DecidableEq

inductive Fault where
  | PoolManagerStatusNotFound
  | DuplicatePoolManagerStatus
  | DBError
  deriving DecidableEq, Repr

/--
`_build_status_object`. Built in the constructor, so the fields that are stored count as changed.
-/
def buildStatusObject (key : Key) : StatusObject :=
  { key, status := none, serialNumber := 0, statusChanged := true, serialChanged := true }

namespace StatusObject

/-- Setting a field to what it is does not count as a change. -/
def setStatus (o : StatusObject) (status : Option UpdateStatus) : StatusObject :=
  { o with status, statusChanged := o.statusChanged || o.status != status }

/-- Likewise, setting it to what it is does not count. -/
def setSerialNumber (o : StatusObject) (serialNumber : Nat) : StatusObject :=
  { o with serialNumber, serialChanged := o.serialChanged || o.serialNumber != serialNumber }

/-- `obj_reset_changes`. -/
def resetChanges (o : StatusObject) : StatusObject :=
  { o with statusChanged := false, serialChanged := false }

end StatusObject

/-- A cache. What is stored or cleared comes back as the call leaves it. -/
structure Cache (β : Type) where
  store : StatusObject → β → Except Fault StatusObject × β
  clear : StatusObject → β → Except Fault StatusObject × β
  retrieve : Key → β → Except Fault StatusObject

/-! ## memcache -/

inductive Value where
  | text (s : String)
  | number (n : Nat)
  deriving DecidableEq, Repr

/-- What is kept under a key, with no expiry. -/
abbrev Memcache : Type := String → Option Value

/--
`_status_key`. The parts are joined by dashes, which identifiers have too; that they can be told
apart rests on their lengths.
-/
def statusKey (key : Key) (tail : String) : String :=
  key.nameserverId.text ++ "-" ++ key.zoneId.text ++ "-" ++ key.action.text ++ "-" ++ tail

/-- `DEFAULT_STATUS`, where memcache could not keep `None`. -/
def defaultStatus : String := "NONE"

/-- What is set for a status. -/
def statusText : Option UpdateStatus → String
  | some status => status.text
  | none => defaultStatus

/-- The status a text stands for. What is kept is only ever one of the three texts. -/
def statusOf (s : String) : Option UpdateStatus :=
  if s = defaultStatus then none
  else if s = UpdateStatus.SUCCESS.text then some .SUCCESS
  else some .ERROR

/-- `MemcachePoolManagerCache`. -/
def memcache : Cache Memcache where
  store o cache :=
    let cache := Function.update cache (statusKey o.key "status")
      (some (.text (statusText o.status)))
    (.ok o, Function.update cache (statusKey o.key "serial_number") (some (.number o.serialNumber)))
  clear o cache :=
    let cache := Function.update cache (statusKey o.key "status") none
    (.ok o, Function.update cache (statusKey o.key "serial_number") none)
  retrieve key cache :=
    match cache (statusKey key "status"), cache (statusKey key "serial_number") with
    | some (.text status), some (.number serialNumber) =>
      .ok { key, status := statusOf status, serialNumber, statusChanged := true,
            serialChanged := true }
    | _, _ => .error .PoolManagerStatusNotFound

/-! ## memcache within the process -/

namespace Memorycache

/-- `Client`: for each key when it expires, 0 for never, and its value. -/
abbrev Client : Type := String → Option (Nat × Value)

/-- `if timeout and now >= timeout`. -/
def expired (now : Nat) (entry : Nat × Value) : Bool := entry.1 != 0 && decide (entry.1 ≤ now)

/--
`get`, which drops whatever has expired. It is the whole client that is swept, not only the key
that is asked for.
-/
def Client.get (client : Client) (now : Nat) (key : String) : Option Value × Client :=
  let client : Client := fun k => (client k).filter fun entry => !expired now entry
  ((client key).map Prod.snd, client)

/-- `set`, with the time to keep the value for. -/
def Client.set (client : Client) (now : Nat) (key : String) (value : Value) (time : Nat) : Client :=
  Function.update client key (some (if time = 0 then 0 else now + time, value))

/-- `delete`. -/
def Client.delete (client : Client) (key : String) : Client := Function.update client key none

/-- The client, and the clock that it reads. -/
structure State where
  client : Client
  now : Nat

/--
`store`, with the time that passes between its two values. The two values expire one after the
other, by as much as lies between the two writes.
-/
def store (expiration : Nat) (o : StatusObject) (between : Nat) (s : State) : State :=
  let client := s.client.set s.now (statusKey o.key "status") (.text (statusText o.status)) expiration
  let now := s.now + between
  { client := client.set now (statusKey o.key "serial_number") (.number o.serialNumber) expiration
    now }

/-- `clear`. -/
def clear (key : Key) (s : State) : State :=
  { s with
    client := (s.client.delete (statusKey key "status")).delete (statusKey key "serial_number") }

/-- `retrieve`, which asks for the serial number only if there is a status. -/
def retrieve (key : Key) (between : Nat) (s : State) : Except Fault StatusObject × State :=
  match s.client.get s.now (statusKey key "status") with
  | (none, client) => (.error .PoolManagerStatusNotFound, { s with client })
  | (some status, client) =>
    let now := s.now + between
    match status, client.get now (statusKey key "serial_number") with
    | .text status, (some (.number serialNumber), client) =>
      (.ok { key, status := statusOf status, serialNumber, statusChanged := true,
             serialChanged := true }, { client, now })
    | _, (_, client) => (.error .PoolManagerStatusNotFound, { client, now })

/-- What happens to the cache. -/
inductive Event where
  | wait (seconds : Nat)
  | store (o : StatusObject) (between : Nat)
  | clear (key : Key)
  | retrieve (key : Key) (between : Nat)

def step (expiration : Nat) : Event → State → State
  | .wait seconds, s => { s with now := s.now + seconds }
  | .store o between, s => store expiration o between s
  | .clear key, s => clear key s
  | .retrieve key between, s => (retrieve key between s).2

end Memorycache

/-! ## SQLAlchemy -/

/-- A row of `pool_manager_statuses`. -/
structure Row where
  id : Nat
  key : Key
  status : Option UpdateStatus
  serialNumber : Nat
  deriving DecidableEq

structure Table where
  rows : List Row := []
  /-- The next `generate_uuid`. -/
  next : Nat := 0

/-- An object as it is read from a row. -/
def Row.load (row : Row) : StatusObject :=
  ⟨some row.id, row.key, row.status, row.serialNumber, false, false⟩

/--
What an UPDATE with the changes of an object leaves in a row. A field that has not changed keeps
what the row has, which another object may have written since.
-/
def Row.write (row : Row) (o : StatusObject) : Row :=
  { row with
    status := if o.statusChanged then o.status else row.status
    serialNumber := if o.serialChanged then o.serialNumber else row.serialNumber }

/--
`SQLAlchemyPoolManagerCache.retrieve`. A key has at most one row; more than one would be told of
as none.
-/
def findOne (table : Table) (key : Key) : Except Fault Row :=
  match table.rows.filter fun row => row.key == key with
  | [row] => .ok row
  | _ => .error .PoolManagerStatusNotFound

/-- `_delete`, by the identifier. -/
def delete (table : Table) (id : Nat) : Except Fault Table :=
  if table.rows.any fun row => row.id == id then
    .ok { table with rows := table.rows.filter fun row => row.id != id }
  else .error .PoolManagerStatusNotFound

/-- What is written of an object is a number that the column takes. -/
def StatusObject.writable (largest : Nat) (o : StatusObject) : Bool :=
  !o.serialChanged || decide (o.serialNumber ≤ largest)

/--
`SQLAlchemyPoolManagerCache`. The serial number is an `Integer`, of which the `largest` goes by
the database: an unsigned serial number of 32 bits need not fit.
-/
def sqlalchemy (largest : Nat) : Cache Table where
  store o table :=
    match o.id with
    | some id =>
      match table.rows.find? fun row => row.id == id with
      | none => (.error .PoolManagerStatusNotFound, table)
      | some row =>
        if o.writable largest then
          (.ok (row.write o).load,
            { table with rows := table.rows.map fun row => if row.id = id then row.write o else row })
        else (.error .DBError, table)
    | none =>
      if table.rows.any fun row => row.key == o.key then (.error .DuplicatePoolManagerStatus, table)
      else if o.serialChanged && o.writable largest then
        let row : Row := ⟨table.next, o.key, if o.statusChanged then o.status else none,
          o.serialNumber⟩
        (.ok row.load, ⟨table.rows ++ [row], table.next + 1⟩)
      else (.error .DBError, table)
  clear o table :=
    match o.id with
    | some id =>
      match delete table id with
      | .ok table => (.ok o.resetChanges, table)
      | .error fault => (.error fault, table)
    | none =>
      match findOne table o.key with
      | .error fault => (.error fault, table)
      | .ok row =>
        match delete table row.id with
        | .ok table => (.ok o, table)
        | .error fault => (.error fault, table)
  retrieve key table := (findOne table key).map Row.load

/-! ## The calls of the pool manager -/

/--
A cache with the objects the pool manager has, which it names by their place. An object that is
stored or cleared is left as the call leaves it, so the next call finds what the last one made of
it.
-/
structure World (β : Type) where
  cache : β
  objects : List StatusObject := []

inductive Call where
  | build (key : Key)
  | setStatus (o : Nat) (status : Option UpdateStatus)
  | setSerialNumber (o : Nat) (serialNumber : Nat)
  | store (o : Nat)
  | clear (o : Nat)
  | retrieve (key : Key)
  deriving DecidableEq

inductive Outcome where
  | done
  | raised (fault : Fault)
  | found (status : Option UpdateStatus) (serialNumber : Nat)
  deriving DecidableEq, Repr

variable {β : Type}

/-- What a retrieval of the pool manager comes to. -/
def Cache.found (C : Cache β) (cache : β) (key : Key) : Outcome :=
  match C.retrieve key cache with
  | .ok o => .found o.status o.serialNumber
  | .error fault => .raised fault

/-- One call. A row that is not found is cleared already. -/
def Cache.call (C : Cache β) (w : World β) : Call → Outcome × World β
  | .build key => (.done, { w with objects := w.objects ++ [buildStatusObject key] })
  | .setStatus o status =>
    (.done, { w with objects := w.objects.modify o fun object => object.setStatus status })
  | .setSerialNumber o serialNumber =>
    (.done,
      { w with objects := w.objects.modify o fun object => object.setSerialNumber serialNumber })
  | .store o =>
    match w.objects[o]? with
    | none => (.done, w)
    | some object =>
      match C.store object w.cache with
      | (.ok object, cache) => (.done, ⟨cache, w.objects.set o object⟩)
      | (.error fault, cache) => (.raised fault, { w with cache })
  | .clear o =>
    match w.objects[o]? with
    | none => (.done, w)
    | some object =>
      match C.clear object w.cache with
      | (.ok object, cache) => (.done, ⟨cache, w.objects.set o object⟩)
      | (.error .PoolManagerStatusNotFound, cache) => (.done, { w with cache })
      | (.error fault, cache) => (.raised fault, { w with cache })
  | .retrieve key =>
    match C.retrieve key w.cache with
    | .ok object => (.found object.status object.serialNumber,
        { w with objects := w.objects ++ [object] })
    | .error fault => (.raised fault, w)

/-- A cache as a machine, which shows what can be retrieved. -/
def Cache.machine (C : Cache β) : Machine Call Outcome (Key → Outcome) (World β) where
  step := C.call
  seen w := C.found w.cache

end PoolCache

end Designate
