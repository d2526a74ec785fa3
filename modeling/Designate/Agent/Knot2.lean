import Designate.Exec
import Designate.Run

/-!
# The knot2 agent

A change of the zones of Knot is made in a transaction of its configuration, of which there is one
at most. The client `knotc` tells by its output what has become of a command, and not only by its
exit status. A lock keeps the calls that change zones apart.
-/

namespace Designate

namespace Knot2

/-! ## The daemon -/

inductive Command where
  | confBegin | confAbort | confCommit
  | confSet (zone : String)
  | confUnset (zone : String)
  | zoneRefresh (zone : String)

/-- How a run of `knotc` ends. -/
inductive Reply where
  /-- With a `ProcessExecutionError`. -/
  | exits (stdout : String)
  | prints (stdout : String)

/-- The zones that are configured, and those of the transaction if one is open. -/
structure Knot where
  conf : List String
  transaction : Option (List String)

/-- A command that gets through to the daemon. -/
def Knot.run (k : Knot) : Command → Reply × Knot
  | .confBegin =>
    match k.transaction with
    | none => (.prints "OK\n", { k with transaction := some k.conf })
    | some _ => (.exits "", k)
  | .confAbort =>
    match k.transaction with
    | some _ => (.prints "OK\n", { k with transaction := none })
    | none => (.exits "", k)
  | .confCommit =>
    match k.transaction with
    | some conf => (.prints "OK\n", ⟨conf, none⟩)
    | none => (.exits "", k)
  | .confSet zone =>
    match k.transaction with
    | some conf =>
      if zone ∈ conf then (.prints "duplicate identifier\n", k)
      else (.prints "OK\n", { k with transaction := some (conf ++ [zone]) })
    | none => (.exits "", k)
  | .confUnset zone =>
    match k.transaction with
    | some conf =>
      if zone ∈ conf then
        (.prints "OK\n", { k with transaction := some (conf.filter (· ≠ zone)) })
      else (.prints "invalid identifier\n", k)
    | none => (.exits "", k)
  | .zoneRefresh _ => (.prints "OK\n", k)

/-! ## The client -/

/-- `out.rstrip()`. -/
def rstrip (out : String) : String :=
  String.ofList (out.toList.reverse.dropWhile Char.isWhitespace).reverse

/-- The output is the expected one, or the alternative that is expected with it. -/
def Reply.expected (expectedError : Option String) : Reply → Bool
  | .exits _ => false
  | .prints out => rstrip out == "OK" || expectedError == some (rstrip out)

def Reply.stdout : Reply → String
  | .exits out => out
  | .prints out => rstrip out

/-- A command that fails. A change that fails may have left something in the transaction. -/
structure Failure (expectedError : Option String) where
  reply : Reply
  left : List String → List String := id
  unexpected : reply.expected expectedError = false

/-- A run of `knotc`. A failing `conf-begin` opens nothing, and a failing `conf-commit` leaves the
transaction as it is. -/
def knotc {expectedError : Option String} (failure : Option (Failure expectedError))
    (command : Command) (k : Knot) : Reply × Knot :=
  match failure, command with
  | none, command => k.run command
  | some f, .confSet _ => (f.reply, { k with transaction := k.transaction.map f.left })
  | some f, .confUnset _ => (f.reply, { k with transaction := k.transaction.map f.left })
  | some f, _ => (f.reply, k)

/-- `exceptions.Backend`. -/
structure Backend where
  stdout : String
  deriving DecidableEq

abbrev KnotCall := Exec Knot Backend

/-- `_execute_knotc`. -/
def executeKnotc {expectedError : Option String} (failure : Option (Failure expectedError))
    (command : Command) : KnotCall Unit := fun k =>
  let (reply, k) := knotc failure command k
  if reply.expected expectedError then (.ok (), k) else (.error ⟨reply.stdout⟩, k)

/-! ## The agent -/

/-- What a call changes, and the error that is no error to it. -/
inductive Change where
  | set (zone : String)
  | unset (zone : String)

def Change.command : Change → Command
  | .set zone => .confSet zone
  | .unset zone => .confUnset zone

def Change.expectedError : Change → Option String
  | .set _ => some "duplicate identifier"
  | .unset _ => some "invalid identifier"

/-- A call of `_modify_zone`, with the commands of it that fail. -/
structure Call where
  change : Change
  begins : Option (Failure none) := none
  changes : Option (Failure change.expectedError) := none
  commits : Option (Failure none) := none

/-- `_modify_zone`. The lock is held all along. -/
def modifyZone (call : Call) : KnotCall Unit := do
  executeKnotc call.begins .confBegin
  Exec.onError (executeKnotc call.changes call.change.command)
    (executeKnotc (none : Option (Failure none)) .confAbort)
  executeKnotc call.commits .confCommit

/-- `create_zone`, with the commands that fail. -/
def createZone (zoneName : String) (begins : Option (Failure none))
    (changes : Option (Failure (some "duplicate identifier"))) (commits : Option (Failure none))
    (refreshes : Option (Failure none)) : KnotCall Unit := do
  modifyZone ⟨.set zoneName, begins, changes, commits⟩
  executeKnotc refreshes (.zoneRefresh zoneName)

/-- `delete_zone`, with the commands that fail. -/
def deleteZone (zoneName : String) (begins : Option (Failure none))
    (changes : Option (Failure (some "invalid identifier"))) (commits : Option (Failure none)) :
    KnotCall Unit :=
  modifyZone ⟨.unset zoneName, begins, changes, commits⟩

/-- What a call leaves to the next one. -/
def step (call : Call) (k : Knot) : Knot := (modifyZone call k).2

/-! ## What a call should do -/

/-- The change itself. It is none if the zone is there already, or already gone. -/
def Change.apply : Change → List String → List String
  | .set zone, conf => if zone ∈ conf then conf else conf ++ [zone]
  | .unset zone, conf => if zone ∈ conf then conf.filter (· ≠ zone) else conf

/-- A call leaves no transaction open, its change is committed when it returns and nothing is when
it raises, and it returns when no command fails. -/
structure Call.Right (call : Call) (k : Knot) : Prop where
  closed : (modifyZone call k).2.transaction = none
  returned : (modifyZone call k).1 = .ok () → (modifyZone call k).2.conf = call.change.apply k.conf
  raised : (modifyZone call k).1 ≠ .ok () → (modifyZone call k).2.conf = k.conf
  unblocked : call.begins = none → call.changes = none → call.commits = none →
    (modifyZone call k).1 = .ok ()

/-- The change gets through and `conf-commit` fails. -/
def Call.CommitFails (call : Call) : Prop :=
  call.begins = none ∧ call.changes = none ∧ call.commits ≠ none

end Knot2

end Designate
