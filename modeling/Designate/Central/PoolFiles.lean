import Designate.Central.Pools
import Designate.Objects.Base

/-!
# Pools in files

`generate_file` writes the pools to a YAML file, and `update` reads one and brings the pools in
line with it. Attributes and options are maps in a file, other items are listed without their
identifiers, and columns that hold nothing are left out. What is read becomes fresh items, so an
update deletes the rows of every list that the file has, and makes new ones.

The values in a file have the types of the columns they are for. `update` runs without its
flags: no pool is deleted because a file has none, and nothing is only shown.
-/

namespace Designate

namespace Pools

/-! ## Documents -/

/-- A host and a port in a file. A key the document has not is `none`. -/
structure HostPortDoc where
  host : Option String
  port : Option Nat
  deriving DecidableEq, Repr

structure NsRecordDoc where
  priority : Option Nat
  hostname : Option String
  deriving DecidableEq, Repr

/-- A column that may hold nothing is given as `null` by `some none`. -/
structure TargetDoc where
  type : Option String
  tsigkeyId : Option (Option Nat)
  description : Option (Option String)
  options : Option (List (String × String))
  masters : Option (List HostPortDoc)
  deriving DecidableEq, Repr

structure PoolDoc where
  id : Option Nat
  name : Option String
  description : Option (Option String)
  attributes : Option (List (String × String))
  nsRecords : Option (List NsRecordDoc)
  nameservers : Option (List HostPortDoc)
  targets : Option (List TargetDoc)
  alsoNotifies : Option (List HostPortDoc)
  deriving DecidableEq, Repr

/--
`yaml.dump` and `yaml.safe_load`. Taken as two functions; what a result needs of them is a
hypothesis there.
-/
structure Yaml where
  dump : List PoolDoc → String
  safeLoad : String → Option (List PoolDoc)

/-! ## Rendering -/

/-- `str()` of a field. A field that is not set is the text `None`, as it is in Python. -/
def strOf (field : Tracked String) : String := field.value.getD "None"

/-- The `_render_object` of an attribute or of an option. -/
def KeyValueObject.render (o : KeyValueObject) : String × String := (strOf o.key, strOf o.value)

/-- The `_render_list` of attributes or of options: a dict with one value under each key. -/
def renderMap (list : List KeyValueObject) : List (String × String) :=
  list.foldl (fun dict o => Objects.assign dict o.render.1 o.render.2) []

/-- `_render_object`: a port that is not there is no number. -/
def HostPortObject.render (o : HostPortObject) : Option HostPortDoc := do
  let port ← o.port.value
  pure ⟨o.host.value, some port⟩

def NsRecordObject.render (o : NsRecordObject) : Option NsRecordDoc := do
  let priority ← o.priority.value
  pure ⟨some priority, some o.hostname⟩

def TargetObject.render (o : TargetObject) : Option TargetDoc := do
  let options ← o.options
  let masters ← o.masters
  let masters ← masters.mapM HostPortObject.render
  pure ⟨o.type.value, o.tsigkeyId.value.join.map some, o.description.value.join.map some,
    some (renderMap options), some masters⟩

def Pool.render (pool : Pool) : Option PoolDoc := do
  let attributes ← pool.attributes
  let nsRecords ← (← pool.nsRecords).mapM NsRecordObject.render
  let nameservers ← (← pool.nameservers).mapM HostPortObject.render
  let targets ← (← pool.targets).mapM TargetObject.render
  let alsoNotifies ← (← pool.alsoNotifies).mapM HostPortObject.render
  pure ⟨some pool.id, pool.name.value, pool.description.value.join.map some,
    some (renderMap attributes), some nsRecords, some nameservers, some targets,
    some alsoNotifies⟩

/-! ## Parsing -/

/--
A field of an object, when the document has its key. A key that is missing leaves the field unset
or as it was, and unchanged in either case.
-/
def setIf {α : Type} [DecidableEq α] (value : Option α) (field : Tracked α) : Tracked α :=
  match value with
  | none => field
  | some a => field.set a

/-- The `_parse_object` of an attribute or of an option. -/
def KeyValueObject.parse (p : String × String) : KeyValueObject :=
  ⟨none, Tracked.unset.set p.1, Tracked.unset.set p.2⟩

def HostPortObject.parse (doc : HostPortDoc) : HostPortObject :=
  ⟨none, setIf doc.host .unset, setIf doc.port .unset⟩

/-- A record without a hostname does not get past the schema. -/
def NsRecordObject.parse (doc : NsRecordDoc) : Option NsRecordObject := do
  let hostname ← doc.hostname
  pure ⟨none, setIf doc.priority .unset, hostname, true⟩

def TargetObject.parse (doc : TargetDoc) : TargetObject where
  id := none
  type := setIf doc.type .unset
  tsigkeyId := setIf doc.tsigkeyId .unset
  description := setIf doc.description .unset
  options := doc.options.map (·.map KeyValueObject.parse)
  masters := doc.masters.map (·.map HostPortObject.parse)

/--
A list of an object, replaced when the document has its key. A list in the document goes in place
of the one of the object, even if it is empty.
-/
def parseList {α β : Type} (parse : α → β) (docs : Option (List α)) (list : Option (List β)) :
    Option (List β) :=
  (docs.map (·.map parse)).or list

/-- The document of a pool put into an object. -/
def Pool.parse (doc : PoolDoc) (pool : Pool) : Option Pool := do
  let nsRecords ← match doc.nsRecords with
    | none => pure pool.nsRecords
    | some docs => (docs.mapM NsRecordObject.parse).map some
  pure { pool with
    id := doc.id.getD pool.id
    name := setIf doc.name pool.name
    description := setIf doc.description pool.description
    attributes := parseList KeyValueObject.parse doc.attributes pool.attributes
    nsRecords := nsRecords
    nameservers := parseList HostPortObject.parse doc.nameservers pool.nameservers
    targets := parseList TargetObject.parse doc.targets pool.targets
    alsoNotifies := parseList HostPortObject.parse doc.alsoNotifies pool.alsoNotifies }

/-! ## More of storage and central -/

/-- `storage.find_pools`. -/
def findPools (ctx : Context) : PoolCall (List Pool) :=
  Exec.read fun s => .ok ((s.pools.filter fun row => ctx.sees row.tenantId).map (poolOf s))

/-- `storage.find_pool` by a name. -/
def findPoolByName (ctx : Context) (name : String) : PoolCall Pool :=
  Exec.read fun s => (Table.find PoolRow.name name (fun pool => ctx.sees pool.tenantId)
    .PoolNotFound s.pools).map (poolOf s)

/-- The INSERT of the row of a pool. The name is unique, the identifier new. -/
def insertPoolRow (pool : Pool) : PoolCall Unit :=
  Exec.write fun s =>
    match pool.name.value with
    | none => .error (.exc .DBError)
    | some name =>
      if s.pools.any fun row => row.name == name then .error .DuplicatePool
      else .ok ((), { s with pools := s.pools ++ [⟨pool.id, name, pool.description.value.getD none,
        pool.tenantId.value.getD none, pool.provisioner.value.getD "UNMANAGED"⟩] })

/-- Items of a new pool. -/
def createItems {κ ι : Type} (t : ItemTable κ) (owner : Nat) (item : ι → Item κ)
    (items : List ι) : PoolCall Unit :=
  Exec.forEach (fun i => do let _ ← createItem t owner (item i)) items

/-- `create_pool`. -/
def createPool (ctx : Context) (pool : Pool) : PoolCall Unit :=
  transaction do
    let pool := { pool with tenantId :=
      if pool.tenantId.value.getD none = none then pool.tenantId.set (some ctx.tenant)
      else pool.tenantId }
    insertPoolRow pool
    ifSet pool.attributes (createItems attributesTable pool.id KeyValueObject.item)
    ifSet pool.nsRecords (createItems nsRecordsTable pool.id NsRecordObject.item)
    ifSet pool.nameservers (createItems nameserversTable pool.id HostPortObject.item)
    ifSet pool.targets (Exec.forEach (createPoolTarget pool.id))
    ifSet pool.alsoNotifies (createItems alsoNotifiesTable pool.id HostPortObject.item)

/-! ## The commands -/

/-- What ends a command. -/
inductive CommandExc where
  | SystemExit
  | YAMLError
  | KeyError
  | pool (e : PoolExc)
  deriving DecidableEq, Repr

abbrev Command := Exec State CommandExc

/-- A call of central. -/
def called {α : Type} (m : PoolCall α) : Command α := fun s =>
  (match (m s).1 with
    | .ok a => .ok a
    | .error e => .error (.pool e),
   (m s).2)

section

variable (ctx : Context) (conf : Conf) (order : List String → List String) (yaml : Yaml)
  (valid : NsRecord → Bool)

/-- `generate_file`: the text it writes. Nothing is written unless all pools can be rendered. -/
def generateFile : Command String := do
  let pools ← called (findPools ctx)
  match pools.mapM Pool.render with
  | none => Exec.raise (.pool (.exc .TypeError))
  | some docs => pure (yaml.dump docs)

/-- `validate` of a record, where the schema is a check of its columns. -/
def NsRecordObject.validates (o : NsRecordObject) : Bool :=
  match o.priority.value with
  | none => false
  | some priority => valid ⟨priority, o.hostname⟩

/-- The document put into an object whose NS records are valid then. -/
def parsed (doc : PoolDoc) (pool : Pool) : Command Pool :=
  match pool.parse doc with
  | none => Exec.raise .SystemExit
  | some pool =>
    match pool.nsRecords with
    | none => Exec.raise (.pool (.exc .RelationNotLoaded))
    | some nsRecords =>
      if nsRecords.all (NsRecordObject.validates valid) then pure pool
      else Exec.raise .SystemExit

/-- The pool an entry is about. One with a bad identifier is passed over, if it has a name. -/
def foundPool (doc : PoolDoc) : Command (Option Pool) :=
  match doc.id, doc.name with
  | some id, name => fun s =>
    match getPool ctx id s with
    | (.ok pool, s) => (.ok (some pool), s)
    | (.error _, s) => (if name.isSome then .ok none else .error .KeyError, s)
  | none, some name => do
    let pool ← called (findPoolByName ctx name)
    pure (some pool)
  | none, none => Exec.raise .KeyError

/-- A pool that is not there is made. -/
def createEntry (doc : PoolDoc) : Command Unit := do
  let id ← called (onWorld generateUuid)
  let pool ← parsed valid doc
    ⟨id, .unset, .unset, .unset, .unset, none, none, none, none, none⟩
  called (createPool ctx pool)

/-- The `try` block of `update`. -/
def updateEntry (doc : PoolDoc) : Command Unit := do
  match ← foundPool ctx doc with
  | none => pure ()
  | some pool => do
    let pool ← parsed valid doc pool
    let _ ← called (updatePool ctx conf order pool)

/--
`update`, with the text of its file. An entry that raises ends the loop, and what the entries
before it have done stays.
-/
def updateFile (text : String) : Command Unit :=
  match yaml.safeLoad text with
  | none => Exec.raise .YAMLError
  | some docs =>
    Exec.forEach (fun doc => Exec.catching (fun e => decide (e = .pool .PoolNotFound))
      (updateEntry ctx conf order valid doc) (createEntry ctx valid doc)) docs

end

end Pools

end Designate
