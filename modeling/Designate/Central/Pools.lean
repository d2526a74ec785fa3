import Designate.Central.RecordSets
import Designate.Central.Status

/-!
# Pools

A pool owns the rows of five tables, and the targets among them those of two more.
`update_pool` brings these in line with the lists an object carries, and has every zone of
the pool follow the name servers that come and go.

Policy checks are left out, and so is the column that asks for a delayed notify: nothing
here reads it.
-/

namespace Designate

namespace Pools

/-! ## Rows -/

/-- A row of a pool, or of a target of one. -/
structure ItemRow (κ : Type) where
  id : Nat
  owner : Nat
  columns : κ
  deriving DecidableEq, Repr

/-- The columns of `pool_attributes` and of `pool_target_options`. -/
structure KeyValue where
  key : String
  value : String
  deriving DecidableEq, Repr

/-- The columns of `pool_nameservers`, `pool_target_masters` and `pool_also_notifies`. -/
structure HostPort where
  host : String
  port : Nat
  deriving DecidableEq, Repr

/-- The columns of `pool_ns_records`. -/
structure NsRecord where
  priority : Nat
  hostname : String
  deriving DecidableEq, Repr

/-- The columns of `pool_targets`. -/
structure Target where
  type : String
  tsigkeyId : Option Nat
  description : Option String
  deriving DecidableEq, Repr

/-- A row of `pools`. -/
structure PoolRow where
  id : Nat
  name : String
  description : Option String
  tenantId : Option String
  provisioner : String
  deriving DecidableEq, Repr

/-- The tables of the pools next to everything else. -/
structure State where
  world : World := {}
  pools : List PoolRow := []
  attributes : List (ItemRow KeyValue) := []
  nsRecords : List (ItemRow NsRecord) := []
  nameservers : List (ItemRow HostPort) := []
  targets : List (ItemRow Target) := []
  targetOptions : List (ItemRow KeyValue) := []
  targetMasters : List (ItemRow HostPort) := []
  alsoNotifies : List (ItemRow HostPort) := []
  deriving DecidableEq, Repr

/-- The tables below `pools`. -/
inductive Kind where
  | attribute | nsRecord | nameserver | target | targetOption | targetMaster | alsoNotify
  deriving DecidableEq, Repr

/-- What a call about pools raises. -/
inductive PoolExc where
  | PoolNotFound | DuplicatePool
  /-- `PoolNsRecordNotFound` and its like. -/
  | notFound (kind : Kind)
  /-- `DuplicatePoolNsRecord` and its like. -/
  | duplicate (kind : Kind)
  | LastServerDeleteNotAllowed
  /-- A local variable is read that no branch has assigned. -/
  | UnboundLocalError
  | exc (e : Exc)
  deriving DecidableEq, Repr

/-- A call about pools. -/
abbrev PoolCall := Exec State PoolExc

/-- A call about everything else. -/
def onWorld {α : Type} (m : Call α) : PoolCall α := fun s =>
  (match (m s.world).1 with
    | .ok a => .ok a
    | .error e => .error (.exc e),
   { s with world := (m s.world).2 })

/-- A transaction. -/
def transaction {α : Type} (m : PoolCall α) : PoolCall α :=
  Exec.rollback (fun s s' => { s with world := { s'.world with db := s.world.db } }) m

/-! ## Objects -/

/-- An item of a list of an object: what it makes of the columns of a row, and those of a new one. -/
structure Item (κ : Type) where
  id : Option Nat
  update : κ → κ
  new : Option κ

/-- A `PoolAttribute` or a `PoolTargetOption`. -/
structure KeyValueObject where
  id : Option Nat
  key : Tracked String
  value : Tracked String
  deriving DecidableEq, Repr

def KeyValueObject.item (o : KeyValueObject) : Item KeyValue where
  id := o.id
  update row := ⟨o.key.write row.key, o.value.write row.value⟩
  new := do pure ⟨← o.key.value, ← o.value.value⟩

def KeyValueObject.ofRow (row : ItemRow KeyValue) : KeyValueObject :=
  ⟨some row.id, .loaded row.columns.key, .loaded row.columns.value⟩

/-- A `PoolNameserver`, a `PoolTargetMaster` or a `PoolAlsoNotify`. -/
structure HostPortObject where
  id : Option Nat
  host : Tracked String
  port : Tracked Nat
  deriving DecidableEq, Repr

def HostPortObject.item (o : HostPortObject) : Item HostPort where
  id := o.id
  update row := ⟨o.host.write row.host, o.port.write row.port⟩
  new := do pure ⟨← o.host.value, ← o.port.value⟩

def HostPortObject.ofRow (row : ItemRow HostPort) : HostPortObject :=
  ⟨some row.id, .loaded row.columns.host, .loaded row.columns.port⟩

/-- A `PoolNsRecord`. The schema asks for the hostname, so that it always has one. -/
structure NsRecordObject where
  id : Option Nat
  priority : Tracked Nat
  hostname : String
  /-- The hostname was assigned since the object was loaded. -/
  hostnameChanged : Bool
  deriving DecidableEq, Repr

def NsRecordObject.item (o : NsRecordObject) : Item NsRecord where
  id := o.id
  update row := ⟨o.priority.write row.priority, if o.hostnameChanged then o.hostname else row.hostname⟩
  new := do pure ⟨← o.priority.value, o.hostname⟩

def NsRecordObject.ofRow (row : ItemRow NsRecord) : NsRecordObject :=
  ⟨some row.id, .loaded row.columns.priority, row.columns.hostname, false⟩

/-- A `PoolTarget`; a list that is not set is `none`. -/
structure TargetObject where
  id : Option Nat
  type : Tracked String
  tsigkeyId : Tracked (Option Nat)
  description : Tracked (Option String)
  options : Option (List KeyValueObject)
  masters : Option (List HostPortObject)
  deriving DecidableEq, Repr

def TargetObject.item (o : TargetObject) : Item Target where
  id := o.id
  update row := ⟨o.type.write row.type, o.tsigkeyId.write row.tsigkeyId,
    o.description.write row.description⟩
  new := do pure ⟨← o.type.value, o.tsigkeyId.value.getD none, o.description.value.getD none⟩

/-- A `Pool`; a list that is not set is `none`. -/
structure Pool where
  id : Nat
  name : Tracked String
  description : Tracked (Option String)
  tenantId : Tracked (Option String)
  provisioner : Tracked String
  attributes : Option (List KeyValueObject)
  nsRecords : Option (List NsRecordObject)
  nameservers : Option (List HostPortObject)
  targets : Option (List TargetObject)
  alsoNotifies : Option (List HostPortObject)
  deriving DecidableEq, Repr

/-- The columns the object writes over its row. -/
def Pool.over (pool : Pool) (row : PoolRow) : PoolRow where
  id := row.id
  name := pool.name.write row.name
  description := pool.description.write row.description
  tenantId := pool.tenantId.write row.tenantId
  provisioner := pool.provisioner.write row.provisioner

/-! ## Storage: the tables below `pools` -/

/-- One of the tables. `clash` is its unique constraint among the rows of one owner. -/
structure ItemTable (κ : Type) where
  kind : Kind
  rows : State → List (ItemRow κ)
  withRows : List (ItemRow κ) → State → State
  clash : κ → κ → Bool
  /-- Nothing but pools is kept in it. -/
  world : ∀ rows s, (withRows rows s).world = s.world

def attributesTable : ItemTable KeyValue :=
  ⟨.attribute, State.attributes, fun rows s => { s with attributes := rows }, fun _ _ => false,
    fun _ _ => rfl⟩

def nsRecordsTable : ItemTable NsRecord :=
  ⟨.nsRecord, State.nsRecords, fun rows s => { s with nsRecords := rows },
    fun a b => a.hostname == b.hostname, fun _ _ => rfl⟩

def nameserversTable : ItemTable HostPort :=
  ⟨.nameserver, State.nameservers, fun rows s => { s with nameservers := rows }, (· == ·),
    fun _ _ => rfl⟩

def targetsTable : ItemTable Target :=
  ⟨.target, State.targets, fun rows s => { s with targets := rows }, fun _ _ => false,
    fun _ _ => rfl⟩

def targetOptionsTable : ItemTable KeyValue :=
  ⟨.targetOption, State.targetOptions, fun rows s => { s with targetOptions := rows },
    fun a b => a.key == b.key, fun _ _ => rfl⟩

def targetMastersTable : ItemTable HostPort :=
  ⟨.targetMaster, State.targetMasters, fun rows s => { s with targetMasters := rows },
    (· == ·), fun _ _ => rfl⟩

def alsoNotifiesTable : ItemTable HostPort :=
  ⟨.alsoNotify, State.alsoNotifies, fun rows s => { s with alsoNotifies := rows }, (· == ·),
    fun _ _ => rfl⟩

section

variable {κ : Type} (t : ItemTable κ)

/-- The rows of an owner. -/
def ItemTable.of (owner : Nat) (s : State) : List (ItemRow κ) :=
  (t.rows s).filter fun row => row.owner == owner

/-- Another row of the owner is in the way of this one. -/
def ItemTable.taken (row : ItemRow κ) (s : State) : Bool :=
  (t.rows s).any fun r => r.id != row.id && r.owner == row.owner && t.clash r.columns row.columns

/-- `delete_pool_*`. -/
def deleteItem (id : Nat) : PoolCall Unit :=
  Exec.write fun s =>
    match Table.find ItemRow.id id (fun _ => true) (PoolExc.notFound t.kind) (t.rows s) with
    | .error e => .error e
    | .ok _ => .ok ((), t.withRows (Table.remove ItemRow.id id (t.rows s)) s)

/-- `update_pool_*`. -/
def updateItem (item : Item κ) : PoolCall Unit :=
  Exec.write fun s =>
    match item.id with
    | none => .error (.notFound t.kind)
    | some id =>
      match Table.find ItemRow.id id (fun _ => true) (PoolExc.notFound t.kind) (t.rows s) with
      | .error e => .error e
      | .ok row =>
        if t.taken { row with columns := item.update row.columns } s then .error (.duplicate t.kind)
        else
          .ok ((), t.withRows (Table.update ItemRow.id id
            (fun r => { r with columns := item.update r.columns }) (t.rows s)) s)

/-- `create_pool_*`: a column that is asked for and not given is refused by the database. -/
def createItem (owner : Nat) (item : Item κ) : PoolCall Nat := do
  let id ← onWorld generateUuid
  Exec.write fun s =>
    match item.new with
    | none => .error (.exc .DBError)
    | some columns =>
      if t.taken ⟨id, owner, columns⟩ s then .error (.duplicate t.kind)
      else .ok (id, t.withRows (t.rows s ++ [⟨id, owner, columns⟩]) s)

/-- The loops of `_update_pool_items` and of `_update_pool_target_items`. -/
def updateItems {ι : Type} (have_ : State → List Nat) (id : ι → Option Nat)
    (delete : Nat → PoolCall Unit) (update create : ι → PoolCall Unit) (items : List ι) :
    PoolCall Unit := do
  let have_ ← Exec.read fun s => .ok (have_ s)
  Exec.forEach delete (have_.filter fun i => !items.any fun item => id item == some i)
  Exec.forEach update (items.filter fun item => (id item).isSome)
  Exec.forEach create (items.filter fun item => (id item).isNone)

/-- For rows that have nothing below them. -/
def updatePoolItems (owner : Nat) (items : List (Item κ)) : PoolCall Unit :=
  updateItems (fun s => (t.of owner s).map ItemRow.id) Item.id (deleteItem t) (updateItem t)
    (fun item => do let _ ← createItem t owner item) items

end

/-- A list of an object, if it is set. -/
def ifSet {α : Type} (list : Option (List α)) (update : List α → PoolCall Unit) : PoolCall Unit :=
  match list with
  | none => pure ()
  | some items => update items

/-- `delete_pool_target`; the foreign keys take the options and masters along. -/
def deletePoolTarget (id : Nat) : PoolCall Unit := do
  deleteItem targetsTable id
  Exec.modify fun s => { s with
    targetOptions := Table.remove ItemRow.owner id s.targetOptions
    targetMasters := Table.remove ItemRow.owner id s.targetMasters }

/-- `update_pool_target`. -/
def updatePoolTarget (target : TargetObject) : PoolCall Unit := do
  updateItem targetsTable target.item
  ifSet target.options fun options =>
    updatePoolItems targetOptionsTable (target.id.getD 0) (options.map KeyValueObject.item)
  ifSet target.masters fun masters =>
    updatePoolItems targetMastersTable (target.id.getD 0) (masters.map HostPortObject.item)

/-- `create_pool_target`. -/
def createPoolTarget (poolId : Nat) (target : TargetObject) : PoolCall Unit := do
  let id ← createItem targetsTable poolId target.item
  ifSet target.options fun options => Exec.forEach (fun option => do
    let _ ← createItem targetOptionsTable id (KeyValueObject.item option)) options
  ifSet target.masters fun masters => Exec.forEach (fun master => do
    let _ ← createItem targetMastersTable id (HostPortObject.item master)) masters

/-! ## Storage: pools -/

/-- The row a keyed query finds. -/
def findPool (ctx : Context) (id : Nat) (s : State) : Except PoolExc PoolRow :=
  Table.find PoolRow.id id (fun pool => ctx.sees pool.tenantId) .PoolNotFound s.pools

/-- A target as loaded. -/
def targetOf (s : State) (row : ItemRow Target) : TargetObject where
  id := some row.id
  type := .loaded row.columns.type
  tsigkeyId := .loaded row.columns.tsigkeyId
  description := .loaded row.columns.description
  options := some ((targetOptionsTable.of row.id s).map KeyValueObject.ofRow)
  masters := some ((targetMastersTable.of row.id s).map HostPortObject.ofRow)

/-- A pool as loaded. -/
def poolOf (s : State) (row : PoolRow) : Pool where
  id := row.id
  name := .loaded row.name
  description := .loaded row.description
  tenantId := .loaded row.tenantId
  provisioner := .loaded row.provisioner
  attributes := some ((attributesTable.of row.id s).map KeyValueObject.ofRow)
  nsRecords := some ((nsRecordsTable.of row.id s).map NsRecordObject.ofRow)
  nameservers := some ((nameserversTable.of row.id s).map HostPortObject.ofRow)
  targets := some ((targetsTable.of row.id s).map (targetOf s))
  alsoNotifies := some ((alsoNotifiesTable.of row.id s).map HostPortObject.ofRow)

/-- `storage.get_pool`. -/
def getPool (ctx : Context) (id : Nat) : PoolCall Pool :=
  Exec.read fun s => (findPool ctx id s).map (poolOf s)

/-- The UPDATE of the row of a pool; names are unique. -/
def updatePoolRow (ctx : Context) (pool : Pool) : PoolCall Unit := do
  let row ← Exec.read (findPool ctx pool.id)
  Exec.write fun s =>
    if s.pools.any fun other => other.id != row.id && other.name == (pool.over row).name then
      .error .DuplicatePool
    else .ok ((), { s with pools := Table.update PoolRow.id row.id pool.over s.pools })

/-- `storage.update_pool`. -/
def updatePoolInStorage (ctx : Context) (pool : Pool) : PoolCall Pool := do
  updatePoolRow ctx pool
  ifSet pool.attributes fun items =>
    updatePoolItems attributesTable pool.id (items.map KeyValueObject.item)
  ifSet pool.nsRecords fun items =>
    updatePoolItems nsRecordsTable pool.id (items.map NsRecordObject.item)
  ifSet pool.nameservers fun items =>
    updatePoolItems nameserversTable pool.id (items.map HostPortObject.item)
  ifSet pool.targets fun items =>
    updateItems (fun s => (targetsTable.of pool.id s).map ItemRow.id) TargetObject.id
      deletePoolTarget updatePoolTarget (createPoolTarget pool.id) items
  ifSet pool.alsoNotifies fun items =>
    updatePoolItems alsoNotifiesTable pool.id (items.map HostPortObject.item)
  getPool ctx pool.id

/-! ## The NS recordsets of a zone -/

section

variable (ctx : Context) (conf : Conf)

/-- `find_recordsets` of the NS recordsets of a zone, with their records. -/
def findNsRecordsets (zone : Zone) : Call (List RecordSet) :=
  Exec.read fun w =>
    .ok ((findRecordsets ctx (fun r => r.zoneId == zone.id && r.type == .NS) w.db).map fun row =>
      RecordSet.ofRow row ((w.db.records.filter fun r => r.recordsetId == row.id).map Record.ofRow))

/--
`_update_recordset_in_storage`, with a serial increment. What it assigns to the records is
not stored: `storage.update_recordset` leaves them out.
-/
def updateRecordsetAndSerial (zone : Zone) (recordset : RecordSet) : Call Unit :=
  Designate.transaction do
    check (validateRecordset ctx conf zone (some recordset.id) recordset.name recordset.type
      (if recordset.ttl.changed then recordset.ttlValue else none) recordset.records.length)
    let zone ← updateZoneInStorage ctx conf zone true
    check fun db =>
      if recordset.records.isEmpty then .ok ()
      else enforceRecordQuota ctx conf zone recordset.id recordset.managed
        recordset.records.length db
    updateRecordsetRow ctx recordset

/-- `_create_ns`. -/
def createNs (zone : Zone) (nsRecords : List String) : Call Unit :=
  if zone.type ≠ .PRIMARY then pure ()
  else do
    let _ ← createRecordsetInStorage ctx conf zone
      { name := zone.name, type := .NS, ttl := none, description := none
        records := nsRecords.map Record.newManaged }

/-- `_add_ns`. -/
def addNs (zone : Zone) (nsRecord : String) : Call Unit := do
  let recordsets ← findNsRecordsets ctx zone
  match recordsets.filter RecordSet.managed with
  | [] => createNs ctx conf zone [nsRecord]
  | [recordset] =>
    updateRecordsetAndSerial ctx conf zone
      { recordset with records := recordset.records ++ [Record.newManaged nsRecord] }
  | _ => Exec.raise .RecordSetNotFound

/-- `_delete_ns`: of the records with these data, each is removed once. -/
def deleteNs (zone : Zone) (nsRecord : String) : Call Unit := do
  let recordset ← findRecordset ctx fun r => r.zoneId == zone.id && r.type == .NS
  updateRecordsetAndSerial ctx conf zone
    { recordset with records := recordset.records.filter fun r => r.data.value != some nsRecord }

end

/-! ## Central -/

/-- The hostnames of a pool. -/
def hostnames (poolId : Nat) (s : State) : List String :=
  (nsRecordsTable.of poolId s).map fun row => row.columns.hostname

/-- `_get_pool_ns_records`, of which central only looks at the hostnames. -/
def getPoolNsRecords (ctx : Context) (poolId : Nat) : PoolCall (List String) := do
  let _ ← getPool ctx.elevated poolId
  Exec.read fun s => .ok (hostnames poolId s)

/-- The deployment, seen from a zone of the pool. -/
def confOf (conf : Conf) (poolId : Nat) (s : State) : Conf :=
  { conf with poolId := poolId, poolNsRecords := hostnames poolId s }

section

variable (ctx : Context) (conf : Conf) (order : List String → List String)

/-- The hostnames of `l` that are not among `l'`; `order` is how Python goes through a set. -/
def difference (l l' : List String) : List String := order (l.dedup.filter fun h => h ∉ l')

/-- For each of the zones, under the pool as it is now. -/
def forZones (poolId : Nat) (f : Conf → Zone → Call Unit) (zones : List Zone) : PoolCall Unit :=
  Exec.forEach (fun zone => do
    let conf ← Exec.read fun s => .ok (confOf conf poolId s)
    onWorld (f conf zone)) zones

/-- A name server comes: it is added to every zone of the pool that is not on its way out. -/
def addEverywhere (poolId : Nat) (ns : String) : PoolCall Unit := do
  let zones ← onWorld (findZones ctx.elevated fun z => z.poolId == poolId && z.action != .DELETE)
  forZones conf poolId (fun conf zone => addNs ctx.elevated conf zone ns) zones

/-- One goes, unless none are left. -/
def deleteEverywhere (poolId : Nat) (requested : List String) (ns : String) : PoolCall Unit := do
  Exec.raiseIf requested.isEmpty .LastServerDeleteNotAllowed
  let zones ← onWorld (findZones ctx.elevated fun z => z.poolId == poolId)
  forZones conf poolId (fun conf zone => deleteNs ctx.elevated conf zone ns) zones

/-- `update_pool`. Without `ns_records` the loops go over what no branch has assigned. -/
def updatePool (pool : Pool) : PoolCall Pool :=
  transaction do
    match pool.nsRecords with
    | none => do
      let _ ← updatePoolInStorage ctx pool
      Exec.raise .UnboundLocalError
    | some nsRecords => do
      let existing ← getPoolNsRecords ctx pool.id
      let updated ← updatePoolInStorage ctx pool
      let requested := nsRecords.map NsRecordObject.hostname
      Exec.forEach (addEverywhere ctx conf pool.id) (difference order requested existing)
      Exec.forEach (deleteEverywhere ctx conf pool.id requested)
        (difference order existing requested)
      pure updated

end

end Pools

end Designate
