import Designate.Text

/-!
# The objects the services pass around

Rows as the tables hold them, and the objects built from a row or from a
request. An object remembers which of its fields were assigned since it was
loaded: storage writes those columns and no others, and a field that was never
assigned reads as `None`.
-/

namespace Designate

/-- `RECORD_TYPES`. -/
inductive RRType where
  | A | AAAA | CNAME | MX | SRV | TXT | SPF | NS | PTR | SSHFP | SOA
  deriving DecidableEq, Repr

/-- The name of a type. -/
def RRType.text : RRType → String
  | A => "A"
  | AAAA => "AAAA"
  | CNAME => "CNAME"
  | MX => "MX"
  | SRV => "SRV"
  | TXT => "TXT"
  | SPF => "SPF"
  | NS => "NS"
  | PTR => "PTR"
  | SSHFP => "SSHFP"
  | SOA => "SOA"

/-- `ACTIONS`. -/
inductive Action where
  | CREATE | UPDATE | DELETE | NONE
  deriving DecidableEq, Repr

/-- Statuses, of rows and of status messages. -/
inductive Status where
  | ACTIVE | PENDING | DELETED | ERROR | SUCCESS | NO_ZONE
  deriving DecidableEq, Repr

/-- `ZONE_TYPES`. -/
inductive ZoneType where
  | PRIMARY | SECONDARY
  deriving DecidableEq, Repr

/-- The quota resources. -/
inductive Resource where
  | zones | zoneRecordsets | zoneRecords | recordsetRecords
  deriving DecidableEq, Repr

/-- What a call raises. -/
inductive Exc where
  | ZoneNotFound | RecordSetNotFound | RecordNotFound | ViewNotFound | PoolNotFound | NotFound
  | DuplicateZone | DuplicateRecordSet | DuplicateRecord
  | InvalidZoneName | InvalidRecordSetName | InvalidRecordSetLocation | InvalidTTL
  | IllegalChildZone | IllegalParentZone | NoServersConfigured | NeedView | ZoneHasSubZone
  | OverQuota | BadRequest (msg : String) | ValueError (msg : String) | TypeError | IndexError
  | AttributeError | InvalidObject
  | NotEqual | InvalidRecord | NoChange | AllFailed | PartlyFailed
  | BadAction
  /-- A relation of an object that nobody has set. -/
  | RelationNotLoaded
  /-- A constraint other than a unique one, or a value the column type refuses. -/
  | DBError
  /-- The device answered with an error. -/
  | ZdnsErrMessage
  /-- A step that did not get through. -/
  | StepFailed
  deriving DecidableEq, Repr

/-- The request context. -/
structure Context where
  tenant : String
  allTenants : Bool := false
  editManagedRecords : Bool := false
  abandon : Bool := false
  /-- What the clock reads, in seconds. -/
  now : Nat := 0

/-- `context.elevated(all_tenants=True)`. -/
def Context.elevated (ctx : Context) : Context := { ctx with allTenants := true }

/-- The tenant criterion of a query: a row without a tenant is everybody's. -/
def Context.sees (ctx : Context) (tenantId : Option String) : Bool :=
  ctx.allTenants || tenantId == some ctx.tenant || tenantId == none

/-- The tenant criterion that leaves out the rows without a tenant. -/
def Context.owns (ctx : Context) (tenantId : Option String) : Bool :=
  ctx.allTenants || tenantId == some ctx.tenant

/-! ## Change tracking -/

/-- One field of an object: its value, if it was ever set, and whether it was assigned since. -/
structure Tracked (α : Type) where
  value : Option α
  changed : Bool
  deriving DecidableEq, Repr

namespace Tracked

variable {α : Type}

/-- A field nobody has set. -/
def unset : Tracked α := ⟨none, false⟩

/-- A field as read from a row. -/
def loaded (a : α) : Tracked α := ⟨some a, false⟩

/-- The setter: a change is noted when the field was unset or held something else. -/
def set [DecidableEq α] (t : Tracked α) (a : α) : Tracked α :=
  ⟨some a, t.changed || decide (t.value ≠ some a)⟩

/-- What an UPDATE leaves in the column. -/
def write (t : Tracked α) (old : α) : α := if t.changed then t.value.getD old else old

@[simp] theorem set_value [DecidableEq α] (t : Tracked α) (a : α) : (t.set a).value = some a := rfl

@[simp] theorem loaded_value (a : α) : (loaded a).value = some a := rfl

@[simp] theorem loaded_changed (a : α) : (loaded a).changed = false := rfl

@[simp] theorem unset_value : (unset : Tracked α).value = none := rfl

@[simp] theorem unset_changed : (unset : Tracked α).changed = false := rfl

@[simp] theorem write_loaded (a old : α) : (loaded a).write old = old := rfl

@[simp] theorem write_unset (old : α) : (unset : Tracked α).write old = old := rfl

@[simp] theorem set_unset_changed [DecidableEq α] (a : α) :
    ((unset : Tracked α).set a).changed = true := by simp [set]

@[simp] theorem set_unset_write [DecidableEq α] (a old : α) :
    ((unset : Tracked α).set a).write old = a := by simp [set, write]

/-- Assigning a field that was loaded from the very row it is written to. -/
@[simp] theorem set_loaded_write [DecidableEq α] (a old : α) :
    ((loaded old).set a).write old = a := by
  by_cases h : old = a <;> simp [set, write, loaded, h]

/-- A field already marked keeps its mark, so that an assignment reaches the row. -/
theorem set_write_of_changed [DecidableEq α] {t : Tracked α} (h : t.changed = true) (a old : α) :
    (t.set a).write old = a := by simp [set, write, h]

/-- An assignment of something else reaches the row. -/
theorem set_write_of_ne [DecidableEq α] {t : Tracked α} {a : α} (h : t.value ≠ some a) (old : α) :
    (t.set a).write old = a := by simp [set, write, h]

/-- The column ends up with the assigned value or with what it had. -/
theorem write_eq (t : Tracked α) (old : α) :
    t.write old = old ∨ t.changed = true ∧ t.write old = t.value.getD old := by
  unfold write
  cases h : t.changed <;> simp

end Tracked

/-! ## Records -/

/-- The columns of a managed record: by whom, and for what. -/
structure ManagedFields where
  extra : Option String := none
  pluginType : Option String := none
  pluginName : Option String := none
  resourceType : Option String := none
  resourceRegion : Option String := none
  resourceId : Option String := none
  tenantId : Option String := none
  deriving DecidableEq, Repr

/-- A row of `records`; `description` and `managedBy` are written at creation only. -/
structure RecordRow where
  id : Nat
  zoneId : Nat
  recordsetId : Nat
  tenantId : Option String
  data : String
  hash : String
  managed : Bool
  action : Action
  status : Status
  serial : Nat
  description : Option String := none
  managedBy : ManagedFields := {}
  deriving DecidableEq, Repr

/-- A `Record` object. -/
structure Record where
  id : Option Nat
  zoneId : Tracked Nat
  recordsetId : Tracked Nat
  data : Tracked String
  hash : Tracked String
  managed : Tracked Bool
  action : Tracked Action
  status : Tracked Status
  serial : Tracked Nat
  description : Option String := none
  managedBy : ManagedFields := {}
  deriving DecidableEq, Repr

/-- `objects.Record(data=data)`. -/
def Record.new (data : String) : Record where
  id := none
  zoneId := .unset
  recordsetId := .unset
  data := Tracked.unset.set data
  hash := .unset
  managed := .unset
  action := .unset
  status := .unset
  serial := .unset

/-- `objects.Record(data=data, managed=True)`. -/
def Record.newManaged (data : String) : Record :=
  { Record.new data with managed := Tracked.unset.set true }

/-- The object loaded from a row. -/
def Record.ofRow (row : RecordRow) : Record where
  id := some row.id
  zoneId := .loaded row.zoneId
  recordsetId := .loaded row.recordsetId
  data := .loaded row.data
  hash := .loaded row.hash
  managed := .loaded row.managed
  action := .loaded row.action
  status := .loaded row.status
  serial := .loaded row.serial
  description := row.description
  managedBy := row.managedBy

/-- `record.data`, as the device and the zdns row receive it. -/
def Record.text (record : Record) : String := record.data.value.getD ""

/-- `bool(obj_what_changed())`. -/
def Record.whatChanged (record : Record) : Bool :=
  record.zoneId.changed || record.recordsetId.changed || record.data.changed
    || record.hash.changed || record.managed.changed || record.action.changed
    || record.status.changed || record.serial.changed

/-! ## Recordsets, zones, views and the mirror tables -/

/-- A row of `recordsets`. -/
structure RecordSetRow where
  id : Nat
  zoneId : Nat
  tenantId : Option String
  name : String
  type : RRType
  ttl : Option Nat
  description : Option String
  deriving DecidableEq, Repr

/--
A stored recordset as an object, with the records it carries. `zoneId`, `name`
and `type` are the values it was loaded with; `assigned` lists the fields among
the immutable ones that a request has assigned.
-/
structure RecordSet where
  id : Nat
  zoneId : Nat
  name : String
  type : RRType
  ttl : Tracked (Option Nat)
  description : Tracked (Option String)
  records : List Record
  assigned : List String := []
  deriving Repr

/-- A recordset still to be stored. -/
structure NewRecordSet where
  name : String
  type : RRType
  ttl : Option Nat
  description : Option String
  records : List Record
  deriving Repr

/-- The object loaded from a row, with the given records. -/
def RecordSet.ofRow (row : RecordSetRow) (records : List Record) : RecordSet where
  id := row.id
  zoneId := row.zoneId
  name := row.name
  type := row.type
  ttl := .loaded row.ttl
  description := .loaded row.description
  records := records

/-- `recordset.ttl`. -/
def RecordSet.ttlValue (recordset : RecordSet) : Option Nat := recordset.ttl.value.getD none

/-- `recordset.managed`: one managed record makes the recordset managed. -/
def RecordSet.managed (recordset : RecordSet) : Bool :=
  recordset.records.any fun record => record.managed.value == some true

/-- A row of `zones`. -/
structure Zone where
  id : Nat
  tenantId : Option String
  name : String
  type : ZoneType
  ttl : Nat
  serial : Nat
  action : Action
  status : Status
  poolId : Nat
  viewId : Option Nat
  parentZoneId : Option Nat
  deleted : Bool
  deriving DecidableEq, Repr

/-- A zone still to be stored: `viewId` is the `view_id` attribute of the request. -/
structure NewZone where
  name : String
  tenantId : Option String
  type : ZoneType
  ttl : Option Nat
  serial : Option Nat
  viewId : Option Nat

/-- A row of `view`. -/
structure View where
  id : Nat
  tenantId : Option String
  name : String
  deriving DecidableEq, Repr

/-- How the device names a resource record: a handle it made up, or a text computed from it. -/
inductive RRId where
  | handle (n : Nat)
  | text (s : String)
  deriving DecidableEq, Repr

/-- A row of `zdns_record_info_t`: what central believes the device holds. -/
structure ZdnsRecord where
  id : Nat
  rrId : RRId
  name : String
  type : RRType
  ttl : Option Nat
  rdata : String
  deriving DecidableEq, Repr

/-- A row of `records_zdns_record_associations`. -/
structure RecordAssociation where
  recordId : Nat
  zdnsRecordId : Nat
  deriving DecidableEq, Repr

/-- A row of `zones_zdns_zone_associations`. -/
structure ZoneAssociation where
  zoneId : Nat
  zdnsZoneId : Nat
  deriving DecidableEq, Repr

end Designate
