import Designate.Central.Imports
import Designate.Central.Records

/-!
# Reverse records of floating IPs

Which floating IPs a tenant holds is for the network service to say, at every call
anew. The name of one is a PTR record, managed for its address and for the tenant that
set it; who looks at floating IPs has the records of other tenants for them deleted.
-/

namespace Designate

namespace FloatingIps

/-- A floating IP as the network service lists it. -/
structure Fip where
  region : String
  id : String
  address : String
  deriving DecidableEq, Repr

/-- What the network service lists for a tenant. -/
abbrev Network := String → List Fip

/-- What the calls take from outside. -/
structure Env where
  /-- `reversename.from_address`, as a text. -/
  addressName : String → Except Exc String
  managedResourceTenantId : Option String
  /-- The order in which a dict goes through what was put into it one by one: it has each entry
  once, but need not keep to the order they came in. -/
  order : List Fip → List Fip
  perm : ∀ fips, (order fips).Perm fips

/-- A `FloatingIP` object, as the calls return it. -/
structure FloatingIp where
  fip : Fip
  ptrdname : Option String
  ttl : Option Nat
  description : Option String
  action : Option Action
  status : Option Status
  deriving DecidableEq, Repr

/-- A `FloatingIP` object with the values of a request. -/
structure Values where
  ptrdname : Tracked (Option String)
  ttl : Option Nat
  description : Option String

/-- `address_zone`. -/
def addressZone (address : String) : String :=
  ".".intercalate (Text.split address '.').dropLast.reverse ++ ".in-addr.arpa."

/-- `context.elevated(all_tenants=True, edit_managed_records=True)`. -/
def managing (ctx : Context) : Context := { ctx with allTenants := true, editManagedRecords := true }

/-! ## What the network service says -/

/-- `_list_to_dict`: a later one takes the place of an earlier one under its key. -/
def listToDict (fips : List Fip) : List Fip :=
  fips.foldl (fun dict fip =>
    if dict.any fun f => f.region == fip.region && f.id == fip.id then
      dict.map fun f => if f.region = fip.region ∧ f.id = fip.id then fip else f
    else dict ++ [fip]) []

/-- `_list_floatingips`, as one goes through it. -/
def listOf (env : Env) (network : Network) (ctx : Context) (region : Option String) : List Fip :=
  env.order (listToDict ((network ctx.tenant).filter fun fip => region.all (· == fip.region)))

/-- `_get_floatingip`. -/
def getOf (region id : String) (fips : List Fip) : Except Exc Fip :=
  match fips.find? fun fip => fip.region == region && fip.id == id with
  | some fip => .ok fip
  | none => .error .NotFound

/-! ## Records and floating IPs -/

/-- `managed_resource_type` of a reverse record. -/
def resourceType : String := "ptr:floatingip"

/-- The criterion of `_determine_floatingips`. -/
def reverse (r : RecordRow) : Bool := r.managed && r.managedBy.resourceType == some resourceType

/-- The record the dictionary has for an address: the last one. -/
def recordFor (records : List RecordRow) (fip : Fip) : Option RecordRow :=
  (records.filter fun r => r.managedBy.extra == some fip.address).getLast?

/--
`_determine_floatingips`: each with the record the tenant has for it, and the records of others.
The former are put into a dict of their own.
-/
def determine (ctx : Context) (env : Env) (fips : List Fip) :
    Call (List (Fip × Option RecordRow) × List RecordRow) := do
  let records ← findRecords (managing ctx) reverse
  let own := fun r : RecordRow => r.managedBy.tenantId == some ctx.tenant
  pure ((env.order fips).map fun fip => (fip, (recordFor records fip).filter own),
    fips.filterMap fun fip => (recordFor records fip).filter fun r => !own r)

section

variable (ctx : Context) (conf : Conf)

/-- The turn of `_invalidate_floatingips` for a record. -/
def invalidateOne (r : RecordRow) : Call Unit := do
  let _ ← deleteRecord (managing ctx) conf Faults.none r.zoneId r.recordsetId r.id

/-- `_invalidate_floatingips`. -/
def invalidate (records : List RecordRow) : Call Unit :=
  Exec.forEach (invalidateOne ctx conf) records

/-- The TTL of a record: that of its recordset, or of its zone. -/
def ttlOf (recordsets : Option RecordSet) (record : Record) : Call Nat := do
  let recordset ←
    match recordsets.filter fun s => record.recordsetId.value == some s.id,
        record.recordsetId.value with
    | some recordset, _ => pure recordset
    | none, some id => getRecordset ctx.elevated id
    | none, none => Exec.raise .RecordSetNotFound
  match recordset.ttlValue, record.zoneId.value with
  | some ttl, _ => pure ttl
  | none, some zoneId => do
    let zone ← getZone ctx.elevated zoneId
    pure zone.ttl
  | none, none => Exec.raise .ZoneNotFound

/-- `_format_floatingips`, of one. -/
def formatOne (recordsets : Option RecordSet) (fip : Fip) : Option Record → Call FloatingIp
  | none => pure ⟨fip, none, none, none, none, some .ACTIVE⟩
  | some record => do
    let ttl ← ttlOf ctx recordsets record
    pure ⟨fip, record.data.value, some ttl, record.description, record.action.value,
      record.status.value⟩

/-- `_format_floatingips`. -/
def format : List (Fip × Option RecordRow) → Call (List FloatingIp)
  | [] => pure []
  | (fip, record) :: data => do
    let shown ← formatOne ctx none fip (record.map Record.ofRow)
    let rest ← format data
    pure (shown :: rest)

/-! ## The calls -/

variable (env : Env) (network : Network)

/-- `list_floatingips`. -/
def listFloatingips : Call (List FloatingIp) := do
  let (valid, invalid) ← determine ctx env (listOf env network ctx none)
  invalidate ctx conf invalid
  format ctx valid

/-- `get_floatingip`. What it returns is the first of the region. -/
def getFloatingip (region id : String) : Call FloatingIp := do
  let fips := listOf env network ctx (some region)
  let _ ← Exec.read fun _ => getOf region id fips
  let (valid, invalid) ← determine ctx env fips
  invalidate ctx conf invalid
  match ← format ctx valid with
  | [] => Exec.raise .IndexError
  | shown :: _ => pure shown

/-- The reverse zone: what is found under the name, or a new one. -/
def findOrCreateZone (name : String) : Call Zone := do
  let named ← Exec.read fun _ => nameCriterion conf name
  Exec.catching (· == .ZoneNotFound) (findZoneBy (managing ctx) fun z => named z.name)
    (createZoneWith (managing ctx) conf .none (fun _ => .none)
      { name := name, tenantId := env.managedResourceTenantId, type := .PRIMARY, ttl := none
        serial := none, viewId := none } none [])

/-- What stands in the `try` block: the recordset is updated, and loses its records. -/
def updateReverse (zone : Zone) (name : String) (values : Values) : Call RecordSet := do
  let named ← Exec.read fun _ => nameCriterion conf name
  let recordset ← findRecordset (managing ctx) fun r => named r.name && r.type == .PTR
  let recordset := { recordset with
    name := name, ttl := recordset.ttl.set values.ttl
    assigned := if zone.id = recordset.zoneId then [] else ["zone_id"] }
  let _ ← updateRecordset (managing ctx) conf (fun _ => Faults.none) recordset
  -- what `update_recordset` returns is what it has read last
  let recordset ← centralGetRecordset (managing ctx) recordset.zoneId recordset.id
  Exec.forEach (fun record => do
    match record.id with
    | some id =>
      let _ ← deleteRecord (managing ctx) conf Faults.none recordset.zoneId recordset.id id
    | none => Exec.raise .RecordNotFound) recordset.records
  pure recordset

/-- The object `_set_floatingip_reverse` creates. -/
def Values.record (values : Values) (name : String) (fip : Fip) : Record :=
  { Record.newManaged name with
    description := values.description
    managedBy :=
      { extra := some fip.address, resourceId := some fip.id, resourceRegion := some fip.region
        resourceType := some resourceType, tenantId := some ctx.tenant } }

/-- `_set_floatingip_reverse`. The recordset goes to `create_record` as `recordset_id`. -/
def setFloatingipReverse (region id : String) (name : String) (values : Values) :
    Call FloatingIp := do
  let fip ← Exec.read fun _ => getOf region id (listOf env network ctx (some region))
  let zone ← findOrCreateZone ctx conf env (addressZone fip.address)
  let recordName ← Exec.read fun _ => env.addressName fip.address
  let recordset ← Exec.catching (· == .RecordSetNotFound)
    (updateReverse ctx conf zone recordName values)
    (createBareRecordset (managing ctx) conf zone.id
      { name := recordName, type := .PTR, ttl := values.ttl, description := none, records := [] })
  let record ← createRecordOf (managing ctx) conf Faults.none zone.id (.keyword recordset.id)
    (values.record ctx name fip)
  formatOne ctx (some recordset) fip (some record)

/-- `_unset_floatingip_reverse`. -/
def unsetFloatingipReverse (id : String) : Call Unit := do
  let resourceId ← Exec.read fun _ => columnCriterion conf id
  let tenantId ← Exec.read fun _ => columnCriterion conf ctx.tenant
  let record ← Exec.catching (· == .RecordNotFound)
    (findRecord (managing ctx) fun r =>
      resourceId r.managedBy.resourceId && tenantId r.managedBy.tenantId)
    (Exec.raise .NotFound)
  let _ ← deleteRecord (managing ctx) conf Faults.none record.zoneId record.recordsetId record.id

/-- `update_floatingip`. -/
def updateFloatingip (region id : String) (values : Values) : Call (Option FloatingIp) :=
  transaction do
    if values.ptrdname.changed && values.ptrdname.value == some none then
      unsetFloatingipReverse ctx conf id
      pure none
    else
      match values.ptrdname.value with
      | some (some name) => do
        let shown ← setFloatingipReverse ctx conf env network region id name values
        pure (some shown)
      | _ => pure none

end

/-! ## Histories -/

inductive FipCall where
  | list
  | get (region id : String)
  | update (region id : String) (values : Values)

/-- A call in its context, with what the network service says while it is served. -/
structure Input where
  ctx : Context
  network : Network
  call : FipCall

/-- What a call gives back. -/
def Input.answer (input : Input) (conf : Conf) (env : Env) : Call (List FloatingIp) :=
  match input.call with
  | .list => listFloatingips input.ctx conf env input.network
  | .get region id => do
    let shown ← getFloatingip input.ctx conf env input.network region id
    pure [shown]
  | .update region id values => do
    let shown ← updateFloatingip input.ctx conf env input.network region id values
    pure shown.toList

end FloatingIps

end Designate
