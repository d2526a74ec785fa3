import Designate.Exec
import Designate.Run
import Designate.Objects.Base
import Designate.Central.Records

/-!
# Quotas in storage

The driver that keeps the limits of tenants in a table, and what the quotas of every driver have in
common. A query takes the texts of its criterion as `_apply_criterion` does, and sees the rows that
the context lets it see; what writes to the table elevates the context first.
-/

namespace Designate

namespace StorageQuota

/-- The options that limit a tenant by default, and the database. -/
structure QuotaConf where
  conf : Conf := {}
  /-- What a column of the type `Integer` holds. -/
  fits : Int → Bool := fun n => decide (-2147483648 ≤ n ∧ n ≤ 2147483647)
  quotaZones : Int := 10000
  quotaZoneRecordsets : Int := 500000
  quotaZoneRecords : Int := 500000
  quotaRecordsetRecords : Int := 2000
  quotaApiExportSize : Int := 100000

/-- A row of the table `quotas`. -/
structure Row where
  id : Nat
  tenantId : String
  resource : String
  hardLimit : Int
  deriving DecidableEq, Repr

/-- The columns of the constraint `unique_quota`. -/
def Row.key (row : Row) : String × String := (row.tenantId, row.resource)

def Row.limited (hardLimit : Int) (row : Row) : Row := { row with hardLimit := hardLimit }

/--
The table `quotas`, with its constraints. The constraints are fields, so a table with two limits
for one resource of a tenant cannot be built.
-/
structure Quotas where
  rows : List Row
  nextId : Nat
  below : ∀ row ∈ rows, row.id < nextId
  ids : (rows.map Row.id).Nodup
  keys : (rows.map Row.key).Nodup

namespace Quotas

def empty : Quotas where
  rows := []
  nextId := 0
  below := by simp
  ids := List.nodup_nil
  keys := List.nodup_nil

/-- A row with a new id. -/
def insert (t : Quotas) (tenantId resource : String) (hardLimit : Int)
    (h : (tenantId, resource) ∉ t.rows.map Row.key) : Quotas where
  rows := t.rows ++ [⟨t.nextId, tenantId, resource, hardLimit⟩]
  nextId := t.nextId + 1
  below := by
    intro row hrow
    rcases List.mem_append.mp hrow with hrow | hrow
    · have hlt := t.below row hrow
      omega
    · rw [List.mem_singleton.mp hrow]
      exact Nat.lt_succ_self _
  ids := by
    rw [List.map_append, List.nodup_append]
    refine ⟨t.ids, List.nodup_singleton _, ?_⟩
    intro i hi j hj he
    obtain ⟨row, hrow, rfl⟩ := List.mem_map.mp hi
    have hlt := t.below row hrow
    rw [he, List.mem_singleton.mp hj] at hlt
    exact Nat.lt_irrefl _ hlt
  keys := by
    rw [List.map_append, List.nodup_append]
    refine ⟨t.keys, List.nodup_singleton _, ?_⟩
    intro k hk k' hk' he
    rw [he, List.mem_singleton.mp hk'] at hk
    exact h hk

/-- The column `hard_limit` of one row. -/
def setLimit (t : Quotas) (id : Nat) (hardLimit : Int) : Quotas where
  rows := Table.update Row.id id (Row.limited hardLimit) t.rows
  nextId := t.nextId
  below := by
    intro row hrow
    rcases Table.mem_update.mp hrow with ⟨hrow, -⟩ | ⟨old, hold, -, rfl⟩
    · exact t.below row hrow
    · exact t.below old hold
  ids := by
    rw [Table.map_update (f := Row.limited hardLimit) (g := Row.id) fun _ _ _ => rfl]
    exact t.ids
  keys := by
    rw [Table.map_update (f := Row.limited hardLimit) (g := Row.key) fun _ _ _ => rfl]
    exact t.keys

def delete (t : Quotas) (id : Nat) : Quotas where
  rows := Table.remove Row.id id t.rows
  nextId := t.nextId
  below := by
    intro row hrow
    exact t.below row (Table.mem_remove.mp hrow).1
  ids := Table.remove_nodup t.ids
  keys := t.keys.sublist (List.Sublist.map _ List.filter_sublist)

end Quotas

/--
What a call raises. A criterion may raise something of its own. A criterion may, since an
operator in front of a text may lack what it compares with.
-/
inductive Raised where
  | QuotaNotFound | DuplicateQuota | OverQuota | DBError
  | QuotaResourceUnknown (resource : String)
  | criterion (e : Exc)
  deriving DecidableEq

abbrev QuotaCall := Exec Quotas Raised

variable (q : QuotaConf) (ctx : Context)

/-- `get_default_quotas`. A resource is one that is listed here; nothing else names them. -/
def getDefaultQuotas : List (String × Int) :=
  [("zones", q.quotaZones), ("zone_recordsets", q.quotaZoneRecordsets),
    ("zone_records", q.quotaZoneRecords), ("recordset_records", q.quotaRecordsetRecords),
    ("api_export_size", q.quotaApiExportSize)]

/-! ## Storage -/

/--
What a text in a criterion asks of a column. Both columns are always written with a text, so the
condition is one on a text.
-/
def applyCriterion (value : String) : Except Raised (String → Bool) :=
  match columnCriterion q.conf value with
  | .ok holds => .ok fun column => holds (some column)
  | .error e => .error (.criterion e)

/--
`find_quotas` with the criterion `tenant_id`. The caller's context decides what it sees, so a
tenant that asks for another one finds nothing.
-/
def findQuotas (tenantId : String) : QuotaCall (List Row) :=
  Exec.read fun t => do
    let tenant ← applyCriterion q tenantId
    .ok (t.rows.filter fun row => tenant row.tenantId && ctx.sees (some row.tenantId))

/--
`find_quota` with the criteria `tenant_id` and `resource`. More rows than one are as bad as none.
-/
def findQuota (tenantId resource : String) : QuotaCall Row :=
  Exec.read fun t => do
    let tenant ← applyCriterion q tenantId
    let kind ← applyCriterion q resource
    Table.one (t.rows.filter fun row =>
      tenant row.tenantId && kind row.resource && ctx.sees (some row.tenantId)) .QuotaNotFound

/--
`create_quota`. The constraint is asked of the columns as they are, while a query compares by its
criterion: a key may be taken and its row not be found.
-/
def createQuota (tenantId resource : String) (hardLimit : Int) : QuotaCall Unit :=
  Exec.write fun t =>
    if q.fits hardLimit = false then .error .DBError
    else if h : ∃ row ∈ t.rows, row.key = (tenantId, resource) then .error .DuplicateQuota
    else .ok ((), t.insert tenantId resource hardLimit fun hmem => h (List.mem_map.mp hmem))

/-- `update_quota`, with another limit. -/
def updateQuota (quota : Row) (hardLimit : Int) : QuotaCall Unit :=
  Exec.write fun t => do
    let row ← Table.find Row.id quota.id (fun row => ctx.sees (some row.tenantId)) .QuotaNotFound
      t.rows
    if q.fits hardLimit then .ok ((), t.setLimit row.id hardLimit) else .error .DBError

/-- `delete_quota`. -/
def deleteQuota (id : Nat) : QuotaCall Unit :=
  Exec.write fun t => do
    let quota ← Table.find Row.id id (fun row => ctx.sees (some row.tenantId)) .QuotaNotFound t.rows
    .ok ((), t.delete quota.id)

/-- `transaction`. -/
def transaction {α : Type} (m : QuotaCall α) : QuotaCall α := Exec.rollback (fun t _ => t) m

/-! ## The driver -/

/-- `_get_quotas`. -/
def getQuotasStored (tenantId : String) : QuotaCall (List (String × Int)) := do
  let quotas ← findQuotas q ctx tenantId
  pure (quotas.map fun quota => (quota.resource, quota.hardLimit))

/-- `Quota.get_quotas`. What is stored goes over the defaults, resource by resource. -/
def getQuotas (tenantId : String) : QuotaCall (List (String × Int)) := do
  let quotas ← getQuotasStored q ctx tenantId
  pure (quotas.foldl (fun quotas p => Objects.assign quotas p.1 p.2) (getDefaultQuotas q))

/--
`get_quota`. There is no way back to the default here: a limit that has never been set raises.
-/
def getQuota (tenantId resource : String) : QuotaCall (String × Int) := do
  let quota ← findQuota q ctx.elevated tenantId resource
  pure (resource, quota.hardLimit)

/--
`set_quota`. The INSERT is tried first, and a row that is there is then looked up by the texts.
-/
def setQuota (tenantId resource : String) (hardLimit : Int) : QuotaCall (String × Int) :=
  transaction do
    Exec.raiseIf (((getDefaultQuotas q).lookup resource).isNone) (.QuotaResourceUnknown resource)
    Exec.catching (· == .DuplicateQuota) (createQuota q tenantId resource hardLimit) do
      let quota ← findQuota q ctx.elevated tenantId resource
      updateQuota q ctx.elevated quota hardLimit
    pure (resource, hardLimit)

/-- `reset_quotas`. What the criterion matches is deleted, whoever it belongs to. -/
def resetQuotas (tenantId : String) : QuotaCall Unit :=
  transaction do
    let quotas ← findQuotas q ctx.elevated tenantId
    Exec.forEach (fun quota => deleteQuota ctx.elevated quota.id) quotas

/--
The loop of `limit_check`. A value that has reached its limit is over it already, since the call
is about adding one more.
-/
def checkLimits (quotas : List (String × Int)) : List (String × Int) → Except Raised Unit
  | [] => .ok ()
  | (resource, value) :: values =>
    match quotas.lookup resource with
    | some limit => if limit ≤ value then .error .OverQuota else checkLimits quotas values
    | none => .error (.QuotaResourceUnknown resource)

/-- `limit_check`. -/
def limitCheck (tenantId : String) (values : List (String × Int)) : QuotaCall Unit := do
  let quotas ← getQuotas q ctx tenantId
  Exec.read fun _ => checkLimits quotas values

/-! ## Histories -/

/-- A call that changes limits. -/
inductive Write where
  | set (ctx : Context) (tenantId resource : String) (hardLimit : Int)
  | reset (ctx : Context) (tenantId : String)

def Write.tenantId : Write → String
  | .set _ tenantId _ _ => tenantId
  | .reset _ tenantId => tenantId

/-- What a call leaves of the table. -/
def step : Write → Quotas → Quotas
  | .set ctx tenantId resource hardLimit, t => (setQuota q ctx tenantId resource hardLimit t).2
  | .reset ctx tenantId, t => (resetQuotas q ctx tenantId t).2

/-- The resources there are. -/
def Known (resource : String) : Prop := ((getDefaultQuotas q).lookup resource).isSome = true

instance (resource : String) : Decidable (Known q resource) :=
  inferInstanceAs (Decidable (_ = true))

/-- The limits that are in force: by tenant and resource, the one set last. -/
abbrev Limits := String → String → Option Int

/--
What a call means for the limits. One for a resource there is not sets nothing, nor does one with a
limit that the column does not hold.
-/
def Limits.step (limits : Limits) : Write → Limits
  | .set _ tenantId resource hardLimit =>
    if Known q resource ∧ q.fits hardLimit = true then
      fun t r => if t = tenantId ∧ r = resource then some hardLimit else limits t r
    else limits
  | .reset _ tenantId => fun t r => if t = tenantId then none else limits t r

/-- The limits after some calls. -/
def limitsAfter (calls : List Write) : Limits := calls.foldl (Limits.step q) fun _ _ => none

/-- The limit of a resource: the one set last, or the default. -/
def effective (limits : Limits) (tenantId resource : String) : Option Int :=
  (limits tenantId resource).or ((getDefaultQuotas q).lookup resource)

/--
The text of a tenant, put into a criterion, names the tenant among some rows. It may fail in both
ways: the text of a tenant may be read as an operator, or as a pattern that fits others too.
-/
def Names (tenantId : String) (rows : List Row) : Prop :=
  ∃ holds, applyCriterion q tenantId = .ok holds ∧
    ∀ row ∈ rows, holds row.tenantId = decide (row.tenantId = tenantId)

/-- A call whose tenant is looked up in the table finds the rows of the tenant. -/
def Finds : Write → Quotas → Prop
  | .set _ tenantId resource _, t =>
    (tenantId, resource) ∈ t.rows.map Row.key →
      Names q tenantId (t.rows.filter fun row => row.resource = resource)
  | .reset _ tenantId, t => Names q tenantId t.rows

/-! ## What a tenant should get -/

section

variable (limits : Limits) (tenantId : String) (t : Quotas)

/-- `get_quotas` gives the limit of each resource. -/
def QuotasRight : Prop :=
  ∃ quotas, getQuotas q ctx tenantId t = (.ok quotas, t) ∧
    ∀ resource, Known q resource →
      quotas.lookup resource = effective q limits tenantId resource

/-- `get_quota` gives the limit of a resource. -/
def QuotaRight (resource : String) : Prop :=
  ∃ limit, getQuota q ctx tenantId resource t = (.ok (resource, limit), t) ∧
    effective q limits tenantId resource = some limit

/-- `limit_check` lets values through as long as each is below the limit of its resource. -/
def LimitsEnforced : Prop :=
  ∀ values : List (String × Int),
    (∀ p ∈ values, Known q p.1) →
      ((∀ p ∈ values, ∀ limit, effective q limits tenantId p.1 = some limit → p.2 < limit) →
        limitCheck q ctx tenantId values t = (.ok (), t)) ∧
      ((∃ p ∈ values, ∃ limit, effective q limits tenantId p.1 = some limit ∧ limit ≤ p.2) →
        limitCheck q ctx tenantId values t = (.error .OverQuota, t))

end

/-- A tenant gets the same answers from two tables. -/
structure SameAnswers (tenantId : String) (t t' : Quotas) : Prop where
  quotas : (getQuotas q ctx tenantId t).1.map (fun quotas resource => quotas.lookup resource) =
    (getQuotas q ctx tenantId t').1.map fun quotas resource => quotas.lookup resource
  quota : ∀ resource, Known q resource →
    (getQuota q ctx tenantId resource t).1 = (getQuota q ctx tenantId resource t').1
  checks : ∀ values,
    (limitCheck q ctx tenantId values t).1 = (limitCheck q ctx tenantId values t').1

end StorageQuota

end Designate
