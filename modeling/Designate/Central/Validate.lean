import Designate.Storage

/-!
# The checks central makes

Quotas, names, placement. Every check reads the tables and either passes or
raises; none changes anything.
-/

namespace Designate

/-- A check: it reads the tables and passes or raises. -/
abbrev Check := Except Exc Unit

/-- `quota.limit_check` for one resource. -/
def limitCheck (conf : Conf) (tenantId : Option String) (resource : Resource) (value : Int) :
    Check :=
  if value ≥ conf.quota tenantId resource then .error .OverQuota else .ok ()

/-- `_enforce_zone_quota`. -/
def enforceZoneQuota (ctx : Context) (conf : Conf) (tenantId : Option String) (db : Db) : Check :=
  limitCheck conf tenantId .zones
    (db.zones.filter fun z => z.tenantId == tenantId && ctx.sees z.tenantId && !z.deleted).length

/-- `_enforce_recordset_quota`. -/
def enforceRecordsetQuota (ctx : Context) (conf : Conf) (zone : Zone) (db : Db) : Check :=
  limitCheck conf zone.tenantId .zoneRecordsets
    (countRecordsets ctx (fun r => r.zoneId == zone.id) db)

/-- `_enforce_record_quota`, for a recordset object that carries `len` records. -/
def enforceRecordQuota (ctx : Context) (conf : Conf) (zone : Zone) (recordsetId : Nat)
    (managed : Bool) (len : Nat) (db : Db) : Check :=
  if managed then .ok ()
  else
    let zoneRecords := countRecords ctx (fun r => r.zoneId == zone.id && !r.managed) db
    let recordsetRecords := countRecords ctx (fun r => r.recordsetId == recordsetId && !r.managed) db
    let adjustedZoneRecords : Int := zoneRecords - recordsetRecords + len
    (limitCheck conf zone.tenantId .zoneRecords adjustedZoneRecords).bind fun _ =>
      limitCheck conf zone.tenantId .recordsetRecords recordsetRecords

/-- `_is_valid_ttl`. -/
def isValidTtl (conf : Conf) (ttl : Nat) : Check :=
  match conf.minTtl with
  | none => .ok ()
  | some minTtl => if ttl < minTtl ∧ !conf.useLowTtl then .error .InvalidTTL else .ok ()

/-- `_is_valid_recordset_name`. -/
def isValidRecordsetName (conf : Conf) (zoneName recordsetName : String) : Check :=
  if !Text.endsWith recordsetName "." then .error (.ValueError "Please supply a FQDN")
  else if Text.len recordsetName > conf.maxRecordsetNameLen then .error .InvalidRecordSetName
  else if recordsetName ≠ zoneName ∧ !Text.endsWith recordsetName ("." ++ zoneName) then
    .error .InvalidRecordSetLocation
  else .ok ()

/-- `_is_valid_recordset_placement`: a CNAME sits alone, and not at the apex. -/
def isValidRecordsetPlacement (ctx : Context) (zone : Zone) (name : String) (type : RRType)
    (recordsetId : Option Nat) (db : Db) : Check :=
  if type = .CNAME ∧ name = zone.name then .error .InvalidRecordSetLocation
  else
    match findRecordsets ctx
        (fun r => r.zoneId == zone.id && r.name == name && (type == .CNAME || r.type == .CNAME))
        db with
    | [] => .ok ()
    | [r] => if some r.id ≠ recordsetId then .error .InvalidRecordSetLocation else .ok ()
    | _ => .error .InvalidRecordSetLocation

/-- `_is_valid_recordset_placement_subzone`. -/
def isValidRecordsetPlacementSubzone (conf : Conf) (zone : Zone) (name : String) (db : Db) :
    Check :=
  if zone.name = name then .ok ()
  else if (db.zones.filter fun z => z.parentZoneId == some zone.id && !z.deleted).any fun z =>
      (isValidRecordsetName conf z.name name).toBool then
    .error .InvalidRecordSetLocation
  else .ok ()

/-- `_is_valid_recordset_records`. -/
def isValidRecordsetRecords (type : RRType) (len : Nat) : Check :=
  if len > 1 ∧ type = .CNAME then
    .error (.BadRequest "CNAME recordsets may not have more than 1 record")
  else .ok ()

/-- `_validate_recordset`; `ttl` is the value to check, if there is one. -/
def validateRecordset (ctx : Context) (conf : Conf) (zone : Zone) (recordsetId : Option Nat)
    (name : String) (type : RRType) (ttl : Option Nat) (len : Nat) (db : Db) : Check :=
  (match ttl with
    | some ttl => isValidTtl conf ttl
    | none => .ok ()).bind fun _ =>
  (isValidRecordsetName conf zone.name name).bind fun _ =>
  (isValidRecordsetPlacement ctx zone name type recordsetId db).bind fun _ =>
  (isValidRecordsetPlacementSubzone conf zone name db).bind fun _ =>
  isValidRecordsetRecords type len

/-- Make a check of the tables as they are now. -/
def check (c : Db → Check) : Call Unit := Exec.read fun w => c w.db

end Designate
