import Designate.Central.Status
import Designate.Worker.ZoneAction
import Mathlib.Data.List.Sort

/-!
# Zone and view operations of central

`create_zone` with the default records, `update_zone`, `delete_zone` and
`delete_view`. A zone that brings recordsets along (an import) is left out.
-/

namespace Designate

/-! ## Checks -/

/-- `s.strip('.')`. -/
def stripDots (s : String) : List Char :=
  ((s.toList.dropWhile (· == '.')).reverse.dropWhile (· == '.')).reverse

/-- `_is_valid_zone_name`; the TLD and blacklist tables speak through `allowedZoneName`. -/
def isValidZoneName (conf : Conf) (name : String) : Check :=
  if Text.len name > conf.maxZoneNameLen then .error .InvalidZoneName
  else if (Text.splitChars '.' (stripDots name)).length ≤ 1 then .error .InvalidZoneName
  else if conf.allowedZoneName name then .ok ()
  else .error .InvalidZoneName

/-- The one live zone of the pool with the given name, whoever owns it. -/
def findZoneByName (name : String) (poolId : Nat) (db : Db) : Except Exc Zone :=
  Table.one (db.zones.filter fun z => z.name == name && z.poolId == poolId && !z.deleted)
    .ZoneNotFound

/-- The names `_is_subzone` tries: the labels from the second on, then from the third, … -/
def parentNames (name : String) : List String :=
  ((Text.split name '.').tails.tail.filter fun labels => !labels.isEmpty).map
    (String.intercalate ".")

/--
`_is_subzone`: the closest zone above. The names are tried from the longest on, so the first that
is found is the closest.
-/
def isSubzone (name : String) (poolId : Nat) (db : Db) : Option Zone :=
  (parentNames name).findSome? fun parent => (findZoneByName parent poolId db).toOption

/--
`_is_superzone`: the zones below. It is asked for with `LIKE`, for which the characters of the
name that are wildcards stay wildcards, and which may not tell upper case from lower.
-/
def isSuperzone (conf : Conf) (name : String) (poolId : Nat) (db : Db) : List Zone :=
  db.zones.filter fun z =>
    conf.like ('%' :: '.' :: name.toList) z.name.toList && z.poolId == poolId && !z.deleted

/--
The parent of a new zone, which has to be of the same tenant. Below a zone of another tenant the
new one is refused; the source does not look for one of the same tenant further up.
-/
def parentZoneId (name : String) (tenantId : Option String) (poolId : Nat) (db : Db) :
    Except Exc (Option Nat) :=
  match isSubzone name poolId db with
  | none => .ok none
  | some parent =>
    if parent.tenantId = tenantId then .ok (some parent.id) else .error .IllegalChildZone

section

variable (ctx : Context) (conf : Conf)

/-! ## Default records -/

/-- The name the device gives a default record, as central computes it. -/
def defaultRRId (name : String) (type : String) (data : String) (ttl : Nat) : RRId :=
  .text (String.intercalate "$" [name, type, data,
    String.ofList (Text.base64 ((toString ttl).toList.map Char.toNat))])

/--
`_create_default_ns` and `_create_default_a`: a managed record, mirrored at once. The record does
not go through the worker: central mirrors it and marks it as done.
-/
def createDefault (zone : Zone) (name : String) (type : RRType) (typeName : String)
    (data : String) : Call Unit := do
  let recordset ← createRecordsetInStorage ctx conf zone
    { name := name, type := type, ttl := some zone.ttl, description := none
      records := [Record.newManaged data] }
  Exec.forEach (fun record => do
    let record ← createRecordInStorage ctx conf zone recordset record
    match record.id with
    | none => Exec.raise .AttributeError
    | some id =>
      createZdnsRecord Faults.none id
        { rrId := defaultRRId name typeName data zone.ttl, name := recordset.name,
          type := recordset.type, ttl := recordset.ttlValue, rdata := record.text })
    recordset.records
  updateRecordsetStatus ctx conf recordset.id .CREATE .SUCCESS

/-- `create_default_record`. -/
def createDefaultRecord (zone : Zone) : Call Unit :=
  transaction do
    createDefault ctx conf zone zone.name .NS "NS" ("ns." ++ zone.name)
    createDefault ctx conf zone ("ns." ++ zone.name) .A "A" "127.0.0.1"

/-! ## Zones -/

/--
`update_zone`, for a zone object loaded as `origin`; if the worker fails, the fields go back.
What goes back is the `ttl` and the parent only, since these are what `origin` and `zone` may
differ in here.
-/
def updateZone (faults : ZoneFaults) (origin zone : Zone) : Call Zone := do
  check fun _ => if zone.ttl ≠ origin.ttl then isValidTtl conf zone.ttl else .ok ()
  let stored ← getZone ctx zone.id
  let zone ← updateZoneInStorage ctx conf zone true
  Exec.onError (zoneAction ctx conf faults zone) do
    let _ ← updateZoneRow ctx zone.id fun z =>
      { z with ttl := stored.ttl, parentZoneId := stored.parentZoneId }
  getZone ctx zone.id

/--
The loop of `create_zone` over the zones below the new one. A failure stops the loop: the zones
that come later keep their old parent.
-/
def adoptSubzones (zoneId : Nat) : (Nat → ZoneFaults) → List Zone → Call Unit
  | _, [] => pure ()
  | plan, subzone :: subzones => do
    let _ ← updateZone ctx conf (plan 0) subzone { subzone with parentZoneId := some zoneId }
    adoptSubzones zoneId (fun n => plan (n + 1)) subzones

/--
`_create_zone_in_storage`. The serial of a primary zone is the time, the one of a secondary zone
starts at 1, to be overwritten by the first transfer.
-/
def createZoneInStorage (zone : NewZone) (viewId : Nat) (parentZoneId : Option Nat) : Call Zone :=
  transaction do
    let zone ← insertZone
      { id := 0, tenantId := zone.tenantId, name := zone.name, type := zone.type
        ttl := zone.ttl.getD conf.defaultTtl
        serial := zone.serial.getD (if zone.type = .SECONDARY then 1 else ctx.now)
        action := .CREATE, status := .PENDING, poolId := conf.poolId, viewId := some viewId
        parentZoneId := parentZoneId, deleted := false }
    let _ ← getZone ctx zone.id
    pure zone

/--
The checks of `create_zone`: the parent of the new zone, and the zones below it. All of them read
before the first write, and none holds the tables: another request may write in between.
-/
def createZoneChecks (zone : NewZone) : Call (Option Nat × List Zone) := do
  check (enforceZoneQuota ctx conf zone.tenantId)
  check fun _ => isValidZoneName conf zone.name
  check fun _ => match zone.ttl with
    | some ttl => isValidTtl conf ttl
    | none => .ok ()
  let parent ← Exec.read fun w => parentZoneId zone.name zone.tenantId conf.poolId w.db
  let subzones ← Exec.read fun w => .ok (isSuperzone conf zone.name conf.poolId w.db)
  Exec.raiseIf (subzones.any fun z => z.tenantId ≠ zone.tenantId) .IllegalParentZone
  Exec.raiseIf conf.poolNsRecords.isEmpty .NoServersConfigured
  pure (parent, subzones)

/-- The caller's tenant, where the zone has none. -/
def NewZone.owned (zone : NewZone) : NewZone :=
  { zone with tenantId := match zone.tenantId with
                          | some t => if t = "" then some ctx.tenant else some t
                          | none => some ctx.tenant }

/--
`create_zone`; the update of the `n`-th zone below runs under `plan n`. The worker is told before
the default records are there, and a failure of what follows does not take the zone back.
-/
def createZone (faults : ZoneFaults) (plan : Nat → ZoneFaults) (zone : NewZone) :
    Call Zone := do
  let zone := zone.owned ctx
  let (parent, subzones) ← createZoneChecks ctx conf zone
  match zone.viewId with
  | none => Exec.raise .NeedView
  | some viewId => do
    let _ ← getView ctx (some viewId)
    let zone ← createZoneInStorage ctx conf zone viewId parent
    zoneAction ctx conf faults zone
    let zone ← getZone ctx zone.id
    createDefaultRecord ctx conf zone
    adoptSubzones ctx conf zone.id plan subzones
    pure zone

/--
`delete_zone`; `abandon` only deletes the row. The children are looked up as the caller sees
them, so a child of another tenant does not stand in the way.
-/
def deleteZone (faults : ZoneFaults) (zoneId : Nat) : Call Zone := do
  let zone ← getZone ctx zoneId
  let children ← findZones ctx fun z => z.parentZoneId == some zoneId
  Exec.raiseIf (!children.isEmpty) .ZoneHasSubZone
  if ctx.abandon then deleteZoneRow ctx zone.id
  else do
    let zone ← deleteZoneInStorage ctx zone
    zoneAction ctx conf faults zone
    pure zone

/-! ## Views -/

/-- `find_zdns_view_infos`, in the order of the priorities. -/
def findZdnsViewInfos : Call (List ZdnsViewInfo) :=
  Exec.read fun w => .ok (w.db.zdnsViewInfos.insertionSort ZdnsViewInfo.Before)

/-- `_update_zdns_view_info_storage`. -/
def updateZdnsViewInfo (id priority : Nat) : Call Unit :=
  updateDb fun db => { db with
    zdnsViewInfos := Table.update ZdnsViewInfo.id id (fun i => { i with priority := priority })
      db.zdnsViewInfos }

/--
`_delete_zdns_view_info`: the views below move up. Both lookups take the first row without
looking whether there is one, hence the `IndexError`.
-/
def deleteZdnsViewInfo (viewId : Nat) : Call Unit := do
  let association ← Exec.read fun w =>
    match w.db.viewZdnsViews.find? fun a => a.viewId == viewId with
    | some association => .ok association
    | none => .error Exc.IndexError
  updateDb fun db => { db with
    viewZdnsViews := Table.remove ViewZdnsView.viewId viewId db.viewZdnsViews }
  let info ← Exec.read fun w =>
    match w.db.zdnsViewInfos.find? fun i => i.id == association.zdnsViewId with
    | some info => .ok info
    | none => .error Exc.IndexError
  updateDb fun db => { db with
    zdnsViewInfos := Table.remove ZdnsViewInfo.id association.zdnsViewId db.zdnsViewInfos }
  let infos ← findZdnsViewInfos
  Exec.forEach (fun i =>
    if info.priority < i.priority then updateZdnsViewInfo i.id (i.priority - 1) else pure ()) infos

/-- What `delete_view` does to each zone of the view. -/
def deleteZoneOfView (faults : ZoneFaults) (zone : Zone) : Call Unit := do
  deleteZdnsZone faults.sites zone.id
  updateZoneStatus ctx conf faults.success zone.id .DELETE .SUCCESS

/-- The loop of `delete_view` over the zones of the view. -/
def deleteZonesOfView : (Nat → ZoneFaults) → List Zone → Call Unit
  | _, [] => pure ()
  | plan, zone :: zones => do
    deleteZoneOfView ctx conf (plan 0) zone
    deleteZonesOfView (fun n => plan (n + 1)) zones

/-- `delete_view`. The zones of the view are deleted last, when the view is gone already. -/
def deleteView (refused : Bool) (plan : Nat → ZoneFaults) (viewId : Nat) : Call Unit := do
  let view ← getView ctx (some viewId)
  deleteViewAction refused view
  updateDb fun db => { db with viewAcls := Table.remove ViewAcl.viewId viewId db.viewAcls }
  deleteZdnsViewInfo viewId
  updateDb fun db => { db with views := Table.remove View.id viewId db.views }
  let zones ← findZones ctx fun z => z.viewId == some viewId
  deleteZonesOfView ctx conf plan zones

end

end Designate
