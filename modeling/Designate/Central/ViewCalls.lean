import Designate.Central.Views
import Designate.Central.ZoneTree

/-!
# Calls about views, ACLs and zones, with several of them under way

Nothing in the database keeps a view, an ACL or a zone from going while something refers
to it, no lock is held, and only some of the writes are in a transaction. So a call here is
the statement it comes to next: each step of a call is one read or one write of a row that
refers to another or is referred to, and between two of its steps other calls take theirs.
Reads that follow each other are one step, and so is what the worker does with one zone, or
with the priorities: neither writes such a row.
-/

namespace Designate

namespace Views

/-- A `delete_view` of a view that was found; `plan n` are the failures at its `n`-th zone. -/
structure ViewDeletion where
  ctx : Context
  conf : Conf
  plan : Nat → ZoneFaults
  viewId : Nat

/-- A `create_zone` that has passed its checks. -/
structure ZoneCreation where
  ctx : Context
  conf : Conf
  faults : ZoneFaults
  plan : Nat → ZoneFaults
  zone : NewZone
  viewId : Nat
  parent : Option Nat
  subzones : List Zone

/-- What a call does next. -/
inductive Task where
  /-- The call has returned or raised. -/
  | done
  -- `create_view`
  | createView (ctx : Context) (device : ViewDevice) (name : String) (aclIds : List Nat)
  | storeInfo (view : View) (info : ZdnsViewInfo) (aclIds : List Nat)
  | storeView (view : View) (info : ZdnsViewInfo) (aclIds : List Nat)
  | storeAssociation (view : View) (info : ZdnsViewInfo) (aclIds : List Nat)
  /-- The rows of `view_acl` still to come, and the name of the view if it is a new one. -/
  | storeViewAcls (viewId : Nat) (aclIds : List Nat) (name : Option String)
  | lowerOthers (name : String)
  -- `update_view` and `delete_view`
  | updateView (ctx : Context) (refused : Bool) (viewId : Nat) (aclIds : List Nat)
  | deleteView (refused : Bool) (d : ViewDeletion)
  | findViewAcls (viewId : Nat) (next : Task)
  | dropViewAcls (ids : List Nat) (next : Task)
  | findAssociation (d : ViewDeletion)
  | dropAssociations (d : ViewDeletion) (infoId : Nat)
  | getInfo (d : ViewDeletion) (infoId : Nat)
  | dropInfo (d : ViewDeletion) (info : ZdnsViewInfo)
  | raiseOthers (d : ViewDeletion) (info : ZdnsViewInfo)
  | removeView (d : ViewDeletion)
  | findZones (d : ViewDeletion)
  | deleteZones (d : ViewDeletion) (plan : Nat → ZoneFaults) (zones : List Zone)
  -- `create_acl` and `delete_acl`
  | createAcl (ctx : Context) (failing : Option Acls.AclSite) (acl : Acls.NewAcl)
    (response : Acls.AclResponse)
  | mirrorAcl (ctx : Context) (failing : Option Acls.AclSite) (aclId : Nat)
    (response : Acls.AclResponse)
  | takeBackAcl (ctx : Context) (aclId : Nat)
  | deleteAcl (ctx : Context) (failing : Option Acls.AclSite) (aclId : Nat)
  | unmirrorAcl (ctx : Context) (failing : Option Acls.AclSite) (aclId : Nat)
  | removeAcl (ctx : Context) (failing : Option Acls.AclSite) (aclId : Nat)
  -- `create_zone` and `delete_zone`
  | createZone (ctx : Context) (conf : Conf) (faults : ZoneFaults) (plan : Nat → ZoneFaults)
    (zone : NewZone)
  | storeZone (c : ZoneCreation)
  | actOnZone (c : ZoneCreation) (zone : Zone)
  | furnishZone (c : ZoneCreation) (zoneId : Nat)
  | adoptZones (c : ZoneCreation) (zoneId : Nat)
  | deleteZone (ctx : Context) (conf : Conf) (faults : ZoneFaults) (zoneId : Nat)
  | undoZone (ctx : Context) (conf : Conf) (faults : ZoneFaults) (zone : Zone)

/-- The calls as they come in. -/
inductive ViewRequest where
  | createView (ctx : Context) (device : ViewDevice) (name : String) (aclIds : List Nat)
  | updateView (ctx : Context) (refused : Bool) (viewId : Nat) (aclIds : List Nat)
  | deleteView (refused : Bool) (d : ViewDeletion)
  | createAcl (ctx : Context) (failing : Option Acls.AclSite) (acl : Acls.NewAcl)
    (response : Acls.AclResponse)
  | deleteAcl (ctx : Context) (failing : Option Acls.AclSite) (aclId : Nat)
  | createZone (ctx : Context) (conf : Conf) (faults : ZoneFaults) (plan : Nat → ZoneFaults)
    (zone : NewZone)
  | deleteZone (ctx : Context) (conf : Conf) (faults : ZoneFaults) (zoneId : Nat)

/-- Where a call begins. -/
def ViewRequest.task : ViewRequest → Task
  | .createView ctx device name aclIds => .createView ctx device name aclIds
  | .updateView ctx refused viewId aclIds => .updateView ctx refused viewId aclIds
  | .deleteView refused d => .deleteView refused d
  | .createAcl ctx failing acl response => .createAcl ctx failing acl response
  | .deleteAcl ctx failing aclId => .deleteAcl ctx failing aclId
  | .createZone ctx conf faults plan zone => .createZone ctx conf faults plan zone
  | .deleteZone ctx conf faults zoneId => .deleteZone ctx conf faults zoneId

/-! ## The steps of a view -/

/-- The looks of `create_view` at the ACLs, and the answer of the device. -/
def askNewView (ctx : Context) (device : ViewDevice) (name : String) (aclIds : List Nat) :
    AclCall ViewResponse := do
  let acls ← aclNames ctx aclIds
  Exec.read fun _ =>
    match device name acls with
    | some response => .ok response
    | none => .error .StepFailed

/-- Both identifiers are made here; nothing looks at them before their rows are there. -/
def beginView (ctx : Context) (name : String) (aclIds : List Nat) (response : ViewResponse) :
    Call Task := do
  let infoId ← generateUuid
  let id ← generateUuid
  pure (.storeInfo ⟨id, some ctx.tenant, name⟩ ⟨infoId, response.name, response.priority⟩ aclIds)

/-- The looks of `update_view`, and the device. -/
def askUpdatedView (ctx : Context) (refused : Bool) (viewId : Nat) (aclIds : List Nat) :
    AclCall Unit := do
  let _ ← onWorld (getView ctx (some viewId))
  let _ ← aclNames ctx aclIds
  Exec.raiseIf refused .StepFailed

/-- The look of `delete_view`, and the device. -/
def askDeletedView (refused : Bool) (d : ViewDeletion) : Call Unit := do
  let view ← getView d.ctx (some d.viewId)
  deleteViewAction refused view

/-- `find_view_acls`. -/
def findViewAcls (viewId : Nat) : Call (List ViewAcl) :=
  Exec.read fun w => .ok (w.db.viewAcls.filter fun a => a.viewId == viewId)

/-- `_delete_view_acl`. -/
def deleteViewAcl (id : Nat) : Call Unit :=
  updateDb fun db => { db with viewAcls := Table.remove ViewAcl.id id db.viewAcls }

/-- `_find_view_zdns_view_storage`. -/
def findViewZdnsView (viewId : Nat) : Call ViewZdnsView :=
  Exec.read fun w =>
    match w.db.viewZdnsViews.find? fun a => a.viewId == viewId with
    | some association => .ok association
    | none => .error .IndexError

/-- `_delete_view_zdns_view`. -/
def deleteViewZdnsView (viewId : Nat) : Call Unit :=
  updateDb fun db => { db with
    viewZdnsViews := Table.remove ViewZdnsView.viewId viewId db.viewZdnsViews }

/-- `get_zdns_view_info` of storage. -/
def getZdnsViewInfo (id : Nat) : Call ZdnsViewInfo :=
  Exec.read fun w =>
    match w.db.zdnsViewInfos.find? fun i => i.id == id with
    | some info => .ok info
    | none => .error .IndexError

/-- `delete_zdns_view_info` of storage. -/
def deleteZdnsViewInfoRow (id : Nat) : Call Unit :=
  updateDb fun db => { db with
    zdnsViewInfos := Table.remove ZdnsViewInfo.id id db.zdnsViewInfos }

/-- The loop of `_delete_zdns_view_info`. -/
def raiseOthers (priority : Nat) : Call Unit := do
  let infos ← findZdnsViewInfos
  Exec.forEach (fun i =>
    if priority < i.priority then updateZdnsViewInfo i.id (i.priority - 1) else pure ()) infos

/-- `_delete_view_in_storage`. -/
def deleteViewInStorage (ctx : Context) (viewId : Nat) : Call Unit := do
  let view ← getView ctx (some viewId)
  updateDb fun db => { db with views := Table.remove View.id view.id db.views }

/-! ## The steps of an ACL and of a zone -/

/-- What `create_acl` does before it calls the worker. -/
def storeAcl (ctx : Context) (failing : Option Acls.AclSite) (acl : Acls.NewAcl) :
    AclCall AclRow := do
  Acls.checkNetworks acl.networks
  Acls.createAclInStorage ctx failing acl.name acl.poolId acl.networks.joined

/-- The looks of `delete_acl`. -/
def checkAclUnused (ctx : Context) (aclId : Nat) : AclCall Unit := do
  let _ ← Acls.getAcl ctx aclId
  let view ← Acls.getAclViewAsso aclId
  Exec.raiseIf (!view.isEmpty) .AclUsedByView

/-- The looks of `create_zone`. -/
def checkNewZone (ctx : Context) (conf : Conf) (faults : ZoneFaults) (plan : Nat → ZoneFaults)
    (zone : NewZone) : Call ZoneCreation := do
  let zone := zone.owned ctx
  let (parent, subzones) ← createZoneChecks ctx conf zone
  match zone.viewId with
  | none => Exec.raise .NeedView
  | some viewId => do
    let _ ← getView ctx (some viewId)
    pure ⟨ctx, conf, faults, plan, zone, viewId, parent, subzones⟩

/-- What `delete_zone` does before it calls the worker. -/
def storeZoneDeletion (ctx : Context) (zoneId : Nat) : Call Zone := do
  let zone ← deleteZoneChecks ctx zoneId
  storeDeletion ctx zone

/-! ## Running -/

/-- One step of a call, and what the call does after it. -/
def Task.run : Task → AclCall Task
  | .done => pure .done
  | .createView ctx device name aclIds => do
    let response ← askNewView ctx device name aclIds
    onWorld (beginView ctx name aclIds response)
  | .storeInfo view info aclIds => do
    onWorld (insertZdnsViewInfo info)
    pure (.storeView view info aclIds)
  | .storeView view info aclIds => do
    onWorld (insertView view)
    pure (.storeAssociation view info aclIds)
  | .storeAssociation view info aclIds => do
    onWorld (insertViewZdnsView ⟨view.id, info.id⟩)
    pure (.storeViewAcls view.id aclIds (some view.name))
  | .storeViewAcls _ [] none => pure .done
  | .storeViewAcls _ [] (some name) => pure (.lowerOthers name)
  | .storeViewAcls viewId (aclId :: aclIds) name => do
    onWorld (createViewAcl viewId aclId)
    pure (.storeViewAcls viewId aclIds name)
  | .lowerOthers name => do
    onWorld (Views.lowerOthers name)
    pure .done
  | .updateView ctx refused viewId aclIds => do
    askUpdatedView ctx refused viewId aclIds
    pure (.findViewAcls viewId (.storeViewAcls viewId aclIds none))
  | .deleteView refused d => do
    onWorld (askDeletedView refused d)
    pure (.findViewAcls d.viewId (.findAssociation d))
  | .findViewAcls viewId next => do
    let rows ← onWorld (Views.findViewAcls viewId)
    pure (.dropViewAcls (rows.map ViewAcl.id) next)
  | .dropViewAcls [] next => pure next
  | .dropViewAcls (id :: ids) next => do
    onWorld (deleteViewAcl id)
    pure (.dropViewAcls ids next)
  | .findAssociation d => do
    let association ← onWorld (findViewZdnsView d.viewId)
    pure (.dropAssociations d association.zdnsViewId)
  | .dropAssociations d infoId => do
    onWorld (deleteViewZdnsView d.viewId)
    pure (.getInfo d infoId)
  | .getInfo d infoId => do
    let info ← onWorld (getZdnsViewInfo infoId)
    pure (.dropInfo d info)
  | .dropInfo d info => do
    onWorld (deleteZdnsViewInfoRow info.id)
    pure (.raiseOthers d info)
  | .raiseOthers d info => do
    onWorld (Views.raiseOthers info.priority)
    pure (.removeView d)
  | .removeView d => do
    onWorld (deleteViewInStorage d.ctx d.viewId)
    pure (.findZones d)
  | .findZones d => do
    let zones ← onWorld (Designate.findZones d.ctx fun z => z.viewId == some d.viewId)
    pure (.deleteZones d d.plan zones)
  | .deleteZones _ _ [] => pure .done
  | .deleteZones d plan (zone :: zones) => do
    onWorld (deleteZoneOfView d.ctx d.conf (plan 0) zone)
    pure (.deleteZones d (fun n => plan (n + 1)) zones)
  | .createAcl ctx failing acl response => do
    let row ← storeAcl ctx failing acl
    pure (.mirrorAcl ctx failing row.id response)
  | .mirrorAcl ctx failing aclId response =>
    Exec.catching (fun _ => true)
      (do Acls.aclAction failing (Acls.createZdnsAcl failing aclId response); pure .done)
      (pure (.takeBackAcl ctx aclId))
  | .takeBackAcl ctx aclId => do
    let _ ← Acls.deleteAclInStorage ctx aclId
    pure .done
  | .deleteAcl ctx failing aclId => do
    checkAclUnused ctx aclId
    pure (.unmirrorAcl ctx failing aclId)
  | .unmirrorAcl ctx failing aclId => do
    Acls.aclAction failing (Acls.deleteZdnsAcl failing aclId)
    pure (.removeAcl ctx failing aclId)
  | .removeAcl ctx failing aclId => do
    Acls.step failing .aclWrite
    let _ ← Acls.deleteAclRow ctx aclId
    pure .done
  | .createZone ctx conf faults plan zone => do
    let c ← onWorld (checkNewZone ctx conf faults plan zone)
    pure (.storeZone c)
  | .storeZone c => do
    let zone ← onWorld (createZoneInStorage c.ctx c.conf c.zone c.viewId c.parent)
    pure (.actOnZone c zone)
  | .actOnZone c zone => do
    onWorld (zoneAction c.ctx c.conf c.faults zone)
    pure (.furnishZone c zone.id)
  | .furnishZone c zoneId => do
    onWorld (do createDefaultRecord c.ctx c.conf (← getZone c.ctx zoneId))
    pure (.adoptZones c zoneId)
  | .adoptZones c zoneId => do
    onWorld (adoptSubzones c.ctx c.conf zoneId c.plan c.subzones)
    pure .done
  | .deleteZone ctx conf faults zoneId => do
    let zone ← onWorld (storeZoneDeletion ctx zoneId)
    pure (if ctx.abandon then .done else .undoZone ctx conf faults zone)
  | .undoZone ctx conf faults zone => do
    onWorld (zoneAction ctx conf faults zone)
    pure .done

/-- The services, with a numbered place for every call. -/
structure Service where
  estate : Estate := {}
  tasks : Nat → Task := fun _ => .done

/-- What a step of a task leaves: a call that raises does nothing more. -/
def Task.outcome (t : Task) (e : Estate) : Task × Estate :=
  match t.run e with
  | (.ok t', e') => (t', e')
  | (.error _, e') => (.done, e')

inductive ViewStep where
  /-- A call comes in and gets the place `n`, which has to be free. -/
  | start (n : Nat) (request : ViewRequest)
  /-- The call at the place `n` takes its next step. -/
  | go (n : Nat)

/-- Only a free place is given to a call. -/
def Task.free : Task → Bool
  | .done => true
  | _ => false

/-- One step of everything. -/
def Service.next (step : ViewStep) (s : Service) : Service :=
  match step with
  | .start n request =>
    if (s.tasks n).free then { s with tasks := Function.update s.tasks n request.task } else s
  | .go n =>
    ⟨((s.tasks n).outcome s.estate).2,
      Function.update s.tasks n ((s.tasks n).outcome s.estate).1⟩

end Views

end Designate
