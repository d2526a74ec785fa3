import Designate.Central.Acls
import Designate.Central.Zones

/-!
# Creating a view

`create_view` has the worker create the view on the device and central write down what the
device answered: a row of `zdns_view_info_t`, the view and the row that leads from the one
to the other. Behind that come the ACLs of the view, and the views there were move one
place down. None of it is in a transaction.
-/

namespace Designate

namespace Views

/-- The device's answer about a new view, as far as anything reads it again. -/
structure ViewResponse where
  name : String
  priority : Nat

/-- What the device makes of a name and the names of the ACLs of a new view, if it accepts them. -/
abbrev ViewDevice := String → List String → Option ViewResponse

/-- The device gives a new view the name it was asked for, and the first place. -/
def Honest (device : ViewDevice) : Prop :=
  ∀ name acls response, device name acls = some response →
    response.name = name ∧ response.priority = 1

section

variable (ctx : Context)

/-- The names of the ACLs a view is to have. -/
def aclNames : List Nat → AclCall (List String)
  | [] => pure []
  | aclId :: aclIds => do
    let acl ← Acls.getAcl ctx aclId
    let names ← aclNames aclIds
    pure (acl.name :: names)

/-- `storage.create_zdns_view_info`. -/
def insertZdnsViewInfo (info : ZdnsViewInfo) : Call Unit :=
  updateDb fun db => { db with zdnsViewInfos := db.zdnsViewInfos ++ [info] }

/-- `_create_view_in_storage`. -/
def insertView (view : View) : Call Unit :=
  updateDb fun db => { db with views := db.views ++ [view] }

/-- `_create_view_zdns_view_storage`. -/
def insertViewZdnsView (association : ViewZdnsView) : Call Unit :=
  updateDb fun db => { db with viewZdnsViews := db.viewZdnsViews ++ [association] }

/-- `create_zdns_view_info`, for what the worker makes of the device's answer. -/
def createZdnsViewInfo (name : String) (response : ViewResponse) : Call View := do
  let infoId ← generateUuid
  insertZdnsViewInfo ⟨infoId, response.name, response.priority⟩
  let id ← generateUuid
  let view : View := ⟨id, some ctx.tenant, name⟩
  insertView view
  insertViewZdnsView ⟨id, infoId⟩
  pure view

/-- `storage.create_view_acl`. -/
def createViewAcl (viewId aclId : Nat) : Call Unit := do
  let id ← generateUuid
  updateDb fun db => { db with viewAcls := db.viewAcls ++ [⟨id, viewId, aclId⟩] }

/-- The loop of `create_view` over the views there are: all but the new one move down. -/
def lowerOthers (name : String) : Call Unit := do
  let infos ← findZdnsViewInfos
  Exec.forEach (fun i =>
    if i.name = name then pure () else updateZdnsViewInfo i.id (i.priority + 1)) infos

/-- `create_view`. -/
def createView (device : ViewDevice) (name : String) (aclIds : List Nat) : AclCall View := do
  let acls ← aclNames ctx aclIds
  let response ← Exec.read fun _ =>
    match device name acls with
    | some response => .ok response
    | none => .error .StepFailed
  onWorld do
    let view ← createZdnsViewInfo ctx name response
    Exec.forEach (createViewAcl view.id) aclIds
    lowerOthers view.name
    pure view

end

end Views

end Designate
