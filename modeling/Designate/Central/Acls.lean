import Designate.Storage
import Designate.Text

/-!
# ACLs

An ACL of central is a row of `acl`; what the device made of it is a row of `zdns_acl`, and
an association leads from the one to the other. Central changes its own row, calls the
worker, and the worker calls the device and then central again, which changes the other two
tables. Each call of central writes through a session of its own: a transaction takes back
what its own call has written, and nothing of what the worker's calls have.
-/

namespace Designate

/-- A row of `acl`. -/
structure AclRow where
  id : Nat
  poolId : Option String
  tenantId : Option String
  networks : String
  name : String
  deriving DecidableEq, Repr

/-- A row of `zdns_acl`. -/
structure ZdnsAcl where
  id : Nat
  networks : String
  name : String
  currentUsers : String
  href : String
  comment : Option String
  deriving DecidableEq, Repr

/-- A row of `acl_associations`. -/
structure AclAssociation where
  aclId : Nat
  zdnsAclId : Nat
  deriving DecidableEq, Repr

/-- The tables of the ACLs next to everything else. -/
structure Estate where
  world : World := {}
  acls : List AclRow := []
  zdnsAcls : List ZdnsAcl := []
  aclAssociations : List AclAssociation := []
  deriving DecidableEq, Repr

/--
What a call about ACLs or views raises. A failing step raises an exception of its own, which
nothing catches by its kind.
-/
inductive AclExc where
  | AclNotFound | DuplicateAcl | NoneIpAddress | AclUsedByView
  | TypeError
  | StepFailed
  | exc (e : Exc)
  deriving DecidableEq, Repr

/-- A call about ACLs or views. -/
abbrev AclCall := Exec Estate AclExc

/-- A call about everything else. -/
def onWorld {α : Type} (m : Call α) : AclCall α := fun s =>
  (match (m s.world).1 with
    | .ok a => .ok a
    | .error e => .error (.exc e),
   { s with world := (m s.world).2 })

namespace Acls

/-- The steps of a call that may fail. -/
inductive AclSite where
  /-- The write of the row of `acl`. -/
  | aclWrite
  | device
  | zdnsAclWrite
  | associationWrite
  deriving DecidableEq, Repr

/--
The `networks` of an object: the list of a request, or the text of a row. The same field holds
both over its life, and `join` and a loop take either.
-/
inductive Networks where
  | list (items : List String)
  | text (s : String)
  deriving DecidableEq, Repr

/-- What a loop or `join` gets of them: a text is the sequence of its characters. -/
def Networks.items : Networks → List String
  | .list items => items
  | .text s => s.toList.map String.singleton

/-- `",".join(networks)`. -/
def Networks.joined (networks : Networks) : String := ",".intercalate networks.items

/-- An `Acl` object made from a row; the API lets a request assign `pool_id` and `networks`. -/
structure AclObject where
  id : Nat
  tenantId : Option String
  name : String
  poolId : Tracked (Option String)
  networks : Tracked Networks
  deriving DecidableEq, Repr

/-- The object of a row. -/
def AclObject.ofRow (row : AclRow) : AclObject where
  id := row.id
  tenantId := row.tenantId
  name := row.name
  poolId := .loaded row.poolId
  networks := .loaded (.text row.networks)

/-- The `networks` of the object. -/
def AclObject.given (acl : AclObject) : Networks := acl.networks.value.getD (.text "")

/--
What the API makes of the body of a request to update an ACL it has read. Fields that the body
lacks are not assigned, and count as unchanged.
-/
def AclObject.parse (row : AclRow) (poolId : Option (Option String)) (networks : Option Networks) :
    AclObject :=
  let acl := AclObject.ofRow row
  let acl := match poolId with
    | some poolId => { acl with poolId := acl.poolId.set poolId }
    | none => acl
  match networks with
  | some networks => { acl with networks := acl.networks.set networks }
  | none => acl

/-- An `Acl` still to be stored; the API does not let a request give it a tenant. -/
structure NewAcl where
  poolId : Option String
  name : String
  networks : Networks

/-- The device's answer about an ACL, as far as it is stored. -/
structure AclResponse where
  networks : List String
  name : String
  currentUsers : String
  href : String
  comment : Option String

/-- The row of `zdns_acl` an answer is stored as. -/
def AclResponse.row (response : AclResponse) (id : Nat) : ZdnsAcl where
  id := id
  networks := ",".intercalate response.networks
  name := response.name
  currentUsers := response.currentUsers
  href := response.href
  comment := response.comment

section

variable (ctx : Context) (failing : Option AclSite)

/--
The step `site`, if it is the one that fails. At most one step of a call fails: what a
compensation writes gets through.
-/
def step (site : AclSite) : AclCall Unit := Exec.raiseIf (failing = some site) .StepFailed

/--
A transaction of a call of central that writes nothing but `acl`. The tables of the worker's
calls are left as they are, since those calls have sessions of their own.
-/
def transaction {α : Type} (m : AclCall α) : AclCall α :=
  Exec.rollback (fun s s' => { s' with acls := s.acls }) m

/-- `generate_uuid`. -/
def generateUuid : AclCall Nat := onWorld Designate.generateUuid

/-! ## Storage -/

/-- The row a keyed query finds. -/
def findAcl (id : Nat) (s : Estate) : Except AclExc AclRow :=
  Table.find AclRow.id id (fun acl => ctx.sees acl.tenantId) .AclNotFound s.acls

/-- `get_acl`. -/
def getAcl (id : Nat) : AclCall AclRow := Exec.read (findAcl ctx id)

/--
`_create_acl_in_storage`: `name` and `networks` are unique. The row takes the caller's tenant,
whoever it is for.
-/
def createAclInStorage (name : String) (poolId : Option String) (networks : String) :
    AclCall AclRow :=
  transaction do
    let id ← generateUuid
    step failing .aclWrite
    Exec.write fun s =>
      if s.acls.any fun acl => acl.name == name || acl.networks == networks then
        .error .DuplicateAcl
      else
        let row : AclRow := ⟨id, poolId, some ctx.tenant, networks, name⟩
        .ok (row, { s with acls := s.acls ++ [row] })

/-- The row an UPDATE from the object leaves; a list is nothing the column takes. -/
def AclObject.updateRow (acl : AclObject) (row : AclRow) : Except AclExc AclRow :=
  if acl.networks.changed then
    match acl.given with
    | .text networks => .ok { row with poolId := acl.poolId.write row.poolId, networks := networks }
    | .list _ => .error (.exc .DBError)
  else .ok { row with poolId := acl.poolId.write row.poolId }

/-- `_update_acl_in_storage`; the object comes back as the row says. -/
def updateAclInStorage (acl : AclObject) : AclCall AclObject :=
  transaction do
    step failing .aclWrite
    let row ← getAcl ctx acl.id
    let new ← Exec.read fun _ => acl.updateRow row
    Exec.write fun s =>
      if s.acls.any fun other => other.id != row.id && other.networks == new.networks then
        .error .DuplicateAcl
      else .ok ((), { s with acls := Table.update AclRow.id row.id (fun _ => new) s.acls })
    pure (AclObject.ofRow new)

/-- `storage.delete_acl`. -/
def deleteAclRow (id : Nat) : AclCall AclRow := do
  let row ← getAcl ctx id
  Exec.modify fun s => { s with acls := Table.remove AclRow.id row.id s.acls }
  pure row

/-- `_delete_acl_in_storage`. -/
def deleteAclInStorage (id : Nat) : AclCall AclRow := transaction (deleteAclRow ctx id)

/-- `get_acl_asso`, indexed by a column, which is no way to index an empty list. -/
def getAclAsso (aclId : Nat) : AclCall AclAssociation :=
  Exec.read fun s =>
    match s.aclAssociations.find? fun a => a.aclId == aclId with
    | some association => .ok association
    | none => .error .TypeError

/-- `get_acl_view_asso`. -/
def getAclViewAsso (aclId : Nat) : AclCall (List ViewAcl) :=
  Exec.read fun s => .ok (s.world.db.viewAcls.filter fun a => a.aclId == aclId)

/-! ## What the worker has central do -/

/--
`create_zdns_acl`. The row of the device comes first, so a failure of the association leaves it
behind.
-/
def createZdnsAcl (aclId : Nat) (response : AclResponse) : AclCall Unit := do
  let id ← generateUuid
  step failing .zdnsAclWrite
  Exec.modify fun s => { s with zdnsAcls := s.zdnsAcls ++ [response.row id] }
  step failing .associationWrite
  Exec.modify fun s => { s with aclAssociations := s.aclAssociations ++ [⟨aclId, id⟩] }

/-- `update_zdns_acl`. -/
def updateZdnsAcl (aclId : Nat) (response : AclResponse) : AclCall Unit := do
  let association ← getAclAsso aclId
  step failing .zdnsAclWrite
  Exec.modify fun s => { s with
    zdnsAcls := Table.update ZdnsAcl.id association.zdnsAclId
      (fun _ => response.row association.zdnsAclId) s.zdnsAcls }

/-- `delete_zdns_acl`. Here the association goes first. -/
def deleteZdnsAcl (aclId : Nat) : AclCall Unit := do
  let association ← getAclAsso aclId
  step failing .associationWrite
  Exec.modify fun s => { s with
    aclAssociations := Table.remove AclAssociation.aclId aclId s.aclAssociations }
  step failing .zdnsAclWrite
  Exec.modify fun s => { s with
    zdnsAcls := Table.remove ZdnsAcl.id association.zdnsAclId s.zdnsAcls }

/-- `AclAction`: the device, then the book-keeping. -/
def aclAction (bookkeeping : AclCall Unit) : AclCall Unit := do
  step failing .device
  bookkeeping

/-! ## Central -/

/--
The checks of `create_acl` and `update_acl` on the networks. A text passes whenever it is not
empty, since its items are its characters.
-/
def checkNetworks (networks : Networks) : AclCall Unit :=
  Exec.raiseIf (networks.items.isEmpty || networks.items.any fun item => item.isEmpty)
    .NoneIpAddress

/-- `acl.networks = acl.networks.split(",")`. -/
def AclObject.splitting (acl : AclObject) : AclObject :=
  match acl.given with
  | .text networks => { acl with networks := acl.networks.set (.list (Text.split networks ',')) }
  | .list _ => acl

/--
`create_acl`; `response` is what the device answers. The compensation takes back the row of `acl`
alone.
-/
def createAcl (acl : NewAcl) (response : AclResponse) : AclCall AclObject := do
  checkNetworks acl.networks
  let row ← createAclInStorage ctx failing acl.name acl.poolId acl.networks.joined
  Exec.onError (aclAction failing (createZdnsAcl failing row.id response)) do
    let _ ← deleteAclInStorage ctx row.id
  pure (AclObject.ofRow row).splitting

/-- The changed fields of the object are assigned what the row has. -/
def AclObject.asStored (acl : AclObject) (row : AclRow) : AclObject :=
  { acl with
    poolId := if acl.poolId.changed then acl.poolId.set row.poolId else acl.poolId
    networks := if acl.networks.changed then acl.networks.set (.text row.networks)
      else acl.networks }

/--
`_get_origin_acl`: a copy of the object in which the changed fields are as stored. It is read
before the update, to be written back if the worker fails.
-/
def getOriginAcl (acl : AclObject) : AclCall AclObject := do
  let row ← getAcl ctx acl.id
  pure (acl.asStored row)

/-- `acl.networks = ",".join(acl.networks)`. -/
def AclObject.joining (acl : AclObject) : AclObject :=
  { acl with networks := acl.networks.set (.text acl.given.joined) }

/-- `update_acl`. The compensation is a write of its own, and gets through. -/
def updateAcl (acl : AclObject) (response : AclResponse) : AclCall AclObject := do
  checkNetworks acl.given
  let origin ← getOriginAcl ctx acl
  let acl ← updateAclInStorage ctx failing acl.joining
  Exec.onError (aclAction failing (updateZdnsAcl failing acl.id response)) do
    let _ ← updateAclInStorage ctx none origin
  pure acl.splitting

/--
`delete_acl`. The worker is called within the transaction, so what fails behind it takes back the
row, which is there still, and not what the device has lost.
-/
def deleteAcl (id : Nat) : AclCall AclRow :=
  transaction do
    let row ← getAcl ctx id
    let view ← getAclViewAsso id
    Exec.raiseIf (!view.isEmpty) .AclUsedByView
    aclAction failing (deleteZdnsAcl failing row.id)
    step failing .aclWrite
    deleteAclRow ctx id

end

end Acls

end Designate
