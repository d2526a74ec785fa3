import Designate.Central.Service

/-!
# Zone transfers

The owner of a zone files a request, which gets a key; whoever presents the key may
accept it and becomes the owner. The tables of requests and accepts stand next to
those of the zones. Each call is one transaction, but for a PATCH, which the API makes of
two: it looks the request up, puts the body on it, and has what is changed written. The
verdicts of policy are a parameter, and so are the keys, which are drawn at random.
-/

namespace Designate

namespace Transfers

/-- The statuses of requests and accepts. -/
inductive TaskStatus where
  | ACTIVE | PENDING | DELETED | ERROR | COMPLETE
  deriving DecidableEq, Repr

/-- A row of `zone_transfer_requests`. -/
structure TransferRequest where
  id : Nat
  zoneId : Nat
  key : String
  description : Option String
  tenantId : String
  targetTenantId : Option String
  status : TaskStatus
  deriving DecidableEq, Repr

/-- A row of `zone_transfer_accepts`. -/
structure TransferAccept where
  id : Nat
  zoneId : Nat
  requestId : Nat
  tenantId : String
  status : TaskStatus
  deriving DecidableEq, Repr

/-- The tables. -/
structure Store where
  world : World
  requests : List TransferRequest := []
  accepts : List TransferAccept := []

inductive TransferExc where
  | InvaildZoneTransfer (msg : String) | IncorrectZoneTransferKey (msg : String)
  | ZoneTransferRequestNotFound | ZoneTransferAcceptNotFound
  | DuplicateZoneTransferRequest | Forbidden | InvalidObject | InvalidOperation
  /-- A deadlock the database reports. -/
  | DBDeadlock
  | DBError
  /-- Raised about the zone. -/
  | zone (e : Exc)
  deriving DecidableEq, Repr

/-- A call over these tables. -/
abbrev TransferCall (α : Type) : Type := Exec Store TransferExc α

/-- The verdicts of policy, on the context and what the rule is given as its target. -/
structure Policy where
  createRequest : Context → Option String → Bool
  getRequest : Context → TransferRequest → Bool
  updateRequest : Context → TransferRequest → Bool
  deleteRequest : Context → TransferRequest → Bool
  createAccept : Context → Option String → Bool

/-! ## Transactions -/

/-- The tables go back when the body raises. -/
def transaction {α : Type} (m : TransferCall α) : TransferCall α :=
  Exec.rollback (fun s s' => { s' with world := { s'.world with db := s.world.db }
                                       requests := s.requests, accepts := s.accepts }) m

/--
`retry`: after a deadlock the call is made again, `n` times in all at most. The
`k`-th attempt is `m k`.
-/
def retry {α : Type} : Nat → (Nat → TransferCall α) → TransferCall α
  | 0, m => m 0
  | n + 1, m => fun s =>
    match m 0 s with
    | (.error .DBDeadlock, s') => if n = 0 then (.error .DBDeadlock, s') else retry n (fun k => m (k + 1)) s'
    | o => o

/-- How often `transaction` has a call made. -/
def retries : Nat := 50

/-- Let a call over the zone tables have its way. -/
def onWorld {α : Type} (m : Call α) : TransferCall α := fun s =>
  let o := m s.world
  (o.1.mapError .zone, { s with world := o.2 })

/-! ## Storage -/

/-- `_find_zone_transfer_requests` shows a request to the tenant who filed it and to its target. -/
def seesRequest (ctx : Context) (r : TransferRequest) : Bool :=
  ctx.allTenants || r.tenantId == ctx.tenant || r.targetTenantId == some ctx.tenant

/-- `get_zone_transfer_request` of storage. -/
def findRequest (ctx : Context) (id : Nat) (s : Store) : Except TransferExc TransferRequest :=
  Table.find TransferRequest.id id (seesRequest ctx) .ZoneTransferRequestNotFound s.requests

/-- The active requests for a zone that the caller is shown. -/
def activeRequests (ctx : Context) (zoneId : Nat) (s : Store) : List TransferRequest :=
  s.requests.filter fun r => r.zoneId == zoneId && r.status = .ACTIVE && seesRequest ctx r

/--
`storage.create_zone_transfer_request`. The look-up for one row finds none where
there are several.
-/
def insertRequest (ctx : Context) (row : Nat → TransferRequest) : TransferCall TransferRequest := do
  let id ← onWorld generateUuid
  Exec.write fun s =>
    match activeRequests ctx (row id).zoneId s with
    | [_] => .error .DuplicateZoneTransferRequest
    | _ => .ok (row id, { s with requests := s.requests ++ [row id] })

/-- UPDATE of one request; the tenant criterion is that of a table with a tenant. -/
def updateRequestRow (ctx : Context) (id : Nat) (f : TransferRequest → TransferRequest) :
    TransferCall Unit :=
  Exec.write fun s =>
    match Table.find TransferRequest.id id (fun r => ctx.sees (some r.tenantId))
        TransferExc.ZoneTransferRequestNotFound s.requests with
    | .error e => .error e
    | .ok _ => .ok ((), { s with requests := Table.update TransferRequest.id id f s.requests })

/-- DELETE of one request; the foreign key takes its accepts along. -/
def deleteRequestRow (ctx : Context) (id : Nat) : TransferCall Unit :=
  Exec.write fun s =>
    match Table.find TransferRequest.id id (fun r => ctx.sees (some r.tenantId))
        TransferExc.ZoneTransferRequestNotFound s.requests with
    | .error e => .error e
    | .ok _ => .ok ((), { s with requests := Table.remove TransferRequest.id id s.requests
                                 accepts := Table.remove TransferAccept.requestId id s.accepts })

/-- `storage.create_zone_transfer_accept`. -/
def insertAccept (row : Nat → TransferAccept) : TransferCall TransferAccept := do
  let id ← onWorld generateUuid
  Exec.write fun s => .ok (row id, { s with accepts := s.accepts ++ [row id] })

/-- `storage.update_zone_transfer_accept`. -/
def updateAcceptRow (ctx : Context) (id : Nat) (f : TransferAccept → TransferAccept) :
    TransferCall Unit :=
  Exec.write fun s =>
    match Table.find TransferAccept.id id (fun a => ctx.sees (some a.tenantId))
        TransferExc.ZoneTransferAcceptNotFound s.accepts with
    | .error e => .error e
    | .ok _ => .ok ((), { s with accepts := Table.update TransferAccept.id id f s.accepts })

/-! ## Central -/

/-- The statements of `storage.update_zone` that may raise when a zone is moved. -/
inductive MoveSite where
  | row | contents
  deriving DecidableEq, Repr

/-- Raise what a statement raises. -/
def mayRaise (e : Option TransferExc) : TransferCall Unit := fun s =>
  match e with
  | some e => (.error e, s)
  | none => (.ok (), s)

section

variable (policy : Policy) (ctx : Context)

/-- `create_zone_transfer_request` up to the change: the zone the request is for. -/
def createRequestChecks (zoneId : Nat) : TransferCall Zone := do
  let zone ← onWorld (getZone ctx zoneId)
  Exec.raiseIf (zone.action = .DELETE) (.zone (.BadRequest "Can not transfer a deleting zone"))
  Exec.raiseIf (!policy.createRequest ctx zone.tenantId) .Forbidden
  pure zone

/-- A new request, with the key that was drawn for it. -/
structure NewRequest where
  key : String
  description : Option String
  tenantId : Option String
  targetTenantId : Option String

/-- The row of a new request. -/
def NewRequest.row (request : NewRequest) (zoneId id : Nat) : TransferRequest where
  id := id
  zoneId := zoneId
  key := request.key
  description := request.description
  tenantId := request.tenantId.getD ctx.tenant
  targetTenantId := request.targetTenantId
  status := .ACTIVE

/-- `create_zone_transfer_request`. -/
def createZoneTransferRequest (zoneId : Nat) (request : NewRequest) :
    TransferCall TransferRequest :=
  transaction do
    let zone ← createRequestChecks policy ctx zoneId
    insertRequest ctx (request.row ctx zone.id)

/-- `get_zone_transfer_request`. -/
def getZoneTransferRequest (id : Nat) : TransferCall TransferRequest := do
  let request ← Exec.read (findRequest ctx.elevated id)
  Exec.raiseIf (!policy.getRequest ctx request) .Forbidden
  pure request

/-- A target that counts as true. -/
def TransferRequest.targeted (r : TransferRequest) : Bool := r.targetTenantId.any fun t => t != ""

/-- The keys of a PATCH that may change a request: all others may only repeat what is there. -/
structure RequestPatch where
  description : Option (Option String) := none
  targetTenantId : Option (Option String) := none

/-- `DesignateAdapter.parse` of a PATCH, and `validate`. A target is immutable once there is one. -/
def RequestPatch.parse (patch : RequestPatch) (request : TransferRequest) :
    Except TransferExc TransferRequest :=
  let new := { request with
    description := patch.description.getD request.description
    targetTenantId := patch.targetTenantId.getD request.targetTenantId }
  if request.targeted ∧ new.targetTenantId ≠ request.targetTenantId then .error .InvalidObject
  else if new.description.any fun d => decide (160 < Text.len d) then .error .InvalidObject
  else .ok new

/-- What `patch_one` looks up, and what it makes of it. -/
def patchLook (id : Nat) (patch : RequestPatch) : TransferCall (TransferRequest × TransferRequest) :=
  do
  let request ← getZoneTransferRequest policy ctx id
  let new ← Exec.read fun _ => patch.parse request
  pure (request, new)

/-- The fields that differ from what was looked up. -/
def TransferRequest.changed (old new row : TransferRequest) : TransferRequest :=
  { row with
    description := if new.description = old.description then row.description else new.description
    targetTenantId :=
      if new.targetTenantId = old.targetTenantId then row.targetTenantId else new.targetTenantId }

/-- `update_zone_transfer_request`, of a request as it was looked up and as it is to be. -/
def updateZoneTransferRequest (old new : TransferRequest) : TransferCall Unit :=
  transaction do
    Exec.raiseIf (new.zoneId ≠ old.zoneId) .InvalidOperation
    Exec.raiseIf (!policy.updateRequest ctx new) .Forbidden
    updateRequestRow ctx new.id (old.changed new)

/-- `patch_one` of a request. -/
def patchRequest (id : Nat) (patch : RequestPatch) : TransferCall Unit := do
  let looked ← patchLook policy ctx id patch
  updateZoneTransferRequest policy ctx looked.1 looked.2

/-- `delete_zone_transfer_request`. -/
def deleteZoneTransferRequest (id : Nat) : TransferCall Unit :=
  transaction do
    let request ← Exec.read (findRequest ctx id)
    Exec.raiseIf (!policy.deleteRequest ctx request) .Forbidden
    deleteRequestRow ctx id

/-- `create_zone_transfer_accept` up to the change: the request that is accepted. -/
def acceptChecks (requestId : Nat) (key : String) : TransferCall TransferRequest := do
  let request ← getZoneTransferRequest policy ctx requestId
  Exec.raiseIf (request.status = .COMPLETE) (.InvaildZoneTransfer "Zone Transfer Request has been used")
  Exec.raiseIf (request.status ≠ .ACTIVE) (.InvaildZoneTransfer "Zone Transfer Request Invalid")
  Exec.raiseIf (request.key ≠ key)
    (.IncorrectZoneTransferKey "Key does not match stored key for request")
  Exec.raiseIf (!policy.createAccept ctx request.targetTenantId) .Forbidden
  pure request

/--
`storage.update_zone` of a zone whose tenant was assigned: the row, and if the tenant
has changed, everything in the zone.
-/
def moveZone (faults : MoveSite → Option TransferExc) (zone : Zone) (tenantId : Option String) :
    TransferCall Unit := do
  mayRaise (faults .row)
  let _ ← onWorld (updateZoneRow ctx zone.id fun z => { z with tenantId := tenantId })
  mayRaise (faults .contents)
  if zone.tenantId ≠ tenantId then
    onWorld (updateDb fun db => { db with
      recordsets := Table.update RecordSetRow.zoneId zone.id
        (fun r => { r with tenantId := tenantId }) db.recordsets
      records := Table.update RecordRow.zoneId zone.id
        (fun r => { r with tenantId := tenantId }) db.records })

/-- The `try` block of `create_zone_transfer_accept`. -/
def acceptMove (faults : MoveSite → Option TransferExc) (zoneId : Nat) (tenantId : String) :
    TransferCall Unit := do
  let zone ← onWorld (getZone ctx.elevated zoneId)
  Exec.raiseIf (zone.action = .DELETE) (.zone (.BadRequest "Can not transfer a deleting zone"))
  moveZone ctx.elevated faults zone (some tenantId)

/-- The change of `create_zone_transfer_accept`. -/
def acceptRest (faults : MoveSite → Option TransferExc) (request : TransferRequest)
    (tenantId : Option String) : TransferCall TransferAccept := do
  let accept ← insertAccept fun id =>
    ⟨id, request.zoneId, request.id, tenantId.getD ctx.tenant, .ACTIVE⟩
  Exec.onError (acceptMove ctx faults request.zoneId accept.tenantId)
    (updateAcceptRow ctx accept.id fun a => { a with status := .ERROR })
  updateAcceptRow ctx accept.id fun a => { a with status := .COMPLETE }
  updateRequestRow ctx.elevated request.id fun r => { r with status := .COMPLETE }
  pure { accept with status := .COMPLETE }

/-- `create_zone_transfer_accept`; the statements of the `k`-th attempt fail as `faults k` says. -/
def createZoneTransferAccept (faults : Nat → MoveSite → Option TransferExc) (requestId : Nat)
    (key : String) (tenantId : Option String) : TransferCall TransferAccept :=
  retry retries fun k => transaction do
    let request ← acceptChecks policy ctx requestId key
    acceptRest ctx (faults k) request tenantId

end

/-! ## Several calls under way -/

/-- A call that has made its look-ups. -/
inductive Pending where
  | filing (ctx : Context) (zoneId : Nat) (new : NewRequest)
  | accepting (ctx : Context) (request : TransferRequest) (key : String)
    (tenantId : Option String)

/-- The zone a call is about. -/
def Pending.zoneId : Pending → Nat
  | .filing _ zoneId _ => zoneId
  | .accepting _ request _ _ => request.zoneId

/-- The zone a call is to file a request for. -/
def Pending.files : Pending → Option Nat
  | .filing _ zoneId _ => some zoneId
  | .accepting .. => none

/-- A PATCH that has looked its request up, and has not been written. -/
structure Patching where
  ctx : Context
  old : TransferRequest
  new : TransferRequest

/-- The tenant of a zone. -/
def owner (zoneId : Nat) (s : Store) : Option (Option String) :=
  (s.world.db.zones.find? fun z => z.id == zoneId).map Zone.tenantId

/-- The tables with the calls that are under way. -/
structure Office where
  store : Store
  underWay : List Pending := []
  patches : List Patching := []
  /-- Who owned the zone when a request was filed. No call reads this. -/
  filedUnder : Nat → Option (Option String) := fun _ => none

inductive Step where
  | fileCheck (ctx : Context) (zoneId : Nat) (new : NewRequest)
  | acceptCheck (ctx : Context) (requestId : Nat) (key : String) (tenantId : Option String)
  /-- The `n`-th call that is under way commits, or raises. -/
  | finish (n : Nat) (faults : MoveSite → Option TransferExc)
  | patchLook (ctx : Context) (id : Nat) (patch : RequestPatch)
  /-- The `n`-th PATCH that is under way is written, or raises. -/
  | patchWrite (n : Nat)
  | delete (ctx : Context) (id : Nat)

namespace Office

variable (policy : Policy)

/-- What becomes of everything in one step. -/
def next (step : Step) (s : Office) : Office :=
  match step with
  | .fileCheck ctx zoneId new =>
    match createRequestChecks policy ctx zoneId s.store with
    | (.ok zone, _) => { s with underWay := s.underWay ++ [.filing ctx zone.id new] }
    | (.error _, _) => s
  | .acceptCheck ctx requestId key tenantId =>
    match acceptChecks policy ctx requestId key s.store with
    | (.ok request, _) => { s with underWay := s.underWay ++ [.accepting ctx request key tenantId] }
    | (.error _, _) => s
  | .finish n faults =>
    match s.underWay[n]? with
    | none => s
    | some (.filing ctx zoneId new) =>
      let s := { s with underWay := s.underWay.eraseIdx n }
      match transaction (insertRequest ctx (new.row ctx zoneId)) s.store with
      | (.ok row, store) =>
        { s with store := store
                 filedUnder := fun id => if id = row.id then owner zoneId store else s.filedUnder id }
      | (.error _, store) => { s with store := store }
    | some (.accepting ctx request _ tenantId) =>
      { s with underWay := s.underWay.eraseIdx n
               store := (transaction (acceptRest ctx faults request tenantId) s.store).2 }
  | .patchLook ctx id patch =>
    match Transfers.patchLook policy ctx id patch s.store with
    | (.ok looked, _) => { s with patches := s.patches ++ [⟨ctx, looked.1, looked.2⟩] }
    | (.error _, _) => s
  | .patchWrite n =>
    match s.patches[n]? with
    | none => s
    | some p =>
      { s with patches := s.patches.eraseIdx n
               store := (updateZoneTransferRequest policy p.ctx p.old p.new s.store).2 }
  | .delete ctx id => { s with store := (deleteZoneTransferRequest policy ctx id s.store).2 }

end Office

end Transfers

end Designate
