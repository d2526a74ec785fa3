import Designate.Central.Zones
import Designate.Reconcile

/-!
# `update_zone` and its roll-back

A zone object carries, next to its own fields, the lists of its attributes and
masters. `update_zone` copies the object before it is stored, puts the stored values
of the changed fields into the copy, and stores the copy if the worker fails. What
that puts back depends on what the reconciliation of the two lists makes of them.

The zone objects here have all their columns, in tables of their own: the zones with
their attributes and masters. An object that brings recordsets along is left out.
-/

namespace Designate

namespace ZoneUpdate

open Exec Reconcile

/-! ## Rows and objects -/

/-- A column value. -/
inductive Value where
  | null
  | nat (n : Nat)
  | text (s : String)
  | bool (b : Bool)
  deriving DecidableEq, Repr

/-- The fields of a zone, without its identifier and those the database fills in. -/
inductive Field where
  | shard | tenantId | name | email | ttl | refresh | retry | expire | minimum | parentZoneId
  | serial | description | status | action | poolId | viewId | type | transferredAt
  | delayedNotify
  deriving DecidableEq, Repr

/-- A row of `zones`. -/
structure ZoneRow where
  id : Nat
  deleted : Bool
  columns : Field → Value

/-- A `ZoneAttribute`. -/
structure ZoneAttribute where
  id : Option Nat
  key : Tracked String
  value : Tracked String
  deriving DecidableEq, Repr

/-- A `ZoneMaster`. -/
structure ZoneMaster where
  id : Option Nat
  host : Tracked String
  port : Tracked Nat
  deriving DecidableEq, Repr

/-- The column an object writes. -/
def changedValue {α : Type} (t : Tracked α) : Option α := if t.changed then t.value else none

def ZoneAttribute.item (a : ZoneAttribute) : Item String String :=
  ⟨a.id, changedValue a.key, changedValue a.value⟩

def ZoneMaster.item (m : ZoneMaster) : Item String Nat :=
  ⟨m.id, changedValue m.host, changedValue m.port⟩

/-- An attribute as loaded from its row. -/
def ZoneAttribute.ofRow (row : Row String String) : ZoneAttribute :=
  ⟨some row.id, .loaded row.fst, .loaded row.snd⟩

/-- A master as loaded from its row. -/
def ZoneMaster.ofRow (row : Row String Nat) : ZoneMaster :=
  ⟨some row.id, .loaded row.fst, .loaded row.snd⟩

/-- A `Zone`; a list that is not set has no value. -/
structure ZoneObject where
  id : Nat
  fields : Field → Tracked Value
  attributes : Tracked (List ZoneAttribute)
  masters : Tracked (List ZoneMaster)

/-- The tables. -/
structure Store where
  zones : List ZoneRow
  attributes : Child String String
  masters : Child String Nat

/-- What is raised, and from where. -/
inductive Raised where
  | central (e : Exc)
  | storage (e : Refusal)
  | worker (e : Exc)
  deriving DecidableEq

/-- A call over these tables. -/
abbrev Request (α : Type) : Type := Exec Store Raised α

/-! ## Storage -/

/-- The tenant column. -/
def ZoneRow.tenant (row : ZoneRow) : Option String :=
  match row.columns .tenantId with
  | .text t => some t
  | _ => none

/-- The live row a request sees. -/
def findRow (ctx : Context) (id : Nat) (s : Store) : Except Raised ZoneRow :=
  Table.find ZoneRow.id id (fun row => ctx.sees row.tenant && !row.deleted)
    (Raised.central .ZoneNotFound) s.zones

/-- `storage.get_zone`: masters of secondary zones only, and no attribute of the key `master`. -/
def getZone (ctx : Context) (id : Nat) : Request ZoneObject :=
  Exec.read fun s => (findRow ctx id s).map fun row =>
    { id := row.id
      fields := fun f => .loaded (row.columns f)
      attributes := .loaded (((s.attributes.own row.id).filter fun r => r.fst ≠ "master").map
        ZoneAttribute.ofRow)
      masters := .loaded (((s.masters.own row.id).filter
        fun _ => row.columns .type == .text "SECONDARY").map ZoneMaster.ofRow) }

/-- The columns an object writes over a row. -/
def ZoneObject.over (zone : ZoneObject) (row : ZoneRow) : ZoneRow :=
  { row with columns := fun f => (zone.fields f).write (row.columns f) }

/-- Reconcile the attributes of a zone. -/
def reconcileAttributes (owner : Nat) (attributes : List ZoneAttribute) : Request Unit := fun s =>
  let r := reconcile owner (attributes.map ZoneAttribute.item) s.attributes
  (r.1.mapError .storage, { s with attributes := r.2 })

/-- Reconcile the masters of a zone. -/
def reconcileMasters (owner : Nat) (masters : List ZoneMaster) : Request Unit := fun s =>
  let r := reconcile owner (masters.map ZoneMaster.item) s.masters
  (r.1.mapError .storage, { s with masters := r.2 })

/-- The attributes of an object, where they are set. -/
def updateAttributes (zone : ZoneObject) : Request Unit :=
  match zone.attributes.value with
  | none => pure ()
  | some attributes => reconcileAttributes zone.id attributes

/-- The masters of an object, where they are set. -/
def updateMasters (zone : ZoneObject) : Request Unit :=
  match zone.masters.value with
  | none => pure ()
  | some masters => reconcileMasters zone.id masters

/-- The attributes of an object once they are stored. -/
def storedAttributes (s : Store) (attributes : List ZoneAttribute) : List ZoneAttribute :=
  (numbered s.attributes.nextId (attributes.map ZoneAttribute.item)).map fun i =>
    ⟨i.id, .unset, .unset⟩

/-- The masters of an object once they are stored. -/
def storedMasters (s : Store) (masters : List ZoneMaster) : List ZoneMaster :=
  (numbered s.masters.nextId (masters.map ZoneMaster.item)).map fun i => ⟨i.id, .unset, .unset⟩

/--
`storage.update_zone`: the row, then the attributes, then the masters, where these
are set. The object comes back as stored: with the fields of the row, with the
identifiers of the new attributes and masters, and without changes.
-/
def storageUpdateZone (ctx : Context) (zone : ZoneObject) : Request ZoneObject := do
  let before ← Exec.read fun s => .ok s
  let row ← Exec.read fun s => findRow ctx zone.id s
  Exec.modify fun s => { s with zones := Table.update ZoneRow.id zone.id zone.over s.zones }
  updateAttributes zone
  updateMasters zone
  pure
    { id := zone.id
      fields := fun f => .loaded ((zone.over row).columns f)
      attributes := ⟨zone.attributes.value.map (storedAttributes before), false⟩
      masters := ⟨zone.masters.value.map (storedMasters before), false⟩ }

/-! ## Central -/

/-- What `update_zone` needs of its surroundings. -/
structure Surroundings where
  conf : Conf
  /-- `_update_soa`, which writes to other tables. -/
  updateSoa : ZoneObject → Except Exc Unit
  /-- `perform_zone_xfr`, a message to another service. -/
  performZoneXfr : Except Exc Unit

/-- What becomes of the call of the worker: whether it reports its end, and what it raises. -/
structure WorkerCall where
  reports : Bool
  raises : Option Exc

/-- Set a field of a zone object. -/
def ZoneObject.set (zone : ZoneObject) (f : Field) (v : Value) : ZoneObject :=
  { zone with fields := fun g => if g = f then (zone.fields g).set v else zone.fields g }

/-- `_get_origin_zone`: a copy with the stored values of the changed fields and lists. -/
def getOriginZone (ctx : Context) (zone : ZoneObject) : Request ZoneObject := do
  let originValues ← getZone ctx zone.id
  pure
    { zone with
      fields := fun f =>
        if (zone.fields f).changed then
          (zone.fields f).set ((originValues.fields f).value.getD .null)
        else zone.fields f
      attributes :=
        if zone.attributes.changed then
          zone.attributes.set (originValues.attributes.value.getD [])
        else zone.attributes
      masters :=
        if zone.masters.changed then zone.masters.set (originValues.masters.value.getD [])
        else zone.masters }

/-- The serial an object gets. -/
def ZoneObject.nextSerial (ctx : Context) (zone : ZoneObject) : Value :=
  match (zone.fields .serial).value with
  | some (.nat n) => .nat (incrementSerial ctx.now n)
  | _ => .nat ctx.now

section

variable (ctx : Context) (env : Surroundings)

/-- `_update_zone_in_storage`, a transaction. -/
def updateZoneInStorage (zone : ZoneObject) (increment : Bool) : Request ZoneObject :=
  Exec.rollback (fun s _ => s) do
    let zone := (zone.set .action (.text "UPDATE")).set .status (.text "PENDING")
    if increment then do
      let zone ← storageUpdateZone ctx (zone.set .serial (zone.nextSerial ctx))
      if zone.fields .type = .loaded (.text "PRIMARY") then
        Exec.read fun _ => (env.updateSoa zone).mapError .central
      pure zone
    else storageUpdateZone ctx zone

/-- The checks of `update_zone`. -/
def updateZoneChecks (zone : ZoneObject) : Request Unit := do
  Exec.raiseIf (zone.fields .tenantId).changed
    (.central (.BadRequest "Moving a zone between tenants is not allowed"))
  Exec.raiseIf (zone.fields .name).changed
    (.central (.BadRequest "Renaming a zone is not allowed"))
  match changedValue (zone.fields .ttl) with
  | some (.nat ttl) => Exec.read fun _ => (isValidTtl env.conf ttl).mapError .central
  | _ => pure ()

/--
`zone_api.update_zone`. However the worker's action ends, its report has the object
stored as active: `update_zone_status` takes `ERROR` and `SUCCESS` of an UPDATE alike.
-/
def zoneApiUpdateZone (call : WorkerCall) (zone : ZoneObject) : Request Unit := do
  if call.reports then
    let _ ← storageUpdateZone ctx
      ((zone.set .action (.text "NONE")).set .status (.text "ACTIVE"))
  match call.raises with
  | some e => Exec.raise (.worker e)
  | none => pure ()

/-- `update_zone` up to the call of the worker: the copy to go back to, and the zone as stored. -/
def updateZoneBefore (zone : ZoneObject) (increment : Bool) :
    Request (ZoneObject × ZoneObject) := do
  updateZoneChecks env zone
  let origin ← getOriginZone ctx zone
  let stored ← updateZoneInStorage ctx env zone increment
  if zone.masters.changed then
    Exec.read fun _ => env.performZoneXfr.mapError .central
  pure (origin, stored)

/-- `update_zone`. -/
def updateZone (call : WorkerCall) (zone : ZoneObject) (increment : Bool) :
    Request ZoneObject := do
  let (origin, stored) ← updateZoneBefore ctx env zone increment
  Exec.onError (zoneApiUpdateZone ctx call stored) do
    let _ ← storageUpdateZone ctx origin
  getZone ctx stored.id

end

end ZoneUpdate

end Designate
