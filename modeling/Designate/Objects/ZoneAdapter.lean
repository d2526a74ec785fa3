import Designate.Objects.Adapters

/-!
# The adapter of zones, and the update of a zone

The adapter of zones reads the masters and the attributes of a document itself and takes them
out of it, before the checks that all adapters share see what is left. The controller parses the
document of a `PATCH` into the zone that is stored and hands the zone to central.
-/

namespace Designate

namespace Adapters

open Objects

/-! ## What a document has -/

namespace Json

/-- `key in values`. On a text it asks for a part of the text, as `in` does. -/
def has (values : Json) (key : String) : Except Raised Bool :=
  match values with
  | .dict entries => .ok (entries.any (·.1 = key))
  | .list items => .ok (items.any (·.same (.str key)))
  | .str s => .ok (decide (key.toList <:+: s.toList))
  | _ => .error .TypeError

/-- `values[key]`. -/
def item (values : Json) (key : String) : Except Raised Json :=
  match values with
  | .dict entries =>
    match entries.lookup key with
    | some value => .ok value
    | none => .error .KeyError
  | _ => .error .TypeError

/-- `del values[key]`. -/
def del (values : Json) (key : String) : Json :=
  match values with
  | .dict entries => .dict (entries.filter (·.1 ≠ key))
  | values => values

/-- What a loop over the value goes through. -/
def iterate : Json → Except Raised (List Json)
  | .list items => .ok items
  | .dict entries => .ok (entries.map fun p => .str p.1)
  | .str s => .ok (s.toList.map fun c => .str (String.ofList [c]))
  | _ => .error .TypeError

end Json

/-! ## Masters and attributes -/

section

variable {τ : Type} [DecidableEq τ]

/--
A list object that has no changes of its own. Its items have no relations. Two such objects are
compared by their items alone.
-/
structure ListObject (τ : Type) where
  cls : String
  items : List (Attrs (Plain τ))

def sameEntries (xs ys : List (String × Plain τ)) : Bool :=
  xs.length == ys.length && xs.all fun p => (ys.lookup p.1).any (p.2.same ·)

/-- `==` of two objects of a class, by what they are as primitives. -/
def sameAttrs (a b : Attrs (Plain τ)) : Bool :=
  sameEntries a.fields b.fields && a.changes == b.changes && sameEntries a.originals b.originals

def sameItems : List (Attrs (Plain τ)) → List (Attrs (Plain τ)) → Bool
  | [], [] => true
  | a :: as, b :: bs => sameAttrs a b && sameItems as bs
  | _, _ => false

instance : Related (ListObject τ) where
  same o p := o.cls == p.cls && sameItems o.items p.items
  truthy o := !o.items.isEmpty

/-- An object with two fields, which were set on a fresh one. -/
def pair (key : String) (v : Json) (key' : String) (w : Json) : Attrs (Plain τ) :=
  (Attrs.setter Plain.same {} key (.json v)).setter Plain.same key' (.json w)

/--
`split_host_port`, with what `int` makes of a text, if it is a number to it. What stands behind
the first colon has to be a number; else the whole text is the host, as for an address of version
6 without a port.
-/
def splitHostPort (int : String → Option Int) (s : String) : String × Int :=
  let (host, rest) := s.toList.span (· ≠ ':')
  match rest with
  | _ :: port =>
    match int (String.ofList port) with
    | some port => (String.ofList host, port)
    | none => (s, 53)
  | [] => (s, 53)

/-- `ZoneMasterAPIv2Adapter._parse_object`. Only a text can be split. -/
def parseMaster (int : String → Option Int) : Json → Except Raised (Attrs (Plain τ))
  | .str s =>
    let (host, port) := splitHostPort int s
    .ok (pair "host" (.str host) "port" (.int port))
  | _ => .error .AttributeError

/--
`parse` of `ZoneMasterListAPIv2Adapter`. A text is gone through character by character, each a
host of its own.
-/
def parseMasters (int : String → Option Int) (values : Json) : Except Invalid (ListObject τ) := do
  let items ← wrapped values.iterate
  let items ← items.mapM fun value => wrapped (parseMaster int value)
  .ok { cls := "ZoneMasterList", items := items }

/-- `parse` of `ZoneAttributeListAPIv2Adapter`. Nothing but a dict has `items`. -/
def parseAttributes : Json → Except Invalid (ListObject τ)
  | .dict entries =>
    .ok { cls := "ZoneAttributeList"
          items := entries.map fun p => pair "key" (.str p.1) "value" p.2 }
  | _ => .error Raised.AttributeError.invalid

/-! ## Zones -/

/-- `Zone`. -/
def zoneModel : Model where
  name := "Zone"
  fields := ["shard", "tenant_id", "name", "email", "ttl", "refresh", "retry", "expire", "minimum",
    "parent_zone_id", "serial", "description", "status", "action", "pool_id", "view_id", "type",
    "transferred_at", "delayed_notify", "deleted", "deleted_at", "id", "created_at", "updated_at",
    "version"]
  relations := [("recordsets", "RecordSetList"), ("attributes", "ZoneAttributeList"),
    ("masters", "ZoneMasterList")]

/--
The `MODIFICATIONS` of `ZoneAPIv2Adapter`. The keys that are not read-only are few: what else a
document has is refused unless the zone has it like that already.
-/
def zoneAdapter : Adapter where
  fields := [{ key := "id" }, { key := "pool_id" },
    { key := "project_id", rename := some "tenant_id" },
    { key := "name", immutable := true }, { key := "view_id", immutable := true },
    { key := "email", readOnly := false }, { key := "description", readOnly := false },
    { key := "ttl", readOnly := false }, { key := "serial" }, { key := "status" },
    { key := "action" }, { key := "version" }, { key := "attributes", immutable := true },
    { key := "type", immutable := true }, { key := "masters" }, { key := "created_at" },
    { key := "updated_at" }, { key := "transferred_at" }]
  resourceName := "zone"
  distinct := by decide
  apart := by decide

abbrev Zone (τ : Type) := Obj τ (ListObject τ)

/-- The adapters of the relations. No key leads to the recordsets. -/
def parseNested (int : String → Option Int) (relationCls : String) (values : Json) :
    Except Invalid (ListObject τ) :=
  if relationCls = "ZoneMasterList" then parseMasters int values
  else if relationCls = "ZoneAttributeList" then parseAttributes values
  else .error Raised.AttributeError.invalid

/--
A relation that the document has is parsed, set, and taken out of the document. Taken out, the
key is not seen by the checks of the other fields.
-/
def takeRelation (key : String) (parse : Json → Except Invalid (ListObject τ)) (values : Json)
    (zone : Zone τ) : Except Raised (Json × Zone τ) := do
  if ← values.has key then
    match parse (← values.item key) with
    | .ok r => .ok (values.del key, zone.setRelation key r)
    | .error what => .error (.InvalidObject what)
  else .ok (values, zone)

/-- `ZoneAPIv2Adapter._parse_object`. -/
def parseZoneObject (int : String → Option Int) (values : Json) (zone : Zone τ) :
    Except Raised (Zone τ) := do
  let (values, zone) ← takeRelation "masters" (parseMasters int) values zone
  let (values, zone) ← takeRelation "attributes" parseAttributes values zone
  zoneAdapter.parseObject zoneModel (parseNested int) values zone

/-- `parse`. -/
def parseZone (int : String → Option Int) (values : Json) (zone : Zone τ) :
    Except Invalid (Zone τ) :=
  wrapped (parseZoneObject int values zone)

/-! ## The controller -/

/-- Why a zone is not updated. -/
inductive Refusal (ε : Type) where
  | BadRequest (msg : String)
  /-- `NotImplemented` cannot be called. -/
  | TypeError
  | parse (what : Invalid)
  | validate (e : ε)
  | InvalidObject (msg : String)

/-- `==` of a field and a text. -/
def Obj.reads (zone : Zone τ) (name text : String) : Bool :=
  match zone.getattr zoneModel name with
  | .ok v => v.equals (.str text)
  | .error _ => false

/--
`patch_one`, up to the zone that central is asked to store. The check of the object leaves it as
it is. A zone that is being deleted is refused before its body is looked at.
-/
def patchOne {ε : Type} (int : String → Option Int) (validate : Zone τ → Except ε Unit)
    (zone : Zone τ) (jsonPatch : Bool) (body : Json) : Except (Refusal ε) (Zone τ) :=
  if zone.reads "action" "DELETE" then .error (.BadRequest "Can not update a deleting zone")
  else if jsonPatch then .error .TypeError
  else
    match parseZone int body zone with
    | .error what => .error (.parse what)
    | .ok zone =>
      match validate zone with
      | .error e => .error (.validate e)
      | .ok _ =>
        let zone :=
          if "attributes" ∈ zone.whatChanged then zone.setPlain "transferred_at" (.json .null)
          else zone
        if zone.reads "type" "SECONDARY" && decide ("email" ∈ zone.whatChanged) then
          .error (.InvalidObject "Changed email is not allowed.")
        else .ok zone

end

end Adapters

end Designate
