import Designate.Storage

/-!
# A small deployment

One zone of two recordsets, mirrored on the device: the inputs at which
statements below are tried out.
-/

namespace Designate

namespace Sample

def ctx : Context := { tenant := "t" }

def conf : Conf := {}

/-- The deployment with a name server, which zones need to be created. -/
def confNs : Conf := { conf with poolNsRecords := ["ns.example.net."] }

def view : View := { id := 1, tenantId := some "t", name := "v" }

def zone : Zone :=
  { id := 2, tenantId := some "t", name := "example.com.", type := .PRIMARY, ttl := 3600,
    serial := 1, action := .NONE, status := .ACTIVE, poolId := 0, viewId := some 1,
    parentZoneId := none, deleted := false }

def wwwRow : RecordSetRow :=
  { id := 3, zoneId := 2, tenantId := some "t", name := "www.example.com.", type := .A,
    ttl := some 300, description := none }

def mailRow : RecordSetRow :=
  { id := 4, zoneId := 2, tenantId := some "t", name := "mail.example.com.", type := .A,
    ttl := some 300, description := none }

/-- An active record of the recordset `recordsetId`. -/
def record (id recordsetId : Nat) (data : String) : RecordRow :=
  { id := id, zoneId := 2, recordsetId := recordsetId, tenantId := some "t", data := data,
    hash := conf.md5 (Text.uuidText recordsetId ++ ":" ++ data), managed := false, action := .NONE,
    status := .ACTIVE, serial := 1 }

/-- The zdns row `id` behind a record of `recordset`. -/
def zdnsRecord (id : Nat) (recordset : RecordSetRow) (data : String) : ZdnsRecord :=
  { id := id, rrId := .handle id, name := recordset.name, type := recordset.type,
    ttl := recordset.ttl, rdata := data }

/-- The resource record the zdns row `id` names. -/
def rr (id : Nat) (recordset : RecordSetRow) (data : String) : RR :=
  { view := "v", zone := "example.com.", name := recordset.name, type := recordset.type,
    ttl := recordset.ttl, rdata := data, id := .handle id }

def world : World where
  db :=
    { zones := [zone], views := [view], recordsets := [wwwRow, mailRow]
      records := [record 5 3 "192.0.2.1", record 6 3 "192.0.2.2", record 7 4 "192.0.2.3"]
      zdnsRecords := [zdnsRecord 8 wwwRow "192.0.2.1", zdnsRecord 9 wwwRow "192.0.2.2",
        zdnsRecord 10 mailRow "192.0.2.3"]
      recordAssociations := [⟨5, 8⟩, ⟨6, 9⟩, ⟨7, 10⟩] }
  device :=
    { zones := [("v", "example.com.")]
      rrs := [rr 8 wwwRow "192.0.2.1", rr 9 wwwRow "192.0.2.2", rr 10 mailRow "192.0.2.3"] }
  nextId := 11

/-- The row of an inserted record, before the device has answered. -/
def pending (id recordsetId : Nat) (data : String) : RecordRow :=
  { record id recordsetId data with action := .CREATE, status := .PENDING }

/-- The recordset `www` as a request carries it, with `records`. -/
def www (records : List Record) : RecordSet := RecordSet.ofRow wwwRow records

end Sample

end Designate
