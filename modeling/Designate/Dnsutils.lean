import Designate.Storage

/-!
# Zones that dnspython read

A zone file and a zone transfer both come in as a dnspython zone: rdatasets under the
names of the zone. What central and storage see of it are a zone object and recordset
objects, built here as `dnsutils.py` builds them.
-/

namespace Designate

/-- The type of an rdataset: one of `RECORD_TYPES`, or another. -/
inductive RdType where
  | known (t : RRType)
  | other (text : String)
  deriving DecidableEq, Repr

/-- `recordsets.type` has a value for it. -/
def RdType.stored : RdType → Bool
  | known _ => true
  | other _ => false

/-- An rdata; of an SOA, the fields that are read. -/
inductive Rdata where
  | soa (mname rname : String) (serial refresh retry expire minimum : Nat)
  | other (text : String)
  deriving DecidableEq, Repr

/-- `rdata.to_text()`. -/
def Rdata.toText : Rdata → String
  | soa mname rname serial refresh retry expire minimum =>
    String.intercalate " " [mname, rname, toString serial, toString refresh, toString retry,
      toString expire, toString minimum]
  | other text => text

/-- An rdataset with the name of its node. Only an assignment makes the TTL `None`. -/
structure Rdataset where
  name : String
  type : RdType
  ttl : Option Nat
  rdatas : List Rdata
  deriving DecidableEq, Repr

/--
A dnspython zone. A node holds one rdataset of a type; only of signatures, which storage
has no type for, it can hold several.
-/
structure DnsZone where
  origin : String
  nodes : List Rdataset
  distinct : ((nodes.filter fun r => r.type.stored).map fun r => (r.name, r.type)).Nodup

/-- A `RecordSet` as it comes out of an rdataset: name, type, the TTL if it was set, and data. -/
structure ReceivedRecordSet where
  name : String
  type : RdType
  ttl : Option (Option Nat)
  data : List String
  deriving DecidableEq, Repr

/-- `recordset.ttl`. -/
def ReceivedRecordSet.ttlValue (rrset : ReceivedRecordSet) : Option Nat := rrset.ttl.getD none

/-- `dnspythonrecord_to_recordset`: a TTL of zero is left out. -/
def dnspythonrecordToRecordset (rdataset : Rdataset) : ReceivedRecordSet where
  name := rdataset.name
  type := rdataset.type
  ttl := if rdataset.ttl = some 0 then none else some rdataset.ttl
  data := rdataset.rdatas.map Rdata.toText

/-- `dnspyrecords_to_recordsetlist`. -/
def dnspyrecordsToRecordsetlist (nodes : List Rdataset) : List ReceivedRecordSet :=
  nodes.map dnspythonrecordToRecordset

/-- The `Zone` object `from_dnspython_zone` builds; everything else is not set. -/
structure ReceivedZone where
  name : String
  email : String
  ttl : Option Nat
  serial : Nat
  retry : Nat
  expire : Nat
  recordsets : List ReceivedRecordSet
  deriving DecidableEq, Repr

/-- The mail address in an SOA: no final dot, and an `@` for the first of the others. -/
def emailOfRname (rname : String) : String :=
  let chars := rname.toList
  let chars := if chars.length > 1 && chars.getLast? == some '.' then chars.dropLast else chars
  String.ofList (chars.takeWhile (· ≠ '.') ++ match chars.dropWhile (· ≠ '.') with
    | [] => []
    | _ :: rest => '@' :: rest)

/-- The rdataset `get_rdataset(origin, 'SOA')` gives. -/
def Rdataset.isSoa (origin : String) (r : Rdataset) : Bool :=
  r.name == origin && r.type == .known .SOA

/-- `from_dnspython_zone`; an SOA with a TTL of zero gets the least TTL there is, for good. -/
def fromDnspythonZone (conf : Conf) (zone : DnsZone) : Except Exc ReceivedZone :=
  match zone.nodes.find? (Rdataset.isSoa zone.origin) with
  | none => .error (.BadRequest "An SOA record is required")
  | some soa =>
    let ttl := if soa.ttl = some 0 then conf.minTtl else soa.ttl
    match soa.rdatas with
    | .soa _ rname serial _ retry expire _ :: _ =>
      .ok { name := zone.origin, email := emailOfRname rname, ttl := ttl, serial := serial
            retry := retry, expire := expire
            recordsets := dnspyrecordsToRecordsetlist (zone.nodes.map fun r =>
              if r.isSoa zone.origin then { r with ttl := ttl } else r) }
    | .other _ :: _ => .error .AttributeError
    | [] => .error .IndexError

end Designate
