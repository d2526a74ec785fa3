import Mathlib.Algebra.Ring.Nat
import Designate.Central.Records

/-!
# What the mini DNS answers

A query for a name and a type is answered in two steps: the recordset is looked up among all
live zones, then its zone is looked up with what the requester may see: the pool or the zone
of the key that signed the request, or else the default pool. A transfer looks its zone up
with both at once, by name.

What an RRset has of some texts is the library's to say, which may not even read them: `dnspython`
is a parameter. Of what it documents, the results rely on what stands in `Dnspython.Documented`.
-/

namespace Designate

namespace Mdns

/-- What a handler raises. -/
inductive Exc where
  | RecordSetNotFound | ZoneNotFound | Forbidden | NotImplementedError | IndexError | TooBig
  /-- What `dnspython` raises of a text it cannot read. -/
  | DNSException
  /-- What a criterion raises. -/
  | criterion (e : Designate.Exc)
  deriving DecidableEq, Repr

/-- The scope of a key. -/
inductive Scope where
  | POOL | ZONE
  | other (name : String)
  deriving DecidableEq, Repr

/-- A row of `tsigkeys`. -/
structure TsigKey where
  scope : Scope
  resourceId : Nat
  deriving DecidableEq, Repr

/-- The options the handler reads. -/
structure Options where
  defaultPoolId : Nat
  queryEnforceTsig : Bool := false
  maxMessageSize : Int := 65535
  /-- The database. -/
  conf : Conf := {}

/-- The one question of a request, and the key the request was signed with. -/
structure Request where
  name : String
  type : String
  tsigkey : Option TsigKey := none
  hadTsig : Bool := false
  deriving DecidableEq, Repr

inductive Rcode where
  | NOERROR | REFUSED | SERVFAIL
  deriving DecidableEq, Repr

structure RRset where
  name : String
  type : RRType
  ttl : Nat
  rdata : List String
  deriving DecidableEq, Repr

structure Response where
  rcode : Rcode
  answer : List RRset := []
  deriving DecidableEq, Repr

/-! ## Criteria -/

/-- The clause of `_apply_criterion` for a text, as a condition on a column. -/
def clause (opts : Options) (value : String) : Except Exc (String → Bool) :=
  (textCriterion opts.conf value).mapError .criterion

/-- The clause for a name, after `_rname_check`. -/
def nameClause (opts : Options) (value : String) : Except Exc (String → Bool) :=
  (nameCriterion opts.conf value).mapError .criterion

/-- A criterion on zones. -/
structure ZoneCriterion where
  name : Option String := none
  id : Option Nat := none
  poolId : Option Nat := none

/-- `_zone_criterion_from_request`: what the key says takes the place of what was there. -/
def zoneCriterionFromRequest (opts : Options) (request : Request) (criterion : ZoneCriterion) :
    Except Exc ZoneCriterion :=
  match request.tsigkey with
  | none =>
    if opts.queryEnforceTsig then .error .Forbidden
    else .ok { criterion with poolId := some opts.defaultPoolId }
  | some key =>
    match key.scope with
    | .POOL => .ok { criterion with poolId := some key.resourceId }
    | .ZONE => .ok { criterion with id := some key.resourceId }
    | .other _ => .error .NotImplementedError

/-- The clause for the name, if the criterion has one. -/
def ZoneCriterion.named (opts : Options) (criterion : ZoneCriterion) :
    Except Exc (String → Bool) :=
  match criterion.name with
  | none => .ok fun _ => true
  | some name => nameClause opts name

/-- `storage.find_zone`. -/
def findZone (opts : Options) (db : Db) (criterion : ZoneCriterion) : Except Exc Zone := do
  let named ← criterion.named opts
  Table.one (db.zones.filter fun zone =>
    !zone.deleted && named zone.name && criterion.id.all (zone.id == ·) &&
      criterion.poolId.all (zone.poolId == ·)) .ZoneNotFound

/-- The recordsets of live zones under a criterion on their names and types. -/
def joinedRecordsets (db : Db) (named typed : String → Bool) : List RecordSetRow :=
  db.recordsets.flatMap fun row =>
    (db.zones.filter fun zone => zone.id == row.zoneId && !zone.deleted && named row.name &&
      typed row.type.text).map fun _ => row

/-- `storage.find_recordset`, by name and type, without its records. -/
def findRecordset (opts : Options) (db : Db) (name type : String) : Except Exc RecordSetRow := do
  let named ← nameClause opts name
  let typed ← clause opts type
  Table.one (joinedRecordsets db named typed) .RecordSetNotFound

/-- `_find_records` of a recordset. -/
def recordsOf (db : Db) (row : RecordSetRow) : List RecordRow :=
  db.records.filter fun record => record.recordsetId == row.id

/-- The data of the live records of a recordset. -/
def liveData (db : Db) (row : RecordSetRow) : List String :=
  ((recordsOf db row).filter fun record => record.action != .DELETE).map RecordRow.data

/-! ## RRsets -/

/-- `dnspython`, as far as answers go. An rdata is told by the text the library writes for it. -/
structure Dnspython where
  /-- `dns.rdata.from_text`: the rdata a text of a type is, unless it raises. -/
  fromText : RRType → String → Option String
  /-- `dns.rdatatype.is_singleton`. -/
  isSingleton : RRType → Bool
  /-- The rdata of what `dns.rrset.from_text_list` makes, unless it raises. -/
  fromTextList : RRType → List String → Option (List String)

section

variable (dns : Dnspython)

/-- The texts of which an RRset of this type has the rdata: all, or where it holds one, the last. -/
def Dnspython.Keeps (type : RRType) (texts : List String) (text : String) : Prop :=
  if dns.isSingleton type then texts.getLast? = some text else text ∈ texts

/-- What the library documents of an RRset that is made of texts it can read. -/
structure Dnspython.Documented : Prop where
  keeps : ∀ type texts, (∀ text ∈ texts, (dns.fromText type text).isSome = true) →
    ∃ rdata, dns.fromTextList type texts = some rdata ∧
      ∀ r, r ∈ rdata ↔ ∃ text, dns.Keeps type texts text ∧ dns.fromText type text = some r

/-- The library can read the data of the live records. -/
def Dnspython.Reads (db : Db) : Prop :=
  ∀ row ∈ db.recordsets, ∀ data ∈ liveData db row, (dns.fromText row.type data).isSome = true

/-- `dns.rrset.from_text_list`. -/
def fromTextList (name : String) (ttl : Nat) (type : RRType) (texts : List String) :
    Except Exc RRset :=
  match dns.fromTextList type texts with
  | some rdata => .ok ⟨name, type, ttl, rdata⟩
  | none => .error .DNSException

/-- `recordset.ttl or zone.ttl`. -/
def ttlOr (ttl : Option Nat) (default : Nat) : Nat :=
  match ttl with
  | some (n + 1) => n + 1
  | _ => default

/-- `_convert_to_rrset`. -/
def convertToRrset (zone : Zone) (row : RecordSetRow) (records : List RecordRow) :
    Except Exc (Option RRset) :=
  let rdata := (records.filter fun record => record.action != .DELETE).map RecordRow.data
  if rdata.isEmpty then .ok none
  else (fromTextList dns row.name (ttlOr row.ttl zone.ttl) row.type rdata).map some

/-- `_handle_record_query`. -/
def handleRecordQuery (opts : Options) (db : Db) (request : Request) : Except Exc Response :=
  match findRecordset opts db request.name request.type with
  | .error .RecordSetNotFound => .ok ⟨.REFUSED, []⟩
  | .error e => .error e
  | .ok row =>
    match zoneCriterionFromRequest opts request { id := some row.zoneId } >>= findZone opts db with
    | .error .ZoneNotFound => .ok ⟨.REFUSED, []⟩
    | .error .Forbidden => .ok ⟨.REFUSED, []⟩
    | .error e => .error e
    | .ok zone =>
      (convertToRrset dns zone row (recordsOf db row)).map fun rrset => ⟨.NOERROR, rrset.toList⟩

end

/-! ## The records of a transfer -/

/-- A row of the join a transfer reads. -/
structure AxfrRow where
  recordsetId : Nat
  type : RRType
  ttl : Option Nat
  name : String
  data : String
  deriving DecidableEq, Repr

/-- The records that are not deleted, joined with their recordsets of a zone and a type. -/
def joinedRecords (db : Db) (zoneId : Nat) (typed : String → Bool) : List AxfrRow :=
  db.records.flatMap fun record =>
    (db.recordsets.filter fun row => row.id == record.recordsetId && record.action != .DELETE &&
      row.zoneId == zoneId && typed row.type.text).map fun row =>
        ⟨row.id, row.type, row.ttl, row.name, record.data⟩

/-- `find_recordsets_axfr`, of a zone and a clause on types. -/
def findRecordsetsAxfr (db : Db) (zoneId : Nat) (typed : String → Bool) : List AxfrRow :=
  (joinedRecords db zoneId typed).mergeSort fun a b => decide (a.recordsetId ≤ b.recordsetId)

/-- The rows a transfer is made of: the SOA, all others, and the SOA again. -/
def axfrRecords (opts : Options) (db : Db) (zone : Zone) : Except Exc (List AxfrRow) := do
  let soa ← clause opts "SOA"
  let others ← clause opts "!SOA"
  match findRecordsetsAxfr db zone.id soa with
  | [] => .error .IndexError
  | first :: _ => .ok (first :: findRecordsetsAxfr db zone.id others ++ [first])

/-- The RRset of a row. -/
def AxfrRow.rrset (dns : Dnspython) (zone : Zone) (row : AxfrRow) : Except Exc RRset :=
  fromTextList dns row.name (row.ttl.getD zone.ttl) row.type [row.data]

/-! ## The packets of a transfer -/

/-- `TSIG_RRSIZE`: metadata, data, the name of the key, and its last dot. -/
def tsigRrsize : Int := 10 + 64 + 160 + 1

/-- `dns.renderer.Renderer`. A message that does not take more is left as it was. -/
structure Renderer (σ : Type) where
  /-- The header and the question, in at most so many bytes. -/
  start : Int → Request → Option σ
  /-- `add_rrset`, where `none` is `TooBig`. -/
  addRrset : σ → RRset → Option σ

/-- A message that is being rendered. -/
structure Packet (σ : Type) where
  wire : σ
  answers : List RRset := []

/-- `renderer.counts[dns.renderer.ANSWER]`. -/
def Packet.count {σ : Type} (packet : Packet σ) : Nat :=
  (packet.answers.map fun rrset => rrset.rdata.length).sum

/-- `_finalize_packet`; signing it adds no answer. -/
def finalizePacket {σ : Type} (packet : Packet σ) : Response :=
  ⟨.NOERROR, packet.answers⟩

/-- The largest message, with room for the signature. -/
def messageSize (opts : Options) (request : Request) : Int :=
  let size := if opts.maxMessageSize > 65535 then 65535 else opts.maxMessageSize
  if request.hadTsig then size - tsigRrsize else size

/-- The variables of the loop, and what has been yielded. -/
structure Axfr (σ : Type) where
  i : Nat := 0
  renderer : Option (Packet σ) := none
  yielded : List Response := []

section

variable {σ : Type} (R : Renderer σ) (dns : Dnspython)

/-- One turn of the loop, or all that is yielded. What is raised ends the transfer. -/
def axfrTurn (size : Int) (request : Request) (zone : Zone) (records : List AxfrRow) (s : Axfr σ) :
    Except Exc (Axfr σ ⊕ List Response) :=
  match records[s.i]? with
  | none => .ok (.inr (s.yielded ++ (s.renderer.map finalizePacket).toList))
  | some record =>
    match s.renderer <|> (R.start size request).map fun wire => { wire := wire } with
    | none => .error .TooBig
    | some packet =>
      match record.rrset dns zone with
      | .error e => .error e
      | .ok rrset =>
        match R.addRrset packet.wire rrset with
        | some wire => .ok (.inl ⟨s.i + 1, some ⟨wire, packet.answers ++ [rrset]⟩, s.yielded⟩)
        | none =>
          if packet.count = 0 then .ok (.inr (s.yielded ++ [⟨.SERVFAIL, []⟩]))
          else .ok (.inl ⟨s.i, none, s.yielded ++ [finalizePacket packet]⟩)

/-- The loop, for at most so many turns. -/
def axfrLoop (size : Int) (request : Request) (zone : Zone) (records : List AxfrRow) :
    Nat → Axfr σ → Except Exc (Option (List Response))
  | 0, _ => .ok none
  | fuel + 1, s =>
    match axfrTurn R dns size request zone records s with
    | .error e => .error e
    | .ok (.inr yielded) => .ok (some yielded)
    | .ok (.inl t) => axfrLoop size request zone records fuel t

/-- The zone a transfer is about. -/
def axfrZone (opts : Options) (db : Db) (request : Request) : Except Exc Zone :=
  zoneCriterionFromRequest opts request { name := some request.name } >>= findZone opts db

/-- `_handle_axfr`. -/
def handleAxfr (opts : Options) (db : Db) (request : Request) (fuel : Nat) :
    Except Exc (Option (List Response)) :=
  match axfrZone opts db request with
  | .error .ZoneNotFound => .ok (some [⟨.REFUSED, []⟩])
  | .error .Forbidden => .ok (some [⟨.REFUSED, []⟩])
  | .error e => .error e
  | .ok zone => do
    let records ← axfrRecords opts db zone
    axfrLoop R dns (messageSize opts request) request zone records fuel {}

end

end Mdns

end Designate
