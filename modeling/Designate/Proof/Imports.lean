import Designate.Central.Imports
import Designate.Proof.Requests

/-!
# No import gets through

`create_zone` looks for the view among the attributes of the zone. An import sets no
attributes, and what it gets is the error of a relation that is not loaded: the task
ends in error and nothing is stored, whatever the zone file says.
-/

namespace Designate

open Exec

variable {env : ImportEnv} {ctx : Context} {conf : Conf} {faults : ZoneFaults}
  {plan : Nat → ZoneFaults} {zone : NewZone} {rrsets : List ReceivedRecordSet} {body : String}
  {w : World}

/-- Without attributes the checks are all that runs. -/
theorem createZoneWith_unset : createZoneWith ctx conf faults plan zone none rrsets w =
    match createZoneChecks ctx conf (zone.owned ctx) w with
    | (.ok _, _) => (.error .RelationNotLoaded, w)
    | (.error e, _) => (.error e, w) := by
  unfold createZoneWith
  have hstate := createZoneChecks_state ctx conf (zone.owned ctx) w
  cases hrun : createZoneChecks ctx conf (zone.owned ctx) w with
  | mk res w' =>
    obtain rfl : w' = w := by rw [hrun] at hstate; exact hstate
    cases res with
    | error e => exact bind_error hrun
    | ok checked => exact bind_ok hrun

/-- **An import leaves everything as it was, and never completes.** -/
theorem importZone_fails (env : ImportEnv) (ctx : Context) (conf : Conf) (faults : ZoneFaults)
    (plan : Nat → ZoneFaults) (body : String) (w : World) :
    ∃ message, importZone env ctx conf faults plan body w = (⟨.ERROR, some message, none⟩, w) := by
  unfold importZone
  cases readZonefile env conf body with
  | error message => exact ⟨message, rfl⟩
  | ok zone =>
    dsimp only
    rw [createZoneWith_unset]
    cases createZoneChecks ctx conf (zone.newZone.owned ctx) w with
    | mk res w' =>
      cases res with
      | error e => exact ⟨_, rfl⟩
      | ok checked => exact ⟨_, rfl⟩

/-! ## What an import is for -/

/-- The recordsets of a file that are imported. -/
def DnsZone.imported (file : DnsZone) : List ReceivedRecordSet :=
  (dnspyrecordsToRecordsetlist file.nodes).filter ReceivedRecordSet.imported

/-- The stored records of a zone are those of the file. -/
structure HoldsFile (file : DnsZone) (zoneId : Nat) (db : Db) : Prop where
  stored : ∀ e ∈ file.imported, ∃ s ∈ db.recordsets, s.zoneId = zoneId ∧ s.name = e.name ∧
    .known s.type = e.type ∧ s.ttl = e.ttlValue ∧
      ((db.recordsOf s.id).map RecordRow.data).Perm e.data
  exported : ∀ e ∈ file.imported, ∀ data ∈ e.data, ∃ row ∈ findRecordsetsExport zoneId db,
    row.name = e.name ∧ .known row.type = e.type ∧ row.ttl = e.ttlValue ∧ row.data = data

/--
An import keeps the file: it completes, the zone holds the file's records, and its
export, imported in its place, gives a zone of the same records.
-/
structure ImportKeeps (env : ImportEnv) (ctx : Context) (conf : Conf) (faults : ZoneFaults)
    (plan : Nat → ZoneFaults) (body : String) (file : DnsZone) (w : World) : Prop where
  complete : (importZone env ctx conf faults plan body w).1.status = .COMPLETE
  holds : ∀ id, (importZone env ctx conf faults plan body w).1.zoneId = some id →
    HoldsFile file id (importZone env ctx conf faults plan body w).2.db
  again : ∀ id text, (importZone env ctx conf faults plan body w).1.zoneId = some id →
    exportZone ctx id (importZone env ctx conf faults plan body w).2.db = .ok text →
    ∃ id', (importZone env ctx conf faults plan text w).1.zoneId = some id' ∧
      ∀ row, row ∈ findRecordsetsExport id' (importZone env ctx conf faults plan text w).2.db ↔
        row ∈ findRecordsetsExport id (importZone env ctx conf faults plan body w).2.db

/-- **No import keeps its file**, whatever the file and the state of the service are. -/
theorem importZone_never_keeps (env : ImportEnv) (ctx : Context) (conf : Conf)
    (faults : ZoneFaults) (plan : Nat → ZoneFaults) (body : String) (file : DnsZone) (w : World) :
    ¬ ImportKeeps env ctx conf faults plan body file w := by
  intro h
  have hcomplete := h.complete
  obtain ⟨message, hfails⟩ := importZone_fails env ctx conf faults plan body w
  rw [hfails] at hcomplete
  exact absurd hcomplete (by simp)

/-! ## A zone file of one record -/

/-- The zone file. -/
def Sample.zonefile : String :=
  "$ORIGIN example.org.\n@ 300 IN SOA ns.example.org. admin.example.org. 1 3600 600 86400 3600\n" ++
    "www 300 IN A 192.0.2.1\n"

/-- What dnspython makes of it. -/
def Sample.file : DnsZone where
  origin := "example.org."
  nodes := [⟨"example.org.", .known .SOA, some 300,
      [.soa "ns.example.org." "admin.example.org." 1 3600 600 86400 3600]⟩,
    ⟨"www.example.org.", .known .A, some 300, [.other "192.0.2.1"]⟩]
  distinct := by simp [RdType.stored]

def Sample.importEnv : ImportEnv where
  fromText text := if text = Sample.zonefile then .ok Sample.file else .error .syntaxError
  text _ := ""

/-- The zone object of the file. -/
def Sample.received : ReceivedZone where
  name := "example.org."
  email := "admin@example.org"
  ttl := some 300
  serial := 1
  retry := 600
  expire := 86400
  recordsets := [⟨"www.example.org.", .known .A, some (some 300), ["192.0.2.1"]⟩]

/-- The zone file is read, its zone passes every check of `create_zone`, and that is all. -/
theorem import_not_complete :
    ¬ ∀ (env : ImportEnv) (ctx : Context) (conf : Conf) (body : String) (file : DnsZone)
      (zone : ReceivedZone) (w : World), w.Linked → env.fromText body = .ok file →
      readZonefile env conf body = .ok zone →
      (createZoneChecks ctx conf (zone.newZone.owned ctx) w).1.toOption.isSome = true →
      ImportKeeps env ctx conf ZoneFaults.none (fun _ => ZoneFaults.none) body file w := by
  intro h
  have htext : Sample.importEnv.fromText Sample.zonefile = .ok Sample.file := by
    simp [Sample.importEnv]
  have hread : readZonefile Sample.importEnv Sample.confNs Sample.zonefile =
      .ok Sample.received := by
    decide +kernel
  have hkeeps := h Sample.importEnv Sample.ctx Sample.confNs Sample.zonefile Sample.file
    Sample.received Sample.world sample_linked htext hread (by decide +kernel)
  exact absurd hkeeps.complete (by decide +kernel)

end Designate
