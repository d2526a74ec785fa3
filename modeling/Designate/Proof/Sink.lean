import Designate.Proof.Keeps
import Designate.Run
import Designate.Sample
import Designate.Sink

/-!
# What the sink makes of events

A handler hands `create_recordset` an object whose records nobody has set, and
`create_record` the id of a recordset in the place of the recordset. So either call
raises: no event of a handler stores a record, and none has one to delete.
-/

namespace Designate

namespace Sink

open Exec

variable {V : Type} {py : Python V} {conf : Conf} {handler : Handler} {w w₀ : World}

/-! ## What the events ask for -/

/-- A record that is to be there for a resource. -/
structure Wanted where
  subject : Subject
  name : String
  type : RRType
  data : String
  deriving DecidableEq, Repr

/-- The record of an address under a format, if the format gives a name. -/
def wantedUnder (py : Python V) (subject : Subject) (addr : Address) (data : EventData V)
    (format : String) : Option Wanted :=
  match py.percent format data >>= py.idna with
  | .ok name => some ⟨subject, name, addr.type, addr.address⟩
  | .error _ => none

/-- One record for each address and format. -/
def wantedFor (py : Python V) (handler : Handler) (zone : Zone) (subject : Subject)
    (extra : EventData V) (addr : Address) : List Wanted :=
  match getIpData py addr with
  | .ok ip =>
    (handler.formats addr).filterMap
      (wantedUnder py subject addr (update (update extra [("zone", py.text zone.name)]) ip))
  | .error _ => []

/-- What is wanted after one more event. -/
def wantedAfter (py : Python V) (handler : Handler) (zone : Zone) (wanted : List Wanted) :
    Event V → List Wanted
  | .created subject addresses extra =>
    wanted ++ addresses.flatMap (wantedFor py handler zone subject extra)
  | .deleted subject => wanted.filter fun m => m.subject ≠ subject

/-- What is wanted after all of them, in the zone of the handler. -/
def wanted (py : Python V) (handler : Handler) (events : List (Event V)) (db : Db) : List Wanted :=
  match findZone context handler.zoneId db with
  | .ok zone => events.foldl (wantedAfter py handler zone) []
  | .error _ => []

/-! ## What mirrors it -/

/-- The records of the handler in its zone. -/
def Handler.manages (handler : Handler) (r : RecordRow) : Bool :=
  r.zoneId == handler.zoneId && r.managed && r.managedBy.pluginName == some handler.pluginName &&
    r.managedBy.pluginType == some pluginType

/-- The record is the handler's, and the one that is wanted. -/
def Handler.has (handler : Handler) (db : Db) (m : Wanted) (r : RecordRow) : Bool :=
  handler.manages r && r.managedBy.resourceType == some m.subject.type &&
    r.managedBy.resourceId == some m.subject.id && r.data == m.data &&
    db.recordsets.any fun s => s.id == r.recordsetId && s.zoneId == r.zoneId &&
      s.name == m.name && s.type == m.type

/-- The handler has exactly the records that are wanted, and the others are as they were. -/
structure Mirrors (handler : Handler) (wanted : List Wanted) (before after : Db) : Prop where
  one : ∀ m ∈ wanted, (after.records.filter (handler.has after m)).length = 1
  only : ∀ r ∈ after.records, handler.manages r = true → ∃ m ∈ wanted, handler.has after m r = true
  others : after.records.filter (fun r => !handler.manages r) =
    before.records.filter fun r => !handler.manages r

/-! ## What an event leaves alone -/

/-- The records and the zones are those of `w₀`. -/
def Still (w₀ w : World) : Prop := w.db.records = w₀.db.records ∧ w.db.zones = w₀.db.zones

theorem still_createRecordsetInStorage (ctx : Context) (zone : Zone) (recordset : NewRecordSet) :
    Keeps (Still w₀) (createRecordsetInStorage ctx conf zone recordset) := by
  unfold createRecordsetInStorage transaction insertRecordset
  refine Keeps.rollback ?_ fun w w' hw _ => hw
  refine Keeps.bind (Keeps.read _) fun _ => Keeps.bind (Keeps.read _) fun _ => ?_
  refine Keeps.bind (Keeps.read _) fun _ => Keeps.bind ?_ fun id => ?_
  · intro w hw
    exact hw
  · refine Keeps.write fun w a w' hw h => ?_
    split at h
    · exact absurd h (by simp)
    · obtain ⟨-, rfl⟩ := Prod.mk.inj (Except.ok.inj h)
      exact hw

theorem still_createBareRecordset (ctx : Context) (zoneId : Nat) (recordset : NewRecordSet) :
    Keeps (Still w₀) (createBareRecordset ctx conf zoneId recordset) := by
  unfold createBareRecordset refuseDeletingZone
  refine Keeps.bind (Keeps.read _) fun zone => Keeps.bind (Keeps.raiseIf _ _) fun _ => ?_
  exact Keeps.bind (still_createRecordsetInStorage ctx zone _) fun _ => Keeps.raise _

theorem still_findOrCreateRecordset (zoneId : Nat) (name : String) (type : RRType) :
    Keeps (Still w₀) (findOrCreateRecordset py conf zoneId name type) := by
  refine Keeps.bind (Keeps.read _) fun name => ?_
  refine Keeps.catching (still_createBareRecordset _ _ _) ?_
  exact Keeps.bind (Keeps.read _) fun _ => Keeps.read _

/-- The id of a recordset is as far as `create_record` gets. -/
theorem still_createRecordOf (ctx : Context) (faults : Faults) (zoneId id : Nat) (record : Record) :
    Keeps (Still w₀) (createRecordOf ctx conf faults zoneId (.text id) record) :=
  Keeps.bind (Keeps.read _) fun _ => Keeps.bind (Keeps.raiseIf _ _) fun _ => Keeps.raise _

theorem still_create (subject : Subject) (addresses : List Address) (extra : EventData V) :
    Keeps (Still w₀) (create py conf handler subject addresses extra) := by
  refine Keeps.bind (Keeps.read _) fun zone => Keeps.forEach fun addr _ => ?_
  refine Keeps.bind (Keeps.read _) fun ip => Keeps.forEach fun format _ => ?_
  refine Keeps.bind (Keeps.read _) fun name => ?_
  refine Keeps.bind (still_findOrCreateRecordset _ _ _) fun recordset => ?_
  exact Keeps.bind (still_createRecordOf _ _ _ _ _) fun _ => Keeps.pure _

/-- What `_delete` finds is the handler's. -/
theorem deleteCriterion_manages {subject : Subject} {p : RecordRow → Bool} {r : RecordRow}
    (hp : deleteCriterion conf handler subject = .ok p) (hr : p r = true) :
    handler.manages r = true := by
  -- the names of the plugin are no patterns, so these columns are compared as they are
  have hname : columnCriterion conf handler.pluginName =
      .ok fun column => column.any fun c => c == handler.pluginName := by
    rw [columnCriterion, textCriterion_plain handler.namePlain]
    rfl
  have htype : columnCriterion conf pluginType =
      .ok fun column => column.any fun c => c == pluginType := by
    rw [columnCriterion, textCriterion_plain (by decide)]
    rfl
  unfold deleteCriterion at hp
  rw [hname, htype] at hp
  cases hid : columnCriterion conf subject.id with
  | error e => rw [hid] at hp; exact absurd hp (by simp [bind, Except.bind])
  | ok resourceId =>
    cases hkind : columnCriterion conf subject.type with
    | error e => rw [hid, hkind] at hp; exact absurd hp (by simp [bind, Except.bind])
    | ok resourceType =>
      rw [hid, hkind] at hp
      obtain rfl := Except.ok.inj hp
      simp only [Bool.and_eq_true, Option.any_eq_true, beq_iff_eq] at hr
      obtain ⟨⟨⟨⟨⟨hzone, hmanaged⟩, name, hn, rfl⟩, type, ht, rfl⟩, -⟩, -⟩ := hr
      unfold Handler.manages
      rw [hzone, hmanaged, hn, ht]
      simp

/-- Where the handler has no record, `_delete` has nothing to do. -/
theorem delete_nothing (subject : Subject) (hnone : ∀ r ∈ w.db.records, handler.manages r = false) :
    (delete conf handler subject w).2 = w := by
  unfold delete
  cases hp : deleteCriterion conf handler subject with
  | error e => simp only [bind_apply, read_apply]
  | ok p =>
    have hfound : w.db.records.filter (fun r => p r && context.sees r.tenantId) = [] := by
      refine List.filter_eq_nil_iff.mpr fun r hr hpr => ?_
      have hmine := deleteCriterion_manages hp (Bool.and_eq_true_iff.mp hpr).1
      rw [hnone r hr] at hmine
      exact absurd hmine (by simp)
    unfold findRecords
    simp only [bind_apply, read_apply, hfound]
    rfl

/-- **No event stores a record or takes one away** where the handler has none. -/
theorem info_still (event : Event V) (hnone : ∀ r ∈ w.db.records, handler.manages r = false) :
    Still w (info py conf handler event w) := by
  cases event with
  | created subject addresses extra => exact still_create subject addresses extra w ⟨rfl, rfl⟩
  | deleted subject =>
    unfold info processNotification
    rw [delete_nothing subject hnone]
    exact ⟨rfl, rfl⟩

/-- Nor do any number of them. By induction on the events. -/
theorem run_still (events : List (Event V)) (w₀ : World)
    (hnone : ∀ r ∈ w₀.db.records, handler.manages r = false) :
    Still w₀ (Run.final (info py conf handler) events w₀) := by
  have hstep : ∀ (event : Event V) (w : World), Still w₀ w → True →
      Still w₀ (info py conf handler event w) := by
    intro event w hw _
    have hnone' : ∀ r ∈ w.db.records, handler.manages r = false := by rwa [hw.1]
    have hstill : Still w (info py conf handler event w) := info_still event hnone'
    exact ⟨hstill.1.trans hw.1, hstill.2.trans hw.2⟩
  exact (Run.invariant hstep ⟨rfl, rfl⟩ fun _ _ => trivial).2

/--
**The records of a handler mirror the resources exactly if there is nothing to mirror**:
each resource that was created with an address that has a name has been deleted since.
-/
theorem run_mirrors_iff (py : Python V) (conf : Conf) (handler : Handler) (events : List (Event V))
    (w : World) (hnone : ∀ r ∈ w.db.records, handler.manages r = false) :
    Mirrors handler (wanted py handler events w.db) w.db
        (Run.final (info py conf handler) events w).db ↔
      wanted py handler events w.db = [] := by
  have hstill : Still w (Run.final (info py conf handler) events w) := run_still events w hnone
  constructor
  · intro hm
    -- a record that is wanted would have to be one of those that were there
    refine List.eq_nil_iff_forall_not_mem.mpr fun m hmem => ?_
    have hlen := hm.one m hmem
    rw [hstill.1, List.length_eq_one_iff] at hlen
    obtain ⟨r, hr⟩ := hlen
    obtain ⟨hr, hhas⟩ := List.mem_filter.mp (hr ▸ List.mem_singleton_self r)
    unfold Handler.has at hhas
    rw [hnone r hr] at hhas
    exact absurd hhas (by simp)
  · intro hnil
    rw [hnil]
    refine ⟨fun m hm => absurd hm List.not_mem_nil, fun r hr hmine => ?_, by rw [hstill.1]⟩
    rw [hstill.1] at hr
    exact absurd (hnone r hr) (by rw [hmine]; simp)

/-! ## At the sample -/

namespace Sample

/-- For formats without a `%`, which stand for themselves. -/
def python : Python String where
  text := id
  number := toString
  percent := fun format _ => .ok format
  idna := .ok

def nova : Handler :=
  { pluginName := "nova_fixed", namePlain := by decide, zoneId := 2
    format := ["www.example.com.", "vm.example.com."] }

def vm : Subject := ⟨"instance", "i-1"⟩

/-- An instance comes up, under a name that is taken and one that is not. -/
def vmCreated : Event String := .created vm [⟨"192.0.2.9", 4⟩] []

end Sample

/-- Once the instance is gone again, nothing is wanted and nothing was stored. -/
theorem run_mirrors_iff_sample :
    Mirrors Sample.nova [] Designate.Sample.world.db
      (Run.final (info Sample.python Designate.Sample.conf Sample.nova)
        [Sample.vmCreated, .deleted Sample.vm] Designate.Sample.world).db :=
  (run_mirrors_iff Sample.python Designate.Sample.conf Sample.nova
    [Sample.vmCreated, .deleted Sample.vm] Designate.Sample.world (by decide)).mpr (by decide)

/-- An instance with an address gets no record. -/
theorem instance_without_record :
    ¬ ∀ (V : Type) (py : Python V) (conf : Conf) (handler : Handler) (events : List (Event V))
      (w : World), (∀ r ∈ w.db.records, handler.manages r = false) →
      Mirrors handler (wanted py handler events w.db) w.db
        (Run.final (info py conf handler) events w).db := by
  intro h
  have hm := h String Sample.python Designate.Sample.conf Sample.nova [Sample.vmCreated]
    Designate.Sample.world (by decide)
  have hone := hm.one ⟨Sample.vm, "www.example.com.", .A, "192.0.2.9"⟩ (by decide)
  exact absurd hone (by decide +kernel)

end Sink

end Designate
