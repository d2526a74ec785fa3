import Designate.Proof.Requests
import Designate.Proof.Truthful

/-!
# Whether a recordset that could not be created leaves anything behind

`create_recordset` commits the recordset first and then each record by itself, and
its only clean-up looks whether no record is left at the end. So it takes nothing
back when it raises on the way. The turns of its loop are followed one by one, each
from the state before it, to say exactly when that cannot happen.
-/

namespace Designate

open Exec

variable {ctx : Context} {conf : Conf} {faults : Faults} {zone : Zone} {recordset : RecordSet}
  {record : Record} {w w' : World}

/-! ## Storing the recordset -/

/-- The row `recordset` is stored as. -/
def NewRecordSet.row (recordset : NewRecordSet) (zone : Zone) (id : Nat) : RecordSetRow :=
  { id := id, zoneId := zone.id, tenantId := zone.tenantId, name := recordset.name,
    type := recordset.type, ttl := recordset.ttl, description := recordset.description }

/-- Nothing stops storage from taking the recordset. -/
def StoresRecordset (ctx : Context) (conf : Conf) (zone : Zone) (recordset : NewRecordSet)
    (db : Db) : Prop :=
  enforceRecordsetQuota ctx conf zone db = .ok () ∧
    validateRecordset ctx conf zone none recordset.name recordset.type recordset.ttl
      recordset.records.length db = .ok () ∧
    ∀ r ∈ db.recordsets, ¬ (r.zoneId = zone.id ∧ r.name = recordset.name ∧ r.type = recordset.type)

theorem insertRecordset_ok {recordset : NewRecordSet} (hz : findZone ctx zone.id w.db = .ok zone)
    (h : ∀ r ∈ w.db.recordsets,
      ¬ (r.zoneId = zone.id ∧ r.name = recordset.name ∧ r.type = recordset.type)) :
    insertRecordset ctx zone.id recordset w =
      (.ok (RecordSet.ofRow (recordset.row zone w.nextId) recordset.records),
        w.withRecordsetRow (recordset.row zone w.nextId)) := by
  have hd : (w.db.recordsets.any fun r =>
      r.zoneId == zone.id && r.name == recordset.name && r.type == recordset.type) = false := by
    rw [List.any_eq_false]
    intro r hr
    simpa [and_assoc] using h r hr
  unfold insertRecordset getZone
  rw [bind_ok (by rw [read_apply, hz]), bind_ok (generateUuid_apply w)]
  simp only [Exec.write, hd, Bool.false_eq_true, if_false]
  rfl

theorem insertRecordset_taken {recordset : NewRecordSet}
    (hz : findZone ctx zone.id w.db = .ok zone)
    (h : ¬ ∀ r ∈ w.db.recordsets,
      ¬ (r.zoneId = zone.id ∧ r.name = recordset.name ∧ r.type = recordset.type)) :
    insertRecordset ctx zone.id recordset w =
      (.error .DuplicateRecordSet, { w with nextId := w.nextId + 1 }) := by
  have hd : (w.db.recordsets.any fun r =>
      r.zoneId == zone.id && r.name == recordset.name && r.type == recordset.type) = true := by
    rw [List.any_eq_true]
    push Not at h
    obtain ⟨r, hr, h₁, h₂, h₃⟩ := h
    exact ⟨r, hr, by simp [h₁, h₂, h₃]⟩
  unfold insertRecordset getZone
  rw [bind_ok (by rw [read_apply, hz]), bind_ok (generateUuid_apply w)]
  simp only [Exec.write, hd, if_true]

/-- **Storing the recordset appends its row, or raises and changes nothing.** -/
theorem createRecordsetInStorage_cases (conf : Conf) (recordset : NewRecordSet)
    (hz : findZone ctx zone.id w.db = .ok zone) :
    (¬ StoresRecordset ctx conf zone recordset w.db ∧
      ∃ e w', createRecordsetInStorage ctx conf zone recordset w = (.error e, w') ∧
        w'.db = w.db ∧ w'.device = w.device) ∨
    StoresRecordset ctx conf zone recordset w.db ∧
      createRecordsetInStorage ctx conf zone recordset w =
        (.ok (RecordSet.ofRow (recordset.row zone w.nextId) recordset.records),
          w.withRecordsetRow (recordset.row zone w.nextId)) := by
  unfold createRecordsetInStorage transaction Exec.rollback check
  -- the quota, the checks, and the unique constraint, in the order of the source
  cases hq : enforceRecordsetQuota ctx conf zone w.db with
  | error e =>
    rw [bind_error (by rw [read_apply, hq])]
    exact Or.inl ⟨fun h => absurd (hq.symm.trans h.1) (by simp), e, w, rfl, rfl, rfl⟩
  | ok u =>
    rw [seq_ok (by rw [read_apply, hq])]
    cases hv : validateRecordset ctx conf zone none recordset.name recordset.type recordset.ttl
        recordset.records.length w.db with
    | error e =>
      rw [bind_error (by rw [read_apply, hv])]
      exact Or.inl ⟨fun h => absurd (hv.symm.trans h.2.1) (by simp), e, w, rfl, rfl, rfl⟩
    | ok u =>
      rw [seq_ok (by rw [read_apply, hv])]
      by_cases hd : ∀ r ∈ w.db.recordsets,
          ¬ (r.zoneId = zone.id ∧ r.name = recordset.name ∧ r.type = recordset.type)
      · rw [insertRecordset_ok hz hd]
        exact Or.inr ⟨⟨hq, hv, hd⟩, rfl⟩
      · rw [insertRecordset_taken hz hd]
        exact Or.inl ⟨fun h => hd h.2.2, _, _, rfl, rfl, rfl⟩

/-! ## One turn -/

/--
The turn for `record` returns: storage takes the record, and if the worker cannot
report a failure then it has none to report.
-/
def CreateReturns (ctx : Context) (conf : Conf) (faults : Faults) (zone : Zone)
    (recordset : RecordSet) (record : Record) (w : World) : Prop :=
  (∃ row, Stores ctx conf zone recordset record w.db w.nextId row) ∧
    (faults .errorStatus = true →
      (∃ view, CreateAccepted ctx faults zone w view) ∧ faults .createZdnsRecord = false ∧
        faults .createRecordAssociation = false ∧ faults .updateStatus = false)

theorem createOne_returns (hw : w.Linked) (h : CreateReturns ctx conf faults zone recordset record w) :
    ∃ p w', createOne ctx conf faults zone recordset record w = (.ok p, w') := by
  obtain ⟨⟨row₀, hstores₀⟩, herr⟩ := h
  rcases createRecordInStorage_cases ctx conf zone recordset record w with
    ⟨-, -, -, -, -, -, -, hnot⟩ | ⟨row, hstores, hok⟩
  · exact absurd hstores₀ (hnot row₀)
  have hfound : findRecordRow ctx (Record.ofRow row).id (w.inserted row).db = .ok row :=
    hstores.inserted.found hw.records
  have hrun : ∃ r w', recordAction ctx conf faults zone (Record.ofRow row) .CREATE recordset
      (w.inserted row) = (.ok r, w') := by
    by_cases hacc : ∃ view, CreateAccepted ctx faults zone (w.inserted row) view
    · obtain ⟨view, hview⟩ := hacc
      by_cases hb : ∃ r, CreateBooked ctx conf faults (Record.ofRow row) (w.inserted row).db r
      · obtain ⟨r, hr⟩ := hb
        exact ⟨_, _, recordAction_create_booked hview hr⟩
      · -- what was not booked is reported, so that report gets through
        have he : faults .errorStatus = false := by
          rw [← Bool.not_eq_true]
          intro he
          obtain ⟨-, h₁, h₂, h₃⟩ := herr he
          exact hb ⟨row, h₁, h₂, hstores.inserted.settle hw.records h₃⟩
        obtain ⟨id, w', hw', -⟩ := recordAction_create_lost recordset he hfound hview
          fun r hr => hb ⟨r, hr⟩
        exact ⟨_, w', hw'⟩
    · have he : faults .errorStatus = false := by
        rw [← Bool.not_eq_true]
        exact fun he => hacc (herr he).1
      obtain ⟨w', hw', -⟩ := recordAction_create_refused conf recordset he hfound
        fun view hv => hacc ⟨view, hv⟩
      exact ⟨_, w', hw'⟩
  obtain ⟨r, w', hr⟩ := hrun
  unfold createOne
  rw [bind_ok hok, bind_ok hr]
  exact ⟨_, _, rfl⟩

theorem handler_raises (conf : Conf) (record : Record) (action : Action)
    (hf : faults .errorStatus = true) :
    RecordAction.handler ctx conf faults record action w =
      (.error .StepFailed, w.report ⟨record.id, action, .ERROR⟩) := by
  unfold RecordAction.handler recordActionUpdateStatus
  rw [Exec.bind_ok (Exec.modify_apply _ _)]
  unfold updateRecordStatus
  exact bind_error (by simp only [if_true, hf]; rfl)

theorem createOne_raises
    (h : ¬ CreateReturns ctx conf faults zone recordset record w) :
    ∃ e w', createOne ctx conf faults zone recordset record w = (.error e, w') := by
  unfold createOne
  rcases createRecordInStorage_cases ctx conf zone recordset record w with
    ⟨e, w', he, -⟩ | ⟨row, hstores, hok⟩
  · exact ⟨e, w', bind_error he⟩
  rw [bind_ok hok]
  -- the turn returns unless the worker cannot report its failure either
  have herr : faults .errorStatus = true ∧ ((∃ view, CreateAccepted ctx faults zone w view) →
      ¬ (faults .createZdnsRecord = false ∧ faults .createRecordAssociation = false ∧
        faults .updateStatus = false)) := by
    unfold CreateReturns at h
    refine ⟨?_, fun hv hf => h ⟨⟨row, hstores⟩, fun _ => ⟨hv, hf⟩⟩⟩
    rw [← Bool.not_eq_false]
    exact fun he => h ⟨⟨row, hstores⟩, fun he' => absurd (he.symm.trans he') (by simp)⟩
  have hhandler (v : World) : RecordAction.handler ctx conf faults (Record.ofRow row) .CREATE v =
      (.error .StepFailed, v.report ⟨some row.id, .CREATE, .ERROR⟩) :=
    handler_raises conf _ _ herr.1
  -- the device has taken the record or it has not; the handler raises in both cases
  by_cases hacc : ∃ view, CreateAccepted ctx faults zone (w.inserted row) view
  · obtain ⟨view, hview⟩ := hacc
    have hb : ∀ r, ¬ CreateBooked ctx conf faults (Record.ofRow row) (w.inserted row).db r :=
      fun r hr => herr.2 ⟨view, hview⟩ ⟨hr.1, hr.2.1, hr.2.2.1⟩
    obtain ⟨e, w₂, hrest, -⟩ := createRest_raises recordset
      (conf.rrName (w.inserted row).device.rrs (createData view zone (Record.ofRow row) recordset))
      (w := (w.inserted row).created conf view zone (Record.ofRow row) recordset) hb
    exact ⟨_, _, bind_error (saga_rest_handler_raises (createCall_accepted hview) hrest
      (hhandler w₂))⟩
  · obtain ⟨e, w₁, hcall, -⟩ := createCall_refused conf (Record.ofRow row) recordset (w := w.inserted row)
      fun view hv => hacc ⟨view, hv⟩
    exact ⟨_, _, bind_error (saga_handler_raises hcall (hhandler w₁))⟩

/-! ## The loop -/

/-- A turn of the loop: the failing sites, the record, and the state before. -/
structure CreateTurn where
  faults : Faults
  record : Record
  before : World

/-- The turns of the loop of `create_recordset`; none follows one that raises. -/
def createTurns (ctx : Context) (conf : Conf) (zone : Zone) (recordset : RecordSet) :
    (Nat → Faults) → List Record → World → List CreateTurn
  | _, [], _ => []
  | plan, record :: records, w =>
    ⟨plan 0, record, w⟩ ::
      match createOne ctx conf (plan 0) zone recordset record w with
      | (.ok _, w') => createTurns ctx conf zone recordset (fun n => plan (n + 1)) records w'
      | (.error _, _) => []

/-- The turn returns, as the state before it says. -/
def CreateTurn.Returns (ctx : Context) (conf : Conf) (zone : Zone) (recordset : RecordSet)
    (t : CreateTurn) : Prop :=
  CreateReturns ctx conf t.faults zone recordset t.record t.before

/-- What a turn leaves alone: the zones, and where the recordsets are. -/
structure World.Around (zones : List Zone)
    (places : List (Nat × Nat × Option String × String × RRType)) (w : World) : Prop where
  zones : w.db.zones = zones
  recordsets : w.db.recordsets.map RecordSetRow.place = places

theorem createOne_around (ctx : Context) (conf : Conf) (faults : Faults) (zone : Zone)
    (recordset : RecordSet) (record : Record) (zones places) :
    Keeps (World.Around zones places) (createOne ctx conf faults zone recordset record) := by
  have hquiet : IgnoresQuiet (World.Around zones places) :=
    fun w w' hq h => ⟨hq.zones.trans h.zones, hq.recordsets.trans h.recordsets⟩
  exact createOne_keeps hquiet fun w row hw _ => ⟨⟨hw.zones, hw.recordsets⟩,
    hquiet, fun h => ⟨h.zones, h.recordsets⟩, fun _ h _ _ => ⟨h.zones, h.recordsets⟩,
    fun h _ => ⟨h.zones, h.recordsets⟩⟩

/--
**The loop returns if and only if each of its turns does.** By induction on the
records: a turn that returns keeps the links, and the recordset in its zone.
-/
theorem createAll_returns_iff (conf : Conf) (plan : Nat → Faults) (records : List Record)
    {zones places} (hw : w.Linked) (hp : Placed zone.id recordset.id w)
    (ha : w.Around zones places) :
    ∃ res w', createAll ctx conf zone recordset plan records w = (res, w') ∧
      w'.Linked ∧ w'.Around zones places ∧
      (res.isOk = true ↔
        ∀ t ∈ createTurns ctx conf zone recordset plan records w,
          t.Returns ctx conf zone recordset) := by
  induction records generalizing plan w with
  | nil => exact ⟨.ok [], w, rfl, hw, ha, by simp [createTurns, Except.isOk, Except.toBool]⟩
  | cons record records ih =>
    have hlinked := (linked_steady ctx conf).createOne (plan 0) zone recordset record w ⟨hw, hp⟩
    have haround := createOne_around ctx conf (plan 0) zone recordset record zones places w ha
    -- the first turn returns and the others follow, or the loop ends with it
    by_cases hr : CreateReturns ctx conf (plan 0) zone recordset record w
    · obtain ⟨⟨recordDb, response⟩, w₁, hrun⟩ := createOne_returns hw hr
      rw [hrun] at hlinked haround
      obtain ⟨res, w', hrest, hlinked', haround', hiff⟩ :=
        ih (fun n => plan (n + 1)) hlinked.1 hlinked.2 haround
      have hturns : createTurns ctx conf zone recordset plan (record :: records) w =
          ⟨plan 0, record, w⟩ ::
            createTurns ctx conf zone recordset (fun n => plan (n + 1)) records w₁ := by
        rw [createTurns, hrun]
      have hall : createAll ctx conf zone recordset plan (record :: records) w =
          (res.map fun done => if response.isSome then recordDb :: done else done, w') := by
        rw [createAll, bind_ok hrun]
        dsimp only
        rw [bind_apply, hrest]
        cases res <;> rfl
      refine ⟨_, w', hall, hlinked', haround', ?_⟩
      rw [hturns, List.forall_mem_cons, ← hiff]
      have hhead : CreateTurn.Returns ctx conf zone recordset ⟨plan 0, record, w⟩ := hr
      cases res <;> simp [hhead, Except.map, Except.isOk, Except.toBool]
    · obtain ⟨e, w₁, hrun⟩ := createOne_raises hr
      rw [hrun] at hlinked haround
      refine ⟨.error e, w₁, bind_error hrun, hlinked.1, haround, ?_⟩
      have hhead : ¬ CreateTurn.Returns ctx conf zone recordset ⟨plan 0, record, w⟩ := hr
      rw [createTurns, List.forall_mem_cons]
      simp [hhead, Except.isOk, Except.toBool]

/-! ## The request -/

/-- If the request raised, storage and the device hold what they held before. -/
def AtomicOnError {α : Type} (w : World) (outcome : Except Exc α × World) : Prop :=
  ∀ e, outcome.1 = .error e →
    outcome.2.db.recordsets = w.db.recordsets ∧ outcome.2.db.records = w.db.records ∧
      outcome.2.device.rrs = w.device.rrs

/-- The records are set, and every turn of the loop over them returns. -/
def CreatesAll (ctx : Context) (conf : Conf) (plan : Nat → Faults) (zone : Zone)
    (recordset : NewRecordSet) (records : Option (List Record)) (w : World) : Prop :=
  ∃ rs, records = some rs ∧
    let row := { recordset with records := rs }.row zone w.nextId
    ∀ t ∈ createTurns ctx conf zone (RecordSet.ofRow row rs) plan rs (w.withRecordsetRow row),
      t.Returns ctx conf zone (RecordSet.ofRow row rs)

/-- A recordset that is still there shows. -/
theorem not_atomic {α : Type} {outcome : Except Exc α × World} {e : Exc} {s : RecordSetRow}
    (he : outcome.1 = .error e)
    (hp : outcome.2.db.recordsets.map RecordSetRow.place =
      (w.withRecordsetRow s).db.recordsets.map RecordSetRow.place) :
    ¬ AtomicOnError w outcome := by
  intro h
  obtain ⟨hs, -⟩ := h e he
  have hlen := congrArg List.length hp
  rw [hs] at hlen
  simp [World.withRecordsetRow] at hlen

/-- The clean-up of a recordset that is still there does not raise. -/
theorem cleanUp_returns {α : Type} {row : RecordSetRow} {zones places} (done : α) (hw : w.Linked)
    (ha : w.Around zones places) (hrow : row.place ∈ places)
    (hsees : ctx.sees row.tenantId = true)
    (hlive : (zones.any fun z => z.id == row.zoneId && !z.deleted) = true) :
    ∃ w', (do
      let exist ← findRecords ctx fun r => r.recordsetId == row.id
      if exist.isEmpty then deleteRecordsetRow ctx row.id
      pure done : Call α) w = (.ok done, w') := by
  rw [← ha.recordsets] at hrow
  obtain ⟨s, hs, he⟩ := List.mem_map.mp hrow
  simp only [RecordSetRow.place, Prod.mk.injEq] at he
  have hl : w.db.liveZone s.zoneId = true := by
    unfold Db.liveZone
    rw [ha.zones, he.2.1]
    exact hlive
  have hfound : findRecordsetRow ctx row.id w.db = .ok s :=
    Table.find_of_mem hw.recordsetIds hs he.1 (by rw [he.2.2.1, hsees, hl]; rfl)
  have hread : ∃ rows, findRecords ctx (fun r => r.recordsetId == row.id) w = (.ok rows, w) :=
    ⟨_, rfl⟩
  obtain ⟨exist, hexist⟩ := hread
  rw [bind_ok hexist]
  split
  · exact ⟨_, by simp only [bind_apply, deleteRecordsetRow, Exec.write, hfound]; rfl⟩
  · exact ⟨w, rfl⟩

/-- The request once the recordset has been stored. -/
theorem createRecordset_stored (plan : Nat → Faults) {recordset : NewRecordSet} (hw : w.Linked)
    (hz : findZone ctx zone.id w.db = .ok zone) (hdel : zone.action ≠ .DELETE)
    (hs : StoresRecordset ctx conf zone recordset w.db) :
    let row := recordset.row zone w.nextId
    AtomicOnError w (createRecordset ctx conf plan zone.id recordset w) ↔
      ∀ t ∈ createTurns ctx conf zone (RecordSet.ofRow row recordset.records) plan
          recordset.records (w.withRecordsetRow row),
        t.Returns ctx conf zone (RecordSet.ofRow row recordset.records) := by
  intro row
  obtain ⟨hzm, hzid, hsees, hlive⟩ := findZone_mem hz
  have hstore : createRecordsetInStorage ctx conf zone recordset w =
      (.ok (RecordSet.ofRow row recordset.records), w.withRecordsetRow row) := by
    rcases createRecordsetInStorage_cases conf recordset hz with ⟨hn, -⟩ | ⟨-, hok⟩
    · exact absurd hs hn
    · exact hok
  have hw₁ : (w.withRecordsetRow row).Linked :=
    (linked_steady ctx conf).insertRecordset hw rfl trivial ⟨zone, hzm, rfl, rfl⟩
  have hrow : row ∈ (w.withRecordsetRow row).db.recordsets :=
    List.mem_append_right _ (List.mem_singleton_self row)
  -- the loop begins with the new recordset in its zone
  have hplaced : Placed zone.id (RecordSet.ofRow row recordset.records).id
      (w.withRecordsetRow row) := ⟨row, hrow, rfl, rfl⟩
  obtain ⟨res, w₂, hall, hw₂, ha₂, hiff⟩ := createAll_returns_iff conf plan recordset.records
    hw₁ hplaced ⟨rfl, rfl⟩
  rw [← hiff]
  have hrun : createRecordset ctx conf plan zone.id recordset w =
      (do
        let done ← createAll ctx conf zone (RecordSet.ofRow row recordset.records) plan
          recordset.records
        let exist ← findRecords ctx fun r => r.recordsetId == row.id
        if exist.isEmpty then deleteRecordsetRow ctx row.id
        pure done : Call (List Record)) (w.withRecordsetRow row) := by
    unfold createRecordset getZone refuseDeletingZone
    rw [bind_ok (by rw [read_apply, hz]), bind_ok (raiseIf_of_not (by simp [hdel]) _ _),
      bind_ok hstore]
    rfl
  rw [hrun]
  cases res with
  | ok done =>
    obtain ⟨w₃, hdone⟩ := cleanUp_returns done hw₂ ha₂ (List.mem_map_of_mem hrow) hsees
      (List.any_eq_true.mpr ⟨zone, hzm, by simp [row, NewRecordSet.row, hlive]⟩)
    rw [bind_ok hall, hdone]
    exact iff_of_true (fun e he => absurd he (by simp)) rfl
  | error e =>
    -- the loop has raised, and the row of the recordset stays
    rw [bind_error hall]
    exact iff_of_false (not_atomic rfl ha₂.recordsets) (by simp [Except.isOk, Except.toBool])

/-- The request of a recordset whose records are not set. -/
theorem createRecordsetOf_unset (conf : Conf) (plan : Nat → Faults) {recordset : NewRecordSet}
    (hz : findZone ctx zone.id w.db = .ok zone) (hdel : zone.action ≠ .DELETE)
    (hs : StoresRecordset ctx conf zone { recordset with records := [] } w.db) :
    createRecordsetOf ctx conf plan zone.id recordset none w =
      (.error .RelationNotLoaded, w.withRecordsetRow (recordset.row zone w.nextId)) := by
  have hstore := createRecordsetInStorage_cases conf { recordset with records := [] } hz
  unfold createRecordsetOf getZone refuseDeletingZone
  dsimp only
  rw [bind_ok (by rw [read_apply, hz]), bind_ok (raiseIf_of_not (by simp [hdel]) _ _)]
  rcases hstore with ⟨hn, -⟩ | ⟨-, hok⟩
  · exact absurd hs hn
  · rw [bind_ok hok]
    rfl

/-- A request that does not get as far as the loop changes nothing. -/
theorem createRecordsetOf_early (plan : Nat → Faults) {recordset : NewRecordSet}
    (records : Option (List Record)) {zoneId : Nat}
    (h : ∀ zone, findZone ctx zoneId w.db = .ok zone → zone.action ≠ .DELETE →
      ¬ StoresRecordset ctx conf zone { recordset with records := records.getD [] } w.db) :
    AtomicOnError w (createRecordsetOf ctx conf plan zoneId recordset records w) := by
  -- up to the loop the request does the same, whether its records are set or not
  have hstart {α : Type} (f : Zone → RecordSet → Call α) :
      AtomicOnError w ((do
        let zone ← getZone ctx zoneId
        refuseDeletingZone zone
        let recordset ← createRecordsetInStorage ctx conf zone
          { recordset with records := records.getD [] }
        f zone recordset : Call α) w) := by
    unfold getZone refuseDeletingZone
    cases hz : findZone ctx zoneId w.db with
    | error e =>
      rw [bind_error (by rw [read_apply, hz])]
      exact fun _ _ => ⟨rfl, rfl, rfl⟩
    | ok zone =>
      rw [bind_ok (by rw [read_apply, hz])]
      by_cases hdel : zone.action = .DELETE
      · rw [bind_error (raiseIf_of (by simp [hdel]) _ _)]
        exact fun _ _ => ⟨rfl, rfl, rfl⟩
      · rw [bind_ok (raiseIf_of_not (by simp [hdel]) _ _)]
        have hzid := (findZone_mem hz).2.1
        rcases createRecordsetInStorage_cases conf { recordset with records := records.getD [] }
          (hzid ▸ hz) with ⟨-, e, w', he, hdb, hdev⟩ | ⟨hs, -⟩
        · rw [bind_error he]
          exact fun _ _ => ⟨by rw [hdb], by rw [hdb], by rw [hdev]⟩
        · exact absurd hs (h zone hz hdel)
  cases records with
  | some rs =>
    exact hstart fun zone recordset => do
      let done ← createAll ctx conf zone recordset plan recordset.records
      let exist ← findRecords ctx fun r => r.recordsetId == recordset.id
      if exist.isEmpty then deleteRecordsetRow ctx recordset.id
      pure done
  | none => exact hstart fun _ _ => Exec.raise .RelationNotLoaded

/-- A recordset of two records. -/
def Sample.ftp : NewRecordSet :=
  { name := "ftp.example.com.", type := .A, ttl := some 300, description := none, records := [] }

end Designate
