import Designate.Proof.Steady

/-!
# Whole requests keep steady invariants

From the functions up to the service. The one request that is left to its own
argument is an update with an entry list: what its objects carry comes from the
request, so each invariant has to say for itself what it asks of them.
-/

namespace Designate

open Exec

variable {ctx : Context} {conf : Conf} {scope : Scope} {I : World → Prop}

/-- Storing a recordset appends one row, or raises without a change of the tables. -/
theorem insertRecordset_cases (ctx : Context) (zoneId : Nat) (recordset : NewRecordSet)
    (w : World) :
    (∃ e w', insertRecordset ctx zoneId recordset w = (.error e, w') ∧ w.nextId ≤ w'.nextId) ∨
    ∃ z s, findZone ctx zoneId w.db = .ok z ∧
      (s.id = w.nextId ∧ s.zoneId = zoneId ∧ s.tenantId = z.tenantId ∧ s.type = recordset.type) ∧
      insertRecordset ctx zoneId recordset w =
        (.ok (RecordSet.ofRow s recordset.records), w.withRecordsetRow s) := by
  unfold insertRecordset getZone
  cases hz : findZone ctx zoneId w.db with
  | error e => exact Or.inl ⟨e, w, bind_error (by rw [read_apply, hz]), Nat.le_refl _⟩
  | ok z =>
    rw [bind_ok (by rw [read_apply, hz]), bind_ok (generateUuid_apply w)]
    -- name and type are unique within a zone
    cases hd : w.db.recordsets.any fun r =>
        r.zoneId == zoneId && r.name == recordset.name && r.type == recordset.type with
    | true =>
      exact Or.inl ⟨.DuplicateRecordSet, _, by simp only [Exec.write, hd, if_true]; rfl,
        Nat.le_succ _⟩
    | false =>
      exact Or.inr ⟨z, _, rfl, ⟨rfl, rfl, rfl, rfl⟩, by
        simp only [Exec.write, hd, Bool.false_eq_true, if_false]; rfl⟩

theorem updateRecordsetGuard_state (ctx : Context) (recordset : RecordSet) (w : World) :
    (updateRecordsetGuard ctx recordset w).2 = w := by
  have h : Keeps (· = w) (updateRecordsetGuard ctx recordset) :=
    Keeps.bind (Keeps.read _) fun _ => Keeps.bind (Keeps.raiseIf _ _) fun _ =>
      Keeps.bind (Keeps.raiseIf _ _) fun _ => Keeps.bind (Keeps.raiseIf _ _) fun _ =>
      Keeps.bind (Keeps.raiseIf _ _) fun _ => Keeps.bind (Keeps.raiseIf _ _) fun _ =>
      Keeps.bind (Keeps.read _) fun _ => Keeps.pure _
  exact h w rfl

theorem doUpdateGuard_state (ctx : Context) (recordset : RecordSet) (w : World) :
    (doUpdateGuard ctx recordset w).2 = w := by
  have h : Keeps (· = w) (doUpdateGuard ctx recordset) := by
    refine Keeps.bind (Keeps.read _) fun _ => ?_
    cases formatValidate recordset.records with
    | none => exact Keeps.raise _
    | some entries => exact Keeps.pure _
  exact h w rfl

/-- An update without entries: the records one by one. -/
def updateTtl (ctx : Context) (conf : Conf) (plan : Nat → Faults) (zone : Zone)
    (recordset : RecordSet) : Call (Option (List (Nat × String))) := do
  let rows ← findRecords ctx fun r => r.recordsetId == recordset.id
  let n ← updateAll ctx conf zone recordset plan rows
  raiseUnlessAll n rows.length
  let _ ← centralGetRecordset ctx zone.id recordset.id
  pure none

/-- An update keeps what its two loops keep. -/
theorem updateRecordset_keeps (plan : Nat → Faults) {recordset : RecordSet} {w : World} (hw : I w)
    (httl : ∀ zone, Keeps I (updateTtl ctx conf plan zone recordset))
    (hentries : ∀ zone ttlChanged entries,
      updateRecordsetGuard ctx recordset w = (.ok (zone, ttlChanged), w) →
      doUpdateGuard ctx recordset w = (.ok entries, w) →
      I (applyEntries ctx conf zone recordset ttlChanged plan entries w).2) :
    I (updateRecordset ctx conf plan recordset w).2 := by
  have hg := updateRecordsetGuard_state ctx recordset w
  unfold Designate.updateRecordset
  cases hrun : updateRecordsetGuard ctx recordset w with
  | mk res w' =>
    obtain rfl : w' = w := by rw [hrun] at hg; exact hg
    cases res with
    | error e => rw [bind_error hrun]; exact hw
    | ok p =>
      obtain ⟨zone, ttlChanged⟩ := p
      rw [bind_ok hrun]
      dsimp only
      -- without records only the ttl is of interest; with them the list is gone through
      by_cases he : recordset.records.isEmpty = true
      · rw [if_pos he]
        cases ttlChanged with
        | false => exact hw
        | true => exact httl zone w' hw
      · rw [if_neg he, bind_pure_snd]
        unfold doUpdate
        have hl := doUpdateGuard_state ctx recordset w'
        cases hrun' : doUpdateGuard ctx recordset w' with
        | mk res w₁ =>
          obtain rfl : w₁ = w' := by rw [hrun'] at hl; exact hl
          cases res with
          | error e => rw [bind_error hrun']; exact hw
          | ok entries =>
            rw [bind_ok hrun']
            exact Keeps.after (hentries zone ttlChanged entries hrun hrun') fun _ =>
              Keeps.bind raiseUnlessAll_keeps fun _ => Keeps.bind centralGetRecordset_keeps
                fun _ => Keeps.bind (Keeps.read _) fun _ => Keeps.pure _

/-- Storing a zone appends one row, or raises without a change of the tables. -/
theorem insertZone_cases (zone : Zone) (w : World) :
    insertZone zone w = (.error .DuplicateZone, { w with nextId := w.nextId + 1 }) ∨
      insertZone zone w = (.ok { zone with id := w.nextId, deleted := false },
        w.withZone { zone with id := w.nextId, deleted := false }) := by
  unfold insertZone
  rw [bind_ok (generateUuid_apply w)]
  cases hd : w.db.zones.any fun z => z.name == zone.name && !z.deleted && z.poolId == zone.poolId with
  | true => exact Or.inl (by simp only [Exec.write, hd, if_true])
  | false => exact Or.inr (by simp only [Exec.write, hd, Bool.false_eq_true, if_false]; rfl)

/-- The object a change in storage writes. -/
def Record.changing (record : Record) (action : Action) (serial : Nat) : Record :=
  { record with action := record.action.set action, status := record.status.set .PENDING
                serial := record.serial.set serial }

theorem KeptBy.placed {action : Action} {record : Record} (h : KeptBy ctx conf action record I)
    (zoneId recordsetId : Nat) :
    KeptBy ctx conf action record fun w => I w ∧ Placed zoneId recordsetId w where
  quiet w w' hq hw := ⟨h.quiet w w' hq hw.1, hw.2.of_places hq.recordsets⟩
  ask hw := ⟨h.ask hw.1, hw.2⟩
  write ha hw hr hh := ⟨h.write ha hw.1 hr hh, hw.2⟩
  drop hw hr := ⟨h.drop hw.1 hr, hw.2⟩

/-- The object that new data is stored from. -/
def RecordRow.rewriting (row : RecordRow) (text : String) (serial : Nat) : Record :=
  Record.changing { Record.ofRow row with data := (Record.ofRow row).data.set text } .UPDATE serial

/-- An update of the data of a record keeps `I`. -/
def Rewrites (ctx : Context) (conf : Conf) (I : World → Prop) : Prop :=
  ∀ (w : World) (row : RecordRow) (text : String) (serial : Nat), I w →
    findRecordRow ctx (some row.id) w.db = .ok row →
    w.db.hashTaken (writtenRow conf (row.rewriting text serial) row) = false →
    I (w.withDb (w.db.withRecord (writtenRow conf (row.rewriting text serial) row)))

theorem findRecordRow_congr {id : Option Nat} {db db' : Db} (h : db'.records = db.records) :
    findRecordRow ctx id db' = findRecordRow ctx id db := by
  unfold findRecordRow
  rw [h]

/-- The SOA recordset of a zone is written below the zone, not in it. -/
theorem IgnoresQuiet.updateSoa (hq : IgnoresQuiet I) (zone : Zone) :
    Keeps I (updateSoa ctx conf zone) :=
  Keeps.ite (fun _ => Keeps.bind (Keeps.raiseIf _ _) fun _ => Keeps.bind (Keeps.read _)
    fun _ => Keeps.bind (Keeps.raiseIf _ _) fun _ => hq.updateRecordsetInStorage)
    fun _ => Keeps.pure _

/-- A change of the zone leaves the records alone. -/
theorem updateZoneInStorage_records (ctx : Context) (conf : Conf) (zone : Zone) (increment : Bool)
    (rows : List RecordRow) :
    Keeps (fun w => w.db.records = rows) (updateZoneInStorage ctx conf zone increment) := by
  have hquiet : IgnoresQuiet fun w => w.db.records = rows := fun _ _ hq h => hq.records.trans h
  have hrow : ∀ f, Keeps (fun w => w.db.records = rows) (updateZoneRow ctx zone.id f) := fun f =>
    Keeps.bind (Keeps.read _) fun _ => Keeps.bind (Keeps.modify fun _ h => h) fun _ => Keeps.pure _
  refine Keeps.rollback (Keeps.ite (fun _ => ?_) fun _ => hrow _) fun _ _ h _ => h
  exact Keeps.bind (hrow _) fun zone => Keeps.bind (hquiet.updateSoa zone) fun _ => Keeps.pure _

/-- What an update of the zone writes is in the scope. -/
structure Scope.Updates (scope : Scope) (ctx : Context) (zone : Zone) : Prop where
  updating : scope.zone zone.updating
  incremented : scope.zone fun z =>
    { zone.updating z with serial := incrementSerial ctx.now zone.serial }
  back : ∀ ttl parent, scope.zone fun z => { z with ttl := ttl, parentZoneId := parent }

theorem Scope.Updates.of_place (hzone : ∀ f : Zone → Zone, (∀ z, (f z).place = z.place) → scope.zone f)
    {zone : Zone} : scope.Updates ctx zone :=
  ⟨hzone _ fun _ => rfl, hzone _ fun _ => rfl, fun _ _ => hzone _ fun _ => rfl⟩

/-- The row of a new zone, once it has an id. -/
def NewZone.row (ctx : Context) (conf : Conf) (id viewId : Nat) (parent : Option Nat)
    (zone : NewZone) : Zone :=
  { id := id, tenantId := zone.tenantId, name := zone.name, type := zone.type
    ttl := zone.ttl.getD conf.defaultTtl
    serial := zone.serial.getD (if zone.type = .SECONDARY then 1 else ctx.now)
    action := .CREATE, status := .PENDING, poolId := conf.poolId, viewId := some viewId
    parentZoneId := parent, deleted := false }

/-- Creating the row of a zone appends it under the next identifier, or changes no table. -/
theorem createZoneInStorage_cases (ctx : Context) (conf : Conf) (zone : NewZone) (viewId : Nat)
    (parent : Option Nat) (w : World) :
    (∃ e, createZoneInStorage ctx conf zone viewId parent w =
      (.error e, { w with nextId := w.nextId + 1 })) ∨
    createZoneInStorage ctx conf zone viewId parent w =
      (.ok (zone.row ctx conf w.nextId viewId parent),
        w.withZone (zone.row ctx conf w.nextId viewId parent)) := by
  unfold createZoneInStorage transaction Exec.rollback
  rcases insertZone_cases
    { id := 0, tenantId := zone.tenantId, name := zone.name, type := zone.type
      ttl := zone.ttl.getD conf.defaultTtl
      serial := zone.serial.getD (if zone.type = .SECONDARY then 1 else ctx.now)
      action := .CREATE, status := .PENDING, poolId := conf.poolId, viewId := some viewId
      parentZoneId := parent, deleted := false } w with he | hok
  · rw [bind_error he]
    exact Or.inl ⟨_, rfl⟩
  · rw [bind_ok hok]
    unfold getZone
    -- the new row is read again, and may be hidden from the caller, which rolls it back
    cases hz : findZone ctx w.nextId (w.withZone (zone.row ctx conf w.nextId viewId parent)).db with
    | error e =>
      rw [bind_error (by rw [read_apply]; exact congrArg (·, _) hz)]
      exact Or.inl ⟨_, rfl⟩
    | ok z =>
      rw [bind_ok (by rw [read_apply]; exact congrArg (·, _) hz)]
      exact Or.inr rfl

theorem createZoneChecks_state (ctx : Context) (conf : Conf) (zone : NewZone) (w : World) :
    (createZoneChecks ctx conf zone w).2 = w := by
  have h : Keeps (· = w) (createZoneChecks ctx conf zone) :=
    Keeps.bind (Keeps.read _) fun _ => Keeps.bind (Keeps.read _) fun _ =>
      Keeps.bind (Keeps.read _) fun _ => Keeps.bind (Keeps.read _) fun _ =>
      Keeps.bind (Keeps.read _) fun _ => Keeps.bind (Keeps.raiseIf _ _) fun _ =>
      Keeps.bind (Keeps.raiseIf _ _) fun _ => Keeps.pure _
  exact h w rfl

/-- The zones below are those of the tables as they were. -/
theorem createZoneChecks_subzones {zone : NewZone} {parent : Option Nat} {subzones : List Zone}
    {w w' : World} (h : createZoneChecks ctx conf zone w = (.ok (parent, subzones), w')) :
    subzones = isSuperzone conf zone.name conf.poolId w.db := by
  obtain ⟨-, -, h⟩ := of_read_bind h
  obtain ⟨-, -, h⟩ := of_read_bind h
  obtain ⟨-, -, h⟩ := of_read_bind h
  obtain ⟨p, -, h⟩ := of_read_bind h
  obtain ⟨z, hz, h⟩ := of_read_bind h
  obtain ⟨-, h⟩ := of_raiseIf_bind h
  obtain ⟨-, h⟩ := of_raiseIf_bind h
  obtain rfl := Except.ok.inj hz
  exact ((Prod.mk.inj (Except.ok.inj (Prod.mk.inj h).1)).2).symm

namespace IgnoresQuiet

variable (hq : IgnoresQuiet I)

include hq

theorem deviceCreateZone (view zone : String) : Keeps I (Device.createZone view zone) := by
  refine hq.quietWrite fun w a w' hw => ?_
  split at hw
  · exact absurd hw (by simp)
  · obtain ⟨-, rfl⟩ := Prod.mk.inj (Except.ok.inj hw)
    exact ⟨rfl, rfl, rfl, rfl, Nat.le_refl _⟩

theorem deviceUpdateZone (view zone : String) : Keeps I (Device.updateZone view zone) := by
  refine hq.quietWrite fun w a w' hw => ?_
  split at hw
  · obtain ⟨-, rfl⟩ := Prod.mk.inj (Except.ok.inj hw)
    exact ⟨rfl, rfl, rfl, rfl, Nat.le_refl _⟩
  · exact absurd hw (by simp)

theorem deviceDeleteZone (view zone : String) : Keeps I (Device.deleteZone view zone) := by
  refine hq.quietWrite fun w a w' hw => ?_
  split at hw
  · obtain ⟨-, rfl⟩ := Prod.mk.inj (Except.ok.inj hw)
    exact ⟨rfl, rfl, rfl, rfl, Nat.le_refl _⟩
  · exact absurd hw (by simp)

theorem createZdnsZone (faults : ZoneSite → Bool) (zoneId : Nat) :
    Keeps I (createZdnsZone faults zoneId) :=
  Keeps.bind (Keeps.raiseIf _ _) fun _ => Keeps.bind
    (Keeps.bind hq.generateUuid fun _ => Keeps.bind
      (hq.updateDb (fun _ => rfl) (fun _ => rfl) fun _ => rfl) fun _ => Keeps.pure _) fun _ =>
    Keeps.bind (Keeps.raiseIf _ _) fun _ => hq.updateDb (fun _ => rfl) (fun _ => rfl) fun _ => rfl

theorem deleteZdnsZone (faults : ZoneSite → Bool) (zoneId : Nat) :
    Keeps I (deleteZdnsZone faults zoneId) :=
  Keeps.bind (Keeps.raiseIf _ _) fun _ => Keeps.bind (Keeps.read _) fun _ =>
    Keeps.bind (Keeps.raiseIf _ _) fun _ =>
    Keeps.bind (hq.updateDb (fun _ => rfl) (fun _ => rfl) fun _ => rfl) fun _ =>
    Keeps.bind (Keeps.raiseIf _ _) fun _ => hq.updateDb (fun _ => rfl) (fun _ => rfl) fun _ => rfl

/-- The `try` block of a zone action does what its status update does. -/
theorem zoneActionBody {faults : ZoneFaults} {zone : Zone} {action : Action} {viewName : String}
    {Q : Unit → World → Prop} {E : World → Prop}
    (hstatus : Triple I (updateZoneStatus ctx conf faults.success zone.id action .SUCCESS) Q E)
    (hE : ∀ w, I w → E w) : Triple I (zoneActionBody ctx conf faults zone action viewName) Q E := by
  have hkeep : ∀ {α : Type} {m : Call α}, Keeps I m → Triple I m (fun _ => I) E := fun hm =>
    hm.triple.weaken (fun _ h => h) (fun _ _ h => h) hE
  cases action with
  | CREATE =>
    exact Triple.bind (hkeep (Keeps.raiseIf _ _)) fun _ =>
      Triple.bind (hkeep (hq.deviceCreateZone _ _)) fun _ =>
      Triple.bind (hkeep (hq.createZdnsZone _ _)) fun _ => hstatus
  | UPDATE =>
    have hmirror : Keeps I (updateZdnsZone faults.sites zone.id) :=
      Keeps.bind (Keeps.raiseIf _ _) fun _ => Keeps.bind (Keeps.read _) fun _ => Keeps.raiseIf _ _
    exact Triple.bind (hkeep (Keeps.raiseIf _ _)) fun _ =>
      Triple.bind (hkeep (hq.deviceUpdateZone _ _)) fun _ =>
      Triple.bind (hkeep hmirror) fun _ => hstatus
  | DELETE =>
    exact Triple.bind (hkeep (Keeps.raiseIf _ _)) fun _ =>
      Triple.bind (hkeep (hq.deviceDeleteZone _ _)) fun _ =>
      Triple.bind (hkeep (hq.deleteZdnsZone _ _)) fun _ => hstatus
  | NONE => exact hstatus

end IgnoresQuiet

theorem zoneViewName_keeps {fails : Bool} {zone : Zone} : Keeps I (zoneViewName ctx fails zone) := by
  unfold zoneViewName
  split
  · exact Keeps.pure _
  · exact Keeps.bind (Keeps.raiseIf _ _) fun _ => Keeps.bind (Keeps.read _) fun _ => Keeps.pure _

namespace Steady

section

variable (hI : Steady ctx conf scope I)

include hI

/-! ## The worker's zone action -/

theorem zoneActionBody (faults : ZoneFaults) (zone : Zone) (action : Action) (viewName : String) :
    Keeps I (zoneActionBody ctx conf faults zone action viewName) :=
  (hI.quiet.zoneActionBody (hI.updateZoneStatus faults.success zone.id action .SUCCESS).triple
    fun _ h => h).keeps

/-- **A zone action keeps a steady invariant**, whichever of its steps fail. -/
theorem zoneAction (faults : ZoneFaults) (zone : Zone) :
    Keeps I (zoneAction ctx conf faults zone) :=
  Keeps.bind zoneViewName_keeps fun _ =>
    Keeps.onError (hI.zoneActionBody faults zone zone.action _) (hI.updateZoneStatus _ _ _ _)

/-! ## Pending changes and messages -/

theorem updateSoa (zone : Zone) : Keeps I (updateSoa ctx conf zone) := hI.quiet.updateSoa zone

theorem incrementZoneSerial (zone : Zone) {f : Zone → Zone}
    (hf : scope.zone fun z => { f z with serial := incrementSerial ctx.now zone.serial }) :
    Keeps I (incrementZoneSerial ctx conf zone f) :=
  Keeps.bind (hI.updateZoneRow zone.id hf) fun zone' =>
    Keeps.bind (hI.updateSoa zone') fun _ => Keeps.pure _

theorem updateZoneInStorage (zone : Zone) (increment : Bool) (hu : scope.zone zone.updating)
    (hs : scope.zone fun z =>
      { zone.updating z with serial := incrementSerial ctx.now zone.serial }) :
    Keeps I (updateZoneInStorage ctx conf zone increment) :=
  hI.transaction fun n => Keeps.ite (fun _ => (hI.above n).incrementZoneSerial zone hs)
    fun _ => (hI.above n).updateZoneRow zone.id hu

theorem deleteZoneInStorage (zone : Zone)
    (hd : scope.zone fun z => { z with action := .DELETE, status := .PENDING }) :
    Keeps I (deleteZoneInStorage ctx zone) :=
  hI.transaction fun n => (hI.above n).updateZoneRow zone.id hd

/-- A change of a record that was read: the zone first, then the row. -/
theorem changeRecordInStorage (zone : Zone) {record : Record} {row : RecordRow} (action : Action)
    (hu : scope.zone zone.updating) (hs : scope.zone fun z =>
      { zone.updating z with serial := incrementSerial ctx.now zone.serial })
    (hwrite : ∀ serial w, I w → findRecordRow ctx record.id w.db = .ok row →
      w.db.hashTaken (writtenRow conf (record.changing action serial) row) = false →
      I (w.withDb (w.db.withRecord (writtenRow conf (record.changing action serial) row))))
    {w : World} (hw : I w) (hr : findRecordRow ctx record.id w.db = .ok row) :
    I (changeRecordInStorage ctx conf zone record action true w).2 := by
  let P : World → Prop := fun w' => I w' ∧ w'.db.records = w.db.records
  -- the update of the zone leaves the records alone, so the row is still the one read
  have hrow : ∀ n serial, Triple (fun w' => (I w' ∧ n ≤ w'.nextId) ∧ w'.db.records = w.db.records)
      (Designate.updateRecordRow ctx conf (record.changing action serial))
      (fun _ => I) fun w => n ≤ w.nextId := by
    intro n serial w' hw'
    rcases updateRecordRow_cases ctx conf (record.changing action serial) w' with
      ⟨e, he⟩ | ⟨found, hfound, hh, hok⟩
    · rw [he]; exact hw'.1.2
    · have hr' : findRecordRow ctx record.id w'.db = .ok row := by
        rw [findRecordRow_congr hw'.2]; exact hr
      obtain rfl : found = row := Except.ok.inj (hfound.symm.trans hr')
      rw [hok]; exact hwrite serial w' hw'.1.1 hr' hh
  have htriple : Triple P (Designate.changeRecordInStorage ctx conf zone record action true)
      (fun _ => I) I :=
    hI.transactionReturns (fun _ h => h.1) fun n => Triple.bind
      ((Keeps.and ((hI.above n).updateZoneInStorage zone true hu hs)
        (updateZoneInStorage_records ctx conf zone true w.db.records)).triple.weaken
        (fun _ h => ⟨⟨h.1.1, h.2⟩, h.1.2⟩) (fun _ _ h => h) fun _ h => h.1.2)
      fun zone => hrow n zone.serial
  exact htriple.ends ⟨hw, rfl⟩

/-- New data for a record that is looked up. -/
theorem updateStored (zone : Zone) {id : Nat} (text : String) (hrewrites : Rewrites ctx conf I)
    (hu : scope.zone zone.updating) (hs : scope.zone fun z =>
      { zone.updating z with serial := incrementSerial ctx.now zone.serial }) :
    Keeps I (do
      let row ← getRecord ctx id
      updateRecordInStorage ctx conf zone
        { Record.ofRow row with data := (Record.ofRow row).data.set text } true) := by
  refine getRecord_keeps fun row w hw hr => ?_
  obtain rfl : id = row.id := Option.some.inj (findRecordRow_mem hr).2.1
  exact hI.changeRecordInStorage zone .UPDATE hu hs
    (fun serial w hw hr hh => hrewrites w row text serial hw hr hh) hw hr

theorem deleteStored (zone : Zone) {id : Nat} (hu : scope.zone zone.updating)
    (hs : scope.zone fun z =>
      { zone.updating z with serial := incrementSerial ctx.now zone.serial }) :
    Keeps I (do
      let row ← getRecord ctx id
      deleteRecordInStorage ctx conf zone (Record.ofRow row) true) := by
  refine getRecord_keeps fun row w hw hr => ?_
  obtain rfl : id = row.id := Option.some.inj (findRecordRow_mem hr).2.1
  exact hI.changeRecordInStorage zone .DELETE hu hs
    (fun serial w hw hr hh => hI.write hw hr ⟨rfl, rfl, rfl, rfl, rfl⟩ hh) hw hr

theorem updateStatus (m : PoolStatus) (zoneId : Nat)
    (hm : ∀ action status, scope.zone fun z => { z with action := action, status := status }) :
    Keeps I (updateStatus ctx conf m zoneId) := by
  refine hI.transaction fun n => Keeps.bind ?_ fun _ => ?_
  · -- the records first, each by its row, and the zone then
    refine (hI.above n).withRows fun rows => Keeps.forEach fun row hm => ?_
    have hrow : Carries (m.record row).1 row := ⟨rfl, rfl, rfl, rfl, rfl⟩
    have hdrop := Keeps.ite (c := (m.record row).2 = true)
      (fun _ => ((hI.above n).cores rows).dropRecord (fun _ => false) row)
      fun _ => Keeps.pure ()
    exact Keeps.ite (fun _ => Keeps.bind ((hI.above n).updateRecordRow hm hrow) fun _ => hdrop)
      fun _ => hdrop
  · refine Keeps.bind (Keeps.read _) fun zone => ?_
    have hdrop : Keeps (fun w => I w ∧ n ≤ w.nextId)
        (if (updateZoneOrRecordStatus m zone.action zone.status zone.serial).2.2 = true then do
          let _ ← Designate.deleteZoneRow ctx zone.id
        else pure ()) :=
      Keeps.ite (fun _ => Keeps.bind ((hI.above n).deleteZoneRow zone.id) fun _ => Keeps.pure _)
        fun _ => Keeps.pure _
    exact Keeps.ite (fun _ => Keeps.bind ((hI.above n).updateZoneRow zone.id (hm _ _))
      fun _ => hdrop) fun _ => hdrop

/-! ## Recordsets and records -/

/-- A stored recordset is in its zone. -/
theorem createRecordsetInStorage (zone : Zone) {recordset : NewRecordSet}
    (ht : scope.type recordset.type) :
    Triple I (createRecordsetInStorage ctx conf zone recordset)
      (fun recordset w => I w ∧ Placed zone.id recordset.id w) I := by
  refine hI.transactionReturns (fun _ h => h) fun n => ?_
  refine Triple.bind (Q := fun _ w => I w ∧ n ≤ w.nextId) (Triple.read (fun _ _ h _ => h)
    fun _ h => h.2) fun _ => ?_
  refine Triple.bind (Q := fun _ w => I w ∧ n ≤ w.nextId) (Triple.read (fun _ _ h _ => h)
    fun _ h => h.2) fun _ => ?_
  intro w hw
  rcases insertRecordset_cases ctx zone.id recordset w with ⟨e, w', he, hn⟩ | ⟨z, s, hz, h, hok⟩
  · rw [he]
    exact Nat.le_trans hw.2 hn
  · rw [hok]
    obtain ⟨hid, hzone, hten, htype⟩ := h
    obtain ⟨hzm, hzid, -⟩ := findZone_mem hz
    exact ⟨hI.insertRecordset hw.1 hid (htype ▸ ht) ⟨z, hzm, by rw [hzone, hzid], hten.symm⟩,
      s, List.mem_append_right _ (List.mem_singleton_self s), rfl, hzone⟩

/-- Storing a record and sending it to the worker. -/
theorem createOne (faults : Faults) (zone : Zone) (recordset : RecordSet) (record : Record) :
    Keeps (fun w => I w ∧ Placed zone.id recordset.id w)
      (createOne ctx conf faults zone recordset record) := by
  intro w hw
  unfold Designate.createOne
  rcases createRecordInStorage_cases ctx conf zone recordset record w with
    ⟨e, w', he, hdb, hdev, hn, -⟩ | ⟨row, hstores, hok⟩
  · rw [bind_error he]
    have hstill : World.Still w w' := ⟨by rw [hdb], by rw [hdb], by rw [hdb], hn⟩
    exact ⟨hI.still hstill hw.1, hw.2.of_places hstill.recordsets⟩
  · rw [bind_ok hok]
    have hI' := hI.insert hw.1 hw.2 hstores
    -- what is sent to the worker is the object of the row that has just been stored
    have hcores : Cores [row] (w.inserted row) :=
      (hI.linked hI').cores fun r hr => List.mem_append_right _ hr
    have hkept := ((hI.keptBy (List.mem_singleton_self row) .CREATE
      (carries_ofRow row)).placed zone.id recordset.id)
    have haction : Keeps (fun w => (I w ∧ Cores [row] w) ∧ Placed zone.id recordset.id w)
        (recordAction ctx conf faults zone (Record.ofRow row) .CREATE recordset) :=
      hkept.recordAction
    have h := Keeps.bind haction (fun response => Keeps.pure (Record.ofRow row, response))
      (w.inserted row) ⟨⟨hI', hcores⟩, hw.2⟩
    exact ⟨h.1.1, h.2⟩

theorem createAll (zone : Zone) (recordset : RecordSet) (plan : Nat → Faults)
    (records : List Record) :
    Keeps (fun w => I w ∧ Placed zone.id recordset.id w)
      (createAll ctx conf zone recordset plan records) := by
  induction records generalizing plan with
  | nil => exact Keeps.pure _
  | cons record records ih =>
    exact Keeps.bind (hI.createOne (plan 0) zone recordset record) fun _ =>
      Keeps.bind (ih _) fun _ => Keeps.pure _

theorem createRecordset (plan : Nat → Faults) (zoneId : Nat) {recordset : NewRecordSet}
    (ht : scope.type recordset.type) :
    Keeps I (createRecordset ctx conf plan zoneId recordset) := by
  refine Keeps.bind (Keeps.read _) fun zone => Keeps.bind (Keeps.raiseIf _ _) fun _ => ?_
  refine (Triple.bind (hI.createRecordsetInStorage zone ht) fun recordset => ?_).keeps
  have hrest : Keeps (fun w => I w ∧ Placed zone.id recordset.id w)
      (Designate.createAll ctx conf zone recordset plan recordset.records) :=
    hI.createAll zone recordset plan recordset.records
  refine Triple.bind (hrest.triple.weaken (fun _ h => h) (fun _ _ h => h.1) fun _ h => h.1)
    fun done => Keeps.triple ?_
  exact Keeps.bind (Keeps.read _) fun _ => Keeps.ite
    (fun _ => Keeps.bind (hI.deleteRecordsetRow _) fun _ => Keeps.pure _) fun _ => Keeps.pure _

theorem createRecord (faults : Faults) (zoneId : Nat) (recordset : RecordSet) (record : Record)
    {w : World} (hw : I w) (hp : Placed zoneId recordset.id w) :
    I (createRecord ctx conf faults zoneId recordset record w).2 := by
  unfold Designate.createRecord getZone
  refine Keeps.look hw fun zone hz => ?_
  obtain ⟨-, rfl, -⟩ := findZone_mem hz
  exact (Keeps.bind (Keeps.raiseIf _ _) (fun _ =>
    Keeps.bind (hI.createOne faults zone recordset record) fun _ => Keeps.pure _) w ⟨hw, hp⟩).1

/-- An update without entries. -/
theorem updateTtl (plan : Nat → Faults) (zone : Zone) (recordset : RecordSet) :
    Keeps I (updateTtl ctx conf plan zone recordset) :=
  hI.withRows fun _ => Keeps.bind (updateAll_keeps (fun _ hm =>
      hI.keptBy hm .UPDATE ⟨rfl, rfl, rfl, rfl, rfl⟩) plan) fun _ =>
    Keeps.bind raiseUnlessAll_keeps fun _ => Keeps.bind centralGetRecordset_keeps fun _ =>
      Keeps.pure _

/-- An update keeps what its loop over the entries keeps. -/
theorem updateRecordset (plan : Nat → Faults) {recordset : RecordSet} {w : World} (hw : I w)
    (hentries : ∀ zone ttlChanged entries,
      updateRecordsetGuard ctx recordset w = (.ok (zone, ttlChanged), w) →
      doUpdateGuard ctx recordset w = (.ok entries, w) →
      I (applyEntries ctx conf zone recordset ttlChanged plan entries w).2) :
    I (updateRecordset ctx conf plan recordset w).2 :=
  updateRecordset_keeps plan hw (fun zone => hI.updateTtl plan zone recordset) hentries

theorem keepsDeleteRecordset (plan : Nat → Faults) (zoneId recordsetId : Nat) :
    Keeps I (Designate.deleteRecordset ctx conf plan zoneId recordsetId) :=
  Keeps.bind (Keeps.read _) fun _ => Keeps.bind (Keeps.read _) fun _ =>
    Keeps.bind (Keeps.raiseIf _ _) fun _ => Keeps.bind (Keeps.raiseIf _ _) fun _ =>
    Keeps.bind (Keeps.raiseIf _ _) fun _ => hI.withRows fun rows =>
      Keeps.bind (deleteAll_keeps (fun _ hm =>
        hI.keptBy hm .DELETE ⟨rfl, rfl, rfl, rfl, rfl⟩) plan) fun _ =>
      Keeps.bind raiseUnlessAll_keeps fun _ => (hI.cores rows).deleteRecordsetRow _

/-! ## Zones and views -/

/-- A default record: stored, mirrored and settled. -/
theorem createDefault (zone : Zone) (name : String) {type : RRType} (ht : scope.type type)
    (typeName data : String) : Keeps I (createDefault ctx conf zone name type typeName data) := by
  refine (Triple.bind (hI.createRecordsetInStorage zone ht) fun recordset => ?_).keeps
  have hquiet : IgnoresQuiet fun w => I w ∧ Placed zone.id recordset.id w :=
    fun _ _ hq hw => ⟨hI.quiet _ _ hq hw.1, hw.2.of_places hq.recordsets⟩
  refine Triple.bind ((Keeps.triple (?_ : Keeps (fun w => I w ∧ Placed zone.id recordset.id w)
    (Exec.forEach _ recordset.records))).weaken (fun _ h => h) (fun _ _ h => h.1) fun _ h => h.1)
    fun _ => (hI.updateRecordsetStatus recordset.id .CREATE .SUCCESS).triple
  · refine Keeps.forEach fun record _ => Keeps.bind ?_ fun stored => ?_
    · exact ((createRecordInStorage_triple (P := fun _ => True) hquiet fun w row hw hstores =>
        ⟨⟨hI.insert hw.1 hw.2 hstores, hw.2⟩, trivial⟩).weaken (fun _ h => h)
          (fun _ _ h => h.1) fun _ h => h).keeps
    · cases stored.id with
      | none => exact Keeps.raise _
      | some id => exact hquiet.createZdnsRecord

theorem createDefaultRecord (zone : Zone) (hns : scope.type .NS) (ha : scope.type .A) :
    Keeps I (createDefaultRecord ctx conf zone) :=
  hI.transaction fun n => Keeps.bind ((hI.above n).createDefault zone zone.name hns _ _) fun _ =>
    (hI.above n).createDefault zone _ ha _ _

theorem keepsUpdateZone (faults : ZoneFaults) (origin : Zone) {zone : Zone}
    (hu : scope.Updates ctx zone) : Keeps I (Designate.updateZone ctx conf faults origin zone) :=
  Keeps.bind (Keeps.read _) fun _ => Keeps.bind (Keeps.read _) fun stored =>
    Keeps.bind (hI.updateZoneInStorage zone true hu.updating hu.incremented) fun zone =>
      Keeps.bind (Keeps.onError (hI.zoneAction faults zone) (Keeps.bind
        (hI.updateZoneRow zone.id (hu.back stored.ttl stored.parentZoneId)) fun _ => Keeps.pure _))
      fun _ => Keeps.read _

theorem deleteZone (faults : ZoneFaults) (zoneId : Nat)
    (hd : scope.zone fun z => { z with action := .DELETE, status := .PENDING }) :
    Keeps I (deleteZone ctx conf faults zoneId) :=
  Keeps.bind (Keeps.read _) fun _ => Keeps.bind (Keeps.read _) fun _ =>
    Keeps.bind (Keeps.raiseIf _ _) fun _ => Keeps.ite (fun _ => hI.deleteZoneRow _) fun _ =>
      Keeps.bind (hI.deleteZoneInStorage _ hd) fun _ =>
        Keeps.bind (hI.zoneAction faults _) fun _ => Keeps.pure _

theorem createZoneInStorage (zone : NewZone) (viewId : Nat) (parent : Option Nat)
    (hz : ∀ id, scope.fresh (zone.row ctx conf id viewId parent)) :
    Keeps I (createZoneInStorage ctx conf zone viewId parent) := by
  intro w hw
  rcases createZoneInStorage_cases ctx conf zone viewId parent w with ⟨e, he⟩ | hok
  · rw [he]
    have hstill : World.Still w { w with nextId := w.nextId + 1 } :=
      ⟨rfl, rfl, rfl, Nat.le_succ _⟩
    exact hI.still hstill hw
  · rw [hok]
    exact hI.insertZone hw rfl (hz _)

theorem adoptSubzones (zoneId : Nat) (plan : Nat → ZoneFaults) {subzones : List Zone}
    (hsub : ∀ z ∈ subzones, scope.Updates ctx { z with parentZoneId := some zoneId }) :
    Keeps I (adoptSubzones ctx conf zoneId plan subzones) := by
  induction subzones generalizing plan with
  | nil => exact Keeps.pure _
  | cons subzone subzones ih =>
    exact Keeps.bind (hI.keepsUpdateZone (plan 0) _ (hsub subzone List.mem_cons_self)) fun _ =>
      ih _ fun z hz => hsub z (List.mem_cons_of_mem _ hz)

/-- A new zone, and the zones below it as they are when the request comes in. -/
theorem createZone (faults : ZoneFaults) (plan : Nat → ZoneFaults) (zone : NewZone) {w : World}
    (hw : I w)
    (hfresh : ∀ id viewId parent, scope.fresh ((zone.owned ctx).row ctx conf id viewId parent))
    (hsub : ∀ z ∈ isSuperzone conf zone.name conf.poolId w.db, ∀ zoneId,
      scope.Updates ctx { z with parentZoneId := some zoneId })
    (hns : scope.type .NS) (ha : scope.type .A) :
    I (createZone ctx conf faults plan zone w).2 := by
  unfold Designate.createZone
  have hstate := createZoneChecks_state ctx conf (zone.owned ctx) w
  cases hrun : createZoneChecks ctx conf (zone.owned ctx) w with
  | mk res w' =>
    obtain rfl : w' = w := by rw [hrun] at hstate; exact hstate
    cases res with
    | error e => rw [bind_error hrun]; exact hw
    | ok p =>
      obtain ⟨parent, subzones⟩ := p
      -- the zones to adopt are those that the check has found
      have hsuper := createZoneChecks_subzones hrun
      rw [bind_ok hrun]
      dsimp only
      cases (zone.owned ctx).viewId with
      | none => exact hw
      | some viewId =>
        exact Keeps.bind (Keeps.read _) (fun _ =>
          Keeps.bind (hI.createZoneInStorage _ viewId parent fun _ => hfresh _ _ _) fun created =>
          Keeps.bind (hI.zoneAction faults created) fun _ => Keeps.bind (Keeps.read _) fun stored =>
          Keeps.bind (hI.createDefaultRecord stored hns ha) fun _ =>
          Keeps.bind (hI.adoptSubzones stored.id plan fun z hz => hsub z (hsuper ▸ hz) _)
            fun _ => Keeps.pure _) w' hw

theorem deleteView (refused : Bool) (plan : Nat → ZoneFaults) (viewId : Nat) :
    Keeps I (deleteView ctx conf refused plan viewId) := by
  have hdevice : ∀ view, Keeps I (deleteViewAction refused view) := fun view =>
    Keeps.bind (Keeps.raiseIf _ _) fun _ => hI.stillModify fun _ =>
      ⟨rfl, rfl, rfl, Nat.le_refl _⟩
  have hinfo : Keeps I (deleteZdnsViewInfo viewId) :=
    Keeps.bind (Keeps.read _) fun _ =>
      Keeps.bind (hI.quiet.updateDb (fun _ => rfl) (fun _ => rfl) fun _ => rfl) fun _ =>
      Keeps.bind (Keeps.read _) fun _ =>
      Keeps.bind (hI.quiet.updateDb (fun _ => rfl) (fun _ => rfl) fun _ => rfl) fun _ =>
      Keeps.bind (Keeps.read _) fun _ => Keeps.forEach fun _ _ =>
        Keeps.ite (fun _ => hI.quiet.updateDb (fun _ => rfl) (fun _ => rfl) fun _ => rfl)
          fun _ => Keeps.pure _
  -- the zones of the view go one by one; by induction on them
  have hzones : ∀ (zones : List Zone) (plan : Nat → ZoneFaults),
      Keeps I (deleteZonesOfView ctx conf plan zones) := by
    intro zones
    induction zones with
    | nil => exact fun _ => Keeps.pure _
    | cons zone zones ih =>
      exact fun plan => Keeps.bind (Keeps.bind (hI.quiet.deleteZdnsZone _ _) fun _ =>
        hI.updateZoneStatus _ _ _ _) fun _ => ih _
  exact Keeps.bind (Keeps.read _) fun view => Keeps.bind (hdevice view) fun _ =>
    Keeps.bind (hI.quiet.updateDb (fun _ => rfl) (fun _ => rfl) fun _ => rfl) fun _ =>
    Keeps.bind hinfo fun _ =>
    Keeps.bind (hI.quiet.updateDb (fun _ => rfl) (fun _ => rfl) fun _ => rfl) fun _ =>
    Keeps.bind (Keeps.read _) fun zones => hzones zones plan

end

end Steady

/-! ## The service -/

/-- The request gets as far as the loop over its entries. -/
def Request.Loops (ctx : Context) (w : World) (plan : Nat → Faults) (zone : Zone)
    (recordset : RecordSet) (ttlChanged : Bool) (entries : List (Record × Entry)) :
    Request → Prop
  | .updateRecordset plan' zoneId recordsetId ttl description texts =>
    plan' = plan ∧ ∃ stored, centralGetRecordset ctx zoneId recordsetId w = (.ok stored, w) ∧
      recordset = parseRecordset stored ttl description texts ∧
      updateRecordsetGuard ctx recordset w = (.ok (zone, ttlChanged), w) ∧
      doUpdateGuard ctx recordset w = (.ok entries, w)
  | _ => False

/-- What an update goes by that gets as far as its loop, `edited` being what the request makes of
the stored recordset. -/
def loopOf (ctx : Context) (w : World) (zoneId recordsetId : Nat) (edited : RecordSet → RecordSet) :
    Option (RecordSet × Zone × Bool × List (Record × Entry)) :=
  match (centralGetRecordset ctx zoneId recordsetId w).1 with
  | .error _ => none
  | .ok stored =>
    match (updateRecordsetGuard ctx (edited stored) w).1, (doUpdateGuard ctx (edited stored) w).1 with
    | .ok (zone, ttlChanged), .ok entries => some (edited stored, zone, ttlChanged, entries)
    | _, _ => none

theorem loopOf_eq {zone : Zone} {ttlChanged : Bool} {entries : List (Record × Entry)} {w : World}
    {zoneId recordsetId : Nat} {stored : RecordSet} (edited : RecordSet → RecordSet)
    (hstored : centralGetRecordset ctx zoneId recordsetId w = (.ok stored, w))
    (hguard : updateRecordsetGuard ctx (edited stored) w = (.ok (zone, ttlChanged), w))
    (hlist : doUpdateGuard ctx (edited stored) w = (.ok entries, w)) :
    loopOf ctx w zoneId recordsetId edited = some (edited stored, zone, ttlChanged, entries) := by
  unfold loopOf
  rw [hstored]
  dsimp only
  rw [hguard, hlist]

/-- The recordsets the request creates have types within the scope. -/
def Request.Typed (scope : Scope) : Request → Prop
  | .createZone _ _ _ => scope.type .NS ∧ scope.type .A
  | .createRecordset _ _ _ type _ _ _ => scope.type type
  | _ => True

theorem centralGetRecordset_state (ctx : Context) (zoneId recordsetId : Nat) (w : World) :
    (centralGetRecordset ctx zoneId recordsetId w).2 = w :=
  centralGetRecordset_keeps (I := (· = w)) w rfl

/-- What central has seen of a recordset it found. -/
theorem centralGetRecordset_ok {zoneId recordsetId : Nat} {w w' : World} {recordset : RecordSet}
    (h : centralGetRecordset ctx zoneId recordsetId w = (.ok recordset, w')) :
    ∃ s zone, findRecordsetRow ctx recordsetId w.db = .ok s ∧
      findZone ctx zoneId w.db = .ok zone ∧ zone.id = s.zoneId ∧
      recordset = RecordSet.ofRow s ((w.db.records.filter fun r =>
        r.recordsetId == recordsetId && ctx.sees r.tenantId).map Record.ofRow) := by
  unfold centralGetRecordset getRecordset getZone at h
  obtain ⟨rs, hrs, h⟩ := of_read_bind h
  obtain ⟨zone, hz, h⟩ := of_read_bind h
  obtain ⟨hne, h⟩ := of_raiseIf_bind h
  obtain rfl := Except.ok.inj (Prod.mk.inj h).1
  cases hrow : findRecordsetRow ctx recordsetId w.db with
  | error e => rw [hrow] at hrs; exact absurd hrs (by simp [Except.map])
  | ok s =>
    rw [hrow] at hrs
    obtain rfl := Except.ok.inj hrs
    exact ⟨s, zone, rfl, hz, not_not.mp (of_decide_eq_false hne), rfl⟩

theorem centralGetRecordset_placed {zoneId recordsetId : Nat} {w w' : World}
    {recordset : RecordSet} (h : centralGetRecordset ctx zoneId recordsetId w = (.ok recordset, w')) :
    Placed zoneId recordset.id w := by
  obtain ⟨s, zone, hs, hz, hzone, rfl⟩ := centralGetRecordset_ok h
  exact ⟨s, (Table.find_mem hs).1, rfl, by rw [← hzone, (findZone_mem hz).2.1]⟩

/-- The updates requests make of zones are in the scope. -/
structure Scope.Serves (scope : Scope) (ctx : Context) : Prop where
  updates : ∀ zone, scope.Updates ctx zone
  deleting : scope.zone fun z => { z with action := .DELETE, status := .PENDING }
  status : ∀ action status, scope.zone fun z => { z with action := action, status := status }

/--
**A steady invariant survives every request**, whatever fails inside, if it survives the
entries of an update, the rewriting of a record, and what creates zones and recordsets.
-/
theorem serve_keeps_of {input : Input} {w : World} (hI : Steady input.ctx conf scope I)
    (hrewrites : Rewrites input.ctx conf I) (hserves : scope.Serves input.ctx) (hw : I w)
    (hcreateZone : ∀ faults plan zone, input.request = .createZone faults plan zone →
      I (createZone input.ctx conf faults plan zone w).2)
    (hcreate : ∀ plan zoneId name type ttl description texts,
      input.request = .createRecordset plan zoneId name type ttl description texts →
      I (createRecordset input.ctx conf plan zoneId
        { name := name, type := type, ttl := ttl, description := description
          records := texts.map Record.new } w).2)
    (hentries : ∀ plan zone recordset ttlChanged entries,
      input.request.Loops input.ctx w plan zone recordset ttlChanged entries →
      I (applyEntries input.ctx conf zone recordset ttlChanged plan entries w).2) :
    I (serve conf input w) := by
  obtain ⟨ctx, request⟩ := input
  unfold serve
  dsimp only at *
  -- the requests that only use what is steady need nothing more
  cases request with
  | createZone faults plan zone =>
    exact Keeps.after (hcreateZone faults plan zone rfl) fun _ => Keeps.pure _
  | updateZone faults zoneId ttl =>
    exact Keeps.bind (Keeps.read _) (fun zone => Keeps.bind
      (hI.keepsUpdateZone faults _ (hserves.updates _)) fun _ => Keeps.pure _) w hw
  | deleteZone faults zoneId =>
    exact Keeps.bind (hI.deleteZone faults zoneId hserves.deleting)
      (fun _ => Keeps.pure _) w hw
  | deleteView refused plan viewId => exact hI.deleteView refused plan viewId w hw
  | createRecordset plan zoneId name type ttl description texts =>
    exact Keeps.after (hcreate plan zoneId name type ttl description texts rfl)
      fun _ => Keeps.pure _
  | createRecord faults zoneId recordsetId text =>
    refine Keeps.told hw (centralGetRecordset_state ctx zoneId recordsetId w) fun recordset hrun => ?_
    exact Keeps.after (hI.createRecord faults zoneId recordset (Record.new text) hw
      (centralGetRecordset_placed hrun)) fun _ => Keeps.pure _
  | updateRecordset plan zoneId recordsetId ttl description texts =>
    refine Keeps.told hw (centralGetRecordset_state ctx zoneId recordsetId w) fun stored hrun => ?_
    refine Keeps.after (hI.updateRecordset plan hw fun zone ttlChanged entries hg hl => ?_)
      fun _ => Keeps.pure _
    exact hentries plan zone _ ttlChanged entries ⟨rfl, stored, hrun, rfl, hg, hl⟩
  | deleteRecordset plan zoneId recordsetId =>
    exact hI.keepsDeleteRecordset plan zoneId recordsetId w hw
  | updateRecord zoneId recordId text =>
    exact Keeps.bind (I := I) (Keeps.read _) (fun zone => hI.updateStored zone text hrewrites
      (hserves.updates zone).updating (hserves.updates zone).incremented) w hw
  | deleteRecord zoneId recordId =>
    exact Keeps.bind (I := I) (Keeps.read _) (fun zone => hI.deleteStored zone
      (hserves.updates zone).updating (hserves.updates zone).incremented) w hw
  | updateStatus zoneId message =>
    exact hI.updateStatus message zoneId hserves.status w hw

/-- An invariant that lets zones change and be added as long as they keep their place. -/
theorem serve_keeps {input : Input} {w : World} (hI : Steady input.ctx conf scope I)
    (hrewrites : Rewrites input.ctx conf I)
    (hzone : ∀ f : Zone → Zone, (∀ z, (f z).place = z.place) → scope.zone f)
    (hfresh : ∀ z, scope.fresh z) (htyped : input.request.Typed scope) (hw : I w)
    (hentries : ∀ plan zone recordset ttlChanged entries,
      input.request.Loops input.ctx w plan zone recordset ttlChanged entries →
      I (applyEntries input.ctx conf zone recordset ttlChanged plan entries w).2) :
    I (serve conf input w) := by
  refine serve_keeps_of hI hrewrites
    ⟨fun _ => .of_place hzone, hzone _ fun _ => rfl, fun _ _ => hzone _ fun _ => rfl⟩ hw
    (fun faults plan zone he => ?_) (fun plan zoneId name type ttl description texts he => ?_)
    hentries
  · rw [he] at htyped
    exact hI.createZone faults plan zone hw (fun _ _ _ => hfresh _)
      (fun _ _ _ => .of_place hzone) htyped.1 htyped.2
  · rw [he] at htyped
    have ht : scope.type type := htyped
    exact hI.createRecordset plan zoneId ht w hw

end Designate
