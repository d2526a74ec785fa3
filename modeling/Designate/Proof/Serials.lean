import Mathlib.Order.Nat
import Designate.Central.Clients
import Designate.Proof.Requests

/-!
# The serials of zones

What a call does to the serials of the zones, whatever else it does and whichever of
its steps fail: the transaction that increments a serial puts the new one into the one
row, or is taken back; the rest of the call leaves all of them alone.
-/

namespace Designate

open Exec

variable {ctx : Context} {conf : Conf} {w : World}

/-! ## The table of serials -/

/-- The serials of the zones, by id. -/
def World.serials (w : World) : List (Nat × Nat) := w.db.zones.map fun z => (z.id, z.serial)

/-- The table with `g` applied to the serial of a zone. -/
def serialsChanged (id : Nat) (g : Nat → Nat) (m : List (Nat × Nat)) : List (Nat × Nat) :=
  Table.update Prod.fst id (fun p => (p.1, g p.2)) m

/-- The stored serial of a zone. -/
def World.serialOf (w : World) (id : Nat) : Nat := (w.serials.lookup id).getD 0

theorem lookup_serialsChanged (id : Nat) (g : Nat → Nat) (m : List (Nat × Nat)) (k : Nat) :
    (serialsChanged id g m).lookup k =
      if k = id then (m.lookup id).map g else m.lookup k := by
  induction m with
  | nil => simp [serialsChanged, Table.update]
  | cons p m ih =>
    obtain ⟨i, n⟩ := p
    simp only [serialsChanged, Table.update, List.map_cons] at ih ⊢
    -- by induction on the rows: the first one with the identifier is the one that both sides find
    by_cases hi : i = id
    · subst hi
      rw [if_pos rfl]
      by_cases hk : k = i
      · simp [hk]
      · simp only [List.lookup_cons, beq_eq_false_iff_ne.mpr hk, ih, if_neg hk]
    · rw [if_neg hi]
      by_cases hk : k = i
      · have hki : k ≠ id := fun h => hi (hk ▸ h)
        simp [hk, hi]
      · simp only [List.lookup_cons, beq_eq_false_iff_ne.mpr hk, ih]
        by_cases hki : k = id
        · subst hki
          simp [beq_eq_false_iff_ne.mpr hk]
        · simp [hki]

theorem serialsChanged_id {id : Nat} {g : Nat → Nat} {m : List (Nat × Nat)} (h : ∀ n, g n = n) :
    serialsChanged id g m = m :=
  Table.update_id fun p _ _ => by rw [h]

/-- The serial of the zone a keyed query finds. -/
theorem World.Linked.serialOf_eq (h : w.Linked) {id : Nat} {z : Zone}
    (hz : findZone ctx id w.db = .ok z) : w.serials.lookup id = some z.serial := by
  obtain ⟨hm, rfl, -⟩ := findZone_mem hz
  have hkeys := h.zoneIds
  unfold World.serials
  revert hm hkeys
  generalize w.db.zones = zones
  intro hm hkeys
  induction zones with
  | nil => exact absurd hm List.not_mem_nil
  | cons y zones ih =>
    rw [List.map_cons, List.nodup_cons] at hkeys
    rcases List.mem_cons.mp hm with rfl | hm
    · simp
    · have hne : z.id ≠ y.id := fun he => hkeys.1 (he ▸ List.mem_map_of_mem hm)
      simp only [List.map_cons, List.lookup_cons, beq_eq_false_iff_ne.mpr hne]
      exact ih hm hkeys.2

/-! ## What leaves the serials alone -/

/-- Zones may change as long as they keep their place and their serial. -/
def Scope.serials : Scope :=
  ⟨fun f => ∀ z, (f z).place = z.place ∧ (f z).serial = z.serial, fun _ => False, fun _ => True,
    fun _ => ⟨rfl, rfl⟩, fun _ => ⟨rfl, rfl⟩⟩

/-- The links hold, and the serials are those of `m`. -/
def SerialsAre (m : List (Nat × Nat)) (w : World) : Prop := w.Linked ∧ w.serials = m

theorem serials_zoneChanged {id : Nat} {f : Zone → Zone} {g : Nat → Nat}
    (hid : ∀ z, (f z).place = z.place) (hf : ∀ z, (f z).serial = g z.serial) :
    (w.withDb (w.db.zoneChanged id f)).serials = serialsChanged id g w.serials := by
  unfold World.serials serialsChanged Db.zoneChanged Table.update
  rw [World.withDb_db, List.map_map, List.map_map]
  refine List.map_congr_left fun z _ => ?_
  by_cases hz : z.id = id
  · have : (f z).id = z.id := congrArg Prod.fst (hid z)
    simp [hz, this, hf]
  · simp [hz]

/-- **The serials are steady** under everything that leaves them alone. -/
theorem serials_steady (ctx : Context) (conf : Conf) (m : List (Nat × Nat)) :
    Steady ctx conf .serials (SerialsAre m) where
  linked h := h.1
  still hs h := ⟨(linked_steady ctx conf).still hs h.1, by rw [← h.2, World.serials, hs.zones]; rfl⟩
  insertZone _ _ hz := hz.elim
  updateZone id h hf := by
    refine ⟨(linked_steady ctx conf).updateZone id h.1 fun z => (hf z).1, ?_⟩
    rw [serials_zoneChanged (g := fun n => n) (fun z => (hf z).1) fun z => (hf z).2,
      serialsChanged_id fun _ => rfl, h.2]
  insertRecordset h hid ht hz := ⟨(linked_steady ctx conf).insertRecordset h.1 hid ht hz, h.2⟩
  deleteRecordset h hs := ⟨(linked_steady ctx conf).deleteRecordset h.1 hs, h.2⟩
  insert h hp hstores := ⟨(linked_steady ctx conf).insert h.1 hp hstores, h.2⟩
  write h hr hf hh := ⟨(linked_steady ctx conf).write h.1 hr hf hh, h.2⟩
  drop h hr := ⟨(linked_steady ctx conf).drop h.1 hr, h.2⟩

/-! ## What changes them -/

/-- Writing one zone row. -/
theorem updateZoneRow_serials (ctx : Context) (conf : Conf) {m : List (Nat × Nat)} (id : Nat)
    {f : Zone → Zone} (g : Nat → Nat) (hid : ∀ z, (f z).place = z.place) (hf : ∀ z, (f z).serial = g z.serial)
    (n : Nat) :
    Triple (fun w => SerialsAre m w ∧ n ≤ w.nextId) (updateZoneRow ctx id f)
      (fun z w => z.id = id ∧ SerialsAre (serialsChanged id g m) w ∧ n ≤ w.nextId)
      fun w => n ≤ w.nextId := by
  intro w hw
  cases hz : findZone ctx id w.db with
  | error e => rw [updateZoneRow_missing hz]; exact hw.2
  | ok z =>
    rw [updateZoneRow_ok hz]
    have hplace : (f z).id = z.id := congrArg Prod.fst (hid z)
    refine ⟨by rw [hplace, (findZone_mem hz).2.1],
      ⟨(linked_steady ctx conf).updateZone id hw.1.1 hid, ?_⟩, hw.2⟩
    rw [serials_zoneChanged hid hf, hw.1.2]

/-- The increment: one row gets the new serial. -/
theorem incrementZoneSerial_serials (ctx : Context) (conf : Conf) {m : List (Nat × Nat)}
    (zone : Zone) {f : Zone → Zone}
    (hf : ∀ z, (f z).place = z.place) (n : Nat) :
    Triple (fun w => SerialsAre m w ∧ n ≤ w.nextId) (incrementZoneSerial ctx conf zone f)
      (fun z w => z.id = zone.id ∧
        SerialsAre (serialsChanged zone.id (fun _ => incrementSerial ctx.now zone.serial) m) w)
      fun w => n ≤ w.nextId := by
  have hrow := updateZoneRow_serials ctx conf (m := m) zone.id
    (f := fun z => { f z with serial := incrementSerial ctx.now zone.serial })
    (fun _ => incrementSerial ctx.now zone.serial) (fun z => hf z) (fun _ => rfl) n
  refine Triple.bind hrow fun zone' => ?_
  intro w hw
  -- the SOA is a recordset, so writing it changes no serial
  have hsoa := ((serials_steady ctx conf _).above n).updateSoa zone' w hw.2
  cases hr : updateSoa ctx conf zone' w with
  | mk res w' =>
    rw [hr] at hsoa
    cases res with
    | error e => rw [bind_error hr]; exact hsoa.2
    | ok u => rw [bind_ok hr]; exact ⟨hw.1, hsoa.1⟩

/-- What storing a zone object does to the serials, by whether it is to increment one. -/
def ZoneObject.newSerial (object : ZoneObject) (increment : Bool) (now old : Nat) : Nat :=
  if increment then incrementSerial now object.serialValue else object.serial.write old

theorem storeZoneObject_serials (ctx : Context) (conf : Conf) {m : List (Nat × Nat)} (object : ZoneObject) (increment : Bool) :
    Triple (SerialsAre m) (storeZoneObject ctx conf object increment)
      (fun p w => p.2.id = object.zone.id ∧
        SerialsAre (serialsChanged object.zone.id (object.newSerial increment ctx.now) m) w)
      (SerialsAre m) := by
  refine Triple.bind (Triple.read (fun _ _ h _ => h) fun _ h => h) fun _ => ?_
  refine Triple.bind (Triple.read (fun _ _ h _ => h) fun _ h => h) fun origin => ?_
  refine Triple.bind (Q := fun z w => z.id = object.zone.id ∧
    SerialsAre (serialsChanged object.zone.id (object.newSerial increment ctx.now) m) w) ?_
    fun zone => Triple.pure fun _ h => h
  refine (serials_steady ctx conf m).transactionReturns (fun _ h => h) fun n => ?_
  -- with an increment the serial is computed from what the object says, without one it is the
  -- object's own
  cases increment with
  | true =>
    exact incrementZoneSerial_serials ctx conf { object.zone with serial := object.serialValue }
      (f := object.pending.write) (fun _ => rfl) n
  | false =>
    have hrow := updateZoneRow_serials ctx conf (m := m) object.zone.id
      (f := object.pending.write) object.serial.write (fun _ => rfl) (fun _ => rfl) n
    exact hrow.weaken (fun _ h => h) (fun _ _ h => ⟨h.1, h.2.1⟩) fun _ h => h

theorem storeTouch_serials (ctx : Context) (conf : Conf) {m : List (Nat × Nat)} (zoneId : Nat) :
    Triple (SerialsAre m) (storeTouch ctx conf zoneId)
      (fun z w => ∃ stored, m.lookup zoneId = some stored ∧ z.id = zoneId ∧
        SerialsAre (serialsChanged zoneId (fun _ => incrementSerial ctx.now stored) m) w)
      (SerialsAre m) := by
  unfold storeTouch getZone
  intro w hw
  cases hz : findZone ctx zoneId w.db with
  | error e => rw [bind_error (by rw [read_apply, hz])]; exact hw
  | ok zone =>
    rw [bind_ok (by rw [read_apply, hz])]
    -- the zone is read in the same call, so its serial is the one that is stored
    have hstored := hw.1.serialOf_eq hz
    rw [hw.2] at hstored
    obtain rfl := (findZone_mem hz).2.1
    have h := (serials_steady ctx conf m).transactionReturns (fun _ h => h)
      (fun n => incrementZoneSerial_serials ctx conf zone (f := id) (fun _ => rfl) n) w hw
    cases hr : transaction (incrementZoneSerial ctx conf zone id) w with
    | mk res w' =>
      rw [hr] at h
      cases res with
      | error e => rw [bind_error hr]; exact h
      | ok z => rw [bind_ok hr]; exact ⟨zone.serial, hstored, rfl, h.2⟩

/-! ## Calls -/

/-- The whole update leaves the serials as its storing does, if the object's own is not assigned. -/
theorem updateZoneObject_serials (ctx : Context) (conf : Conf) {m : List (Nat × Nat)}
    (faults : ZoneFaults) {object : ZoneObject}
    (increment : Bool) (hs : object.serial.changed = false) (hw : SerialsAre m w) :
    match storeZoneObject ctx conf object increment w with
    | (.ok _, _) => SerialsAre (serialsChanged object.zone.id (object.newSerial increment ctx.now) m)
        (updateZoneObject ctx conf faults object increment w).2
    | (.error _, _) => SerialsAre m (updateZoneObject ctx conf faults object increment w).2 := by
  have h := storeZoneObject_serials ctx conf object increment w hw
  cases hr : storeZoneObject ctx conf object increment w with
  | mk res w' =>
    rw [hr] at h
    unfold updateZoneObject
    cases res with
    | error e => rw [bind_error hr]; exact h
    | ok p =>
      rw [bind_ok hr]
      have hI := serials_steady ctx conf
        (serialsChanged object.zone.id (object.newSerial increment ctx.now) m)
      -- taking back does not touch the serial either: it is not among the changes of the object
      have hback : Scope.serials.zone (object.restore p.1) :=
        fun z => ⟨rfl, by rw [ZoneObject.restore, hs]; rfl⟩
      exact Keeps.bind (Keeps.onError (hI.zoneAction faults p.2)
        (Keeps.bind (hI.updateZoneRow p.2.id hback) fun _ => Keeps.pure _))
        (fun _ => Keeps.read _) w' h.2

theorem touchZone_serials (ctx : Context) (conf : Conf) {m : List (Nat × Nat)} (faults : ZoneFaults) (zoneId : Nat)
    (hw : SerialsAre m w) :
    match storeTouch ctx conf zoneId w with
    | (.ok _, _) => ∃ stored, m.lookup zoneId = some stored ∧
        SerialsAre (serialsChanged zoneId (fun _ => incrementSerial ctx.now stored) m)
          (touchZone ctx conf faults zoneId w).2
    | (.error _, _) => SerialsAre m (touchZone ctx conf faults zoneId w).2 := by
  have h := storeTouch_serials ctx conf zoneId w hw
  cases hr : storeTouch ctx conf zoneId w with
  | mk res w' =>
    rw [hr] at h
    unfold touchZone
    cases res with
    | error e => rw [bind_error hr]; exact h
    | ok zone =>
      -- behind the storing only the worker is called, and a failure takes nothing back
      obtain ⟨stored, hm, -, hend⟩ := h
      rw [bind_ok hr]
      exact ⟨stored, hm, Keeps.bind ((serials_steady ctx conf _).zoneAction faults zone)
        (fun _ => Keeps.pure _) w' hend⟩

/-! ## Clients -/

/-- The steps of clients that only ever send back what they loaded, with fields of their own changed. -/
def ClientStep.Edits : ClientStep → Prop
  | .load _ _ | .edit _ _ | .update _ _ _ | .touch _ _ => True
  | _ => False

/-- The links hold, and nobody has assigned the serial of an object. -/
structure Clients.Plain (s : Clients) : Prop where
  linked : s.world.Linked
  serial : ∀ client object, s.object client = some object →
    object.serial = .loaded object.zone.serial

/--
The step increments the serial of a zone, from `base`, and the transaction that does so
is committed; what comes after may still fail.
-/
inductive Increments (conf : Conf) (s : Clients) : ClientInput → Nat → Nat → Prop
  | update {ctx : Context} {client : Nat} {faults : ZoneFaults} {object : ZoneObject}
      {p : Zone × Zone} {w : World} (holds : s.object client = some object)
      (stores : storeZoneObject ctx conf object true s.world = (.ok p, w)) :
      Increments conf s ⟨ctx, .update client true faults⟩ object.zone.id object.serialValue
  | touch {ctx : Context} {zoneId : Nat} {faults : ZoneFaults} {stored zone : Zone} {w : World}
      (found : findZone ctx zoneId s.world.db = .ok stored)
      (stores : storeTouch ctx conf zoneId s.world = (.ok zone, w)) :
      Increments conf s ⟨ctx, .touch zoneId faults⟩ zoneId stored.serial

section

variable {s : Clients} {input : ClientInput} {zoneId base : Nat}

/-- **A committed increment, exactly.** -/
theorem Increments.serials (h : Increments conf s input zoneId base) (hs : s.Plain) :
    SerialsAre (serialsChanged zoneId (fun _ => incrementSerial input.ctx.now base) s.world.serials)
      (s.next conf input).world ∧ ∃ stored, s.world.serials.lookup zoneId = some stored := by
  cases h with
  | update holds stores =>
    rename_i ctx client faults object p w
    have hplain := hs.serial client object holds
    have h := updateZoneObject_serials ctx conf faults true (by rw [hplain]; rfl)
      ⟨hs.linked, rfl⟩
    rw [stores] at h
    have hnext : (s.next conf ⟨ctx, .update client true faults⟩).world =
        (updateZoneObject ctx conf faults object true s.world).2 := by
      simp only [Clients.next, holds]
    obtain ⟨-, -, hrest⟩ := of_read_bind stores
    obtain ⟨origin, horigin, -⟩ := of_read_bind hrest
    exact ⟨hnext ▸ h, origin.serial, hs.linked.serialOf_eq horigin⟩
  | touch found stores =>
    rename_i ctx faults stored zone w
    have h := touchZone_serials ctx conf faults zoneId ⟨hs.linked, rfl⟩
    rw [stores] at h
    obtain ⟨old, hold, h⟩ := h
    have hstored := hs.linked.serialOf_eq found
    -- the serial that is counted on from is the stored one
    obtain rfl : stored.serial = old := Option.some.inj (hstored.symm.trans hold)
    exact ⟨h, _, hstored⟩

/-- Nobody assigns the serial of an object, whatever the step. -/
theorem next_serial (hs : ∀ client object, s.object client = some object →
      object.serial = .loaded object.zone.serial) (client : Nat) (object : ZoneObject)
    (ho : (s.next conf input).object client = some object) :
    object.serial = .loaded object.zone.serial := by
  obtain ⟨ctx, step⟩ := input
  cases step with
  -- a loaded object has the serial of its zone, and an edit writes other fields
  | load client' zoneId =>
    simp only [Clients.next] at ho
    split at ho
    · obtain ⟨z, -, rfl⟩ := Option.map_eq_some_iff.mp ho
      rfl
    · exact hs client object ho
  | edit client' ttl =>
    simp only [Clients.next] at ho
    split at ho
    · obtain ⟨object', ho', rfl⟩ := Option.map_eq_some_iff.mp ho
      exact hs client' object' ho'
    · exact hs client object ho
  -- the call is given its own object; the client's stays as it is
  | update client' increment faults =>
    cases hc : s.object client' with
    | none => simp only [Clients.next, hc] at ho; exact hs client object ho
    | some object' => simp only [Clients.next, hc] at ho; exact hs client object ho
  | transfer client' ttl serial faults =>
    cases hc : s.object client' with
    | none => simp only [Clients.next, hc] at ho; exact hs client object ho
    | some object' => simp only [Clients.next, hc] at ho; exact hs client object ho
  | touch zoneId faults => exact hs client object ho
  | create faults plan zone => exact hs client object ho
  | importZone faults plan name ttl serial => exact hs client object ho

/-- A step that commits no increment leaves the serials alone. -/
theorem next_serials (hs : s.Plain) (hedits : input.step.Edits)
    (hnone : ∀ zoneId base, ¬ Increments conf s input zoneId base) :
    SerialsAre s.world.serials (s.next conf input).world := by
  obtain ⟨ctx, step⟩ := input
  have hw : SerialsAre s.world.serials s.world := ⟨hs.linked, rfl⟩
  cases step with
  | load client zoneId => exact hw
  | edit client ttl => exact hw
  | update client increment faults =>
    cases ho : s.object client with
    | none => simp only [Clients.next, ho]; exact hw
    | some object =>
      -- the object assigns no serial, so what the call does depends on the increment alone
      have hplain := hs.serial client object ho
      have h := updateZoneObject_serials ctx conf faults increment (by rw [hplain]; rfl) hw
      have hnext : (s.next conf ⟨ctx, .update client increment faults⟩).world =
          (updateZoneObject ctx conf faults object increment s.world).2 := by
        simp only [Clients.next, ho]
      rw [hnext]
      cases hstores : storeZoneObject ctx conf object increment s.world with
      | mk res w =>
        rw [hstores] at h
        cases res with
        | error e => exact h
        | ok p =>
          cases increment with
          | true => exact absurd (Increments.update ho hstores) (hnone _ _)
          | false =>
            -- without an increment the stored serial is written back
            have hid : ∀ n, object.newSerial false ctx.now n = n := fun n => by
              rw [ZoneObject.newSerial, hplain]; rfl
            rw [serialsChanged_id hid] at h
            exact h
  | touch zoneId faults =>
    have h := touchZone_serials ctx conf faults zoneId hw
    cases hstores : storeTouch ctx conf zoneId s.world with
    | mk res w =>
      rw [hstores] at h
      cases res with
      | error e => exact h
      | ok zone =>
        have hz := hstores
        unfold storeTouch getZone at hz
        obtain ⟨stored, hfound, -⟩ := of_read_bind hz
        exact absurd (Increments.touch hfound hstores) (hnone _ _)
  -- what creates or transfers is excluded by `Edits`
  | create faults plan zone => exact hedits.elim
  | importZone faults plan name ttl serial => exact hedits.elim
  | transfer client ttl serial faults => exact hedits.elim

/-- The clients go on sending back what they loaded. -/
theorem next_plain (hs : s.Plain) (hedits : input.step.Edits) : (s.next conf input).Plain where
  linked := by
    by_cases h : ∃ zoneId base, Increments conf s input zoneId base
    · obtain ⟨zoneId, base, h⟩ := h
      exact (h.serials hs).1.1
    · exact (next_serials hs hedits fun zoneId base hi => h ⟨zoneId, base, hi⟩).1
  serial := next_serial hs.serial

/-- The new serial is bigger than the old one if the clock or the object is up to date. -/
theorem lt_incrementSerial {now base old : Nat} :
    old < incrementSerial now base ↔ old < now ∨ old ≤ base := by
  unfold incrementSerial
  split <;> omega

/-- The serial a committed increment leaves. -/
theorem Increments.serialOf (h : Increments conf s input zoneId base) (hs : s.Plain) :
    (s.next conf input).world.serialOf zoneId = incrementSerial input.ctx.now base := by
  obtain ⟨⟨-, hserials⟩, stored, hstored⟩ := h.serials hs
  rw [World.serialOf, hserials, lookup_serialsChanged, if_pos rfl, hstored]
  rfl

end

/-! ## Runs of clients -/

/-- A transition of the clients. -/
abbrev ClientTransition := Run.Transition Clients ClientInput

/-- A committed increment of the transition leaves a bigger serial than it found. -/
def ClientTransition.Strict (conf : Conf) (t : ClientTransition) : Prop :=
  ∀ zoneId base, Increments conf t.before t.input zoneId base →
    t.before.world.serialOf zoneId < t.after.world.serialOf zoneId

/--
When the increment is committed, the clock has passed the stored serial or the object
the increment starts from has not fallen behind it.
-/
def ClientTransition.UpToDate (conf : Conf) (t : ClientTransition) : Prop :=
  ∀ zoneId base, Increments conf t.before t.input zoneId base →
    t.before.world.serialOf zoneId < t.input.ctx.now ∨ t.before.world.serialOf zoneId ≤ base

/-- Both transitions commit an increment of one zone, and leave it with the same serial. -/
def ClientTransition.SameVersion (conf : Conf) (t t' : ClientTransition) : Prop :=
  ∃ zoneId base base', Increments conf t.before t.input zoneId base ∧
    Increments conf t'.before t'.input zoneId base' ∧
    t.after.world.serialOf zoneId = t'.after.world.serialOf zoneId

/-- No increment leaves the serial behind, and no two of a zone leave the same. -/
structure SerialsIncrease (conf : Conf) (ts : List ClientTransition) : Prop where
  strict : ∀ t ∈ ts, ClientTransition.Strict conf t
  distinct : ts.Pairwise fun t t' => ¬ ClientTransition.SameVersion conf t t'

section

variable {s : Clients} {inputs : List ClientInput}

/-- The clients go on as they are, all along a run of edits. -/
theorem run_plain (conf : Conf) (hs : s.Plain) (hedits : ∀ input ∈ inputs, input.step.Edits) :
    ∀ t ∈ Run.transitions (Clients.next conf) inputs s, t.before.Plain ∧ t.input.step.Edits := by
  induction inputs generalizing s with
  | nil => exact fun t ht => absurd ht List.not_mem_nil
  | cons input inputs ih =>
    have hedit := hedits input List.mem_cons_self
    intro t ht
    rcases List.mem_cons.mp ht with rfl | ht
    · exact ⟨hs, hedit⟩
    · exact ih (next_plain hs hedit) (fun i hi => hedits i (List.mem_cons_of_mem _ hi)) t ht

/-- One transition is strict exactly if it is up to date. -/
theorem strict_iff {conf : Conf} {t : ClientTransition}
    (ht : t ∈ Run.transitions (Clients.next conf) inputs s) (hplain : t.before.Plain) :
    ClientTransition.Strict conf t ↔ ClientTransition.UpToDate conf t := by
  refine forall_congr' fun zoneId => forall_congr' fun base => imp_congr_right fun h => ?_
  rw [Run.transition_after ht, h.serialOf hplain]
  exact lt_incrementSerial

/-- A transition that is up to date makes no serial smaller. -/
theorem serialOf_le {conf : Conf} {t : ClientTransition}
    (ht : t ∈ Run.transitions (Clients.next conf) inputs s) (hplain : t.before.Plain)
    (hedits : t.input.step.Edits) (hdate : ClientTransition.UpToDate conf t) (zoneId : Nat) :
    t.before.world.serialOf zoneId ≤ t.after.world.serialOf zoneId := by
  by_cases h : ∃ id base, Increments conf t.before t.input id base
  · obtain ⟨id, base, h⟩ := h
    by_cases hid : zoneId = id
    · subst hid
      exact Nat.le_of_lt ((strict_iff ht hplain).mpr hdate _ _ h)
    · -- another zone
      have hserials := (h.serials hplain).1.2
      refine Nat.le_of_eq ?_
      rw [Run.transition_after ht, World.serialOf, World.serialOf, hserials,
        lookup_serialsChanged, if_neg hid]
  · have hserials := (next_serials hplain hedits fun id base hi => h ⟨id, base, hi⟩).2
    refine Nat.le_of_eq ?_
    rw [Run.transition_after ht, World.serialOf, World.serialOf, hserials]

/--
**The serials of a run of clients.** Whoever loads, edits, sends back and touches zones
in whichever order and at whatever times: every committed increment leaves a bigger
serial than it found, and no two committed versions of a zone share one, exactly if each
increment happens when the clock has passed the stored serial, or from an object whose
serial is not behind it.
-/
theorem run_serials_iff (conf : Conf) (inputs : List ClientInput) (s : Clients) (hs : s.Plain)
    (hedits : ∀ input ∈ inputs, input.step.Edits) :
    SerialsIncrease conf (Run.transitions (Clients.next conf) inputs s) ↔
      ∀ t ∈ Run.transitions (Clients.next conf) inputs s, ClientTransition.UpToDate conf t := by
  have hrun := run_plain conf hs hedits
  constructor
  · exact fun h t ht => (strict_iff ht (hrun t ht).1).mp (h.strict t ht)
  · intro hdate
    have hstrict : ∀ t ∈ Run.transitions (Clients.next conf) inputs s,
        ClientTransition.Strict conf t :=
      fun t ht => (strict_iff ht (hrun t ht).1).mpr (hdate t ht)
    refine ⟨hstrict, ?_⟩
    -- along the run no serial falls, and an increment makes its own rise; so two increments
    -- differ
    have hpair : ∀ zoneId, (Run.transitions (Clients.next conf) inputs s).Pairwise fun t t' =>
        (∃ base, Increments conf t'.before t'.input zoneId base) →
          t.after.world.serialOf zoneId < t'.after.world.serialOf zoneId := fun zoneId =>
      Run.pairwise_lt (m := fun s : Clients => s.world.serialOf zoneId)
        (fun t ht => serialOf_le ht (hrun t ht).1 (hrun t ht).2 (hdate t ht) zoneId)
        fun t ht ⟨base, h⟩ => hstrict t ht zoneId base h
    refine List.pairwise_iff_forall_sublist.mpr fun {t t'} hsub => ?_
    rintro ⟨zoneId, base, base', -, h', he⟩
    have hlt := List.pairwise_iff_forall_sublist.mp (hpair zoneId) hsub ⟨base', h'⟩
    exact absurd he (Nat.ne_of_lt hlt)

end

/-! ## At the sample -/

/-- The sample with a secondary zone the device knows, and no clients. -/
def Sample.secondary : Clients where
  world :=
    { Sample.world with
      nextId := 12
      db := { Sample.world.db with zones := [{ Sample.zone with type := .SECONDARY }]
                                   zdnsZones := [11], zoneAssociations := [⟨2, 11⟩] } }
  object := fun _ => none

/-- Two clients load the zone and change its ttl, the second one at `later`. -/
def Sample.twoClients (later : Nat) : List ClientInput :=
  [⟨Sample.ctx, .load 0 2⟩, ⟨Sample.ctx, .load 1 2⟩, ⟨Sample.ctx, .edit 0 600⟩,
    ⟨Sample.ctx, .edit 1 900⟩, ⟨{ Sample.ctx with now := 100 }, .update 0 true ZoneFaults.none⟩,
    ⟨{ Sample.ctx with now := later }, .update 1 true ZoneFaults.none⟩]

/-- A call that was computed to return. -/
theorem ok_of_isSome {α : Type} {m : Call α} {w : World} (h : (m w).1.toOption.isSome = true) :
    ∃ a w', m w = (.ok a, w') := by
  cases hm : m w with
  | mk res w' =>
    cases res with
    | ok a => exact ⟨a, w', rfl⟩
    | error e => rw [hm] at h; exact absurd h (by simp [Except.toOption])

/-- No client has an object yet. -/
theorem secondary_plain : Sample.secondary.Plain where
  linked := ⟨by decide, by decide, by decide, by decide, by decide, by decide, by decide,
    by decide⟩
  serial := fun _ _ h => absurd h (by simp [Sample.secondary])

theorem twoClients_edits (later : Nat) : ∀ input ∈ Sample.twoClients later, input.step.Edits := by
  intro input hm
  simp only [Sample.twoClients, List.mem_cons, List.not_mem_nil, or_false] at hm
  rcases hm with rfl | rfl | rfl | rfl | rfl | rfl <;> trivial

theorem run_serials_iff_sample :
    SerialsIncrease Sample.conf
        (Run.transitions (Clients.next Sample.conf) (Sample.twoClients 101) Sample.secondary) ↔
      ∀ t ∈ Run.transitions (Clients.next Sample.conf) (Sample.twoClients 101) Sample.secondary,
        ClientTransition.UpToDate Sample.conf t :=
  run_serials_iff Sample.conf (Sample.twoClients 101) Sample.secondary secondary_plain
    (twoClients_edits 101)

/-- Within one second the second client stores the serial that the first has stored. -/
theorem same_second_same_serial :
    ¬ SerialsIncrease Sample.conf
      (Run.transitions (Clients.next Sample.conf) (Sample.twoClients 100) Sample.secondary) := by
  intro h
  have hlast := h.strict _ (List.mem_of_getElem? (i := 5) rfl)
  have hstores : (storeZoneObject { Sample.ctx with now := 100 } Sample.conf
      { ZoneObject.ofRow { Sample.zone with type := .SECONDARY } with
        ttl := (Tracked.loaded 3600).set 900 } true
      (Run.final (Clients.next Sample.conf) ((Sample.twoClients 100).take 5)
        Sample.secondary).world).1.toOption.isSome = true := by decide +kernel
  obtain ⟨p, w, hp⟩ := ok_of_isSome hstores
  exact absurd (hlast 2 1 (Increments.update rfl hp)) (by decide +kernel)

end Designate
