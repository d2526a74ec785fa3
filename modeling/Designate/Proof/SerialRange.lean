import Designate.Proof.Serials

/-!
# The range of the serials

A serial of the schema is a number of 32 bits other than 0. Zones come in with such a
serial, and every increment takes the clock or one more than the serial of the object:
there is nothing above the last number of the range but the next one.
-/

namespace Designate

open Exec

variable {ctx : Context} {conf : Conf} {w : World}

/-- The biggest serial of the schema. -/
def maxSerial : Nat := 4294967295

/-- What the schema accepts as a serial. -/
def InRange (serial : Nat) : Prop := 1 ≤ serial ∧ serial ≤ maxSerial

instance (serial : Nat) : Decidable (InRange serial) := inferInstanceAs (Decidable (_ ∧ _))

theorem incrementSerial_inRange {now base : Nat} (hnow : now ≤ maxSerial) (hbase : base < maxSerial) :
    InRange (incrementSerial now base) := by
  unfold InRange incrementSerial
  split <;> omega

/-- The links hold, and every stored serial is in range. -/
structure World.Ranged (w : World) : Prop where
  linked : w.Linked
  serials : ∀ p ∈ w.serials, InRange p.2

/-- Zones may change as long as they keep their place, and their serial its range. -/
def Scope.ranged : Scope :=
  ⟨fun f => ∀ z, (f z).place = z.place ∧ (InRange z.serial → InRange (f z).serial),
    fun z => InRange z.serial, fun _ => True, fun _ => ⟨rfl, id⟩, fun _ => ⟨rfl, id⟩⟩

theorem mem_serials {p : Nat × Nat} :
    p ∈ w.serials ↔ ∃ z ∈ w.db.zones, (z.id, z.serial) = p := List.mem_map

/-- **The range is steady.** -/
theorem ranged_steady (ctx : Context) (conf : Conf) : Steady ctx conf .ranged World.Ranged where
  linked h := h.linked
  still hs h := ⟨(linked_steady ctx conf).still hs h.linked, by
    have : ∀ {w w' : World}, World.Still w w' → w'.serials = w.serials :=
      fun hs => by rw [World.serials, hs.zones]; rfl
    rw [this hs]; exact h.serials⟩
  insertZone {w z} h hid hz := ⟨(linked_steady ctx conf).insertZone h.linked hid trivial, by
    intro p hp
    obtain ⟨y, hy, rfl⟩ := mem_serials.mp hp
    rcases List.mem_append.mp hy with hy | hy
    · exact h.serials _ (mem_serials.mpr ⟨y, hy, rfl⟩)
    · rw [List.mem_singleton.mp hy]; exact hz⟩
  updateZone {w f} id h hf := ⟨(linked_steady ctx conf).updateZone id h.linked fun z => (hf z).1, by
    intro p hp
    obtain ⟨y, hy, rfl⟩ := mem_serials.mp hp
    rcases Table.mem_update.mp hy with ⟨hy, -⟩ | ⟨z, hz, -, rfl⟩
    · exact h.serials _ (mem_serials.mpr ⟨y, hy, rfl⟩)
    · exact (hf z).2 (h.serials _ (mem_serials.mpr ⟨z, hz, rfl⟩))⟩
  insertRecordset h hid ht hz :=
    ⟨(linked_steady ctx conf).insertRecordset h.linked hid ht hz, h.serials⟩
  deleteRecordset h hs := ⟨(linked_steady ctx conf).deleteRecordset h.linked hs, h.serials⟩
  insert h hp hstores := ⟨(linked_steady ctx conf).insert h.linked hp hstores, h.serials⟩
  write h hr hf hh := ⟨(linked_steady ctx conf).write h.linked hr hf hh, h.serials⟩
  drop h hr := ⟨(linked_steady ctx conf).drop h.linked hr, h.serials⟩

/-- A table of serials in range stays so when one is changed within the range. -/
theorem serialsChanged_inRange {id : Nat} {g : Nat → Nat} {m : List (Nat × Nat)}
    (hm : ∀ p ∈ m, InRange p.2) (hg : ∀ n, InRange n → InRange (g n)) :
    ∀ p ∈ serialsChanged id g m, InRange p.2 := by
  intro p hp
  rcases Table.mem_update.mp hp with ⟨hp, -⟩ | ⟨q, hq, -, rfl⟩
  · exact hm p hp
  · exact hg q.2 (hm q hq)

theorem SerialsAre.ranged {m : List (Nat × Nat)} (h : SerialsAre m w)
    (hm : ∀ p ∈ m, InRange p.2) : w.Ranged := ⟨h.1, h.2.symm ▸ hm⟩

/-! ## Steps -/

/-- What the schema, and a clock of 32 bits, let in. -/
def ClientInput.Admitted (input : ClientInput) : Prop :=
  input.ctx.now ≤ maxSerial ∧
    match input.step with
    | .create _ _ zone => ∀ serial, zone.serial = some serial → InRange serial
    | .importZone _ _ _ _ serial => InRange serial
    | .transfer _ _ serial _ => InRange serial
    | _ => True

/--
No serial is incremented from the last one of the range: neither by the increment the
step commits nor, when a zone is created, in a zone below it. And the clock stands above
zero when it gives a new zone its serial.
-/
def BelowMax (conf : Conf) (s : Clients) (input : ClientInput) : Prop :=
  (∀ zoneId base, Increments conf s input zoneId base → base < maxSerial) ∧
    match input.step with
    | .create _ _ zone =>
      (∀ z ∈ isSuperzone conf zone.name conf.poolId s.world.db, z.serial < maxSerial) ∧
        (zone.serial = none → zone.type ≠ .SECONDARY → 0 < input.ctx.now)
    | _ => True

/-- A transfer stores the serial of the master, or takes it back. -/
theorem transfer_ranged (faults : ZoneFaults) (object : ZoneObject) (ttl : Nat) {serial : Nat}
    (hserial : InRange serial) (hw : w.Ranged) :
    (updateZoneObject ctx conf faults (object.transferred ttl serial) false w).2.Ranged := by
  have hI := ranged_steady ctx conf
  have h := storeZoneObject_serials ctx conf (object.transferred ttl serial) false w
    ⟨hw.linked, rfl⟩
  unfold updateZoneObject
  cases hr : storeZoneObject ctx conf (object.transferred ttl serial) false w with
  | mk res w' =>
    rw [hr] at h
    cases res with
    | error e => rw [bind_error hr]; exact h.ranged hw.serials
    | ok p =>
      obtain ⟨-, -, hrest⟩ := of_read_bind hr
      obtain ⟨origin, horigin, hrest⟩ := of_read_bind hrest
      obtain ⟨zone, w₁, -, hpure⟩ := bind_eq_ok.mp hrest
      obtain rfl : (origin, zone) = p := Except.ok.inj (Prod.mk.inj hpure).1
      -- the origin is a stored zone, so taking it back stays in the range too
      have horange : InRange origin.serial :=
        hw.serials _ (mem_serials.mpr ⟨origin, (findZone_mem horigin).1, rfl⟩)
      -- the object writes its own serial, or leaves the stored one
      have hstored : w'.Ranged := by
        refine h.2.ranged (serialsChanged_inRange hw.serials fun n hn => ?_)
        change InRange ((object.serial.set serial).write n)
        rcases Tracked.write_eq (object.serial.set serial) n with he | ⟨-, he⟩
        · rw [he]; exact hn
        · rw [he]; exact hserial
      have hback : Scope.ranged.zone ((object.transferred ttl serial).restore origin) := by
        refine fun z => ⟨rfl, fun hz => ?_⟩
        unfold ZoneObject.restore
        dsimp only
        split
        · exact horange
        · exact hz
      rw [bind_ok hr]
      exact Keeps.bind (Keeps.onError (hI.zoneAction faults zone)
        (Keeps.bind (hI.updateZoneRow zone.id hback) fun _ => Keeps.pure _))
        (fun _ => Keeps.read _) w' hstored

/-- Without a view no zone is stored. -/
theorem createZone_unseen {faults : ZoneFaults} {plan : Nat → ZoneFaults} {zone : NewZone}
    (hview : zone.viewId = none) : (createZone ctx conf faults plan zone w).2 = w := by
  unfold createZone
  have hstate := createZoneChecks_state ctx conf (zone.owned ctx) w
  have hv : (zone.owned ctx).viewId = none := hview
  cases hrun : createZoneChecks ctx conf (zone.owned ctx) w with
  | mk res w' =>
    obtain rfl : w' = w := by rw [hrun] at hstate; exact hstate
    cases res with
    | error e => rw [bind_error hrun]
    | ok p => rw [bind_ok hrun]; dsimp only; rw [hv]; rfl

/-- The serial of a new zone is in range. -/
theorem NewZone.row_inRange (zone : NewZone) (hnow : ctx.now ≤ maxSerial)
    (hserial : ∀ serial, zone.serial = some serial → InRange serial)
    (hclock : zone.serial = none → zone.type ≠ .SECONDARY → 0 < ctx.now) (id viewId : Nat)
    (parent : Option Nat) : InRange (zone.row ctx conf id viewId parent).serial := by
  unfold NewZone.row
  cases hs : zone.serial with
  | some serial => exact hserial serial hs
  | none =>
    dsimp only [Option.getD_none]
    by_cases ht : zone.type = .SECONDARY
    · rw [if_pos ht]; decide
    · rw [if_neg ht]; exact ⟨hclock hs ht, hnow⟩

/-- The update of a zone whose serial is not the last one. -/
theorem updates_ranged {zone : Zone} (hnow : ctx.now ≤ maxSerial) (hz : zone.serial < maxSerial) :
    Scope.ranged.Updates ctx zone :=
  ⟨fun _ => ⟨rfl, id⟩, fun _ => ⟨rfl, fun _ => incrementSerial_inRange hnow hz⟩,
    fun _ _ _ => ⟨rfl, id⟩⟩

/-- The links hold, every serial is in range, and nobody has assigned the serial of an object. -/
structure Clients.Ranged (s : Clients) : Prop where
  world : s.world.Ranged
  serial : ∀ client object, s.object client = some object →
    object.serial = .loaded object.zone.serial

/-- **One step keeps the range**, unless it increments the last serial. -/
theorem next_ranged {s : Clients} {input : ClientInput} (hs : s.Ranged) (ha : input.Admitted)
    (hb : BelowMax conf s input) : (s.next conf input).Ranged where
  serial := next_serial hs.serial
  world := by
    have hplain : s.Plain := ⟨hs.world.linked, hs.serial⟩
    have hI := ranged_steady input.ctx conf
    -- an edit increments one serial or none; the other steps each write a serial of their own
    by_cases hedits : input.step.Edits
    · by_cases h : ∃ zoneId base, Increments conf s input zoneId base
      · obtain ⟨zoneId, base, h⟩ := h
        exact (h.serials hplain).1.ranged (serialsChanged_inRange hs.world.serials fun _ _ =>
          incrementSerial_inRange ha.1 (hb.1 zoneId base h))
      · exact (next_serials hplain hedits fun id base hi => h ⟨id, base, hi⟩).ranged
          hs.world.serials
    · obtain ⟨ctx, step⟩ := input
      cases step with
      | create faults plan zone =>
        exact hI.createZone faults plan zone hs.world
          (fun _ _ _ => NewZone.row_inRange (zone.owned ctx) ha.1 ha.2 hb.2.2 _ _ _)
          (fun z hz zoneId => updates_ranged ha.1 (hb.2.1 z hz)) trivial trivial
      | importZone faults plan name ttl serial =>
        have hsame : (s.next conf ⟨ctx, .importZone faults plan name ttl serial⟩).world = s.world :=
          createZone_unseen rfl
        exact hsame ▸ hs.world
      | transfer client ttl serial faults =>
        cases ho : s.object client with
        | none => simp only [Clients.next, ho]; exact hs.world
        | some object =>
          simp only [Clients.next, ho]
          exact transfer_ranged faults object ttl ha.2 hs.world
      | _ => exact absurd trivial hedits

/--
**The range along a run.** Whatever clients and masters send and whenever, as long as
what comes in is in range and no serial is incremented from the last one, every stored
serial is in range before every step and at the end.
-/
theorem run_ranged (conf : Conf) (inputs : List ClientInput) (s : Clients) (hs : s.Ranged)
    (hadmitted : ∀ input ∈ inputs, input.Admitted)
    (hbelow : ∀ t ∈ Run.transitions (Clients.next conf) inputs s, BelowMax conf t.before t.input) :
    (∀ t ∈ Run.transitions (Clients.next conf) inputs s,
      ∀ z ∈ t.before.world.db.zones, InRange z.serial) ∧
      ∀ z ∈ (Run.final (Clients.next conf) inputs s).world.db.zones, InRange z.serial := by
  have hguard : ∀ t ∈ Run.transitions (Clients.next conf) inputs s,
      t.input.Admitted ∧ BelowMax conf t.before t.input := fun t ht =>
    ⟨hadmitted t.input (Run.input_mem ht), hbelow t ht⟩
  obtain ⟨hbefore, hfinal⟩ := Run.invariant (I := Clients.Ranged)
    (G := fun input s => input.Admitted ∧ BelowMax conf s input)
    (fun _ _ h hg => next_ranged h hg.1 hg.2) hs hguard
  have hzones : ∀ {s : Clients}, s.Ranged → ∀ z ∈ s.world.db.zones, InRange z.serial :=
    fun h z hz => h.world.serials _ (mem_serials.mpr ⟨z, hz, rfl⟩)
  exact ⟨fun t ht => hzones (hbefore t ht), hzones hfinal⟩

/-! ## At the sample -/

theorem secondary_ranged : Sample.secondary.Ranged where
  world := ⟨secondary_plain.linked, by decide⟩
  serial := secondary_plain.serial

/-- A client loads the zone and sends it back. -/
def Sample.oneClient : List ClientInput :=
  [⟨Sample.ctx, .load 0 2⟩, ⟨{ Sample.ctx with now := 100 }, .update 0 true ZoneFaults.none⟩]

theorem run_ranged_sample :
    (∀ t ∈ Run.transitions (Clients.next Sample.conf) Sample.oneClient Sample.secondary,
      ∀ z ∈ t.before.world.db.zones, InRange z.serial) ∧
      ∀ z ∈ (Run.final (Clients.next Sample.conf) Sample.oneClient Sample.secondary).world.db.zones,
        InRange z.serial := by
  refine run_ranged Sample.conf Sample.oneClient Sample.secondary secondary_ranged ?_ ?_
  · intro input hm
    simp only [Sample.oneClient, List.mem_cons, List.not_mem_nil, or_false] at hm
    rcases hm with rfl | rfl <;> exact ⟨by decide, trivial⟩
  · intro t ht
    rcases List.mem_cons.mp ht with rfl | ht
    · exact ⟨fun _ _ h => (by cases h), trivial⟩
    · obtain rfl := List.mem_singleton.mp ht
      refine ⟨fun zoneId base h => ?_, trivial⟩
      cases h with
      | update holds stores =>
        have hserial : ((Sample.secondary.next Sample.conf ⟨Sample.ctx, .load 0 2⟩).object 0).map
            ZoneObject.serialValue = some 1 := by decide +kernel
        rw [holds] at hserial
        rw [Option.some.inj hserial]
        decide

/-- A zone that comes in with the given serial, and is then touched. -/
def Sample.touchedZone (serial : Nat) : List ClientInput :=
  [⟨Sample.ctx, .create ZoneFaults.none (fun _ => ZoneFaults.none)
      { name := "example.org.", tenantId := none, type := .SECONDARY, ttl := none
        serial := some serial, viewId := some 1 }⟩,
    ⟨Sample.ctx, .touch 12 ZoneFaults.none⟩]

/-- The last serial of the schema is admitted, and the first increment leaves the range. -/
theorem last_serial_overflows :
    (∀ input ∈ Sample.touchedZone maxSerial, input.Admitted) ∧
      ¬ ∀ z ∈ (Run.final (Clients.next Sample.confNs) (Sample.touchedZone maxSerial)
        Sample.secondary).world.db.zones, InRange z.serial := by
  refine ⟨?_, by decide +kernel⟩
  intro input hm
  simp only [Sample.touchedZone, List.mem_cons, List.not_mem_nil, or_false] at hm
  rcases hm with rfl | rfl
  · exact ⟨by decide, fun serial h => by obtain rfl := Option.some.inj h; decide⟩
  · exact ⟨by decide, trivial⟩

end Designate
