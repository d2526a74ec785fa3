import Designate.Central.Clients
import Designate.Proof.Reachable
import Designate.Sample

/-!
# No SOA records

Central used to give a new zone an SOA record and to keep it up to date. It no longer
makes one: the default records of a zone are an NS and an A record, an import drops the
SOA record of its file, and users may not create one by hand.
-/

namespace Designate

open Exec

variable {ctx : Context} {conf : Conf} {w : World}

/-! ## Zone objects keep steady invariants -/

namespace Steady

variable {scope : Scope} {I : World → Prop} (hI : Steady ctx conf scope I)

include hI

theorem updateZoneObject (faults : ZoneFaults) (object : ZoneObject) (increment : Bool)
    (hzone : ∀ f : Zone → Zone, (∀ z, (f z).place = z.place) → scope.zone f) :
    Keeps I (updateZoneObject ctx conf faults object increment) := by
  have hstore : Keeps I (storeZoneObject ctx conf object increment) :=
    Keeps.bind (Keeps.read _) fun _ => Keeps.bind (Keeps.read _) fun _ =>
      Keeps.bind (hI.transaction fun n => Keeps.ite
        (fun _ => (hI.above n).incrementZoneSerial _ (hzone _ fun _ => rfl))
        fun _ => (hI.above n).updateZoneRow _ (hzone _ fun _ => rfl)) fun _ => Keeps.pure _
  exact Keeps.bind hstore fun p => Keeps.bind (Keeps.onError (hI.zoneAction faults p.2)
    (Keeps.bind (hI.updateZoneRow _ (hzone _ fun _ => rfl)) fun _ => Keeps.pure _))
    fun _ => Keeps.read _

theorem touchZone (faults : ZoneFaults) (zoneId : Nat)
    (hzone : ∀ f : Zone → Zone, (∀ z, (f z).place = z.place) → scope.zone f) :
    Keeps I (touchZone ctx conf faults zoneId) :=
  Keeps.bind (Keeps.bind (Keeps.read _) fun zone => Keeps.bind (hI.transaction fun n =>
    (hI.above n).incrementZoneSerial zone (hzone _ fun _ => rfl)) fun _ => Keeps.pure _) fun zone =>
    Keeps.bind (hI.zoneAction faults zone) fun _ => Keeps.pure _

end Steady

/-! ## The invariant -/

/--
The links hold, and no recordset is an SOA recordset. No request that central makes of itself
adds one, so the look-up of `_update_soa` finds none, and raises.
-/
structure World.NoSoa (w : World) : Prop where
  linked : w.Linked
  noSoa : ∀ s ∈ w.db.recordsets, s.type ≠ .SOA

/-- Zones may come and change as they like, recordsets may be of any type but SOA. -/
def Scope.noSoa : Scope := { Scope.all with type := fun t => t ≠ .SOA }

theorem noSoa_steady (ctx : Context) (conf : Conf) : Steady ctx conf .noSoa World.NoSoa where
  linked h := h.linked
  still hs h := ⟨(linked_steady ctx conf).still hs h.linked, fun s hm => by
    obtain ⟨s₀, hs₀, he⟩ := mem_of_map_eq hs.recordsets hm
    simp only [RecordSetRow.place, Prod.mk.injEq] at he
    exact he.2.2.2.2 ▸ h.noSoa s₀ hs₀⟩
  insertZone h hid hz := ⟨(linked_steady ctx conf).insertZone h.linked hid hz, h.noSoa⟩
  updateZone id h hf := ⟨(linked_steady ctx conf).updateZone id h.linked hf, h.noSoa⟩
  insertRecordset h hid ht hz :=
    ⟨(linked_steady ctx conf).insertRecordset h.linked hid trivial hz, fun s hm => by
      rcases List.mem_append.mp hm with hm | hm
      · exact h.noSoa s hm
      · rw [List.mem_singleton.mp hm]; exact ht⟩
  deleteRecordset h hs := ⟨(linked_steady ctx conf).deleteRecordset h.linked hs,
    fun s hm => h.noSoa s (Table.mem_remove.mp hm).1⟩
  insert h hp hstores := ⟨(linked_steady ctx conf).insert h.linked hp hstores, h.noSoa⟩
  write h hr hf hh := ⟨(linked_steady ctx conf).write h.linked hr hf hh, h.noSoa⟩
  drop h hr := ⟨(linked_steady ctx conf).drop h.linked hr, h.noSoa⟩

/--
The operations the invariant is about: anything but a transfer from a master, and no
SOA recordset made by hand.
-/
def ServiceInput.Ordinary : ServiceInput → Prop
  | .request ⟨_, .createRecordset _ _ _ type _ _ _⟩ => type ≠ .SOA
  | .client ⟨_, .transfer _ _ _ _⟩ => False
  | _ => True

/-- One step. -/
theorem serve_noSoa {s : Clients} {input : ServiceInput} (hs : s.world.NoSoa)
    (ho : input.Ordinary) : (s.serve conf input).world.NoSoa := by
  -- changes of a zone never write a recordset, and a new zone writes NS and A only
  have hzone : ∀ f : Zone → Zone, (∀ z, (f z).place = z.place) → Scope.noSoa.zone f :=
    fun _ hf => hf
  have hns : Scope.noSoa.type .NS := show RRType.NS ≠ .SOA by decide
  have ha : Scope.noSoa.type .A := show RRType.A ≠ .SOA by decide
  cases input with
  | request input =>
    have hwrite : IgnoresStaying input.ctx conf World.NoSoa :=
      fun _ _ _ h hr hstays => ⟨h.linked.write hr hstays, h.noSoa⟩
    refine serve_steady (noSoa_steady input.ctx conf) hwrite hzone (fun _ => trivial) ?_ hs
    obtain ⟨ctx, request⟩ := input
    cases request with
    -- the one request that is given a type; that it is not SOA is what `Ordinary` says
    | createRecordset plan zoneId name type ttl description texts => exact ho
    | createZone faults plan zone => exact ⟨hns, ha⟩
    | _ => trivial
  | client input =>
    obtain ⟨ctx, step⟩ := input
    have hI := noSoa_steady ctx conf
    have hcreate : ∀ faults plan zone, (createZone ctx conf faults plan zone s.world).2.NoSoa :=
      fun faults plan zone => hI.createZone faults plan zone hs (fun _ _ _ => trivial)
        (fun _ _ _ => .of_place hzone) hns ha
    cases step with
    | load client zoneId => exact hs
    | edit client ttl => exact hs
    | update client increment faults =>
      cases hc : s.object client with
      | none => simp only [Clients.serve, Clients.next, hc]; exact hs
      | some object =>
        simp only [Clients.serve, Clients.next, hc]
        exact hI.updateZoneObject faults object increment hzone s.world hs
    | touch zoneId faults => exact hI.touchZone faults zoneId hzone s.world hs
    | create faults plan zone => exact hcreate faults plan zone
    | importZone faults plan name ttl serial => exact hcreate faults plan _
    | transfer client ttl serial faults => exact ho.elim

/--
What SOA records would be for: every live primary zone has one SOA recordset of one
record, and its data is the text made of the zone.
-/
def World.SoaKept (text : Zone → String) (w : World) : Prop :=
  ∀ z ∈ w.db.zones, z.deleted = false → z.type = .PRIMARY →
    ∃ soa record, (w.db.recordsets.filter fun s => s.zoneId == z.id && s.type == .SOA) = [soa] ∧
      w.db.recordsOf soa.id = [record] ∧ record.data = text z

/-- Where nothing is an SOA recordset, SOA records are kept for no zone at all. -/
theorem World.NoSoa.soaKept_iff (h : w.NoSoa) (text : Zone → String) :
    w.SoaKept text ↔ ∀ z ∈ w.db.zones, z.deleted = false → z.type ≠ .PRIMARY := by
  constructor
  · intro hkept z hz hlive htype
    obtain ⟨soa, record, hsoa, -, -⟩ := hkept z hz hlive htype
    have hm : soa ∈ w.db.recordsets.filter fun s => s.zoneId == z.id && s.type == .SOA := by
      rw [hsoa]
      exact List.mem_singleton.mpr rfl
    rcases List.mem_filter.mp hm with ⟨hin, hof⟩
    simp only [Bool.and_eq_true, beq_iff_eq] at hof
    exact h.noSoa soa hin hof.2
  · intro hnone z hz hlive htype
    exact absurd htype (hnone z hz hlive)

/-- `_increment_zone_serial` returns for no primary zone, whoever calls it. -/
def World.SerialsStuck (conf : Conf) (w : World) : Prop :=
  ∀ (ctx : Context) (zone after : Zone) (f : Zone → Zone) (w' : World),
    incrementZoneSerial ctx conf zone f w = (.ok after, w') → after.type ≠ .PRIMARY

/-- `_update_soa` looks for the SOA recordset of a primary zone, and there is none. -/
theorem World.NoSoa.serialsStuck (h : w.NoSoa) (conf : Conf) : w.SerialsStuck conf := by
  intro ctx zone after f w' hr htype
  unfold incrementZoneSerial at hr
  obtain ⟨z, w₁, hrow, hr⟩ := bind_eq_ok.mp hr
  obtain ⟨u, w₂, hsoa, hr⟩ := bind_eq_ok.mp hr
  obtain ⟨rfl, rfl⟩ : z = after ∧ w₂ = w' := by simpa using hr
  -- the row of the zone is written before the look-up, and no recordset with it
  have hw₁ : w₁.db.recordsets = w.db.recordsets := by
    cases hz : findZone ctx zone.id w.db with
    | error e => rw [updateZoneRow_missing hz] at hrow; exact absurd hrow (by simp)
    | ok row =>
      rw [updateZoneRow_ok hz] at hrow
      exact (congrArg (fun p => p.2.db.recordsets) hrow).symm
  unfold updateSoa at hsoa
  rw [if_pos htype] at hsoa
  obtain ⟨_, w₃, hpool, hsoa⟩ := bind_eq_ok.mp hsoa
  obtain ⟨soa, w₄, hfind, -⟩ := bind_eq_ok.mp hsoa
  have hw₃ : w₁ = w₃ := congrArg Prod.snd hpool
  subst hw₃
  replace hfind := congrArg Prod.fst hfind
  unfold findRecordset at hfind
  rw [read_apply] at hfind
  cases hone : Table.one (w₁.db.recordsets.filter fun r =>
      (r.zoneId == z.id && r.type == .SOA) && ctx.sees r.tenantId && w₁.db.liveZone r.zoneId)
      Exc.RecordSetNotFound with
  | error e => rw [hone] at hfind; exact absurd hfind (by simp [Except.map])
  | ok row =>
  have hm := List.mem_singleton.mpr (rfl : row = row)
  rw [← Table.one_eq_ok.mp hone] at hm
  rcases List.mem_filter.mp hm with ⟨hin, hof⟩
  simp only [Bool.and_eq_true, beq_iff_eq] at hof
  exact h.noSoa row (hw₁ ▸ hin) hof.1.1.2

/-- From tables without an SOA recordset, no run of these operations ever makes one. -/
theorem run_noSoa (conf : Conf) (inputs : List ServiceInput) (s : Clients) (hs : s.world.NoSoa)
    (ho : ∀ input ∈ inputs, input.Ordinary) :
    (∀ t ∈ Run.transitions (Clients.serve conf) inputs s, t.before.world.NoSoa) ∧
      (Run.final (Clients.serve conf) inputs s).world.NoSoa :=
  Run.invariant (I := fun s : Clients => s.world.NoSoa)
    (G := fun (input : ServiceInput) _ => input.Ordinary) (fun _ _ h hg => serve_noSoa h hg) hs
    fun _ ht => ho _ (Run.input_mem ht)

/--
**SOA records are kept for no live primary zone.** From tables without an SOA recordset,
whatever zones are created, updated, touched and imported and whatever is done to recordsets
and records: before each step and at the end, every live primary zone has its SOA record
exactly if there is no such zone, whatever text one might want in it, and the serial of no
primary zone can be raised.
-/
theorem run_soaKept_iff (conf : Conf) (text : Zone → String) (inputs : List ServiceInput)
    (s : Clients) (hs : s.world.NoSoa) (ho : ∀ input ∈ inputs, input.Ordinary) :
    (∀ t ∈ Run.transitions (Clients.serve conf) inputs s,
      (t.before.world.SoaKept text ↔
        ∀ z ∈ t.before.world.db.zones, z.deleted = false → z.type ≠ .PRIMARY) ∧
      t.before.world.SerialsStuck conf) ∧
      ((Run.final (Clients.serve conf) inputs s).world.SoaKept text ↔
        ∀ z ∈ (Run.final (Clients.serve conf) inputs s).world.db.zones,
          z.deleted = false → z.type ≠ .PRIMARY) ∧
      (Run.final (Clients.serve conf) inputs s).world.SerialsStuck conf := by
  obtain ⟨hbefore, hfinal⟩ := run_noSoa conf inputs s hs ho
  refine ⟨?_, hfinal.soaKept_iff text, hfinal.serialsStuck conf⟩
  intro t ht
  exact ⟨(hbefore t ht).soaKept_iff text, (hbefore t ht).serialsStuck conf⟩

/-! ## At the sample -/

/-- A view, and nothing in it. -/
def Sample.fresh : Clients where
  world := { db := { views := [Sample.view] }, nextId := 2 }
  object := fun _ => none

/-- A primary zone in the view of the sample. -/
def Sample.newZone : NewZone :=
  { name := "example.org.", tenantId := none, type := .PRIMARY, ttl := none, serial := none
    viewId := some 1 }

/-- The zone is created and touched. -/
def Sample.creations : List ServiceInput :=
  [.request ⟨Sample.ctx, .createZone ZoneFaults.none (fun _ => ZoneFaults.none) Sample.newZone⟩,
    .client ⟨{ Sample.ctx with now := 100 }, .touch 2 ZoneFaults.none⟩]

theorem run_soaKept_iff_sample :
    let text : Zone → String := fun z => z.name
    let final := Run.final (Clients.serve Sample.confNs) Sample.creations Sample.fresh
    (∀ t ∈ Run.transitions (Clients.serve Sample.confNs) Sample.creations Sample.fresh,
      (t.before.world.SoaKept text ↔
        ∀ z ∈ t.before.world.db.zones, z.deleted = false → z.type ≠ .PRIMARY) ∧
      t.before.world.SerialsStuck Sample.confNs) ∧
      (final.world.SoaKept text ↔
        ∀ z ∈ final.world.db.zones, z.deleted = false → z.type ≠ .PRIMARY) ∧
      final.world.SerialsStuck Sample.confNs := by
  refine run_soaKept_iff Sample.confNs _ Sample.creations Sample.fresh
    ⟨⟨by decide, by decide, by decide, by decide, by decide, by decide, by decide, by decide⟩,
      by decide⟩ ?_
  intro input hm
  simp only [Sample.creations, List.mem_cons, List.not_mem_nil, or_false] at hm
  rcases hm with rfl | rfl <;> trivial

/-- A primary zone that was created has no SOA record, whatever its text would be. -/
theorem created_zone_without_soa :
    ¬ ∃ text : Zone → String, (Run.final (Clients.serve Sample.confNs) Sample.creations
      Sample.fresh).world.SoaKept text := by
  rintro ⟨text, h⟩
  have hnone : ∃ z ∈ (Run.final (Clients.serve Sample.confNs) Sample.creations
      Sample.fresh).world.db.zones, z.deleted = false ∧ z.type = .PRIMARY ∧
      ((Run.final (Clients.serve Sample.confNs) Sample.creations
        Sample.fresh).world.db.recordsets.filter
          fun s => s.zoneId == z.id && s.type == .SOA) = [] := by decide +kernel
  obtain ⟨z, hz, hlive, htype, hno⟩ := hnone
  obtain ⟨soa, record, hsoa, -, -⟩ := h z hz hlive htype
  rw [hno] at hsoa
  exact absurd hsoa (by simp)

end Designate
