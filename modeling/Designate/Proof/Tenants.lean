import Designate.Proof.Reachable
import Designate.Proof.Transfers

/-!
# A zone and everything in it have one tenant

The tenant of a zone is copied into its recordsets and records. New rows take it from
the zone or from the recordset they go into; a transfer changes it in all three tables
in one transaction; nothing else changes it at all.
-/

namespace Designate

open Exec Transfers

/-- Something that happens to a deployment. -/
inductive Event where
  /-- A request of the zone and recordset APIs, or a message. -/
  | request (input : Input)
  | createTransferRequest (ctx : Context) (zoneId : Nat) (request : NewRequest)
  | patchTransferRequest (ctx : Context) (id : Nat) (patch : RequestPatch)
  | deleteTransferRequest (ctx : Context) (id : Nat)
  | createTransferAccept (ctx : Context) (faults : Nat → MoveSite → Option TransferExc)
    (requestId : Nat) (key : String) (tenantId : Option String)

/-- What an event makes of the tables, also when it raises. -/
def Event.run (policy : Policy) (conf : Conf) : Event → Store → Store
  | .request input, s => { s with world := serve conf input s.world }
  | .createTransferRequest ctx zoneId new, s =>
    (createZoneTransferRequest policy ctx zoneId new s).2
  | .patchTransferRequest ctx id patch, s => (patchRequest policy ctx id patch s).2
  | .deleteTransferRequest ctx id, s => (deleteZoneTransferRequest policy ctx id s).2
  | .createTransferAccept ctx faults requestId key tenantId, s =>
    (createZoneTransferAccept policy ctx faults requestId key tenantId s).2

/-- The tenant of every recordset and of every record is that of its zone. -/
structure World.OneTenant (w : World) : Prop where
  recordsets : ∀ z ∈ w.db.zones, ∀ s ∈ w.db.recordsets, s.zoneId = z.id → s.tenantId = z.tenantId
  records : ∀ z ∈ w.db.zones, ∀ r ∈ w.db.records, r.zoneId = z.id → r.tenantId = z.tenantId

variable {policy : Policy} {conf : Conf} {ctx : Context} {w : World} {s s' : Store}

/-- The links say so. -/
theorem World.Linked.oneTenant (h : w.Linked) : w.OneTenant := by
  have hsets : ∀ z ∈ w.db.zones, ∀ s ∈ w.db.recordsets, s.zoneId = z.id →
      s.tenantId = z.tenantId := by
    intro z hz s hs he
    obtain ⟨z', hz', hid, hten⟩ := h.zone s hs
    rw [← hten, Table.eq_of_key h.zoneIds hz' hz (hid.trans he)]
  refine ⟨hsets, fun z hz r hr he => ?_⟩
  obtain ⟨s, hs, -, hzone, hten⟩ := h.recordset r hr
  rw [← hten]
  exact hsets z hz s hs (hzone.trans he)

/-! ## The transfer -/

/-- Moving a zone to the tenant it has changes nothing. -/
theorem movedTo_same {zone : Zone} (h : w.Linked) (hz : zone ∈ w.db.zones) :
    movedTo zone zone.tenantId w.db = w.db := by
  unfold movedTo
  rw [if_neg (not_not_intro rfl)]
  unfold Db.zoneChanged
  rw [Table.update_id fun z hz' hid => ?_]
  rw [Table.eq_of_key h.zoneIds hz' hz hid]

/-- **Moving a zone with everything in it keeps the links.** -/
theorem World.Linked.movedTo (h : w.Linked) {zone : Zone} (hz : zone ∈ w.db.zones)
    (tenantId : Option String) : (w.withDb (movedTo zone tenantId w.db)).Linked := by
  by_cases hsame : zone.tenantId = tenantId
  · subst hsame
    rw [movedTo_same h hz]
    exact h
  have hdb : Transfers.movedTo zone tenantId w.db =
      { w.db with
        zones := Table.update Zone.id zone.id (fun z => { z with tenantId := tenantId }) w.db.zones
        recordsets := Table.update RecordSetRow.zoneId zone.id
          (fun r => { r with tenantId := tenantId }) w.db.recordsets
        records := Table.update RecordRow.zoneId zone.id
          (fun r => { r with tenantId := tenantId }) w.db.records } := by
    unfold Transfers.movedTo
    rw [if_pos hsame]
    rfl
  rw [hdb]
  have hzids : (Table.update Zone.id zone.id (fun z => { z with tenantId := tenantId })
      w.db.zones).map Zone.id = w.db.zones.map Zone.id := Table.map_update fun _ _ _ => rfl
  have hsids : (Table.update RecordSetRow.zoneId zone.id (fun r => { r with tenantId := tenantId })
      w.db.recordsets).map RecordSetRow.id = w.db.recordsets.map RecordSetRow.id :=
    Table.map_update fun _ _ _ => rfl
  have hrids : (Table.update RecordRow.zoneId zone.id (fun r => { r with tenantId := tenantId })
      w.db.records).map RecordRow.id = w.db.records.map RecordRow.id :=
    Table.map_update fun _ _ _ => rfl
  refine ⟨hzids ▸ h.zoneIds, hsids ▸ h.recordsetIds, hrids ▸ h.recordIds, fun z hm => ?_,
    fun s hm => ?_, fun r hm => ?_, fun r hm => ?_, fun s hm => ?_⟩
  · obtain ⟨z₀, hz₀, he⟩ := mem_of_map_eq hzids hm
    exact he ▸ h.zones z₀ hz₀
  · obtain ⟨s₀, hs₀, he⟩ := mem_of_map_eq hsids hm
    exact he ▸ h.recordsets s₀ hs₀
  · obtain ⟨r₀, hr₀, he⟩ := mem_of_map_eq hrids hm
    exact he ▸ h.records r₀ hr₀
  · -- a record and its recordset are in one zone, so that both are moved or neither is
    rcases Table.mem_update.mp hm with ⟨hm, hne⟩ | ⟨r₀, hr₀, hk, rfl⟩
    · obtain ⟨s, hs, hid, hzone, hten⟩ := h.recordset r hm
      exact ⟨s, Table.mem_update.mpr (Or.inl ⟨hs, fun he => hne (hzone.symm.trans he)⟩), hid, hzone,
        hten⟩
    · obtain ⟨s, hs, hid, hzone, -⟩ := h.recordset r₀ hr₀
      exact ⟨{ s with tenantId := tenantId },
        Table.mem_update.mpr (Or.inr ⟨s, hs, hzone.trans hk, rfl⟩), hid, hzone, rfl⟩
  · rcases Table.mem_update.mp hm with ⟨hm, hne⟩ | ⟨s₀, hs₀, hk, rfl⟩
    · obtain ⟨z, hz', hid, hten⟩ := h.zone s hm
      exact ⟨z, Table.mem_update.mpr (Or.inl ⟨hz', fun he => hne (hid.symm.trans he)⟩), hid, hten⟩
    · obtain ⟨z, hz', hid, -⟩ := h.zone s₀ hs₀
      exact ⟨{ z with tenantId := tenantId },
        Table.mem_update.mpr (Or.inr ⟨z, hz', hid.trans hk, rfl⟩), hid, rfl⟩

/-- Links are in the tables; more identifiers do them no harm. -/
theorem World.Linked.of_db {w' : World} (h : w.Linked) (hdb : w'.db = w.db)
    (hn : w.nextId ≤ w'.nextId) : w'.Linked := by
  refine h.of_places ?_ ?_ ?_ hn
  · rw [hdb]
  · rw [hdb]
  · rw [hdb]

theorem Transfers.Moved.linked {request : TransferRequest} {tenantId : String} {zone : Zone}
    {accept : TransferAccept} (ha : Moved ctx request tenantId zone accept s s')
    (h : s.world.Linked) : s'.world.Linked :=
  (h.movedTo (findZone_mem ha.zoneFound).1 (some tenantId)).of_db ha.world ha.nextId

theorem createZoneTransferAccept_linked (faults : Nat → MoveSite → Option TransferExc)
    (requestId : Nat) (key : String) (tenantId : Option String) (h : s.world.Linked) :
    (createZoneTransferAccept policy ctx faults requestId key tenantId s).2.world.Linked := by
  obtain ⟨k, s₁, hsame, hends⟩ :=
    @createZoneTransferAccept_ends policy ctx faults requestId key tenantId s
  rw [hends]
  have h₁ : s₁.world.Linked := h.of_db hsame.db hsame.nextId
  cases hrun : Transfers.transaction (acceptOnce policy ctx (faults k) requestId key tenantId) s₁ with
  | mk r s₂ =>
    cases r with
    | error e =>
      have hsame₂ := transaction_error grows_acceptOnce hrun
      exact h₁.of_db hsame₂.db hsame₂.nextId
    | ok accept =>
      obtain ⟨request, s₃, hchecks, hrest⟩ := bind_eq_ok.mp (transaction_ok.mp hrun)
      obtain rfl : s₁ = s₃ := by
        have hstate := @acceptChecks_state policy ctx requestId key s₁
        rw [hchecks] at hstate
        exact hstate.symm
      obtain ⟨zone, ha⟩ := acceptRest_ok hrest
      exact ha.linked h₁

/-! ## The other transfer calls -/

/-- The tables of zones are those of `db`, and identifiers only grow. -/
def Untouched (db : Db) (n : Nat) (s : Store) : Prop := s.world.db = db ∧ n ≤ s.world.nextId

variable {db : Db} {n : Nat}

theorem untouched_read {α : Type} {f : World → Except Exc α} :
    Keeps (Untouched db n) (Transfers.onWorld (Exec.read f)) := fun _ hs => hs

theorem untouched_write {α : Type} {f : Store → Except TransferExc (α × Store)}
    (hf : ∀ s a s', f s = .ok (a, s') → s'.world = s.world) :
    Keeps (Untouched db n) (Exec.write f) := by
  refine Keeps.write fun s a s' hs h => ?_
  unfold Untouched
  rw [hf s a s' h]
  exact hs

theorem untouched_transaction {α : Type} {m : TransferCall α}
    (hm : Keeps (Untouched db n) m) : Keeps (Untouched db n) (Transfers.transaction m) :=
  Keeps.rollback hm fun _ _ hs hs' => ⟨hs.1, hs'.2⟩

theorem untouched_createZoneTransferRequest {zoneId : Nat} {request : NewRequest} :
    Keeps (Untouched db n) (createZoneTransferRequest policy ctx zoneId request) := by
  refine untouched_transaction (Keeps.bind (Keeps.bind untouched_read fun _ => ?_) fun zone => ?_)
  · exact Keeps.bind (Keeps.raiseIf _ _) fun _ => Keeps.bind (Keeps.raiseIf _ _) fun _ =>
      Keeps.pure _
  · refine Keeps.bind (fun s hs => ⟨hs.1, Nat.le_succ_of_le hs.2⟩) fun id => ?_
    refine untouched_write fun s a s' h => ?_
    split at h
    · exact absurd h (by simp)
    · rw [← (Prod.mk.inj (Except.ok.inj h)).2]

theorem untouched_updateZoneTransferRequest {old new : TransferRequest} :
    Keeps (Untouched db n) (updateZoneTransferRequest policy ctx old new) := by
  refine untouched_transaction (Keeps.bind (Keeps.raiseIf _ _) fun _ => ?_)
  refine Keeps.bind (Keeps.raiseIf _ _) fun _ => untouched_write fun s a s' h => ?_
  split at h
  · exact absurd h (by simp)
  · rw [← (Prod.mk.inj (Except.ok.inj h)).2]

theorem untouched_patchRequest {id : Nat} {patch : RequestPatch} :
    Keeps (Untouched db n) (patchRequest policy ctx id patch) := by
  refine Keeps.bind ?_ fun looked => untouched_updateZoneTransferRequest
  refine Keeps.bind (Keeps.bind (Keeps.read _) fun _ => ?_) fun _ => ?_
  · exact Keeps.bind (Keeps.raiseIf _ _) fun _ => Keeps.pure _
  · exact Keeps.bind (Keeps.read _) fun _ => Keeps.pure _

theorem untouched_deleteZoneTransferRequest {id : Nat} :
    Keeps (Untouched db n) (deleteZoneTransferRequest policy ctx id) := by
  refine untouched_transaction (Keeps.bind (Keeps.read _) fun _ => ?_)
  refine Keeps.bind (Keeps.raiseIf _ _) fun _ => untouched_write fun s a s' h => ?_
  split at h
  · exact absurd h (by simp)
  · rw [← (Prod.mk.inj (Except.ok.inj h)).2]

/-! ## Runs -/

/-- **Every event keeps the links.** -/
theorem event_linked (e : Event) (h : s.world.Linked) : (e.run policy conf s).world.Linked := by
  have huntouched : ∀ {α : Type} {m : TransferCall α},
      Keeps (Untouched s.world.db s.world.nextId) m → (m s).2.world.Linked := by
    intro α m hm
    obtain ⟨hdb, hn⟩ := hm s ⟨rfl, Nat.le_refl _⟩
    exact h.of_db hdb hn
  cases e with
  | request input => exact serve_linked conf input h
  | createTransferRequest ctx zoneId new => exact huntouched untouched_createZoneTransferRequest
  | patchTransferRequest ctx id patch => exact huntouched untouched_patchRequest
  | deleteTransferRequest ctx id => exact huntouched untouched_deleteZoneTransferRequest
  | createTransferAccept ctx faults requestId key tenantId =>
    exact createZoneTransferAccept_linked faults requestId key tenantId h

/--
**However requests, messages and transfers follow each other, and whatever fails inside
them, the tenant of every recordset and record stays that of its zone.**
-/
theorem run_oneTenant (policy : Policy) (conf : Conf) (events : List Event) (s : Store)
    (h : s.world.Linked) :
    (∀ t ∈ Run.transitions (Event.run policy conf) events s, t.before.world.OneTenant) ∧
      (Run.final (Event.run policy conf) events s).world.OneTenant := by
  have hrun : (∀ t ∈ Run.transitions (Event.run policy conf) events s, t.before.world.Linked) ∧
      (Run.final (Event.run policy conf) events s).world.Linked :=
    Run.invariant (I := fun s : Store => s.world.Linked) (G := fun _ _ => True)
      (fun e _ h _ => event_linked e h) h fun _ _ => trivial
  exact ⟨fun t ht => (hrun.1 t ht).oneTenant, hrun.2.oneTenant⟩

/-- Tenant `t` offers its zone, now to `u` only, it goes to tenant `u`, and `u` adds a record. -/
theorem run_oneTenant_sample :
    (Run.final (Event.run Transfers.Sample.policy Sample.conf)
      [.createTransferRequest Sample.ctx 2 ⟨"A1B2C3D4", none, none, none⟩,
        .patchTransferRequest Sample.ctx 11 { targetTenantId := some (some "u") },
        .createTransferAccept Transfers.Sample.ctx Transfers.Sample.noFaults 11 "A1B2C3D4" none,
        .request ⟨Transfers.Sample.ctx, .createRecord Faults.none 2 3 "192.0.2.8"⟩]
      ⟨Sample.world, [], []⟩).world.OneTenant :=
  (run_oneTenant _ _ _ _ sample_linked).2

end Designate
