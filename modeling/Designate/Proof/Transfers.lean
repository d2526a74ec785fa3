import Designate.Central.Transfers
import Designate.Proof.Steady
import Designate.Sample

/-!
# What an accepted transfer does

A call that raises leaves the tables as they were, whatever it had written by then: its
handlers write inside the transaction that is rolled back. A call that returns has
moved the zone with everything in it and has used its request up.
-/

namespace Designate

namespace Transfers

open Exec

variable {policy : Policy} {ctx : Context} {s s' : Store}

/-- The tables are the same; identifiers may have been handed out. -/
structure Store.Same (s s' : Store) : Prop where
  db : s'.world.db = s.world.db
  requests : s'.requests = s.requests
  accepts : s'.accepts = s.accepts
  nextId : s.world.nextId ≤ s'.world.nextId

theorem Store.Same.rfl : Store.Same s s := ⟨Eq.refl _, Eq.refl _, Eq.refl _, Nat.le_refl _⟩

theorem Store.Same.trans {s₁ s₂ s₃ : Store} (h : Store.Same s₁ s₂) (h' : Store.Same s₂ s₃) :
    Store.Same s₁ s₃ :=
  ⟨h'.db.trans h.db, h'.requests.trans h.requests, h'.accepts.trans h.accepts,
    Nat.le_trans h.nextId h'.nextId⟩

/-! ## Calls only hand identifiers out -/

/-- Identifiers only grow, whatever comes of the call. -/
def Grows {α : Type} (m : TransferCall α) : Prop := ∀ n, Keeps (fun s => n ≤ s.world.nextId) m

theorem grows_onWorld {α : Type} {m : Call α}
    (hm : ∀ n, Keeps (fun w : World => n ≤ w.nextId) m) : Grows (onWorld m) :=
  fun n s hs => hm n s.world hs

theorem grows_quiet {α : Type} {f : Store → Except TransferExc (α × Store)}
    (hf : ∀ s a s', f s = .ok (a, s') → s'.world = s.world) : Grows (Exec.write f) := by
  refine fun n => Keeps.write fun s a s' hs h => ?_
  rw [hf s a s' h]
  exact hs

theorem grows_updateAcceptRow {id : Nat} {f : TransferAccept → TransferAccept} :
    Grows (updateAcceptRow ctx id f) := by
  refine grows_quiet fun s a s' h => ?_
  split at h
  · exact absurd h (by simp)
  · rw [← (Prod.mk.inj (Except.ok.inj h)).2]

theorem grows_updateRequestRow {id : Nat} {f : TransferRequest → TransferRequest} :
    Grows (updateRequestRow ctx id f) := by
  refine grows_quiet fun s a s' h => ?_
  split at h
  · exact absurd h (by simp)
  · rw [← (Prod.mk.inj (Except.ok.inj h)).2]

theorem grows_generateUuid : Grows (onWorld generateUuid) := by
  refine grows_onWorld fun n => Keeps.write fun w a w' hw h => ?_
  rw [← (Prod.mk.inj (Except.ok.inj h)).2]
  exact Nat.le_succ_of_le hw

theorem grows_mayRaise {e : Option TransferExc} : Grows (mayRaise e) := by
  intro n s hs
  cases e <;> exact hs

theorem grows_moveZone {faults : MoveSite → Option TransferExc} {zone : Zone}
    {tenantId : Option String} : Grows (moveZone ctx faults zone tenantId) := by
  intro n
  refine Keeps.bind (grows_mayRaise n) fun _ => Keeps.bind (grows_onWorld (fun n => ?_) n) fun _ =>
    Keeps.bind (grows_mayRaise n) fun _ => Keeps.ite (fun _ => ?_) fun _ => Keeps.pure _
  · exact Keeps.bind (Keeps.read _) fun _ => Keeps.bind (Keeps.modify fun _ h => h) fun _ =>
      Keeps.pure _
  · exact grows_onWorld (fun n => Keeps.modify fun _ h => h) n

theorem grows_acceptRest {faults : MoveSite → Option TransferExc} {request : TransferRequest}
    {tenantId : Option String} : Grows (acceptRest ctx faults request tenantId) := by
  intro n
  have hinsert : Keeps (fun s : Store => n ≤ s.world.nextId) (insertAccept fun id =>
      ⟨id, request.zoneId, request.id, tenantId.getD ctx.tenant, .ACTIVE⟩) :=
    Keeps.bind (grows_generateUuid n) fun id => grows_quiet (fun s a s' h => by
      rw [← (Prod.mk.inj (Except.ok.inj h)).2]) n
  refine Keeps.bind hinsert fun accept => Keeps.bind (Keeps.onError ?_ (grows_updateAcceptRow n))
    fun _ => Keeps.bind (grows_updateAcceptRow n) fun _ =>
      Keeps.bind (grows_updateRequestRow n) fun _ => Keeps.pure _
  exact Keeps.bind (grows_onWorld (fun n => Keeps.read _) n) fun _ =>
    Keeps.bind (Keeps.raiseIf _ _) fun _ => grows_moveZone n

theorem grows_insertRequest {row : Nat → TransferRequest} : Grows (insertRequest ctx row) := by
  refine fun n => Keeps.bind (grows_generateUuid n) fun id => grows_quiet (fun s a s' h => ?_) n
  split at h
  · exact absurd h (by simp)
  · rw [← (Prod.mk.inj (Except.ok.inj h)).2]

/-! ## Transactions -/

/-- A transaction that raises leaves the tables as they were. -/
theorem transaction_error {α : Type} {m : TransferCall α} {e : TransferExc} (hm : Grows m)
    (h : transaction m s = (.error e, s')) : Store.Same s s' := by
  have hgrows := hm s.world.nextId s (Nat.le_refl _)
  unfold transaction Exec.rollback at h
  split at h
  · exact absurd (congrArg Prod.fst h) (by simp)
  · rename_i e' s₁ hrun
    rw [hrun] at hgrows
    obtain rfl := congrArg Prod.snd h
    exact ⟨rfl, rfl, rfl, hgrows⟩

theorem transaction_ok {α : Type} {m : TransferCall α} {a : α} :
    transaction m s = (.ok a, s') ↔ m s = (.ok a, s') := by
  unfold transaction Exec.rollback
  cases m s with
  | mk r s₁ => cases r <;> simp

/-- A transaction returns what its body does, or leaves the tables as they were. -/
theorem transaction_cases {α : Type} {m : TransferCall α} (hm : Grows m) (s : Store) :
    (∃ e s', transaction m s = (.error e, s') ∧ Store.Same s s') ∨
      ∃ a s', transaction m s = (.ok a, s') ∧ m s = (.ok a, s') := by
  cases hrun : transaction m s with
  | mk r s' =>
    cases r with
    | error e => exact Or.inl ⟨e, s', rfl, transaction_error hm hrun⟩
    | ok a => exact Or.inr ⟨a, s', rfl, transaction_ok.mp hrun⟩

/--
**A call that is made again after a deadlock ends as one of its attempts does**, which
finds the tables as they were at the start.
-/
theorem retry_ends {α : Type} {n : Nat} {m : Nat → TransferCall α}
    (hm : ∀ k s e s', m k s = (.error e, s') → Store.Same s s') (s : Store) :
    ∃ k s₁, Store.Same s s₁ ∧ retry n m s = m k s₁ := by
  induction n generalizing m s with
  | zero => exact ⟨0, s, .rfl, rfl⟩
  | succ n ih =>
    unfold retry
    cases hrun : m 0 s with
    | mk r s' =>
      cases r with
      | ok a => exact ⟨0, s, .rfl, hrun.symm⟩
      | error e =>
        have hsame := hm 0 s e s' hrun
        by_cases hdead : e = .DBDeadlock
        · subst hdead
          dsimp only
          by_cases hn : n = 0
          · rw [if_pos hn]; exact ⟨0, s, .rfl, hrun.symm⟩
          · rw [if_neg hn]
            obtain ⟨k, s₁, hs₁, hk⟩ := ih (fun k => hm (k + 1)) s'
            exact ⟨k + 1, s₁, hsame.trans hs₁, hk⟩
        · refine ⟨0, s, .rfl, ?_⟩
          rw [hrun]
          cases e <;> first | rfl | exact absurd rfl hdead

theorem acceptChecks_state (requestId : Nat) (key : String) (s : Store) :
    (acceptChecks policy ctx requestId key s).2 = s := by
  have h : Keeps (· = s) (acceptChecks policy ctx requestId key) :=
    Keeps.bind (Keeps.bind (Keeps.read _) fun _ => Keeps.bind (Keeps.raiseIf _ _) fun _ =>
      Keeps.pure _) fun _ => Keeps.bind (Keeps.raiseIf _ _) fun _ =>
      Keeps.bind (Keeps.raiseIf _ _) fun _ => Keeps.bind (Keeps.raiseIf _ _) fun _ =>
      Keeps.bind (Keeps.raiseIf _ _) fun _ => Keeps.pure _
  exact h s rfl

/-- One attempt of an accept. -/
def acceptOnce (policy : Policy) (ctx : Context) (faults : MoveSite → Option TransferExc)
    (requestId : Nat) (key : String) (tenantId : Option String) : TransferCall TransferAccept := do
  let request ← acceptChecks policy ctx requestId key
  acceptRest ctx faults request tenantId

theorem grows_acceptOnce {faults : MoveSite → Option TransferExc} {requestId : Nat} {key : String}
    {tenantId : Option String} :
    Grows (acceptOnce policy ctx faults requestId key tenantId) := by
  refine fun n => Keeps.bind (fun s hs => ?_) fun request => grows_acceptRest n
  rw [acceptChecks_state]
  exact hs

/-- **An accept ends as one of its attempts does, which finds the tables as they were.** -/
theorem createZoneTransferAccept_ends (faults : Nat → MoveSite → Option TransferExc)
    (requestId : Nat) (key : String) (tenantId : Option String) (s : Store) :
    ∃ k s₁, Store.Same s s₁ ∧
      createZoneTransferAccept policy ctx faults requestId key tenantId s =
        transaction (acceptOnce policy ctx (faults k) requestId key tenantId) s₁ :=
  retry_ends (m := fun k => transaction (acceptOnce policy ctx (faults k) requestId key tenantId))
    (fun _ _ _ _ h => transaction_error grows_acceptOnce h) s

/-- **An accept that raises leaves the tables as they were.** -/
theorem createZoneTransferAccept_error {faults : Nat → MoveSite → Option TransferExc}
    {requestId : Nat} {key : String} {tenantId : Option String} {e : TransferExc}
    (h : createZoneTransferAccept policy ctx faults requestId key tenantId s = (.error e, s')) :
    Store.Same s s' := by
  obtain ⟨k, s₁, hsame, hends⟩ := createZoneTransferAccept_ends 
    faults requestId key tenantId s
  rw [hends] at h
  exact hsame.trans (transaction_error grows_acceptOnce h)

/-! ## What a successful accept leaves -/

theorem onWorld_ok {α : Type} {m : Call α} {a : α} :
    onWorld m s = (.ok a, s') ↔ ∃ w, m s.world = (.ok a, w) ∧ s' = { s with world := w } := by
  unfold onWorld
  cases hm : m s.world with
  | mk r w =>
    cases r with
    | error e => simp [Except.mapError]
    | ok b => simp [Except.mapError, eq_comm]

theorem of_mayRaise_bind {α : Type} {e : Option TransferExc} {f : Unit → TransferCall α} {a : α}
    (h : (mayRaise e >>= f) s = (.ok a, s')) : f () s = (.ok a, s') := by
  cases e with
  | none => exact h
  | some e => exact absurd (congrArg Prod.fst h) (by simp [bind_apply, mayRaise])

/-- The tables with a zone, and everything in it, of another tenant. -/
def movedTo (zone : Zone) (tenantId : Option String) (db : Db) : Db :=
  let db := db.zoneChanged zone.id fun z => { z with tenantId := tenantId }
  if zone.tenantId ≠ tenantId then
    { db with
      recordsets := Table.update RecordSetRow.zoneId zone.id
        (fun r => { r with tenantId := tenantId }) db.recordsets
      records := Table.update RecordRow.zoneId zone.id
        (fun r => { r with tenantId := tenantId }) db.records }
  else db

theorem moveZone_ok {faults : MoveSite → Option TransferExc} {zone : Zone}
    {tenantId : Option String} (h : moveZone ctx faults zone tenantId s = (.ok (), s')) :
    s' = { s with world := s.world.withDb (movedTo zone tenantId s.world.db) } := by
  have hrow := of_mayRaise_bind h
  obtain ⟨z, s₁, h₁, hrest⟩ := bind_eq_ok.mp hrow
  obtain ⟨w, hw, rfl⟩ := onWorld_ok.mp h₁
  have hw : w = s.world.withDb (s.world.db.zoneChanged zone.id
      fun z => { z with tenantId := tenantId }) := by
    cases hz : findZone ctx zone.id s.world.db with
    | error e => rw [updateZoneRow_missing hz] at hw; exact absurd (congrArg Prod.fst hw) (by simp)
    | ok z' => rw [updateZoneRow_ok hz] at hw; exact (congrArg Prod.snd hw).symm
  have hcontents := of_mayRaise_bind hrest
  unfold movedTo
  by_cases hten : zone.tenantId ≠ tenantId
  · rw [if_pos hten] at hcontents ⊢
    obtain ⟨w', hdb, rfl⟩ := onWorld_ok.mp hcontents
    rw [← (Prod.mk.inj hdb).2, hw]
    rfl
  · rw [if_neg hten] at hcontents ⊢
    rw [← (Prod.mk.inj hcontents).2, hw]

/-- What an accepted transfer leaves. -/
structure Moved (ctx : Context) (request : TransferRequest) (tenantId : String) (zone : Zone)
    (accept : TransferAccept) (s s' : Store) : Prop where
  zoneFound : findZone ctx.elevated request.zoneId s.world.db = .ok zone
  notDeleting : zone.action ≠ .DELETE
  requestFound : ∃ r, Table.find TransferRequest.id request.id
    (fun r => ctx.elevated.sees (some r.tenantId)) TransferExc.ZoneTransferRequestNotFound
    s.requests = .ok r
  world : s'.world.db = movedTo zone (some tenantId) s.world.db
  nextId : s.world.nextId ≤ s'.world.nextId
  requests : s'.requests = Table.update TransferRequest.id request.id
    (fun r => { r with status := .COMPLETE }) s.requests
  accepts : s'.accepts = Table.update TransferAccept.id accept.id
    (fun a => { a with status := .COMPLETE }) (s.accepts ++ [{ accept with status := .ACTIVE }])
  accept : accept.requestId = request.id ∧ accept.status = .COMPLETE

theorem updateAcceptRow_ok {id : Nat} {f : TransferAccept → TransferAccept}
    (h : updateAcceptRow ctx id f s = (.ok (), s')) :
    s' = { s with accepts := Table.update TransferAccept.id id f s.accepts } := by
  have h := write_eq_ok.mp h
  split at h
  · exact absurd h (by simp)
  · exact (Prod.mk.inj (Except.ok.inj h)).2.symm

theorem updateRequestRow_ok {id : Nat} {f : TransferRequest → TransferRequest}
    (h : updateRequestRow ctx id f s = (.ok (), s')) :
    (∃ r, Table.find TransferRequest.id id (fun r => ctx.sees (some r.tenantId))
      TransferExc.ZoneTransferRequestNotFound s.requests = .ok r) ∧
    s' = { s with requests := Table.update TransferRequest.id id f s.requests } := by
  have h := write_eq_ok.mp h
  split at h
  · exact absurd h (by simp)
  · rename_i r hr
    exact ⟨⟨r, hr⟩, (Prod.mk.inj (Except.ok.inj h)).2.symm⟩

theorem onError_ok {σ ε α : Type} {m : Exec σ ε α} {h : Exec σ ε Unit} {s s' : σ} {a : α}
    (hrun : Exec.onError m h s = (.ok a, s')) : m s = (.ok a, s') := by
  unfold Exec.onError at hrun
  cases hm : m s with
  | mk r s₁ =>
    rw [hm] at hrun
    cases r with
    | ok b => exact hrun
    | error e =>
      dsimp only at hrun
      cases hh : h s₁ with
      | mk r' s₂ =>
        rw [hh] at hrun
        cases r' <;> exact absurd (congrArg Prod.fst hrun) (by simp)

/-- **An accept that returns has moved the zone and used its request up.** -/
theorem acceptRest_ok {faults : MoveSite → Option TransferExc} {request : TransferRequest}
    {tenantId : Option String} {accept : TransferAccept}
    (h : acceptRest ctx faults request tenantId s = (.ok accept, s')) :
    ∃ zone, Moved ctx request (tenantId.getD ctx.tenant) zone accept s s' := by
  unfold acceptRest at h
  obtain ⟨a, s₁, hinsert, h⟩ := bind_eq_ok.mp h
  have hinserted : a = ⟨s.world.nextId, request.zoneId, request.id, tenantId.getD ctx.tenant, .ACTIVE⟩ ∧
      s₁ = { s with world := { s.world with nextId := s.world.nextId + 1 }
                    accepts := s.accepts ++ [a] } := by
    unfold insertAccept at hinsert
    obtain ⟨id, s₀, hid, hrow⟩ := bind_eq_ok.mp hinsert
    obtain ⟨w, hw, rfl⟩ := onWorld_ok.mp hid
    obtain ⟨rfl, rfl⟩ : id = s.world.nextId ∧ w = { s.world with nextId := s.world.nextId + 1 } :=
      ⟨(Except.ok.inj (congrArg Prod.fst hw)).symm, (congrArg Prod.snd hw).symm⟩
    obtain ⟨rfl, rfl⟩ := Prod.mk.inj (Except.ok.inj (write_eq_ok.mp hrow))
    exact ⟨rfl, rfl⟩
  obtain ⟨ha, rfl⟩ := hinserted
  obtain ⟨⟨⟩, s₂, hmove, h⟩ := bind_eq_ok.mp h
  obtain ⟨⟨⟩, s₃, haccept, h⟩ := bind_eq_ok.mp h
  obtain ⟨⟨⟩, s₄, hrequest, h⟩ := bind_eq_ok.mp h
  obtain ⟨rfl, rfl⟩ : { a with status := .COMPLETE } = accept ∧ s₄ = s' :=
    ⟨Except.ok.inj (congrArg Prod.fst h), congrArg Prod.snd h⟩
  -- the `try` block
  have hmove := onError_ok hmove
  unfold acceptMove at hmove
  obtain ⟨zone, s₅, hzone, hmove⟩ := bind_eq_ok.mp hmove
  obtain ⟨w, hfound, rfl⟩ := onWorld_ok.mp hzone
  obtain ⟨hz, rfl⟩ := Prod.mk.inj hfound
  obtain ⟨hdel, hmove⟩ := of_raiseIf_bind hmove
  have hs₂ := moveZone_ok hmove
  have hs₃ := updateAcceptRow_ok haccept
  obtain ⟨hr, hs₄⟩ := updateRequestRow_ok hrequest
  subst ha
  refine ⟨zone, hz, by simpa using hdel, ?_, ?_, ?_, ?_, ?_, rfl, rfl⟩
  · rw [hs₃, hs₂] at hr; exact hr
  · rw [hs₄, hs₃, hs₂]; rfl
  · rw [hs₄, hs₃, hs₂]; exact Nat.le_succ _
  · rw [hs₄, hs₃, hs₂]
  · rw [hs₄, hs₃, hs₂]

/-- What the checks have found. -/
theorem acceptChecks_ok {requestId : Nat} {key : String} {request : TransferRequest}
    (h : acceptChecks policy ctx requestId key s = (.ok request, s')) :
    request ∈ s.requests ∧ request.id = requestId ∧ request.status = .ACTIVE ∧
      request.key = key := by
  unfold acceptChecks getZoneTransferRequest at h
  obtain ⟨r, s₁, hget, h⟩ := bind_eq_ok.mp h
  obtain ⟨r', hfind, hget⟩ := of_read_bind hget
  obtain ⟨-, hget⟩ := of_raiseIf_bind hget
  obtain ⟨rfl, rfl⟩ : r' = r ∧ s = s₁ :=
    ⟨Except.ok.inj (congrArg Prod.fst hget), congrArg Prod.snd hget⟩
  obtain ⟨-, h⟩ := of_raiseIf_bind h
  obtain ⟨hactive, h⟩ := of_raiseIf_bind h
  obtain ⟨hkey, h⟩ := of_raiseIf_bind h
  obtain ⟨-, h⟩ := of_raiseIf_bind h
  obtain rfl := Except.ok.inj (congrArg Prod.fst h)
  obtain ⟨hm, hid, -⟩ := Table.find_mem hfind
  exact ⟨hm, hid, by simpa using hactive, by simpa using hkey⟩

/-! ## A transfer that fails -/

/-- The failure of an accept is on record, and nothing else has happened. -/
structure FailureRecorded (requestId : Nat) (s s' : Store) : Prop where
  accept : ∃ a ∈ s'.accepts, a ∉ s.accepts ∧ a.requestId = requestId ∧ a.status = .ERROR
  zones : s'.world.db.zones = s.world.db.zones
  recordsets : s'.world.db.recordsets = s.world.db.recordsets
  records : s'.world.db.records = s.world.db.records
  request : ∃ r ∈ s'.requests, r.id = requestId ∧ r.status = .ACTIVE

/--
**No accept that raises leaves a row behind**: the row of the accept goes in the
roll-back, and with it the status the handler gave it.
-/
theorem failed_accept_not_recorded (policy : Policy) (ctx : Context)
    (faults : Nat → MoveSite → Option TransferExc) (requestId : Nat) (key : String)
    (tenantId : Option String) (s s' : Store) (e : TransferExc)
    (h : createZoneTransferAccept policy ctx faults requestId key tenantId s = (.error e, s')) :
    ¬ FailureRecorded requestId s s' := by
  rintro ⟨⟨a, ha, hnew, -⟩, -⟩
  rw [(createZoneTransferAccept_error h).accepts] at ha
  exact hnew ha

end Transfers

namespace Transfers.Sample

/-- Everybody may do everything. -/
def policy : Policy :=
  ⟨fun _ _ => true, fun _ _ => true, fun _ _ => true, fun _ _ => true, fun _ _ => true⟩

/-- Tenant `u` accepts. -/
def ctx : Context := { tenant := "u" }

def request : TransferRequest :=
  { id := 11, zoneId := 2, key := "A1B2C3D4", description := none, tenantId := "t"
    targetTenantId := none, status := .ACTIVE }

/-- A request for a zone that is being deleted by now. -/
def deleting : Store where
  world := { Designate.Sample.world with
    nextId := 12
    db := { Designate.Sample.world.db with
      zones := [{ Designate.Sample.zone with action := .DELETE, status := .PENDING }] } }
  requests := [request]

/-- No statement fails of itself. -/
def noFaults : Nat → MoveSite → Option TransferExc := fun _ _ => none

theorem raises_of_isNone {α : Type} {o : Except TransferExc α × Store}
    (h : o.1.toOption.isNone = true) : ∃ e s, o = (.error e, s) := by
  obtain ⟨r, s⟩ := o
  cases r with
  | error e => exact ⟨e, s, rfl⟩
  | ok a => exact absurd h (by simp [Except.toOption])

end Transfers.Sample

namespace Transfers

theorem failed_accept_not_recorded_sample : ∃ e s',
    createZoneTransferAccept Sample.policy Sample.ctx Sample.noFaults 11 "A1B2C3D4" none
      Sample.deleting = (.error e, s') ∧ ¬ FailureRecorded 11 Sample.deleting s' := by
  obtain ⟨e, s', h⟩ := Sample.raises_of_isNone
    (o := createZoneTransferAccept Sample.policy Sample.ctx Sample.noFaults 11 "A1B2C3D4" none
      Sample.deleting) (by decide +kernel)
  exact ⟨e, s', h, failed_accept_not_recorded _ _ _ _ _ _ _ _ e h⟩

/-- The transfer of a zone that is being deleted raises, and the accept leaves no row. -/
theorem failed_accept_lost :
    ¬ ∀ (policy : Policy) (ctx : Context) (faults : Nat → MoveSite → Option TransferExc)
      (requestId : Nat) (key : String) (tenantId : Option String) (s s' : Store)
      (request : TransferRequest) (e : TransferExc),
      acceptChecks policy ctx requestId key s = (.ok request, s) →
      createZoneTransferAccept policy ctx faults requestId key tenantId s = (.error e, s') →
      FailureRecorded requestId s s' := by
  intro h
  obtain ⟨e, s', hraise⟩ := Sample.raises_of_isNone
    (o := createZoneTransferAccept Sample.policy Sample.ctx Sample.noFaults 11 "A1B2C3D4" none
      Sample.deleting) (by decide +kernel)
  obtain ⟨a, ha, -⟩ := (h Sample.policy Sample.ctx Sample.noFaults 11 "A1B2C3D4" none
    Sample.deleting s' Sample.request e rfl hraise).accept
  rw [(createZoneTransferAccept_error hraise).accepts] at ha
  exact absurd ha List.not_mem_nil

end Transfers

end Designate
