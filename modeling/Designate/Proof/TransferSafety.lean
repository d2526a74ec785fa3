import Designate.Proof.Transfers
import Designate.Proof.Tenants
import Designate.Run

/-!
# Who may move a zone

A call looks at the tables, and changes them when it commits; what other calls commit
in between it does not see. So the calls are taken in two steps here, and the steps of
several may come in any order. A request is used once, and only against the owner it
was filed under, as long as the caller who files one is shown the request that is
active already, and calls about one zone do not overlap. What a caller is shown goes by the
target of a request, which a PATCH sets as long as there is none; one that has looked before
another was written may set it once more, and take the request out of sight again.
-/

namespace Designate

namespace Transfers

open Exec

namespace Office

variable {policy : Policy} {s s' : Office}

/-- No zone has two active requests. -/
def OneActive (s : Office) : Prop :=
  ∀ r ∈ s.store.requests, ∀ r' ∈ s.store.requests, r.status = .ACTIVE → r'.status = .ACTIVE →
    r.zoneId = r'.zoneId → r = r'

/-- The step completes an accept of `request`, with `key`. -/
def Uses (s : Office) (step : Step) (request : TransferRequest) (key : String) : Prop :=
  ∃ n faults ctx tenantId, step = .finish n faults ∧
    s.underWay[n]? = some (.accepting ctx request key tenantId) ∧
    ∃ accept, (transaction (acceptRest ctx faults request tenantId) s.store).1 = .ok accept

/-- What a call under way has seen is still so, as far as it matters. -/
def Valid (s : Office) : Pending → Prop
  | .filing ctx zoneId _ =>
    ∀ r ∈ s.store.requests, r.status = .ACTIVE → r.zoneId = zoneId → seesRequest ctx r = true
  | .accepting _ request key _ => request.id < s.store.world.nextId ∧ request.key = key ∧
    ∀ r ∈ s.store.requests, r.id = request.id →
      r.status = .ACTIVE ∧ r.zoneId = request.zoneId ∧ r.key = request.key

/-- The invariant. -/
structure Sound (s : Office) : Prop where
  zoneIds : (s.store.world.db.zones.map Zone.id).Nodup
  requestIds : (s.store.requests.map TransferRequest.id).Nodup
  below : ∀ r ∈ s.store.requests, r.id < s.store.world.nextId
  oneActive : s.OneActive
  /-- Whoever owned the zone when an active request was filed owns it still. -/
  filed : ∀ r ∈ s.store.requests, r.status = .ACTIVE →
    s.filedUnder r.id = owner r.zoneId s.store
  valid : ∀ p ∈ s.underWay, s.Valid p
  apart : (s.underWay.map Pending.zoneId).Nodup

/--
Nobody files a request without being shown the one that is active, no call starts while another
about the zone is under way, and while one is that files a request, no PATCH writes a target over
the one that the active request has.
-/
def Careful (s : Office) : Step → Prop
  | .fileCheck ctx zoneId _ => zoneId ∉ s.underWay.map Pending.zoneId ∧
    ∀ r ∈ s.store.requests, r.status = .ACTIVE → r.zoneId = zoneId → seesRequest ctx r = true
  | .acceptCheck _ requestId _ _ =>
    ∀ r ∈ s.store.requests, r.id = requestId → r.zoneId ∉ s.underWay.map Pending.zoneId
  | .patchWrite n => ∀ p ∈ s.patches[n]?, p.new.targetTenantId ≠ p.old.targetTenantId →
    ∀ r ∈ s.store.requests, r.id = p.new.id → r.status = .ACTIVE →
      some r.zoneId ∈ s.underWay.map Pending.files → r.targetTenantId = none
  | _ => True

/-! ## Steps that leave the requests active or take them away -/

theorem owner_congr {s s' : Store} (h : s'.world.db.zones = s.world.db.zones) (zoneId : Nat) :
    owner zoneId s' = owner zoneId s := by
  unfold owner
  rw [h]

/--
Requests may go, may be described otherwise, and may be given another target: but an active one, of
a zone that a request is being filed for, only if it had none.
-/
structure Quiet (filing : List (Option Nat)) (s s' : Store) : Prop where
  db : s'.world.db = s.world.db
  nextId : s.world.nextId ≤ s'.world.nextId
  ids : (s'.requests.map TransferRequest.id).Sublist (s.requests.map TransferRequest.id)
  row : ∀ r' ∈ s'.requests, ∃ r ∈ s.requests, ∃ d t,
    r' = { r with description := d, targetTenantId := t } ∧
      (r.status = .ACTIVE → some r.zoneId ∈ filing →
        t = r.targetTenantId ∨ r.targetTenantId = none)

variable {filing : List (Option Nat)}

theorem quiet_of_same {s s' : Store} (h : Store.Same s s') : Quiet filing s s' where
  db := h.db
  nextId := h.nextId
  ids := h.requests ▸ List.Sublist.refl _
  row r hr := ⟨r, h.requests ▸ hr, r.description, r.targetTenantId, rfl, fun _ _ => .inl rfl⟩

/-- Whoever is shown a request is still shown it when it gets a target for the first time. -/
theorem seesRequest_retargeted {ctx : Context} {r : TransferRequest} (d : Option String)
    {t : Option String} (h : seesRequest ctx r = true)
    (ht : t = r.targetTenantId ∨ r.targetTenantId = none) :
    seesRequest ctx { r with description := d, targetTenantId := t } = true := by
  unfold seesRequest at h ⊢
  rcases ht with rfl | hnone
  · exact h
  · -- without a target the request was shown for other reasons
    have hnot : (r.targetTenantId == some ctx.tenant) = false := by rw [hnone]; rfl
    rw [hnot, Bool.or_false] at h
    rw [h, Bool.true_or]

/-- A quiet change, while calls may end and patches may come and go. -/
theorem Sound.quiet (h : s.Sound) {store : Store} {pending : List Pending}
    {patches : List Patching} (hq : Quiet (s.underWay.map Pending.files) s.store store)
    (hp : pending.Sublist s.underWay) :
    Sound { s with store := store, underWay := pending, patches := patches } := by
  obtain ⟨hdb, hn, hids, hr⟩ := hq
  have howner : ∀ zoneId, owner zoneId store = owner zoneId s.store :=
    owner_congr (by rw [hdb])
  have hids' := h.requestIds.sublist hids
  refine ⟨hdb ▸ h.zoneIds, hids', fun r' hr' => ?_, fun r₁ h₁ r₂ h₂ ha₁ ha₂ hz => ?_,
    fun r' hr' ha => ?_, fun p hp' => ?_, h.apart.sublist (hp.map _)⟩
  · obtain ⟨r, hm, d, t, rfl, -⟩ := hr r' hr'
    exact Nat.lt_of_lt_of_le (h.below r hm) hn
  · obtain ⟨q₁, hq₁, d₁, t₁, rfl, -⟩ := hr r₁ h₁
    obtain ⟨q₂, hq₂, d₂, t₂, rfl, -⟩ := hr r₂ h₂
    have hsame := h.oneActive q₁ hq₁ q₂ hq₂ ha₁ ha₂ hz
    have hid : q₁.id = q₂.id := congrArg TransferRequest.id hsame
    exact Table.eq_of_key hids' h₁ h₂ hid
  · obtain ⟨r, hm, d, t, rfl, -⟩ := hr r' hr'
    exact (h.filed r hm ha).trans (howner r.zoneId).symm
  · have hmem := hp.subset hp'
    have hv := h.valid p hmem
    cases p with
    | filing ctx zoneId new =>
      -- the one place where it matters who is shown a request
      intro r' hr' ha hz
      obtain ⟨r, hm, d, t, rfl, ht⟩ := hr r' hr'
      have hfiles : some r.zoneId ∈ s.underWay.map Pending.files :=
        List.mem_map.mpr ⟨_, hmem, congrArg some hz.symm⟩
      exact seesRequest_retargeted d (hv r hm ha hz) (ht ha hfiles)
    | accepting ctx request key tenantId =>
      obtain ⟨hlt, hkey, hall⟩ := hv
      refine ⟨Nat.lt_of_lt_of_le hlt hn, hkey, fun r' hr' he => ?_⟩
      obtain ⟨r, hm, d, t, rfl, -⟩ := hr r' hr'
      exact hall r hm he

/-- A call starts, having seen what is so. -/
theorem Sound.started (h : s.Sound) {p : Pending} (hv : s.Valid p)
    (hp : p.zoneId ∉ s.underWay.map Pending.zoneId) :
    Sound { s with underWay := s.underWay ++ [p] } := by
  refine ⟨h.zoneIds, h.requestIds, h.below, h.oneActive, h.filed, fun q hq => ?_, ?_⟩
  · rcases List.mem_append.mp hq with hq | hq
    · exact h.valid q hq
    · rw [List.mem_singleton.mp hq]; exact hv
  · rw [List.map_append]
    refine List.nodup_append.mpr ⟨h.apart, by simp, fun a ha b hb => ?_⟩
    rw [List.map_singleton, List.mem_singleton] at hb
    rintro rfl
    exact hp (hb ▸ ha)

/-- A PATCH writes what it has changed of its request. -/
theorem updateZoneTransferRequest_quiet (ctx : Context) {old new : TransferRequest} {s : Store}
    (hcareful : new.targetTenantId ≠ old.targetTenantId → ∀ r ∈ s.requests, r.id = new.id →
      r.status = .ACTIVE → some r.zoneId ∈ filing → r.targetTenantId = none) :
    Quiet filing s (updateZoneTransferRequest policy ctx old new s).2 := by
  have hgrows : Grows (do
      Exec.raiseIf (new.zoneId ≠ old.zoneId) .InvalidOperation
      Exec.raiseIf (!policy.updateRequest ctx new) .Forbidden
      updateRequestRow ctx new.id (old.changed new)) := fun n =>
    Keeps.bind (Keeps.raiseIf _ _) fun _ => Keeps.bind (Keeps.raiseIf _ _) fun _ =>
      grows_updateRequestRow n
  unfold updateZoneTransferRequest
  rcases transaction_cases hgrows s with ⟨e, s', hrun, hsame⟩ | ⟨a, s', hrun, hbody⟩
  · rw [hrun]
    exact quiet_of_same hsame
  · rw [hrun]
    obtain ⟨-, hrest⟩ := of_raiseIf_bind hbody
    obtain ⟨-, hrow⟩ := of_raiseIf_bind hrest
    obtain ⟨-, rfl⟩ := updateRequestRow_ok hrow
    have hids : (Table.update TransferRequest.id new.id (old.changed new) s.requests).map
        TransferRequest.id = s.requests.map TransferRequest.id :=
      Table.map_update fun _ _ _ => rfl
    refine ⟨rfl, Nat.le_refl _, ?_, fun r' hr' => ?_⟩
    · rw [hids]
    · rcases Table.mem_update.mp hr' with ⟨hm, -⟩ | ⟨r₀, hm, hid, rfl⟩
      · exact ⟨r', hm, r'.description, r'.targetTenantId, rfl, fun _ _ => .inl rfl⟩
      · refine ⟨r₀, hm, _, _, rfl, fun hactive hfiling => ?_⟩
        -- the target is written only if the PATCH has changed it
        by_cases htarget : new.targetTenantId = old.targetTenantId
        · exact .inl (if_pos htarget)
        · exact .inr (hcareful htarget r₀ hm hid hactive hfiling)

theorem deleteZoneTransferRequest_quiet (ctx : Context) (id : Nat) (s : Store) :
    Quiet filing s (deleteZoneTransferRequest policy ctx id s).2 := by
  -- a deletion takes no identifier back
  have hdelete : Grows (deleteRequestRow ctx id) := by
    refine grows_quiet fun s a s' hs => ?_
    split at hs
    · exact absurd hs (by simp)
    · rw [← (Prod.mk.inj (Except.ok.inj hs)).2]
  have hgrows : Grows (do
      let request ← Exec.read (findRequest ctx id)
      Exec.raiseIf (!policy.deleteRequest ctx request) .Forbidden
      deleteRequestRow ctx id) := fun n =>
    Keeps.bind (Keeps.read _) fun _ => Keeps.bind (Keeps.raiseIf _ _) fun _ => hdelete n
  unfold deleteZoneTransferRequest
  rcases transaction_cases hgrows s with ⟨e, s', hrun, hsame⟩ | ⟨a, s', hrun, hbody⟩
  · rw [hrun]
    exact quiet_of_same hsame
  · rw [hrun]
    obtain ⟨r, -, hrest⟩ := of_read_bind hbody
    obtain ⟨-, hrow⟩ := of_raiseIf_bind hrest
    have hrow := write_eq_ok.mp hrow
    split at hrow
    · exact absurd hrow (by simp)
    · obtain ⟨-, rfl⟩ := Prod.mk.inj (Except.ok.inj hrow)
      exact ⟨rfl, Nat.le_refl _, List.Sublist.map _ List.filter_sublist,
        fun r' hr' => ⟨r', (Table.mem_remove.mp hr').1, r'.description, r'.targetTenantId, rfl,
          fun _ _ => .inl rfl⟩⟩

/-! ## Calls that commit -/

/-- The other calls under way are about other zones. -/
theorem Sound.others (h : s.Sound) {n : Nat} {p : Pending} (hn : s.underWay[n]? = some p) :
    ∀ q ∈ s.underWay.eraseIdx n, q.zoneId ≠ p.zoneId := by
  obtain ⟨hlt, rfl⟩ := List.getElem?_eq_some_iff.mp hn
  have happart := h.apart
  intro q hq he
  rw [List.eraseIdx_eq_take_drop_succ, List.mem_append] at hq
  have hsplit : s.underWay.map Pending.zoneId =
      (s.underWay.take n).map Pending.zoneId ++
        s.underWay[n].zoneId :: (s.underWay.drop (n + 1)).map Pending.zoneId := by
    rw [← List.map_cons, ← List.map_append, ← List.drop_eq_getElem_cons hlt, List.take_append_drop]
  rw [hsplit, List.nodup_append, List.nodup_cons] at happart
  obtain ⟨-, ⟨hnot, -⟩, hne⟩ := happart
  rcases hq with hq | hq
  · exact hne _ (List.mem_map_of_mem hq) _ List.mem_cons_self he
  · exact hnot (he ▸ List.mem_map_of_mem hq)

/-- What an insertion that returns has found, and has done. -/
theorem insertRequest_ok {ctx : Context} {row : Nat → TransferRequest} {r : TransferRequest}
    {s s' : Store} (h : insertRequest ctx row s = (.ok r, s')) :
    r = row s.world.nextId ∧ (∀ q, activeRequests ctx r.zoneId s ≠ [q]) ∧
      s' = { s with world := { s.world with nextId := s.world.nextId + 1 }
                    requests := s.requests ++ [r] } := by
  unfold insertRequest at h
  obtain ⟨id, s₁, hid, hwrite⟩ := bind_eq_ok.mp h
  obtain ⟨w, hw, rfl⟩ := onWorld_ok.mp hid
  obtain ⟨rfl, rfl⟩ : s.world.nextId = id ∧ { s.world with nextId := s.world.nextId + 1 } = w :=
    ⟨Except.ok.inj (congrArg Prod.fst hw), congrArg Prod.snd hw⟩
  have hwrite := write_eq_ok.mp hwrite
  split at hwrite
  · exact absurd hwrite (by simp)
  · rename_i hmany
    obtain ⟨rfl, rfl⟩ := Prod.mk.inj (Except.ok.inj hwrite)
    exact ⟨rfl, fun q hq => hmany q hq, rfl⟩

/-- A request is filed if none is active for the zone, and becomes the one that is. -/
theorem Sound.filedNow (h : s.Sound) {n : Nat} {ctx : Context} {zoneId : Nat} {new : NewRequest}
    (hn : s.underWay[n]? = some (.filing ctx zoneId new)) {row : TransferRequest} {store : Store}
    (hrun : insertRequest ctx (new.row ctx zoneId) s.store = (.ok row, store)) :
    Sound { s with
      store := store, underWay := s.underWay.eraseIdx n
      filedUnder := fun id => if id = row.id then owner zoneId store else s.filedUnder id } := by
  have hvalid := h.valid _ (List.mem_of_getElem? hn)
  obtain ⟨hrow, hmany, rfl⟩ := insertRequest_ok hrun
  -- the look-up finds the active request, if there is one
  have hnone : ∀ r ∈ s.store.requests, r.status = .ACTIVE → r.zoneId ≠ zoneId := by
    intro r hr ha hz
    have hmem : r ∈ activeRequests ctx zoneId s.store :=
      List.mem_filter.mpr ⟨hr, by simp [hz, ha, hvalid r hr ha hz]⟩
    have hall : ∀ q ∈ activeRequests ctx zoneId s.store, q = r := by
      intro q hq
      obtain ⟨hqm, hqp⟩ := List.mem_filter.mp hq
      simp only [Bool.and_eq_true, beq_iff_eq, decide_eq_true_eq] at hqp
      exact h.oneActive q hqm r hr hqp.1.2 ha (hqp.1.1.trans hz.symm)
    have hnodup : (activeRequests ctx zoneId s.store).Nodup :=
      (List.Nodup.of_map _ h.requestIds).filter _
    cases hl : activeRequests ctx zoneId s.store with
    | nil => rw [hl] at hmem; exact absurd hmem List.not_mem_nil
    | cons a l =>
      rw [hl] at hall hnodup
      obtain rfl := hall a List.mem_cons_self
      cases l with
      | nil => exact hmany a (by rw [hrow]; exact hl)
      | cons b l =>
        obtain rfl := hall b (List.mem_cons_of_mem _ List.mem_cons_self)
        exact absurd hnodup (by simp)
  have hrowId : row.id = s.store.world.nextId := by rw [hrow]; rfl
  have hrowZone : row.zoneId = zoneId := by rw [hrow]; rfl
  have hfresh : ∀ r ∈ s.store.requests, r.id ≠ row.id := fun r hr he => by
    have := h.below r hr
    omega
  refine ⟨h.zoneIds, Table.append_nodup h.requestIds hfresh, fun r hr => ?_,
    fun r₁ h₁ r₂ h₂ ha₁ ha₂ hz => ?_, fun r hr ha => ?_, fun p hp => ?_,
    h.apart.sublist ((List.eraseIdx_sublist _ _).map _)⟩
  · rcases List.mem_append.mp hr with hr | hr
    · exact Nat.lt_succ_of_lt (h.below r hr)
    · rw [List.mem_singleton.mp hr, hrowId]; exact Nat.lt_succ_self _
  · rcases List.mem_append.mp h₁ with h₁ | h₁ <;> rcases List.mem_append.mp h₂ with h₂ | h₂
    · exact h.oneActive r₁ h₁ r₂ h₂ ha₁ ha₂ hz
    · rw [List.mem_singleton.mp h₂, hrowZone] at hz
      exact absurd hz (hnone r₁ h₁ ha₁)
    · rw [List.mem_singleton.mp h₁, hrowZone] at hz
      exact absurd hz.symm (hnone r₂ h₂ ha₂)
    · rw [List.mem_singleton.mp h₁, List.mem_singleton.mp h₂]
  · dsimp only
    rcases List.mem_append.mp hr with hr | hr
    · rw [if_neg (hfresh r hr)]
      exact h.filed r hr ha
    · rw [List.mem_singleton.mp hr, if_pos rfl, hrowZone]
  · have hne := h.others hn p hp
    have hv := h.valid p ((List.eraseIdx_sublist _ _).subset hp)
    cases p with
    | filing ctx' zoneId' new' =>
      intro r hr ha hz
      rcases List.mem_append.mp hr with hr | hr
      · exact hv r hr ha hz
      · rw [List.mem_singleton.mp hr, hrowZone] at hz
        exact absurd hz.symm hne
    | accepting ctx' request key tenantId =>
      obtain ⟨hlt, hkey, hall⟩ := hv
      refine ⟨Nat.lt_succ_of_lt hlt, hkey, fun r hr he => ?_⟩
      rcases List.mem_append.mp hr with hr | hr
      · exact hall r hr he
      · rw [List.mem_singleton.mp hr, hrowId] at he
        omega

/-- An update of other zones does not change which one is found. -/
theorem find_update_other {k zoneId : Nat} {f : Zone → Zone} (hf : ∀ z, (f z).id = z.id)
    (hne : zoneId ≠ k) (l : List Zone) :
    (Table.update Zone.id k f l).find? (fun z => z.id == zoneId) =
      l.find? fun z => z.id == zoneId := by
  induction l with
  | nil => rfl
  | cons z l ih =>
    unfold Table.update at ih ⊢
    rw [List.map_cons]
    -- the row that is written has another identifier, before and after
    by_cases hk : z.id = k
    · have h₁ : ((f z).id == zoneId) = false := by
        rw [hf, hk, beq_eq_false_iff_ne]; exact fun he => hne he.symm
      have h₂ : (z.id == zoneId) = false := by
        rw [hk, beq_eq_false_iff_ne]; exact fun he => hne he.symm
      rw [if_pos hk, List.find?_cons, List.find?_cons, h₁, h₂]
      exact ih
    · rw [if_neg hk, List.find?_cons, List.find?_cons]
      cases z.id == zoneId with
      | true => rfl
      | false => exact ih

/-- An accept moves the zone of its request only. -/
theorem owner_moved {ctx : Context} {request : TransferRequest} {tenantId : String} {zone : Zone}
    {accept : TransferAccept} {s s' : Store} (hm : Moved ctx request tenantId zone accept s s')
    {zoneId : Nat} (hne : zoneId ≠ request.zoneId) : owner zoneId s' = owner zoneId s := by
  have hzones : s'.world.db.zones = Table.update Zone.id zone.id
      (fun z => { z with tenantId := some tenantId }) s.world.db.zones := by
    rw [hm.world]
    unfold movedTo
    split <;> rfl
  have hid := (findZone_mem hm.zoneFound).2.1
  unfold owner
  rw [hzones, find_update_other (f := fun z : Zone => { z with tenantId := some tenantId })
    (fun _ => rfl) (by rw [hid]; exact hne)]

/-- An accept that returns uses up the one active request of its zone. -/
theorem Sound.usedUp (h : s.Sound) {n : Nat} {ctx : Context} {request : TransferRequest}
    {key : String} {tenantId : Option String}
    (hn : s.underWay[n]? = some (.accepting ctx request key tenantId)) {zone : Zone}
    {accept : TransferAccept} {store : Store} {newTenant : String}
    (hm : Moved ctx request newTenant zone accept s.store store) :
    Sound { s with store := store, underWay := s.underWay.eraseIdx n } := by
  obtain ⟨hlt, hkey, hall⟩ := h.valid _ (List.mem_of_getElem? hn)
  obtain ⟨r₀, hr₀⟩ := hm.requestFound
  obtain ⟨hr₀m, hr₀id, -⟩ := Table.find_mem hr₀
  obtain ⟨hr₀a, hr₀z, -⟩ := hall r₀ hr₀m hr₀id
  -- what is active afterwards was active before, and is for another zone
  have hactive : ∀ r ∈ store.requests, r.status = .ACTIVE →
      r ∈ s.store.requests ∧ r.zoneId ≠ request.zoneId := by
    intro r hr ha
    rw [hm.requests] at hr
    rcases Table.mem_update.mp hr with ⟨hr, hne⟩ | ⟨q, -, -, rfl⟩
    · refine ⟨hr, fun hz => hne ?_⟩
      rw [h.oneActive r hr r₀ hr₀m ha hr₀a (hz.trans hr₀z.symm)]
      exact hr₀id
    · exact absurd ha (by simp)
  have hzones : store.world.db.zones.map Zone.id = s.store.world.db.zones.map Zone.id := by
    rw [hm.world]
    unfold movedTo
    split <;> exact Table.map_update fun _ _ _ => rfl
  have hids : store.requests.map TransferRequest.id =
      s.store.requests.map TransferRequest.id := by
    rw [hm.requests]
    exact Table.map_update fun _ _ _ => rfl
  refine ⟨hzones ▸ h.zoneIds, hids ▸ h.requestIds, fun r hr => ?_,
    fun r₁ h₁ r₂ h₂ ha₁ ha₂ hz => ?_, fun r hr ha => ?_, fun p hp => ?_,
    h.apart.sublist ((List.eraseIdx_sublist _ _).map _)⟩
  · obtain ⟨q, hq, he⟩ := mem_of_map_eq hids hr
    have := h.below q hq
    have := hm.nextId
    dsimp only
    omega
  · exact h.oneActive r₁ (hactive r₁ h₁ ha₁).1 r₂ (hactive r₂ h₂ ha₂).1 ha₁ ha₂ hz
  · obtain ⟨hr', hne⟩ := hactive r hr ha
    exact (h.filed r hr' ha).trans (owner_moved hm hne).symm
  · have hne := h.others hn p hp
    have hv := h.valid p ((List.eraseIdx_sublist _ _).subset hp)
    cases p with
    | filing ctx' zoneId' new' => exact fun r hr ha hz => hv r (hactive r hr ha).1 ha hz
    | accepting ctx' request' key' tenantId' =>
      obtain ⟨hlt', hkey', hall'⟩ := hv
      refine ⟨Nat.lt_of_lt_of_le hlt' hm.nextId, hkey', fun r hr he => ?_⟩
      rw [hm.requests] at hr
      rcases Table.mem_update.mp hr with ⟨hr, -⟩ | ⟨q, hq, hqid, rfl⟩
      · exact hall' r hr he
      · -- the request of this accept is for another zone than that of the other one
        have hq₀ : q = r₀ := Table.eq_of_key h.requestIds hq hr₀m (hqid.trans hr₀id.symm)
        have hz' := (hall' q hq he).2.1
        rw [hq₀, hr₀z] at hz'
        exact absurd hz'.symm hne

/-! ## Runs -/

theorem createRequestChecks_ok {ctx : Context} {zoneId : Nat} {zone : Zone} {s s' : Store}
    (h : createRequestChecks policy ctx zoneId s = (.ok zone, s')) : zone.id = zoneId := by
  unfold createRequestChecks at h
  obtain ⟨z, s₁, hz, h⟩ := bind_eq_ok.mp h
  obtain ⟨w, hw, -⟩ := onWorld_ok.mp hz
  obtain ⟨-, h⟩ := of_raiseIf_bind h
  obtain ⟨-, h⟩ := of_raiseIf_bind h
  obtain rfl := Except.ok.inj (congrArg Prod.fst h)
  exact (findZone_mem (congrArg Prod.fst hw)).2.1

/-- What one careful step can do. -/
inductive Outcome (s : Office) : Step → Office → Prop where
  | quiet {step : Step} {store : Store} {pending : List Pending} {patches : List Patching}
    (hq : Quiet (s.underWay.map Pending.files) s.store store) (hp : pending.Sublist s.underWay) :
    Outcome s step { s with store := store, underWay := pending, patches := patches }
  | started {step : Step} {p : Pending} (hv : s.Valid p)
    (hp : p.zoneId ∉ s.underWay.map Pending.zoneId) :
    Outcome s step { s with underWay := s.underWay ++ [p] }
  | filed {n : Nat} {faults : MoveSite → Option TransferExc} {ctx : Context} {zoneId : Nat}
    {new : NewRequest} {row : TransferRequest} {store : Store}
    (hn : s.underWay[n]? = some (.filing ctx zoneId new))
    (hrun : insertRequest ctx (new.row ctx zoneId) s.store = (.ok row, store)) :
    Outcome s (.finish n faults) { s with
      store := store, underWay := s.underWay.eraseIdx n
      filedUnder := fun id => if id = row.id then owner zoneId store else s.filedUnder id }
  | used {n : Nat} {faults : MoveSite → Option TransferExc} {ctx : Context}
    {request : TransferRequest} {key : String} {tenantId : Option String} {newTenant : String}
    {zone : Zone} {accept : TransferAccept} {store : Store}
    (hn : s.underWay[n]? = some (.accepting ctx request key tenantId))
    (hrun : (transaction (acceptRest ctx faults request tenantId) s.store).1 = .ok accept)
    (hm : Moved ctx request newTenant zone accept s.store store) :
    Outcome s (.finish n faults) { s with store := store, underWay := s.underWay.eraseIdx n }

theorem next_outcome (h : s.Sound) (step : Step) (hc : s.Careful step) :
    Outcome s step (s.next policy step) := by
  have hsame : Outcome s step s := .quiet (quiet_of_same .rfl) (List.Sublist.refl _)
  cases step with
  | fileCheck ctx zoneId new =>
    unfold Office.next
    dsimp only
    split
    · rename_i zone s' hchecks
      have hid := createRequestChecks_ok hchecks
      refine .started (p := .filing ctx zone.id new) ?_ (by rw [Pending.zoneId, hid]; exact hc.1)
      rw [hid]
      exact hc.2
    · exact hsame
  | acceptCheck ctx requestId key tenantId =>
    unfold Office.next
    dsimp only
    split
    · rename_i request s' hchecks
      -- from its check on the accept relies on the request as it was stored then
      obtain ⟨hm, hid, ha, hkey⟩ := acceptChecks_ok hchecks
      refine .started (p := .accepting ctx request key tenantId) ⟨h.below request hm, hkey, ?_⟩
        (hc request hm hid)
      intro r hr he
      obtain rfl := Table.eq_of_key h.requestIds hr hm he
      exact ⟨ha, rfl, rfl⟩
    · exact hsame
  | finish n faults =>
    unfold Office.next
    dsimp only
    split
    · exact hsame
    · rename_i ctx zoneId new hn
      rcases transaction_cases (m := insertRequest ctx (new.row ctx zoneId)) grows_insertRequest
          s.store with ⟨e, s', hrun, hsame'⟩ | ⟨row, s', hrun, hbody⟩
      · rw [hrun]
        exact .quiet (quiet_of_same hsame') (List.eraseIdx_sublist _ _)
      · rw [hrun]
        exact .filed hn hbody
    · rename_i ctx request key tenantId hn
      -- the rest of an accept takes effect as a whole or not at all
      rcases transaction_cases (m := acceptRest ctx faults request tenantId) grows_acceptRest
          s.store with ⟨e, s', hrun, hsame'⟩ | ⟨accept, s', hrun, hbody⟩
      · rw [hrun]
        exact .quiet (quiet_of_same hsame') (List.eraseIdx_sublist _ _)
      · obtain ⟨zone, hm⟩ := acceptRest_ok hbody
        have hstore : (transaction (acceptRest ctx faults request tenantId) s.store).2 = s' := by
          rw [hrun]
        rw [hstore]
        exact .used hn (by rw [hrun]) hm
  | patchLook ctx id patch =>
    unfold Office.next
    dsimp only
    split
    · exact .quiet (quiet_of_same .rfl) (List.Sublist.refl _)
    · exact hsame
  | patchWrite n =>
    unfold Office.next
    dsimp only
    split
    · exact hsame
    · rename_i p hp
      exact .quiet (updateZoneTransferRequest_quiet p.ctx (hc p hp)) (List.Sublist.refl _)
  | delete ctx id =>
    exact .quiet (deleteZoneTransferRequest_quiet ctx id s.store) (List.Sublist.refl _)

/-- **A careful step keeps the invariant.** -/
theorem Sound.next (h : s.Sound) (step : Step) (hc : s.Careful step) :
    (s.next policy step).Sound := by
  have ho : Outcome s step (s.next policy step) := next_outcome h step hc
  generalize s.next policy step = s' at ho
  cases ho with
  | quiet hq hp => exact h.quiet hq hp
  | started hv hp => exact h.started hv hp
  | filed hn hrun => exact h.filedNow hn hrun
  | used hn hrun hm => exact h.usedUp hn hm

/-! ## A request is used once -/

variable (policy) in
/-- What the step does when it completes an accept. -/
theorem Uses.moved {step : Step} {request : TransferRequest} {key : String}
    (hu : s.Uses step request key) :
    ∃ ctx tenantId newTenant zone accept,
      .accepting ctx request key tenantId ∈ s.underWay ∧
        Moved ctx request newTenant zone accept s.store (s.next policy step).store := by
  obtain ⟨n, faults, ctx, tenantId, rfl, hn, accept, hrun⟩ := hu
  have hmem := List.mem_of_getElem? hn
  refine ⟨ctx, tenantId, tenantId.getD ctx.tenant, ?_⟩
  have hnext : (s.next policy (.finish n faults)).store =
      (transaction (acceptRest ctx faults request tenantId) s.store).2 := by
    unfold Office.next
    dsimp only
    rw [hn]
  rw [hnext]
  have hbody := transaction_ok.mp
    (Prod.ext hrun rfl : transaction (acceptRest ctx faults request tenantId) s.store =
      (.ok accept, (transaction (acceptRest ctx faults request tenantId) s.store).2))
  obtain ⟨zone, hm⟩ := acceptRest_ok hbody
  exact ⟨zone, accept, hmem, hm⟩

/-- The request is no longer active, and never will be. -/
def Spent (id : Nat) (s : Office) : Prop :=
  id < s.store.world.nextId ∧ ∀ r ∈ s.store.requests, r.id = id → r.status ≠ .ACTIVE

theorem Spent.next {id : Nat} (hs : Spent id s) (h : s.Sound) (step : Step) (hc : s.Careful step) :
    Spent id (s.next policy step) := by
  obtain ⟨hlt, hspent⟩ := hs
  have ho : Outcome s step (s.next policy step) := next_outcome h step hc
  generalize s.next policy step = s' at ho
  cases ho with
  | quiet hq hp =>
    refine ⟨Nat.lt_of_lt_of_le hlt hq.nextId, fun r' hr' he => ?_⟩
    obtain ⟨r, hm, d, t, rfl, -⟩ := hq.row r' hr'
    exact hspent r hm he
  | started hv hp => exact ⟨hlt, hspent⟩
  -- a new request takes an identifier that was never handed out
  | filed hn hrun =>
    obtain ⟨hrow, -, rfl⟩ := insertRequest_ok hrun
    refine ⟨Nat.lt_succ_of_lt hlt, fun r hr he => ?_⟩
    rcases List.mem_append.mp hr with hr | hr
    · exact hspent r hr he
    · have hid : r.id = s.store.world.nextId := by rw [List.mem_singleton.mp hr, hrow]; rfl
      omega
  -- a request that is completed is active no more
  | used hn hrun hm =>
    refine ⟨Nat.lt_of_lt_of_le hlt hm.nextId, fun r hr he => ?_⟩
    rw [hm.requests] at hr
    rcases Table.mem_update.mp hr with ⟨hr, -⟩ | ⟨q, -, -, rfl⟩
    · exact hspent r hr he
    · exact fun ha => absurd ha (by simp)

variable (policy) in
/-- An accept uses an active request, filed under the owner of its zone, and spends it. -/
theorem Uses.of_sound (h : s.Sound) {step : Step} {request : TransferRequest} {key : String}
    (hu : s.Uses step request key) :
    Spent request.id (s.next policy step) ∧
      ∃ r ∈ s.store.requests, r.id = request.id ∧ r.status = .ACTIVE ∧
        r.zoneId = request.zoneId ∧ r.key = key ∧
        s.filedUnder r.id = owner r.zoneId s.store := by
  obtain ⟨ctx, tenantId, newTenant, zone, accept, hmem, hm⟩ := hu.moved policy
  obtain ⟨hlt, hkey, hall⟩ := h.valid _ hmem
  obtain ⟨r, hfind⟩ := hm.requestFound
  obtain ⟨hr, hid, -⟩ := Table.find_mem hfind
  obtain ⟨ha, hz, hk⟩ := hall r hr hid
  refine ⟨⟨Nat.lt_of_lt_of_le hlt hm.nextId, fun q hq he => ?_⟩,
    r, hr, hid, ha, hz, hk.trans hkey, h.filed r hr ha⟩
  rw [hm.requests] at hq
  rcases Table.mem_update.mp hq with ⟨-, hne⟩ | ⟨q₀, -, -, rfl⟩
  · exact absurd he hne
  · exact fun hactive => absurd hactive (by simp)

/-- Only an accept changes the owner of a zone. -/
theorem uses_of_owner_ne (h : s.Sound) {step : Step} (hc : s.Careful step) {zoneId : Nat}
    (hne : owner zoneId (s.next policy step).store ≠ owner zoneId s.store) :
    ∃ request key, s.Uses step request key ∧ request.zoneId = zoneId := by
  have ho : Outcome s step (s.next policy step) := next_outcome h step hc
  generalize s.next policy step = s' at ho hne
  cases ho with
  | quiet hq hp => exact absurd (owner_congr (by rw [hq.db]) zoneId) hne
  | started hv hp => exact absurd rfl hne
  | filed hn hrun =>
    obtain ⟨-, -, rfl⟩ := insertRequest_ok hrun
    exact absurd (owner_congr rfl zoneId) hne
  | @used n faults ctx request key tenantId newTenant zone accept store hn hrun hm =>
    refine ⟨request, key, ⟨n, faults, ctx, tenantId, rfl, hn, accept, hrun⟩, ?_⟩
    by_contra hz
    exact hne (owner_moved hm (Ne.symm hz))

/--
A zone that has changed hands did through an accept that presents the key of an active
request, filed under the owner it had.
-/
def MovesProperly (s : Office) (step : Step) (s' : Office) : Prop :=
  ∀ zoneId, owner zoneId s'.store ≠ owner zoneId s.store → ∃ request key,
    s.Uses step request key ∧ ∃ r ∈ s.store.requests, r.id = request.id ∧ r.status = .ACTIVE ∧
      r.zoneId = zoneId ∧ r.key = key ∧ s.filedUnder r.id = owner zoneId s.store

theorem movesProperly_next (h : s.Sound) {step : Step} (hc : s.Careful step) :
    s.MovesProperly step (s.next policy step) := by
  intro zoneId hne
  obtain ⟨request, key, hu, hz⟩ := uses_of_owner_ne h hc hne
  obtain ⟨-, r, hr, hid, ha, hrz, hk, hf⟩ := hu.of_sound policy h
  rw [hz] at hrz
  exact ⟨request, key, hu, r, hr, hid, ha, hrz, hk, hrz ▸ hf⟩

/-- What the tables promise about transfers, along a run. -/
structure TransfersSafe (policy : Policy) (steps : List Step) (s : Office) : Prop where
  oneActive : ∀ t ∈ Run.transitions (Office.next policy) steps s, t.before.OneActive
  oneActiveFinal : (Run.final (Office.next policy) steps s).OneActive
  moves : ∀ t ∈ Run.transitions (Office.next policy) steps s,
    t.before.MovesProperly t.input t.after
  usedOnce : (Run.transitions (Office.next policy) steps s).Pairwise fun t t' =>
    ∀ request key request' key', t.before.Uses t.input request key →
      t'.before.Uses t'.input request' key' → request.id ≠ request'.id

theorem Sound.safe (h : s.Sound) (steps : List Step)
    (guard : ∀ t ∈ Run.transitions (Office.next policy) steps s, t.before.Careful t.input) :
    TransfersSafe policy steps s := by
  have hstep : ∀ i (s : Office), s.Sound → s.Careful i → (s.next policy i).Sound :=
    fun i _ hs hc => hs.next i hc
  have hinv := Run.invariant (G := fun i s => Office.Careful s i) hstep h guard
  refine ⟨fun t ht => (hinv.1 t ht).oneActive, hinv.2.oneActive, ?_, ?_⟩
  · exact Run.forall_transitions (P := MovesProperly) hstep
      (fun i s hs hc => movesProperly_next hs hc) h guard
  · -- what an accept used stays spent, and only active requests are used
    have hlast := Run.pairwise_lasting
      (J := fun t s => ∀ (request : TransferRequest) (key : String),
        t.before.Uses t.input request key → Spent request.id s)
      hstep (fun i s hs _ request key hu => (hu.of_sound policy hs).1)
      (fun t i s hs hc hJ request key hu => (hJ request key hu).next hs i hc) h guard
    refine List.Pairwise.imp_of_mem (fun {t t'} _ ht' hJ => ?_) hlast
    intro request key request' key' hu hu' he
    obtain ⟨-, r, hr, hid, ha, -⟩ := hu'.of_sound policy (hinv.1 t' ht')
    exact (hJ request key hu).2 r hr (hid.trans he.symm) ha

/--
**Transfers are safe.** From tables without requests, along every run of which each
call that files a request is shown the one that is active, and no two calls about one
zone overlap.
-/
theorem run_transfers_safe (policy : Policy) (steps : List Step) (store : Store)
    (zoneIds : (store.world.db.zones.map Zone.id).Nodup) (empty : store.requests = [])
    (guard : ∀ t ∈ Run.transitions (Office.next policy) steps { store },
      t.before.Careful t.input) :
    TransfersSafe policy steps { store } := by
  have hnone : ∀ r, r ∉ store.requests := by
    intro r
    rw [empty]
    exact List.not_mem_nil
  refine Sound.safe (s := { store }) ⟨zoneIds, ?_, ?_, ?_, ?_, ?_, List.nodup_nil⟩ steps guard
  · dsimp only
    rw [empty]
    exact List.nodup_nil
  · exact fun r hr => absurd hr (hnone r)
  · exact fun r hr => absurd hr (hnone r)
  · exact fun r hr => absurd hr (hnone r)
  · exact fun p hp => absurd hp List.not_mem_nil

end Office

end Transfers

namespace Transfers.Sample

/-- The zone of tenant `t`, without requests. -/
def fresh : Store := { world := Designate.Sample.world }

/-- A request with the key `key`, filed under the tenant of the caller. -/
def new (key : String) : NewRequest := ⟨key, none, none, none⟩

/-- Tenant `t` files a request, gives it tenant `u` as its target, and tenant `u` accepts it. -/
def handOver : List Step :=
  [.fileCheck Designate.Sample.ctx 2 (new "A1B2C3D4"), .finish 0 fun _ => none,
    .patchLook Designate.Sample.ctx 11 { targetTenantId := some (some "u") }, .patchWrite 0,
    .acceptCheck ctx 11 "A1B2C3D4" none, .finish 0 fun _ => none]

/-- An administrator, who is shown the zones of all tenants. -/
def admin : Context := { tenant := "admin", allTenants := true }

/-- An administrator files a request under their own tenant, and then tenant `t` files another. -/
def fileTwice : List Step :=
  [.fileCheck admin 2 (new "A1B2C3D4"), .finish 0 fun _ => none,
    .fileCheck Designate.Sample.ctx 2 (new "E5F6G7H8"), .finish 0 fun _ => none]

end Transfers.Sample

namespace Transfers

namespace Office

instance (s : Office) : DecidablePred s.Careful
  | .fileCheck ctx zoneId _ => inferInstanceAs (Decidable (zoneId ∉ s.underWay.map Pending.zoneId ∧
      ∀ r ∈ s.store.requests, r.status = .ACTIVE → r.zoneId = zoneId → seesRequest ctx r = true))
  | .acceptCheck _ requestId _ _ => inferInstanceAs (Decidable
      (∀ r ∈ s.store.requests, r.id = requestId → r.zoneId ∉ s.underWay.map Pending.zoneId))
  | .patchWrite n => inferInstanceAs (Decidable (∀ p ∈ s.patches[n]?,
      p.new.targetTenantId ≠ p.old.targetTenantId → ∀ r ∈ s.store.requests, r.id = p.new.id →
        r.status = .ACTIVE → some r.zoneId ∈ s.underWay.map Pending.files →
          r.targetTenantId = none))
  | .finish .. | .patchLook .. | .delete .. => inferInstanceAs (Decidable True)

theorem run_transfers_safe_sample :
    TransfersSafe Sample.policy Sample.handOver { store := Sample.fresh } ∧
      owner 2 (Run.final (Office.next Sample.policy) Sample.handOver
        { store := Sample.fresh }).store = some (some "u") :=
  ⟨run_transfers_safe Sample.policy Sample.handOver Sample.fresh (by decide) rfl
    (by decide +kernel), by decide +kernel⟩

/-- The look-up for the active request shows tenant `t` nothing of what others filed. -/
theorem two_active :
    ¬ ∀ (policy : Policy) (steps : List Step) (store : Store),
      (store.world.db.zones.map Zone.id).Nodup → store.requests = [] →
      TransfersSafe policy steps { store } := by
  intro hsafe
  have h := (hsafe Sample.policy Sample.fileTwice Sample.fresh (by decide) rfl).oneActiveFinal
  have hsame := h ((Sample.new "A1B2C3D4").row Sample.admin 2 11) (by decide +kernel)
    ((Sample.new "E5F6G7H8").row Designate.Sample.ctx 2 12) (by decide +kernel) rfl rfl rfl
  exact absurd hsame (by decide)

end Office

end Transfers

end Designate
