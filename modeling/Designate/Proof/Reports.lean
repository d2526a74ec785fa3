import Designate.PoolManager.Reports
import Designate.Proof.Consensus
import Mathlib.Data.List.TakeWhile
import Mathlib.Logic.Relation

/-!
# What reports in any order come to

Whatever a pool manager does is a few kinds of moves: it takes down a report or an answer,
clears an entry, or tells central something. Under one key a move only raises the serial, as
long as the entry is not started anew. So what stood behind a consensus stands behind it
later as well, and the next consensus is no lower.
-/

namespace Designate

namespace PoolManager

variable {ε : Type} {pool : Pool} {threshold : Nat} {P : Parties ε} {Q : ZoneView → Message → Prop}

/-! ## Moves -/

/-- What is kept once a report is taken down. -/
def recorded (r : Report) (kept : Option Entry) : Entry :=
  let current := kept.getD ⟨none, 0⟩
  if r.actualSerial.getD 0 ≠ 0 ∧ current.serialNumber ≤ r.actualSerial.getD 0 then
    ⟨some r.status, r.actualSerial.getD 0⟩
  else current

/-- One thing a pool manager does. Of a zone it only tells central what `Q` allows. -/
inductive Move (Q : ZoneView → Message → Prop) : Outside ε → Outside ε → Prop where
  | call (w : Outside ε) (rest : ε) : Move Q w { w with rest }
  | answer (w : Outside ε) (r : Report) (rest : ε) (hmiss : w.kept r.key = none) :
    Move Q w
      { kept := Function.update w.kept r.answerKey (some r.object.entry)
        log := w.log ++ [.answered r], rest }
  | record (w : Outside ε) (r : Report) :
    Move Q w
      { w with
        kept := Function.update w.kept r.key (some (recorded r (w.kept r.key)))
        log := w.log ++ [.reported r] }
  | clear (w : Outside ε) (key : Key) : Move Q w (w.without key)
  | tell (w : Outside ε) (zone : ZoneView) (m : Message) (rest : ε) (hm : Q zone m) :
    Move Q w { w with log := w.log ++ [.told zone m], rest }

/-- From `w` on, the pool manager has only made moves. -/
abbrev Moved (Q : ZoneView → Message → Prop) (w : Outside ε) (m : Manager (Outside ε)) : Prop :=
  Relation.ReflTransGen (Move Q) w m.outside

variable (pool threshold P) in
/-- How a status is retrieved: it is kept, or the nameserver is asked. -/
theorem retrieveStatus_cases (z zone : ZoneView) (nameserver : Nameserver)
    (w : Manager (Outside ε)) :
    (∃ e, w.outside.kept ⟨nameserver.id, zone.id, actionOf zone⟩ = some e ∧
      retrieveStatus (service pool threshold P z) zone (actionOf zone) nameserver w =
        (.ok (some (e.load ⟨nameserver.id, zone.id, actionOf zone⟩)), w)) ∨
    w.outside.kept ⟨nameserver.id, zone.id, actionOf zone⟩ = none ∧
      ((∃ e rest result, P.getSerialNumber zone nameserver w.outside.rest = (.error e, rest) ∧
        (∀ o, result ≠ .ok (some o)) ∧
        retrieveStatus (service pool threshold P z) zone (actionOf zone) nameserver w =
          (result, { w with outside := { w.outside with rest } })) ∨
      ∃ r : Report, ∃ rest, r.zone = zone ∧ r.nameserver = nameserver ∧
        P.getSerialNumber zone nameserver w.outside.rest =
          (.ok (r.status, r.actualSerial), rest) ∧
        retrieveStatus (service pool threshold P z) zone (actionOf zone) nameserver w =
          (.ok (some r.object), { w with outside :=
            { kept := Function.update w.outside.kept r.answerKey (some r.object.entry)
              log := w.outside.log ++ [.answered r], rest } })) := by
  cases hkept : w.outside.kept ⟨nameserver.id, zone.id, actionOf zone⟩ with
  | some e =>
    -- it is kept
    refine .inl ⟨e, rfl, ?_⟩
    simp [retrieveStatus, Exec.catching, Exec.bind_apply, call, service, Outside.retrieve, hkept]
  | none =>
    refine .inr ⟨rfl, ?_⟩
    -- it is not, so mDNS is asked for it
    have hmiss : retrieveStatus (service pool threshold P z) zone (actionOf zone) nameserver w =
        retrieveFromMdns (service pool threshold P z) nameserver zone (actionOf zone) w := by
      simp [retrieveStatus, Exec.catching, Exec.bind_apply, call, service, Outside.retrieve, hkept]
    rw [hmiss]
    cases hpoll : P.getSerialNumber zone nameserver w.outside.rest with
    | mk result rest =>
      cases result with
      | ok answer =>
        obtain ⟨status, actualSerial⟩ := answer
        refine .inr ⟨⟨zone, nameserver, status, actualSerial⟩, rest, rfl, rfl, rfl, ?_⟩
        simp [retrieveFromMdns, Exec.catching, Exec.bind_apply, call, service, Outside.poll, hpoll,
          Outside.store]
        exact ⟨rfl, rfl⟩
      | error e =>
        refine .inl ?_
        -- a timeout is caught and gives nothing; what else is raised goes through
        by_cases he : e = .MessagingException
        · subst he
          refine ⟨_, rest, .ok none, rfl, by simp, ?_⟩
          simp [retrieveFromMdns, Exec.catching, Exec.bind_apply, call, service, Outside.poll,
            hpoll]
        · refine ⟨e, rest, .error e, rfl, by simp, ?_⟩
          simp [retrieveFromMdns, Exec.catching, Exec.bind_apply, call, service, Outside.poll,
            hpoll, he]

theorem keeps_retrieveStatus_moved (w : Outside ε) (z zone : ZoneView) (nameserver : Nameserver) :
    Exec.Keeps (Moved Q w)
      (retrieveStatus (service pool threshold P z) zone (actionOf zone) nameserver) := by
  intro m hm
  rcases retrieveStatus_cases pool threshold P z zone nameserver m with
     ⟨e, _, hrun⟩ | ⟨hmiss, ⟨_, rest, result, _, _, hrun⟩ | ⟨r, rest, rfl, rfl, _, hrun⟩⟩
  · rw [hrun]; exact hm
  · rw [hrun]; exact hm.tail (.call _ rest)
  · rw [hrun]; exact hm.tail (.answer _ r rest hmiss)

theorem keeps_tell_moved (w : Outside ε) (zone : ZoneView) {m : Message} (hm : Q zone m) :
    Exec.Keeps (Moved Q w) (tell (service pool threshold P zone) m) := by
  intro v hv
  exact hv.tail (.tell _ zone m _ hm)

theorem keeps_clear_moved (w : Outside ε) (zone : ZoneView) (o : PoolManagerStatus) :
    Exec.Keeps (Moved Q w) (call ((service pool threshold P zone).clear o)) := by
  intro v hv
  exact hv.tail (.clear _ o.key)

/-- The status object of a report is the one that is kept, or a new one. -/
theorem current_run (r : Report) (w : Manager (Outside ε)) :
    Exec.catching (· == Fault.PoolManagerStatusNotFound)
        (call ((service pool threshold P r.zone).retrieve r.nameserver.id r.zone.id
          (actionOf r.zone)))
        (call ((service pool threshold P r.zone).store
          (buildStatusObject r.nameserver r.zone (actionOf r.zone)))) w =
      (.ok (((w.outside.kept r.key).getD ⟨none, 0⟩).load r.key), { w with outside :=
        { w.outside with
          kept := Function.update w.outside.kept r.key
            (some ((w.outside.kept r.key).getD ⟨none, 0⟩)) } }) := by
  cases hkept : w.outside.kept ⟨r.nameserver.id, r.zone.id, actionOf r.zone⟩ with
  -- nothing is stored then, which is the same as storing what is there
  | some e =>
    have hsame := Function.update_eq_self
      (⟨r.nameserver.id, r.zone.id, actionOf r.zone⟩ : Key) w.outside.kept
    rw [hkept] at hsame
    simp [Exec.catching, call, service, Outside.retrieve, Report.key, hkept, hsame]
  | none =>
    simp [Exec.catching, call, service, Outside.retrieve, Report.key, hkept]
    exact ⟨rfl, rfl⟩

/-- The report is taken down. -/
def Outside.taken (w : Outside ε) (r : Report) : Outside ε :=
  { w with
    kept := Function.update w.kept r.key (some (recorded r (w.kept r.key)))
    log := w.log ++ [.reported r] }

variable (pool threshold P) in
/-- A report is taken down, and the serial that was kept is remembered. -/
theorem record_run (r : Report) (w : Manager (Outside ε)) :
    recordStatus (service pool threshold P r.zone) r.zone r.nameserver r.status r.actualSerial
        { w with outside := { w.outside with log := w.outside.log ++ [.reported r] } } =
      (.ok ((w.outside.kept.serial r.key).getD 0), { w with outside := w.outside.taken r }) := by
  have hserial : (w.outside.kept.serial r.key).getD 0 =
      ((w.outside.kept r.key).getD ⟨none, 0⟩).serialNumber := by
    unfold Kept.serial
    cases w.outside.kept r.key <;> rfl
  unfold recordStatus Outside.taken
  rw [Exec.bind_apply, current_run, hserial]
  unfold recorded
  generalize (w.outside.kept r.key).getD ⟨none, 0⟩ = current
  -- a serial of none or 0 is no news, and a lower one is not kept
  cases hactual : r.actualSerial with
  | none => rfl
  | some actual =>
    cases actual with
    | zero => rfl
    | succ n =>
      by_cases hle : current.serialNumber ≤ n + 1
      · simp [Entry.load, hle, Exec.bind_apply, call, service, Outside.store,
          PoolManagerStatus.key, PoolManagerStatus.entry]
      · simp [Entry.load, hle]

/-! ## What moves come to -/

/-- The greatest of a serial, if there is one, and others. -/
def raised (serial : Option Nat) (serials : List Nat) : Option Nat :=
  (serial.toList ++ serials).max?

theorem raised_nil (serial : Option Nat) : raised serial [] = serial := by
  cases serial <;> rfl

theorem raised_append (serial : Option Nat) (l l' : List Nat) :
    raised (raised serial l) l' = raised serial (l ++ l') := by
  unfold raised
  rw [← List.append_assoc]
  generalize serial.toList ++ l = all
  cases all with
  | nil => rfl
  | cons s all =>
    rw [List.cons_append, List.max?_cons', List.max?_cons', Option.toList_some,
      List.singleton_append, List.max?_cons', List.foldl_append]

theorem le_raised (serial : Option Nat) (l : List Nat) :
    serial.getD 0 ≤ (raised serial l).getD 0 := by
  cases serial with
  | none => exact Nat.zero_le _
  | some s =>
    cases hmax : raised (some s) l with
    | none => simp [raised] at hmax
    | some greatest => exact (List.max?_eq_some_iff.mp hmax).2 s (by simp)

theorem recorded_serial (r : Report) (kept : Option Entry) :
    some (recorded r kept).serialNumber =
      raised (kept.map Entry.serialNumber) [r.actualSerial.getD 0] := by
  have hmax : (recorded r kept).serialNumber =
      max ((kept.map Entry.serialNumber).getD 0) (r.actualSerial.getD 0) := by
    have hcurrent : (kept.getD ⟨none, 0⟩).serialNumber = (kept.map Entry.serialNumber).getD 0 := by
      cases kept <;> rfl
    unfold recorded
    rw [← hcurrent]
    dsimp only
    split
    · next h => exact (Nat.max_eq_right h.2).symm
    · next h => exact (Nat.max_eq_left (by omega)).symm
  rw [hmax]
  cases kept with
  | none => simp [raised]
  | some current => rfl

/-- An event that has nothing to tell for a key. -/
theorem raised_of_none {key : Key} {e : Event} (h : e.serial key = none) (serial : Option Nat) :
    raised serial ([e].filterMap (Event.serial key)) = serial := by
  rw [List.filterMap_cons_none h, List.filterMap_nil, raised_nil]

theorem raised_of_some {key : Key} {e : Event} {s : Nat} (h : e.serial key = some s)
    (serial : Option Nat) :
    raised serial ([e].filterMap (Event.serial key)) = raised serial [s] := by
  rw [List.filterMap_cons_some h, List.filterMap_nil]

/-- What has become of an outside since `w`, with the news in the log. -/
structure Since (Q : ZoneView → Message → Prop) (w w' : Outside ε) (news : List Event) : Prop where
  log : w'.log = w.log ++ news
  told : ∀ zone m, .told zone m ∈ news → Q zone m
  serial : ∀ key, (∀ e ∈ news, e.restarts key = false) →
    w'.kept.serial key = raised (w.kept.serial key) (news.filterMap (Event.serial key))

theorem Since.refl (w : Outside ε) : Since Q w w [] where
  log := (List.append_nil _).symm
  told _ _ h := absurd h List.not_mem_nil
  serial _ _ := (raised_nil _).symm

theorem Since.trans {w w' w'' : Outside ε} {news more : List Event} (h : Since Q w w' news)
    (h' : Since Q w' w'' more) : Since Q w w'' (news ++ more) where
  log := by rw [h'.log, h.log, List.append_assoc]
  told zone m hm := (List.mem_append.mp hm).elim (h.told zone m) (h'.told zone m)
  serial key hquiet := by
    rw [h'.serial key fun e he => hquiet e (List.mem_append_right _ he),
      h.serial key fun e he => hquiet e (List.mem_append_left _ he), raised_append,
      List.filterMap_append]

theorem Kept.serial_update_ne (kept : Kept) {key key' : Key} (h : key' ≠ key)
    (entry : Option Entry) :
    Kept.serial (Function.update kept key' entry) key = kept.serial key := by
  unfold Kept.serial
  rw [Function.update_of_ne h.symm]

theorem Kept.serial_update (kept : Kept) (key : Key) (entry : Option Entry) :
    Kept.serial (Function.update kept key entry) key = entry.map Entry.serialNumber := by
  unfold Kept.serial
  rw [Function.update_self]

/-- A move puts one event in the log at most, and the event says what the move did. -/
theorem since_move {w w' : Outside ε} (h : Move Q w w') : ∃ news, Since Q w w' news := by
  cases h with
  | call rest => exact ⟨[], (List.append_nil _).symm, by simp, fun key _ => (raised_nil _).symm⟩
  | answer r rest hmiss =>
    refine ⟨[.answered r], rfl, by simp, ?_⟩
    intro key hquiet
    by_cases hkey : r.answerKey = key
    · -- the answer was asked for under the key it is kept under, of which nothing was kept
      have hasked : r.key = key := by simpa [Event.restarts, hkey] using hquiet
      have hnone : w.kept.serial key = none := by
        rw [← hasked, Kept.serial, hmiss, Option.map_none]
      rw [raised_of_some (show (Event.answered r).serial key = some _ from if_pos hkey), hnone,
        ← hkey, Kept.serial_update]
      rfl
    · rw [raised_of_none (show (Event.answered r).serial key = none from if_neg hkey)]
      exact Kept.serial_update_ne _ hkey _
  | record r =>
    refine ⟨[.reported r], rfl, by simp, ?_⟩
    intro key _
    by_cases hkey : r.key = key
    · rw [raised_of_some (show (Event.reported r).serial key = some _ from if_pos hkey), ← hkey,
        Kept.serial_update]
      exact recorded_serial r _
    · rw [raised_of_none (show (Event.reported r).serial key = none from if_neg hkey)]
      exact Kept.serial_update_ne _ hkey _
  | clear cleared =>
    refine ⟨[.cleared cleared], rfl, by simp, ?_⟩
    intro key hquiet
    have hkey : cleared ≠ key := by simpa [Event.restarts] using hquiet
    rw [raised_of_none rfl]
    exact Kept.serial_update_ne _ hkey _
  | tell zone m rest hm =>
    refine ⟨[.told zone m], rfl, by simpa using hm, ?_⟩
    intro key _
    exact (raised_of_none rfl _).symm

theorem since_moves {w w' : Outside ε} (h : Relation.ReflTransGen (Move Q) w w') :
    ∃ news, Since Q w w' news := by
  induction h with
  | refl => exact ⟨[], Since.refl _⟩
  | tail _ hmove ih =>
    obtain ⟨news, hnews⟩ := ih
    obtain ⟨more, hmore⟩ := since_move hmove
    exact ⟨news ++ more, hnews.trans hmore⟩

/-! ## What stands behind a serial -/

/-- Only the answer of a zone that an update misses is kept elsewhere than it was looked for. -/
theorem answerKey_cases (r : Report) :
    r.answerKey = r.key ∨ r.key.action = .UPDATE ∧ r.answerKey = { r.key with action := .CREATE } := by
  unfold Report.answerKey Report.object answered Report.key
  by_cases hmissing : r.status = .NO_ZONE
  · cases haction : actionOf r.zone <;> simp [hmissing, buildStatusObject, PoolManagerStatus.key]
  · simp [hmissing, buildStatusObject, PoolManagerStatus.key]

theorem answerKey_zone (r : Report) : r.answerKey.zoneId = r.zone.id := by
  rcases answerKey_cases r with h | ⟨_, h⟩
  · rw [h]; rfl
  · rw [h]; rfl

section Quiet

variable {zoneId : String} {action : Action} {w w' : Outside ε} {news : List Event}

theorem restarts_of_quiet {e : Event} (h : e.breaks zoneId action = false) (nameserverId : String) :
    e.restarts ⟨nameserverId, zoneId, action⟩ = false := by
  cases e with
  | reported r => rfl
  | told zone m => rfl
  | cleared k =>
    refine beq_eq_false_iff_ne.mpr ?_
    rintro rfl
    simp [Event.breaks] at h
  | answered r =>
    rw [Event.restarts, Bool.and_eq_false_iff]
    by_cases hkey : r.answerKey = ⟨nameserverId, zoneId, action⟩
    · right
      have hzone : r.zone.id = zoneId := (answerKey_zone r).symm.trans (congrArg Key.zoneId hkey)
      have hasked : ⟨nameserverId, zoneId, action⟩ = r.key := by
        simpa [Event.breaks, hzone, hkey] using h
      simp [hasked]
    · exact .inl (beq_eq_false_iff_ne.mpr hkey)

/-- Without a break, no serial of the zone and action gets lower. -/
theorem Since.grows (h : Since Q w w' news) (hquiet : ∀ e ∈ news, e.breaks zoneId action = false)
    (nameserverId : String) :
    (w.kept.serial ⟨nameserverId, zoneId, action⟩).getD 0 ≤
      (w'.kept.serial ⟨nameserverId, zoneId, action⟩).getD 0 := by
  rw [h.serial _ fun e he => restarts_of_quiet (hquiet e he) nameserverId]
  exact le_raised _ _

/-- How many of the nameservers are kept with this serial or a later one. -/
def holding (kept : Kept) (zoneId : String) (action : Action) (nameservers : List Nameserver)
    (serial : Nat) : Nat :=
  nameservers.countP fun n => decide (serial ≤ (kept.serial ⟨n.id, zoneId, action⟩).getD 0)

theorem holding_cons (kept : Kept) (n : Nameserver) (ns : List Nameserver) (serial : Nat) :
    holding kept zoneId action (n :: ns) serial = holding kept zoneId action ns serial +
      if serial ≤ (kept.serial ⟨n.id, zoneId, action⟩).getD 0 then 1 else 0 := by
  simp [holding, List.countP_cons]

theorem Since.holding_le (h : Since Q w w' news)
    (hquiet : ∀ e ∈ news, e.breaks zoneId action = false) (ns : List Nameserver) (serial : Nat) :
    holding w.kept zoneId action ns serial ≤ holding w'.kept zoneId action ns serial := by
  refine List.countP_mono_left ?_
  intro n _ hn
  have := h.grows hquiet n.id
  simp only [decide_eq_true_eq] at hn ⊢
  omega

end Quiet

/-- A retrieved serial lies between what was kept before and what is kept afterwards. -/
theorem retrieveStatus_between {z zone : ZoneView} {nameserver : Nameserver}
    {m m' : Manager (Outside ε)} {status : Option PoolManagerStatus}
    (h : retrieveStatus (service pool threshold P z) zone (actionOf zone) nameserver m =
      (.ok status, m')) :
    ∃ news, Since Q m.outside m'.outside news ∧
      ((∀ e ∈ news, e.breaks zone.id (actionOf zone) = false) →
        (m.outside.kept.serial ⟨nameserver.id, zone.id, actionOf zone⟩).getD 0 ≤
            (status.map PoolManagerStatus.serialNumber).getD 0 ∧
          (status.map PoolManagerStatus.serialNumber).getD 0 ≤
            (m'.outside.kept.serial ⟨nameserver.id, zone.id, actionOf zone⟩).getD 0) := by
  rcases retrieveStatus_cases pool threshold P z zone nameserver m with
    ⟨e, hkept, hrun⟩ |
      ⟨hmiss, ⟨_, rest, result, _, hresult, hrun⟩ | ⟨r, rest, rfl, rfl, _, hrun⟩⟩
  · rw [hrun] at h
    cases h
    refine ⟨[], Since.refl _, ?_⟩
    intro _
    rw [Kept.serial, hkept]
    exact ⟨Nat.le_refl _, Nat.le_refl _⟩
  · rw [hrun] at h
    cases h
    obtain ⟨news, hnews⟩ := since_move (Move.call (Q := Q) m.outside rest)
    refine ⟨news, hnews, ?_⟩
    intro _
    cases status with
    | some o => exact absurd rfl (hresult o)
    | none =>
      rw [Kept.serial, hmiss]
      exact ⟨Nat.le_refl _, Nat.zero_le _⟩
  · rw [hrun] at h
    cases h
    obtain ⟨news, hnews⟩ := since_move (Move.answer (Q := Q) m.outside r rest hmiss)
    refine ⟨news, hnews, ?_⟩
    intro hquiet
    obtain rfl : [.answered r] = news := List.append_cancel_left hnews.log
    have hbreaks := hquiet (.answered r) List.mem_cons_self
    rw [Kept.serial, show m.outside.kept _ = none from hmiss]
    refine ⟨Nat.zero_le _, ?_⟩
    show r.actualSerial.getD 0 ≤
      (Kept.serial (Function.update m.outside.kept r.answerKey (some r.object.entry)) r.key).getD 0
    by_cases hkey : r.answerKey = r.key
    · rw [hkey, Kept.serial_update]
      exact Nat.le_refl _
    · -- an answer that is kept elsewhere than it was looked for has no serial
      have hnone : r.answerKey.action ≠ actionOf r.zone ∧ r.actualSerial.getD 0 = 0 := by
        simpa [Event.breaks, hkey, show r.key.action = actionOf r.zone from rfl] using hbreaks
      rw [hnone.2]
      exact Nat.zero_le _

theorem support_serials_cons (status : Option PoolManagerStatus)
    (statuses : List PoolManagerStatus) {serial : Nat} (hserial : 0 < serial) :
    Quorum.support (serials (status.toList ++ statuses)) serial =
      Quorum.support (serials statuses) serial +
        if serial ≤ (status.map PoolManagerStatus.serialNumber).getD 0 then 1 else 0 := by
  cases status with
  | none =>
    have : ¬ serial ≤ 0 := by omega
    simp [this]
  | some o => simp [serials, Quorum.support, List.countP_cons]

/--
**Who is retrieved with a serial stood behind it before, or stands behind it afterwards.** By
induction on the nameservers, without a break in between.
-/
theorem retrieveStatusesOf_between {z zone : ZoneView} {nameservers : List Nameserver} :
    ∀ {m m' : Manager (Outside ε)} {statuses : List PoolManagerStatus},
      retrieveStatusesOf (service pool threshold P z) zone (actionOf zone) nameservers m =
        (.ok statuses, m') →
      ∃ news, Since Q m.outside m'.outside news ∧
        ((∀ e ∈ news, e.breaks zone.id (actionOf zone) = false) → ∀ serial, 0 < serial →
          holding m.outside.kept zone.id (actionOf zone) nameservers serial ≤
              Quorum.support (serials statuses) serial ∧
            Quorum.support (serials statuses) serial ≤
              holding m'.outside.kept zone.id (actionOf zone) nameservers serial) := by
  induction nameservers with
  | nil =>
    intro m m' statuses h
    cases h
    exact ⟨[], Since.refl _, fun _ serial _ => ⟨Nat.le_refl _, Nat.le_refl _⟩⟩
  | cons nameserver nameservers ih =>
    intro m m' statuses h
    unfold retrieveStatusesOf at h
    obtain ⟨status, m₁, hone, h⟩ := Exec.bind_eq_ok.mp h
    obtain ⟨rest, m₂, hrest, h⟩ := Exec.bind_eq_ok.mp h
    cases h
    obtain ⟨news, hnews, hbetween⟩ := retrieveStatus_between (Q := Q) hone
    obtain ⟨more, hmore, hothers⟩ := ih hrest
    refine ⟨news ++ more, hnews.trans hmore, ?_⟩
    intro hquiet serial hserial
    have hquiet₁ := fun e he => hquiet e (List.mem_append_left more he)
    have hquiet₂ := fun e he => hquiet e (List.mem_append_right news he)
    -- the first stands behind the serial at its turn; until the end it stays, as nothing breaks
    -- it
    obtain ⟨hbefore, hafter⟩ := hbetween hquiet₁
    obtain ⟨hlow, hhigh⟩ := hothers hquiet₂ serial hserial
    have hthen := hnews.holding_le hquiet₁ nameservers serial
    have hstays := hmore.grows hquiet₂ nameserver.id
    rw [support_serials_cons status rest hserial, holding_cons, holding_cons]
    constructor
    · split <;> split <;> omega
    · split <;> split <;> omega

/-- As many as have to be kept with a serial, one at least. -/
def needed (pool : Pool) (threshold : Nat) : Nat := max 1 (share threshold pool.targets.length)

/-- Enough of the nameservers are kept with this serial or a later one. -/
def Backed (pool : Pool) (threshold : Nat) (zoneId : String) (action : Action) (kept : Kept)
    (serial : Nat) : Prop :=
  0 < serial ∧ needed pool threshold ≤ holding kept zoneId action pool.nameservers serial

theorem Since.backed {zoneId : String} {action : Action} {w w' : Outside ε} {news : List Event}
    (h : Since Q w w' news) (hquiet : ∀ e ∈ news, e.breaks zoneId action = false) {serial : Nat}
    (hbacked : Backed pool threshold zoneId action w.kept serial) :
    Backed pool threshold zoneId action w'.kept serial :=
  ⟨hbacked.1, Nat.le_trans hbacked.2 (h.holding_le hquiet _ serial)⟩

/-- **A consensus is backed, and no lower than what was backed before.** -/
theorem consensus_backed {z zone : ZoneView} {m m' : Manager (Outside ε)}
    {statuses : List PoolManagerStatus}
    (h : retrieveStatuses (service pool threshold P z) zone (actionOf zone) m =
      (.ok statuses, m')) :
    ∃ news, Since Q m.outside m'.outside news ∧
      ((∀ e ∈ news, e.breaks zone.id (actionOf zone) = false) →
        (consensusSerial (service pool threshold P z) statuses ≠ 0 →
          Backed pool threshold zone.id (actionOf zone) m'.outside.kept
            (consensusSerial (service pool threshold P z) statuses)) ∧
        ∀ serial, Backed pool threshold zone.id (actionOf zone) m.outside.kept serial →
          serial ≤ consensusSerial (service pool threshold P z) statuses) := by
  obtain ⟨news, hnews, hbetween⟩ := retrieveStatusesOf_between (Q := Q) h
  refine ⟨news, hnews, ?_⟩
  intro hquiet
  have hconsensus : consensusSerial (service pool threshold P z) statuses =
      (Quorum.place (serials statuses) (share threshold pool.targets.length)).getD 0 :=
    consensusSerial_eq_place
  rw [hconsensus]
  constructor
  · intro hne
    have hgreatest := Quorum.place_isGreatest (serials statuses)
      (share threshold pool.targets.length)
    cases hplace : Quorum.place (serials statuses) (share threshold pool.targets.length) with
    | none => simp [hplace] at hne
    | some c =>
      rw [hplace] at hgreatest hne
      have hpos : 0 < c := Nat.pos_of_ne_zero hne
      -- the consensus has enough support, and all its support is kept in the end
      have hself := Quorum.support_pos hgreatest.1
      have hafter := (hbetween hquiet c hpos).2
      refine ⟨hpos, ?_⟩
      show needed pool threshold ≤ holding _ _ _ pool.nameservers c
      have henough := hgreatest.2.1
      have hall : holding m'.outside.kept zone.id (actionOf zone) pool.nameservers c =
        holding m'.outside.kept zone.id (actionOf zone)
          (service pool threshold P z).pool.nameservers c := rfl
      unfold needed
      omega
  · -- what was backed before had enough support, so the greatest such serial is no lower
    intro serial hbacked
    have hbefore := (hbetween hquiet serial hbacked.1).1
    have hneeded := Nat.le_trans hbacked.2 hbefore
    unfold needed at hneeded
    obtain ⟨c, hplace, hle⟩ := Quorum.le_place_of_support
      (show 0 < Quorum.support (serials statuses) serial by omega)
      (show share threshold pool.targets.length ≤ _ by omega)
    rw [hplace]
    exact hle

/-! ## The messages of success -/

section Order

variable {zoneId : String} {action : Action} {news more : List Event}

theorem successes_of_quiet (h : ∀ e ∈ news, e.breaks zoneId action = false) :
    successes zoneId action (news ++ more) =
      successes zoneId action news ++ successes zoneId action more := by
  have hall : ∀ e ∈ news, (!e.breaks zoneId action) = true := fun e he => by rw [h e he]; rfl
  unfold successes
  rw [List.takeWhile_append_of_pos hall, List.takeWhile_eq_self_iff.mpr hall, List.filterMap_append]

theorem successes_of_break {e : Event} (he : e ∈ news) (h : e.breaks zoneId action = true) :
    successes zoneId action (news ++ more) = successes zoneId action news := by
  have hstops : (news.takeWhile fun e => !e.breaks zoneId action).length ≠ news.length := by
    intro hlength
    have hall := (List.takeWhile_prefix _).eq_of_length hlength
    have := List.takeWhile_eq_self_iff.mp hall e he
    rw [h] at this
    exact absurd this (by simp)
  unfold successes
  rw [List.takeWhile_append, if_neg hstops]

theorem successes_silent
    (h : ∀ zone m, .told zone m ∈ more → Event.success zoneId action (.told zone m) = none) :
    successes zoneId action more = [] := by
  refine List.filterMap_eq_nil_iff.mpr ?_
  intro e he
  cases e with
  | told zone m => exact h zone m ((List.takeWhile_prefix _).subset he)
  | _ => rfl

/-- Either nothing breaks the news, or something does. -/
theorem quiet_or_break (zoneId : String) (action : Action) (news : List Event) :
    (∀ e ∈ news, e.breaks zoneId action = false) ∨ ∃ e ∈ news, e.breaks zoneId action = true := by
  by_cases h : ∃ e ∈ news, e.breaks zoneId action = true
  · exact .inr h
  · refine .inl fun e he => ?_
    rw [← Bool.not_eq_true]
    exact fun hbreaks => h ⟨e, he, hbreaks⟩

variable (pool threshold zoneId action)

/-- Since `w₀` the messages of success are in order, and all are backed unless there was a break. -/
def InOrder (w₀ w : Outside ε) : Prop :=
  ∃ news, w.log = w₀.log ++ news ∧ (successes zoneId action news).Pairwise (· ≤ ·) ∧
    ((∀ e ∈ news, e.breaks zoneId action = false) →
      ∀ s ∈ successes zoneId action news, Backed pool threshold zoneId action w.kept s)

/-- The messages are in order, and a further one with the serial `c` would be. -/
def Ready (c : Nat) (w₀ w : Outside ε) : Prop :=
  ∃ news, w.log = w₀.log ++ news ∧ (successes zoneId action news).Pairwise (· ≤ ·) ∧
    ((∀ e ∈ news, e.breaks zoneId action = false) →
      (∀ s ∈ successes zoneId action news, Backed pool threshold zoneId action w.kept s ∧ s ≤ c) ∧
        Backed pool threshold zoneId action w.kept c)

variable {pool threshold zoneId action} {w₀ w w' : Outside ε}

theorem InOrder.refl (w : Outside ε) : InOrder pool threshold zoneId action w w :=
  ⟨[], (List.append_nil _).symm, List.Pairwise.nil, fun _ _ hs => absurd hs List.not_mem_nil⟩

/-- As long as central is told of no success, the order stays. -/
theorem InOrder.since (h : InOrder pool threshold zoneId action w₀ w)
    (hsince : Since (fun zone m => Event.success zoneId action (.told zone m) = none) w w' more) :
    InOrder pool threshold zoneId action w₀ w' := by
  obtain ⟨news, hlog, horder, hbacked⟩ := h
  refine ⟨news ++ more, by rw [hsince.log, hlog, List.append_assoc], ?_⟩
  rcases quiet_or_break zoneId action news with hquiet | ⟨e, he, hbreaks⟩
  · rw [successes_of_quiet hquiet, successes_silent hsince.told, List.append_nil]
    refine ⟨horder, fun hall s hs => ?_⟩
    exact hsince.backed (fun e he => hall e (List.mem_append_right _ he)) (hbacked hquiet s hs)
  · rw [successes_of_break he hbreaks]
    exact ⟨horder, fun hall => absurd (hall e (List.mem_append_left _ he)) (by simp [hbreaks])⟩

/-- The message for which all is ready can be sent. -/
theorem Ready.tell {c : Nat} {e : Event} (h : Ready pool threshold zoneId action c w₀ w)
    (he : e.success zoneId action = some c) (hquiet : e.breaks zoneId action = false)
    (hkept : w'.kept = w.kept) (hlog : w'.log = w.log ++ [e]) :
    InOrder pool threshold zoneId action w₀ w' := by
  obtain ⟨news, hnews, horder, hbacked⟩ := h
  refine ⟨news ++ [e], by rw [hlog, hnews, List.append_assoc], ?_⟩
  have hone : successes zoneId action [e] = [c] := by simp [successes, hquiet, he]
  -- behind a break the order starts anew, and nothing is owed for this message
  rcases quiet_or_break zoneId action news with hall | ⟨e, he, hbreaks⟩
  · obtain ⟨hearlier, hc⟩ := hbacked hall
    rw [successes_of_quiet hall, hone, hkept]
    refine ⟨List.pairwise_append.mpr ⟨horder, List.pairwise_singleton _ _, ?_⟩, ?_⟩
    · intro s hs c' hc'
      exact List.mem_singleton.mp hc' ▸ (hearlier s hs).2
    · intro _ s hs
      rcases List.mem_append.mp hs with hs | hs
      · exact (hearlier s hs).1
      · exact List.mem_singleton.mp hs ▸ hc
  · rw [successes_of_break he hbreaks]
    exact ⟨horder, fun hall => absurd (hall e (List.mem_append_left _ he)) (by simp [hbreaks])⟩

end Order

/-! ## Handling a report -/

/-- What follows once a report is taken down. -/
def afterwards (pool : Pool) (threshold : Nat) (P : Parties ε) (r : Report) (cacheSerial : Nat) :
    Exec (Manager (Outside ε)) Fault Unit := do
  let consensusSerial ← getConsensusSerial (service pool threshold P r.zone) r.zone
  tellSuccess (service pool threshold P r.zone) r.zone cacheSerial consensusSerial
  tellFailure (service pool threshold P r.zone) r.zone r.status consensusSerial
  tidyUp (service pool threshold P r.zone) r.zone consensusSerial

variable (pool threshold P) in
/-- A report is taken down, and that never fails. -/
theorem handle_run (r : Report) (m : Manager (Outside ε)) :
    handle pool threshold P r m =
      afterwards pool threshold P r ((m.outside.kept.serial r.key).getD 0)
        { m with outside := m.outside.taken r } := by
  show updateStatus _ _ _ _ _
    { m with outside := { m.outside with log := m.outside.log ++ [Event.reported r] } } = _
  exact Exec.bind_ok (record_run pool threshold P r m)

section

variable {zoneId : String} {action : Action} {w₀ : Outside ε}

/-- What only makes silent moves keeps the messages in order. -/
theorem keeps_inOrder {α : Type} {prog : Exec (Manager (Outside ε)) Fault α}
    (h : ∀ w, Exec.Keeps
      (Moved (fun zone m => Event.success zoneId action (.told zone m) = none) w) prog) :
    Exec.Keeps (fun m => InOrder pool threshold zoneId action w₀ m.outside) prog := by
  intro m hm
  obtain ⟨news, hnews⟩ := since_moves (h m.outside m Relation.ReflTransGen.refl)
  exact hm.since hnews

/-- With the consensus serial found, a message of success is ready. -/
theorem getConsensusSerial_ready (z zone : ZoneView) :
    Exec.Triple (fun m => InOrder pool threshold zoneId action w₀ m.outside)
      (getConsensusSerial (service pool threshold P z) zone)
      (fun c m => InOrder pool threshold zoneId action w₀ m.outside ∧
        (zone.id = zoneId → actionOf zone = action → c ≠ 0 →
          Ready pool threshold zoneId action c w₀ m.outside))
      (fun m => InOrder pool threshold zoneId action w₀ m.outside) := by
  intro m hm
  have hend : InOrder pool threshold zoneId action w₀
      (retrieveStatuses (service pool threshold P z) zone (actionOf zone) m).2.outside :=
    keeps_inOrder (fun w => keeps_retrieveStatusesOf (service pool threshold P z)
      (keeps_retrieveStatus_moved w z zone) pool.nameservers) m hm
  unfold getConsensusSerial
  rw [Exec.bind_apply]
  cases hrun : retrieveStatuses (service pool threshold P z) zone (actionOf zone) m with
  | mk result m' =>
    rw [hrun] at hend
    cases result with
    | error e => exact hend
    | ok statuses =>
      refine ⟨hend, ?_⟩
      intro hzone haction hne
      subst hzone haction
      obtain ⟨more, hmore, hbacked⟩ := consensus_backed
        (Q := fun zone' m => Event.success zone.id (actionOf zone) (.told zone' m) = none) hrun
      obtain ⟨news, hlog, horder, hall⟩ := hm
      refine ⟨news ++ more, by rw [hmore.log, hlog, List.append_assoc], ?_⟩
      -- after a break nothing is claimed of the serials told before it
      rcases quiet_or_break zone.id (actionOf zone) news with hquiet | ⟨e, he, hbreaks⟩
      · rw [successes_of_quiet hquiet, successes_silent hmore.told, List.append_nil]
        refine ⟨horder, fun hquiet' => ?_⟩
        have hquiet₂ := fun e he => hquiet' e (List.mem_append_right news he)
        obtain ⟨hc, hle⟩ := hbacked hquiet₂
        refine ⟨fun s hs => ?_, hc hne⟩
        have := hall hquiet s hs
        exact ⟨hmore.backed hquiet₂ this, hle s this⟩
      · rw [successes_of_break he hbreaks]
        exact ⟨horder, fun hall => absurd (hall e (List.mem_append_left _ he)) (by simp [hbreaks])⟩

/-- The message of success goes out in order. -/
theorem tellSuccess_inOrder (zone : ZoneView) (cacheSerial c : Nat) :
    Exec.Triple
      (fun m => InOrder pool threshold zoneId action w₀ m.outside ∧
        (zone.id = zoneId → actionOf zone = action → c ≠ 0 →
          Ready pool threshold zoneId action c w₀ m.outside))
      (tellSuccess (service pool threshold P zone) zone cacheSerial c)
      (fun _ m => InOrder pool threshold zoneId action w₀ m.outside)
      (fun m => InOrder pool threshold zoneId action w₀ m.outside) := by
  refine Exec.Triple.of_ends ?_
  intro m hm
  unfold tellSuccess
  split
  · next hcond =>
    by_cases hsame : zone.id = zoneId ∧ actionOf zone = action
    · have hsuccess : Event.success zoneId action (.told zone ⟨zone.id, .SUCCESS, c⟩) = some c :=
        if_pos ⟨hsame.1, hsame.2, rfl⟩
      exact (hm.2 hsame.1 hsame.2 hcond.1).tell hsuccess rfl rfl rfl
    · -- a success of another zone or action is none of this one
      have hsilent : Event.success zoneId action (.told zone ⟨zone.id, .SUCCESS, c⟩) = none :=
        if_neg fun h => hsame ⟨h.1, h.2.1⟩
      exact keeps_inOrder (fun w => keeps_tell_moved w zone hsilent) m hm.1
  · exact hm.1

/-- **Handling a report keeps the messages of success in order.** -/
theorem handle_inOrder (r : Report) :
    Exec.Keeps (fun m => InOrder pool threshold zoneId action w₀ m.outside)
      (handle pool threshold P r) := by
  intro m hm
  rw [handle_run]
  obtain ⟨news, hnews⟩ := since_move (Move.record m.outside r)
  have hfailure : ∀ m : Message, m.status ≠ .SUCCESS →
      Event.success zoneId action (.told r.zone m) = none := fun m hm => if_neg fun h => hm h.2.2
  refine (Exec.Triple.bind (getConsensusSerial_ready r.zone r.zone) fun c =>
    Exec.Triple.bind (tellSuccess_inOrder r.zone _ c) fun _ =>
      (Exec.Keeps.bind ?_ fun _ => ?_).triple).ends (hm.since hnews)
  · refine keeps_inOrder fun w => ?_
    exact keeps_tellFailure (keeps_retrieveStatus_moved w r.zone r.zone)
      (fun m hm => keeps_tell_moved w r.zone (hfailure m hm)) _ _
  · refine keeps_inOrder fun w => ?_
    exact keeps_tidyUp (keeps_retrieveStatus_moved w r.zone r.zone)
      (fun _ => keeps_clear_moved w r.zone _) _

/-- An entry that expires ends the order, or is none of the zone and action. -/
theorem arrive_inOrder (arrival : Arrival) (m : Manager (Outside ε))
    (h : InOrder pool threshold zoneId action w₀ m.outside) :
    InOrder pool threshold zoneId action w₀ (arrive pool threshold P arrival m).outside := by
  cases arrival with
  | report r => exact handle_inOrder r m h
  | expiry key =>
    obtain ⟨news, hnews⟩ := since_move (Move.clear m.outside key)
    exact h.since hnews

end

/-- Whatever is handled, only moves are made. -/
theorem handle_moved (r : Report) (w : Outside ε) :
    Exec.Keeps (Moved (fun _ _ => True) w) (handle pool threshold P r) := by
  intro m hm
  rw [handle_run]
  have hone : ∀ nameserver, Exec.Keeps (Moved (fun _ _ => True) w)
      (retrieveStatus (service pool threshold P r.zone) r.zone (actionOf r.zone) nameserver) :=
    keeps_retrieveStatus_moved w r.zone r.zone
  refine (Exec.Keeps.bind ?_ fun c => Exec.Keeps.bind ?_ fun _ => Exec.Keeps.bind ?_ fun _ => ?_)
    _ (hm.tail (.record m.outside r))
  · exact Exec.Keeps.bind (keeps_retrieveStatusesOf _ hone _) fun _ => Exec.Keeps.pure _
  · exact Exec.Keeps.ite (fun _ => keeps_tell_moved w r.zone trivial) fun _ => Exec.Keeps.pure _
  · exact keeps_tellFailure hone (fun m _ => keeps_tell_moved w r.zone trivial) _ _
  · exact keeps_tidyUp hone (fun _ => keeps_clear_moved w r.zone _) _

theorem arrive_moved (arrival : Arrival) (w : Outside ε) (m : Manager (Outside ε))
    (h : Moved (fun _ _ => True) w m) :
    Moved (fun _ _ => True) w (arrive pool threshold P arrival m) := by
  cases arrival with
  | report r => exact handle_moved r w m h
  | expiry key => exact h.tail (.clear _ key)

/--
**Reports in any order raise what is kept, and the messages of success go with it.** From any
state on, the serial under a key is the greatest of the one before and those that were reported
or answered for it, until it starts anew; and the serials of success for a zone and action are
in order up to the first break.
-/
theorem reports_in_any_order (pool : Pool) (threshold : Nat) (P : Parties ε)
    (arrivals : List Arrival) (m : Manager (Outside ε)) :
    ∃ news, (Run.final (arrive pool threshold P) arrivals m).outside.log =
        m.outside.log ++ news ∧
      (∀ key, (∀ e ∈ news, e.restarts key = false) →
        (Run.final (arrive pool threshold P) arrivals m).outside.kept.serial key =
          ((m.outside.kept.serial key).toList ++ news.filterMap (Event.serial key)).max?) ∧
      ∀ zoneId action, (successes zoneId action news).Pairwise (· ≤ ·) := by
  -- any arrival is a sequence of small moves, and each of these raises what is kept
  have hmoved : Moved (fun _ _ => True) m.outside
      (Run.final (arrive pool threshold P) arrivals m) :=
    (Run.invariant (I := Moved (fun _ _ => True) m.outside) (G := fun _ _ => True)
      (fun arrival m' h _ => arrive_moved arrival _ m' h) Relation.ReflTransGen.refl
      fun _ _ => trivial).2
  obtain ⟨news, hnews⟩ := since_moves hmoved
  refine ⟨news, hnews.log, hnews.serial, ?_⟩
  intro zoneId action
  have hinOrder : InOrder pool threshold zoneId action m.outside
      (Run.final (arrive pool threshold P) arrivals m).outside :=
    (Run.invariant (I := fun m' => InOrder pool threshold zoneId action m.outside m'.outside)
      (G := fun _ _ => True) (fun arrival m' h _ => arrive_inOrder arrival m' h)
      (InOrder.refl m.outside) fun _ _ => trivial).2
  obtain ⟨news', hlog, horder, _⟩ := hinOrder
  -- the two invariants speak of the same log
  rw [List.append_cancel_left (hlog.symm.trans hnews.log)] at horder
  exact horder

/-! ## A pool of two nameservers -/

namespace Polled

def twoServers : Pool where
  targets := ["first", "second"]
  nameservers := [⟨"one", "192.0.2.1", 53⟩, ⟨"two", "192.0.2.2", 53⟩]
  targets_ne := by simp

abbrev Answers : Type := List (Option (Status × Option Nat))

/-- Each poll gets the next of the answers, or is lost. -/
def asked : Parties Answers where
  getSerialNumber _ _ := fun answers =>
    match answers with
    | some answer :: answers => (.ok answer, answers)
    | _ => (.error .MessagingException, answers.tail)
  updateStatus _ := pure ()

/-- A report of success on a zone with a change under way. -/
def success (action : Action) (serial : Nat) (nameserver : Nameserver) (actualSerial : Nat) :
    Report :=
  ⟨⟨"zone", serial, action, .PENDING⟩, nameserver, .SUCCESS, some actualSerial⟩

def one : Nameserver := ⟨"one", "192.0.2.1", 53⟩

def two : Nameserver := ⟨"two", "192.0.2.2", 53⟩

/-- Nothing is kept, and these answers are to come. -/
def start (answers : Answers) : Manager (Outside Answers) := ⟨⟨fun _ => none, [], answers⟩, []⟩

/-- What "one" reports is handled, and "two" is polled. -/
def polled : Manager (Outside Answers) :=
  arrive twoServers 100 asked (.report (success .UPDATE 7 one 5)) (start [some (.SUCCESS, some 5)])

/-- "one" reports the new zone, and "two" does not answer. -/
def created : Manager (Outside Answers) :=
  arrive twoServers 100 asked (.report (success .CREATE 7 one 5)) (start [none, some (.NO_ZONE, none)])

/-- "two" reports an update, and "one" misses the zone. -/
def missed : Manager (Outside Answers) :=
  arrive twoServers 100 asked (.report (success .UPDATE 8 two 6)) created

/-- One of the two is enough, and "two" names a serial before it misses the zone. -/
def counted : Manager (Outside Answers) :=
  arrive twoServers 50 asked (.report (success .UPDATE 7 one 3))
    (start [some (.NO_ZONE, some 5), some (.ERROR, none)])

/-- "one" gets on, and "two" does not answer in time. -/
def recounted : Manager (Outside Answers) :=
  arrive twoServers 50 asked (.report (success .UPDATE 7 one 4)) counted

/-- A new entry is kept, and then the serial of a report of success. -/
def keptOnce (key : Key) (serial : Nat) : Kept :=
  Function.update (Function.update (fun _ => none) key (some ⟨none, 0⟩)) key
    (some ⟨some .SUCCESS, serial⟩)

/-- The serial that was reported for a key. -/
def reportedSerial (key : Key) : Event → Option Nat
  | .reported r => if r.key = key then r.actualSerial else none
  | _ => none

def isClearing : Event → Bool
  | .cleared _ => true
  | _ => false

end Polled

/-- A report is handled, with a consensus that is known. -/
theorem handle_of {r : Report} {m m₁ m₂ : Manager (Outside ε)} {cacheSerial : Nat}
    {statuses : List PoolManagerStatus} {c : Option Nat}
    (hrecord : recordStatus (service pool threshold P r.zone) r.zone r.nameserver r.status
        r.actualSerial
        { m with outside := { m.outside with log := m.outside.log ++ [.reported r] } } =
      (.ok cacheSerial, m₁))
    (hstatuses : retrieveStatuses (service pool threshold P r.zone) r.zone (actionOf r.zone) m₁ =
      (.ok statuses, m₂))
    (hc : Quorum.IsGreatest (serials statuses) (share threshold pool.targets.length) c) :
    handle pool threshold P r m =
      (do
        tellSuccess (service pool threshold P r.zone) r.zone cacheSerial (c.getD 0)
        tellFailure (service pool threshold P r.zone) r.zone r.status (c.getD 0)
        tidyUp (service pool threshold P r.zone) r.zone (c.getD 0)) m₂ := by
  have hconsensus : consensusSerial (service pool threshold P r.zone) statuses = c.getD 0 := by
    rw [consensusSerial_eq_place]
    exact congrArg (·.getD 0) (Quorum.isGreatest_iff.mp hc).symm
  have hget := getConsensusSerial_of hstatuses
  rw [hconsensus] at hget
  show updateStatus _ _ _ _ _
    { m with outside := { m.outside with log := m.outside.log ++ [Event.reported r] } } = _
  unfold updateStatus
  rw [Exec.bind_ok hrecord, Exec.bind_ok hget]

theorem arrive_of {r : Report} {m m₁ m₂ : Manager (Outside ε)} {cacheSerial : Nat}
    {statuses : List PoolManagerStatus} {c : Option Nat}
    (hrecord : recordStatus (service pool threshold P r.zone) r.zone r.nameserver r.status
        r.actualSerial
        { m with outside := { m.outside with log := m.outside.log ++ [.reported r] } } =
      (.ok cacheSerial, m₁))
    (hstatuses : retrieveStatuses (service pool threshold P r.zone) r.zone (actionOf r.zone) m₁ =
      (.ok statuses, m₂))
    (hc : Quorum.IsGreatest (serials statuses) (share threshold pool.targets.length) c) :
    arrive pool threshold P (.report r) m =
      ((do
        tellSuccess (service pool threshold P r.zone) r.zone cacheSerial (c.getD 0)
        tellFailure (service pool threshold P r.zone) r.zone r.status (c.getD 0)
        tidyUp (service pool threshold P r.zone) r.zone (c.getD 0)) m₂).2 :=
  congrArg Prod.snd (handle_of hrecord hstatuses hc)

open Polled in
/--
Nothing is cleared, and still what is kept of "two" was never reported, what was kept of the new
zone is lost to the update, and the second success falls behind the first.
-/
theorem kept_beyond_reports :
    (polled.outside.kept.serial ⟨"two", "zone", .UPDATE⟩ = some 5 ∧
      polled.outside.log.filterMap (reportedSerial ⟨"two", "zone", .UPDATE⟩) = [] ∧
      polled.outside.log.any isClearing = false) ∧
    (created.outside.kept.serial ⟨"one", "zone", .CREATE⟩ = some 5 ∧
      missed.outside.kept.serial ⟨"one", "zone", .CREATE⟩ = some 0 ∧
      missed.outside.log.any isClearing = false) ∧
    recounted.outside.log.filterMap (Event.success "zone" .UPDATE) = [5, 4] ∧
      recounted.outside.log.any isClearing = false := by
  -- each run is taken to where it stands before its last report
  have hpolled : polled = _ := arrive_of rfl rfl (c := some 5) (by decide)
  have hcreated : created = ⟨⟨keptOnce ⟨"one", "zone", .CREATE⟩ 5,
      [.reported (success .CREATE 7 one 5)],
      [some (.NO_ZONE, none)]⟩, []⟩ := arrive_of rfl rfl (c := none) (by decide)
  have hcounted : counted =
      ⟨⟨Function.update (keptOnce ⟨"one", "zone", .UPDATE⟩ 3) ⟨"two", "zone", .CREATE⟩
          (some ⟨some .ERROR, 5⟩),
        [.reported (success .UPDATE 7 one 3),
          .answered ⟨⟨"zone", 7, .UPDATE, .PENDING⟩, two, .NO_ZONE, some 5⟩,
          .told ⟨"zone", 7, .UPDATE, .PENDING⟩ ⟨"zone", .SUCCESS, 5⟩],
        [some (.ERROR, none)]⟩, [⟨"zone", .SUCCESS, 5⟩]⟩ := by
    unfold counted
    rw [arrive_of rfl rfl (c := some 5) (by decide)]
    rfl
  refine ⟨?_, ?_, ?_⟩
  · rw [hpolled]
    decide +kernel
  · unfold missed
    rw [hcreated, arrive_of rfl rfl (c := some 0) (by decide)]
    decide +kernel
  · unfold recounted
    rw [hcounted, arrive_of rfl rfl (c := some 4) (by decide)]
    decide +kernel

end PoolManager

end Designate
