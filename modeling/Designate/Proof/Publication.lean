import Designate.Proof.Deletion

/-!
# A zone is active once its nameservers have it

What a pool manager keeps of a nameserver, and what is reported of one, rests on an answer
of the nameserver with that serial or a later one. So does a consensus, whatever was kept,
cleared or asked for meanwhile, and central takes a zone for published on nothing else that
the pool manager tells it.
-/

namespace Designate

namespace Publication

open PoolManager Notify Deletion

/-! ## Answers -/

/-- A nameserver has answered with an SOA of the zone, of this serial or a later one. -/
def hears (S : Setup) (heard : List Heard) (zoneId nameserverId : String) (serial : Nat) : Bool :=
  heard.any fun h => h.zoneId == zoneId && h.nameserverId == nameserverId &&
    reaches (S.nameOf zoneId) serial h.response

/-- How many of the nameservers have. -/
def answering (S : Setup) (heard : List Heard) (zoneId : String) (serial : Nat) : Nat :=
  S.pool.nameservers.countP fun n => hears S heard zoneId n.id serial

/-- Whatever is not 0 and no more than `n`, a nameserver has answered with, or more. -/
def UpTo (S : Setup) (heard : List Heard) (zoneId nameserverId : String) (n : Nat) : Prop :=
  ∀ serial, 0 < serial → serial ≤ n → hears S heard zoneId nameserverId serial = true

section

variable {S : Setup} {heard : List Heard} {zoneId nameserverId : String}

theorem hears_append {serial : Nat} (new : List Heard)
    (h : hears S heard zoneId nameserverId serial = true) :
    hears S (heard ++ new) zoneId nameserverId serial = true := by
  unfold hears at h ⊢
  rw [List.any_append, h, Bool.true_or]

theorem UpTo.append {n : Nat} (h : UpTo S heard zoneId nameserverId n) (new : List Heard) :
    UpTo S (heard ++ new) zoneId nameserverId n :=
  fun serial hpos hle => hears_append new (h serial hpos hle)

theorem upTo_zero : UpTo S heard zoneId nameserverId 0 :=
  fun _ hpos hle => absurd hle (Nat.not_le.mpr hpos)

theorem answering_append (new : List Heard) (serial : Nat) :
    answering S heard zoneId serial ≤ answering S (heard ++ new) zoneId serial :=
  List.countP_mono_left fun _ _ h => hears_append new h

/-- What is told of a poll has been heard. -/
theorem upTo_of_founded {received : List Response} {actualSerial : Option Nat}
    (h : Founded (S.nameOf zoneId) actualSerial received) :
    UpTo S (heard ++ received.map fun r => ⟨zoneId, nameserverId, r⟩) zoneId nameserverId
      (actualSerial.getD 0) := by
  cases actualSerial with
  | none => exact upTo_zero
  | some s =>
    intro serial hpos hle
    rw [Option.getD_some] at hle
    obtain ⟨r, hr, hserial⟩ := h s rfl (Nat.lt_of_lt_of_le hpos hle)
    unfold hears
    rw [List.any_append, Bool.or_eq_true]
    refine .inr (List.any_eq_true.mpr ⟨_, List.mem_map_of_mem hr, ?_⟩)
    simp [reaches, hserial, hle]

end

/-! ## What the pool manager knows -/

variable (S : Setup) in
/-- Whoever is kept or reported with a serial has answered with it, or with a later one. -/
def serialsHeard : Testimony S where
  kept heard key e := UpTo S heard key.zoneId key.nameserverId e.serialNumber
  reported heard r := UpTo S heard r.zone.id r.nameserver.id (r.actualSerial.getD 0)
  kept_append new h := h.append new
  reported_append new h := h.append new
  fresh _ _ := upTo_zero
  taken h _ := h
  answered := by
    intro heard r h
    have hserial : r.object.entry.serialNumber = r.actualSerial.getD 0 := rfl
    rw [hserial]
    rcases answerKey_cases r with hkey | ⟨_, hkey⟩
    · rw [hkey]; exact h
    · rw [hkey]; exact h
  polled _ _ _ _ _ hfounded := upTo_of_founded hfounded

/-- What is kept and reported has been answered. -/
structure Grounded (S : Setup) (m : State) : Prop where
  linked : m.site.central.Linked
  stands : Stands (serialsHeard S) m

/-- A live zone that is taken for published. -/
structure Active (w : World) (z : Zone) : Prop where
  mem : z ∈ w.db.zones
  live : z.deleted = false
  status : z.status = .ACTIVE

/--
Enough of the nameservers have answered with the zone, of this serial or a later one. How many
are enough goes by the targets of the pool, as it does where the pool manager counts them.
-/
def Published (S : Setup) (heard : List Heard) (zoneId : String) (serial : Nat) : Prop :=
  needed S.pool S.threshold ≤ answering S heard zoneId (max 1 serial)

/-- Since `m₀`, central has only taken zones for published that are. -/
structure Truthful (S : Setup) (m₀ m : State) : Prop where
  grounded : Grounded S m
  active : ∀ z, Active m.site.central z →
    (∃ y, Active m₀.site.central y ∧ y.id = z.id) ∨
      ∃ zoneId, S.rowOf zoneId = z.id ∧ Published S m.site.heard zoneId z.serial

section

variable {S : Setup} {m₀ m m' : State}

theorem Published.append {heard : List Heard} {zoneId : String} {serial : Nat}
    (h : Published S heard zoneId serial) (new : List Heard) :
    Published S (heard ++ new) zoneId serial :=
  Nat.le_trans h (answering_append new _)

theorem Grounded.truthful (h : Grounded S m) : Truthful S m m :=
  ⟨h, fun z hz => .inl ⟨z, hz, rfl⟩⟩

/-- What leaves central alone, and what is kept and reported standing. -/
theorem Truthful.extend (h : Truthful S m₀ m) (hcentral : m'.site.central = m.site.central)
    {new : List Heard} (hheard : m'.site.heard = m.site.heard ++ new)
    (hstands : Stands (serialsHeard S) m') : Truthful S m₀ m' where
  grounded := ⟨hcentral ▸ h.grounded.linked, hstands⟩
  active z hz := by
    rw [hcentral] at hz
    refine (h.active z hz).imp_right ?_
    rintro ⟨zoneId, hrow, hpublished⟩
    exact ⟨zoneId, hrow, hheard ▸ hpublished.append new⟩

theorem undisturbed_truthful : Undisturbed (Truthful S m₀) := by
  intro m outside hquiet h
  exact h.extend hquiet.central (hquiet.heard.trans (List.append_nil _).symm)
    (undisturbed_stands m outside hquiet h.grounded.stands)

/-- **A status is retrieved, and the nameserver has answered with its serial.** -/
theorem retrieveStatus_truthful (h : Truthful S m₀ m) {z zone : ZoneView} {nameserver : Nameserver}
    {result : Except Fault (Option PoolManagerStatus)}
    (hrun : retrieveStatus (service S.pool S.threshold (parties S) z) zone (actionOf zone)
      nameserver m = (result, m')) :
    Truthful S m₀ m' ∧ (∃ new, m'.site.heard = m.site.heard ++ new) ∧
      ∀ o, result = .ok (some o) → UpTo S m'.site.heard zone.id nameserver.id o.serialNumber := by
  obtain ⟨hstands, hcentral, ⟨new, hheard⟩, hsays⟩ := retrieveStatus_stands h.grounded.stands hrun
  refine ⟨h.extend hcentral hheard hstands, ⟨new, hheard⟩, fun o ho => ?_⟩
  obtain ⟨hzone, hnameserver, hup⟩ := hsays o ho
  exact hzone ▸ hnameserver ▸ hup

/--
**As many are retrieved with a serial as have answered with it.** By induction on the
nameservers; those that are polled later leave what has been answered before.
-/
theorem retrieveStatusesOf_truthful {z zone : ZoneView} {nameservers : List Nameserver} :
    ∀ {m m' : State} {result : Except Fault (List PoolManagerStatus)}, Truthful S m₀ m →
      retrieveStatusesOf (service S.pool S.threshold (parties S) z) zone (actionOf zone)
        nameservers m = (result, m') →
      Truthful S m₀ m' ∧ (∃ new, m'.site.heard = m.site.heard ++ new) ∧
        ∀ statuses, result = .ok statuses → ∀ serial, 0 < serial →
          Quorum.support (serials statuses) serial ≤
            nameservers.countP fun n => hears S m'.site.heard zone.id n.id serial := by
  induction nameservers with
  | nil =>
    intro m m' result h hrun
    cases hrun
    refine ⟨h, ⟨[], (List.append_nil _).symm⟩, fun statuses hstatuses serial _ => ?_⟩
    cases hstatuses
    exact Nat.le_refl _
  | cons nameserver nameservers ih =>
    intro m m' result h hrun
    unfold retrieveStatusesOf at hrun
    rw [Exec.bind_apply] at hrun
    cases hone : retrieveStatus (service S.pool S.threshold (parties S) z) zone
        (actionOf zone) nameserver m with
    | mk first m₁ =>
      rw [hone] at hrun
      -- the first nameserver, and then the others in the state it leaves
      obtain ⟨h₁, ⟨new₁, hheard₁⟩, hfirst⟩ := retrieveStatus_truthful h hone
      cases first with
      | error e =>
        cases hrun
        exact ⟨h₁, ⟨new₁, hheard₁⟩, fun statuses hstatuses => by cases hstatuses⟩
      | ok status =>
        dsimp only at hrun
        rw [Exec.bind_apply] at hrun
        cases hrest : retrieveStatusesOf (service S.pool S.threshold (parties S) z) zone
            (actionOf zone) nameservers m₁ with
        | mk others m₂ =>
          rw [hrest] at hrun
          obtain ⟨h₂, ⟨new₂, hheard₂⟩, hothers⟩ := ih h₁ hrest
          have hheard : (State.site m₂).heard = m.site.heard ++ (new₁ ++ new₂) := by
            rw [hheard₂, hheard₁, List.append_assoc]
          cases others with
          | error e =>
            cases hrun
            exact ⟨h₂, ⟨_, hheard⟩, fun statuses hstatuses => by cases hstatuses⟩
          | ok others =>
            cases hrun
            refine ⟨h₂, ⟨_, hheard⟩, fun statuses hstatuses serial hpos => ?_⟩
            cases hstatuses
            rw [support_serials_cons status others hpos, List.countP_cons]
            -- it counts for the serial only if it answered so, and later polls take no answer
            -- away
            refine Nat.add_le_add (hothers _ rfl serial hpos) ?_
            cases status with
            | none =>
              rw [if_neg (by simp; omega)]
              exact Nat.zero_le _
            | some o =>
              dsimp only [Option.map_some, Option.getD_some]
              split
              · next hle =>
                have hup : UpTo S m'.site.heard zone.id nameserver.id o.serialNumber :=
                  hheard₂ ▸ (hfirst o rfl).append new₂
                rw [if_pos (hup serial hpos hle)]
              · exact Nat.zero_le _

/-- A serial up to the consensus is supported by enough of what is retrieved. -/
theorem needed_le_support {zone : ZoneView} {statuses : List PoolManagerStatus} {serial : Nat}
    (hpos : 0 < serial)
    (hle : serial ≤ consensusSerial (service S.pool S.threshold (parties S) zone) statuses) :
    needed S.pool S.threshold ≤ Quorum.support (serials statuses) serial := by
  rw [consensusSerial_eq_place] at hle
  have hgreatest := Quorum.place_isGreatest (serials statuses)
    (share S.threshold S.pool.targets.length)
  change serial ≤ ((Quorum.place (serials statuses)
    (share S.threshold S.pool.targets.length)).getD 0) at hle
  cases hplace : Quorum.place (serials statuses) (share S.threshold S.pool.targets.length) with
  | none =>
    rw [hplace, Option.getD_none] at hle
    omega
  | some c =>
    rw [hplace] at hgreatest hle
    have hself := Quorum.support_pos hgreatest.1
    -- whoever has reached the consensus has reached every lower serial too
    have hfewer := Quorum.support_antitone (l := serials statuses) hle
    have henough := hgreatest.2.1
    rw [Option.getD_some] at hfewer
    unfold needed
    omega

/-- **A consensus has enough nameservers that have answered with it.** -/
theorem getConsensusSerial_truthful {zone : ZoneView} :
    Exec.Triple (Truthful S m₀)
      (getConsensusSerial (service S.pool S.threshold (parties S) zone) zone)
      (fun c m => Truthful S m₀ m ∧ ∀ serial, 0 < serial → serial ≤ c →
        needed S.pool S.threshold ≤ answering S m.site.heard zone.id serial)
      (Truthful S m₀) := by
  intro m h
  unfold getConsensusSerial retrieveStatuses
  rw [Exec.bind_apply]
  cases hrun : retrieveStatusesOf (service S.pool S.threshold (parties S) zone) zone
      (actionOf zone) (service S.pool S.threshold (parties S) zone).pool.nameservers m with
  | mk result m' =>
    obtain ⟨h', -, hsupport⟩ := retrieveStatusesOf_truthful h hrun
    cases result with
    | error e => exact h'
    | ok statuses =>
      refine ⟨h', fun serial hpos hle => ?_⟩
      exact Nat.le_trans (needed_le_support hpos hle) (hsupport statuses rfl serial hpos)

end

/-! ## What central does with a message -/

/-- **A message takes a zone for published if it tells of a success with its serial.** -/
theorem message_active {ctx : Context} {conf : Conf} {m : PoolStatus} {id : Nat} {w : World}
    (hw : w.Linked) {z : Zone} (hz : Active (Designate.updateStatus ctx conf m id w).2 z) :
    Active w z ∨ m.status = .SUCCESS ∧ z.id = id ∧ z.serial ≤ m.serial := by
  have hrows : ZonesAt w.db.zones w.nextId (Designate.updateStatus ctx conf m id w).2 ∨ _ :=
    updateStatus_zones m id w
  rcases hrows with h | ⟨found, hfound, h⟩
  · exact .inl ⟨h.zones ▸ hz.mem, hz.live, hz.status⟩
  · have hmem := hz.mem
    rw [h.zones] at hmem
    rcases Table.mem_update.mp hmem with ⟨hmem, _⟩ | ⟨row, hrow, hid, rfl⟩
    · exact .inl ⟨hmem, hz.live, hz.status⟩
    · obtain ⟨hm, hfid, _⟩ := findZone_mem hfound
      obtain rfl : row = found := Table.eq_of_key hw.zoneIds hrow hm (hid.trans hfid.symm)
      have hlive := hz.live
      have hstatus := hz.status
      unfold PoolStatus.zoneChange at hlive hstatus ⊢
      -- of the five ways a message may go only a success with the serial makes it ACTIVE
      rcases updateZoneOrRecordStatus_cases m row.action row.status row.serial with
        hu | ⟨hsuccess, _, _, hserial, hu⟩ | ⟨_, _, _, _, hu⟩ | ⟨_, _, _, hu⟩ | ⟨_, hu⟩
      · rw [hu] at hlive hstatus ⊢
        exact .inl ⟨hrow, hlive, hstatus⟩
      · rw [hu]
        exact .inr ⟨hsuccess, hid, hserial⟩
      · rw [hu] at hlive
        exact absurd hlive (by simp [Zone.drop])
      · rw [hu] at hstatus
        exact absurd hstatus (by simp)
      · rw [hu] at hlive
        exact absurd hlive (by simp [Zone.drop])

section

variable {S : Setup} {m₀ m m' : State} {zone : ZoneView}

/-- **Central is told of a success only where enough nameservers have answered.** -/
theorem tell_truthful {msg : Message} (h : Truthful S m₀ m)
    (hpublished : msg.status = .SUCCESS → ∀ serial, serial ≤ msg.serial →
      Published S m.site.heard msg.zoneId serial) :
    Truthful S m₀ (tell (service S.pool S.threshold (parties S) zone) msg m).2 := by
  have hlinked : (Designate.updateStatus S.ctx S.conf ⟨msg.status, msg.serial⟩
      (S.rowOf msg.zoneId) m.site.central).2.Linked :=
    serve_linked S.conf ⟨S.ctx, .updateStatus (S.rowOf msg.zoneId) ⟨msg.status, msg.serial⟩⟩
      h.grounded.linked
  refine ⟨⟨hlinked, keeps_tell_stands zone msg m h.grounded.stands⟩, fun z hz => ?_⟩
  rcases message_active h.grounded.linked hz with hz | ⟨hsuccess, hid, hserial⟩
  · exact h.active z hz
  · exact .inr ⟨msg.zoneId, hid.symm, hpublished hsuccess z.serial hserial⟩

/-- A failure publishes nothing. -/
theorem keeps_tell_truthful {msg : Message} (hmsg : msg.status ≠ .SUCCESS) :
    Exec.Keeps (Truthful S m₀) (tell (service S.pool S.threshold (parties S) zone) msg) :=
  fun _ h => tell_truthful h fun hsuccess => absurd hsuccess hmsg

/-! ## The handling of a report -/

theorem keeps_retrieveStatus_truthful (z zone : ZoneView) (nameserver : Nameserver) :
    Exec.Keeps (Truthful S m₀)
      (retrieveStatus (service S.pool S.threshold (parties S) z) zone (actionOf zone)
        nameserver) := fun _ h => (retrieveStatus_truthful h rfl).1

theorem tellSuccess_truthful (cacheSerial c : Nat) :
    Exec.Triple
      (fun m => Truthful S m₀ m ∧ ∀ serial, 0 < serial → serial ≤ c →
        needed S.pool S.threshold ≤ answering S m.site.heard zone.id serial)
      (tellSuccess (service S.pool S.threshold (parties S) zone) zone cacheSerial c)
      (fun _ => Truthful S m₀) (Truthful S m₀) := by
  refine Exec.Triple.of_ends ?_
  rintro m ⟨h, henough⟩
  unfold tellSuccess
  split
  · next hcond =>
    refine tell_truthful h fun _ serial hle => ?_
    dsimp only at hle
    exact henough (max 1 serial) (by omega) (by omega)
  · exact h

theorem keeps_tellFailure_truthful (status : Status) (c : Nat) :
    Exec.Keeps (Truthful S m₀)
      (tellFailure (service S.pool S.threshold (parties S) zone) zone status c) :=
  keeps_tellFailure (keeps_retrieveStatus_truthful zone zone) (fun _ => keeps_tell_truthful) status c

theorem keeps_tidyUp_truthful (c : Nat) :
    Exec.Keeps (Truthful S m₀)
      (tidyUp (service S.pool S.threshold (parties S) zone) zone c) :=
  keeps_tidyUp (keeps_retrieveStatus_truthful zone zone)
    (fun _ => undisturbed_truthful.call fun _ => quiet_without _ _) c

/-- **A report that has been answered is handled truthfully.** -/
theorem handle_truthful {r : Report} (h : Grounded S m)
    (hr : (serialsHeard S).reported m.site.heard r) :
    Truthful S m (handle S.pool S.threshold (parties S) r m).2 := by
  rw [handle_run]
  have hstart : Truthful S m { m with outside := m.outside.taken r } :=
    ⟨⟨h.linked, h.stands.taken hr⟩, fun z hz => .inl ⟨z, hz, rfl⟩⟩
  refine Exec.Triple.ends (Exec.Triple.bind getConsensusSerial_truthful fun c =>
    Exec.Triple.bind (tellSuccess_truthful _ c) fun _ =>
      Exec.Triple.bind (keeps_tellFailure_truthful r.status c).triple fun _ =>
        (keeps_tidyUp_truthful c).triple) hstart

/-! ## The zones on the targets -/

theorem keeps_createZone (attempts : String → Nat → Bool) :
    Exec.Keeps (Truthful S m₀)
      (createZone (manager S zone) pollForSerialNumber S.maxRetries attempts zone) := by
  unfold createZone
  refine Exec.Keeps.ite (fun _ => ?_) fun _ => keeps_tell_truthful (by simp)
  refine Exec.Keeps.forEach fun nameserver _ => ?_
  exact Exec.Keeps.bind (undisturbed_truthful.call fun _ => quiet_store _ _ _ _) fun _ =>
    undisturbed_truthful.call fun _ => quiet_poll _ _ _

theorem keeps_updateZone (succeeds : String → Bool) :
    Exec.Keeps (Truthful S m₀)
      (updateZone (manager S zone) pollForSerialNumber succeeds zone) := by
  unfold updateZone
  refine Exec.Keeps.ite (fun _ => ?_) fun _ => ?_
  · exact Exec.Keeps.bind (Exec.Keeps.forEach fun nameserver _ =>
      undisturbed_truthful.askFor zone _ nameserver)
      fun _ => Exec.Keeps.pure _
  · exact Exec.Keeps.bind (keeps_tell_truthful (by simp)) fun _ => Exec.Keeps.pure _

section

variable {update : ZoneView → Exec (Manager (Outside Deletion.Site)) Fault Bool}
  {I : State → Prop}

theorem keeps_syncCycle (hupdate : ∀ zone, Exec.Keeps I (update zone)) :
    ∀ zones, Exec.Keeps I (syncCycle update zones)
  | [] => Exec.Keeps.pure _
  | zone :: zones =>
    Exec.Keeps.bind (Exec.Keeps.catching (hupdate zone) (Exec.Keeps.pure _)) fun _ =>
      Exec.Keeps.bind (keeps_syncCycle hupdate zones) fun _ => Exec.Keeps.pure _

end

/-- A synchronization, by induction on the cycles that are left. -/
theorem keeps_periodicSync (succeeds : Nat → ZoneView → String → Bool) (cycles : Nat) :
    ∀ zones, Exec.Keeps (Truthful S m₀)
      (periodicSync (manager S)
        (fun cycle zone =>
          updateZone (manager S zone) pollForSerialNumber (succeeds cycle zone) zone)
        cycles zones) := by
  induction cycles with
  | zero => exact fun _ => Exec.Keeps.raise _
  | succ cycles ih =>
    intro zones
    unfold periodicSync
    refine Exec.Keeps.bind (keeps_syncCycle (fun zone => keeps_updateZone _) zones) fun inError => ?_
    refine Exec.Keeps.ite (fun _ => Exec.Keeps.pure _) fun _ => ?_
    refine Exec.Keeps.ite (fun _ => ?_) fun _ => ih inError
    exact Exec.Keeps.forEach fun zone _ => keeps_tell_truthful (by simp)

end

/-! ## A synchronization -/

section

variable {S : Setup}

/-- A run that returns, and tells central nothing. -/
def Silent (prog : Exec State Fault Unit) : Prop :=
  ∀ m, ∃ outside, prog m = (.ok (), { m with outside })

theorem silent_askFor (zone z : ZoneView) (action : Action) (nameserver : Nameserver) :
    Silent (askFor S zone z action nameserver) := by
  intro m
  cases hkept : m.outside.kept ⟨nameserver.id, z.id, action⟩ with
  | some e =>
    simp [askFor, Exec.catching, Exec.bind_apply, call, manager, service, Outside.retrieve, hkept,
      pollForSerialNumber, Exec.modify]
  | none =>
    simp [askFor, Exec.catching, Exec.bind_apply, call, manager, service, Outside.retrieve, hkept,
      Outside.store, pollForSerialNumber, Exec.modify]

theorem silent_forEach {α : Type} {f : α → Exec State Fault Unit} (hf : ∀ a, Silent (f a)) :
    ∀ l, Silent (Exec.forEach f l)
  | [], m => ⟨m.outside, rfl⟩
  | a :: l, m => by
    obtain ⟨outside, ha⟩ := hf a m
    obtain ⟨outside', hl⟩ := silent_forEach hf l { m with outside }
    exact ⟨outside', (Exec.bind_ok ha).trans hl⟩

/-- What central is told of a zone in error. -/
def inError (zone : ZoneView) : Message := ⟨zone.id, .ERROR, zone.serial⟩

/-- Too few of the targets let an update through. -/
def fails (S : Setup) (succeeds : ZoneView → String → Bool) (zone : ZoneView) : Bool :=
  !meets S.threshold (S.pool.targets.countP (succeeds zone)) S.pool.targets.length

/-- What central is told is written down, whatever it makes of it. -/
theorem tell_run (zone : ZoneView) (m : State) : ∃ outside,
    tell (manager S zone) (inError zone) m =
      ((tell (manager S zone) (inError zone) m).1, ⟨outside, m.told ++ [inError zone]⟩) :=
  ⟨_, rfl⟩

/-- An update comes through, or central is told, and the cycle counts it as failed. -/
theorem updateZone_run (succeeds : ZoneView → String → Bool) (zone : ZoneView) (m : State) :
    ∃ outside, Exec.catching (fun _ => true)
      (updateZone (manager S zone) pollForSerialNumber (succeeds zone) zone) (pure false) m =
        (.ok (!fails S succeeds zone),
          ⟨outside, m.told ++ if fails S succeeds zone then [inError zone] else []⟩) := by
  -- the targets that came through are enough, or the cycle has failed the zone
  have hmeets : exceedOrMeetThreshold (manager S zone)
      ((manager S zone).pool.targets.countP (succeeds zone)) none = !fails S succeeds zone :=
    (Bool.not_not _).symm
  cases hfails : fails S succeeds zone with
  | false =>
    rw [hfails] at hmeets
    obtain ⟨outside, hask⟩ := silent_forEach (silent_askFor (S := S) zone zone .UPDATE)
      (manager S zone).pool.nameservers m
    -- enough of them: nameservers are asked, and nothing is told
    have hrun : updateZone (manager S zone) pollForSerialNumber (succeeds zone) zone m =
        (.ok true, { m with outside }) :=
      (congrFun (if_pos hmeets) m).trans (Exec.bind_ok hask)
    refine ⟨outside, ?_⟩
    simp [Exec.catching, hrun]
  | true =>
    rw [hfails] at hmeets
    have hrun : updateZone (manager S zone) pollForSerialNumber (succeeds zone) zone m =
        (do
          tell (manager S zone) (inError zone)
          pure false : Exec State Fault Bool) m :=
      congrFun (if_neg (by rw [hmeets]; decide)) m
    -- it is told once, whether central can be reached or not
    obtain ⟨outside, htell⟩ := tell_run zone m
    refine ⟨outside, ?_⟩
    unfold Exec.catching
    rw [hrun, Exec.bind_apply, htell]
    cases (tell (manager S zone) (inError zone) m).1 with
    | ok u => rfl
    | error e => rfl

/-- A cycle leaves the zones in error that fail in it, and central is told of each. -/
theorem syncCycle_run (succeeds : ZoneView → String → Bool) :
    ∀ zones (m : State), ∃ outside,
      syncCycle (fun zone => updateZone (manager S zone) pollForSerialNumber (succeeds zone) zone)
        zones m = (.ok (zones.filter (fails S succeeds)),
          ⟨outside, m.told ++ (zones.filter (fails S succeeds)).map inError⟩)
  | [], m => ⟨m.outside, by simp [syncCycle]⟩
  | zone :: zones, m => by
    obtain ⟨outside, hupdate⟩ := updateZone_run (S := S) succeeds zone m
    obtain ⟨outside', hcycle⟩ := syncCycle_run succeeds zones
      ⟨outside, m.told ++ if fails S succeeds zone then [inError zone] else []⟩
    refine ⟨outside', ?_⟩
    unfold syncCycle
    rw [Exec.bind_ok hupdate, Exec.bind_ok hcycle, List.filter_cons]
    cases fails S succeeds zone <;> simp

/-- The last messages end with the first that central does not take. -/
theorem tellAll_run : ∀ zones (m : State), ∃ last, last <+: zones ∧
    (Exec.forEach (fun zone => tell (manager S zone) (inError zone)) zones m).2.told =
      m.told ++ last.map inError ∧
    ((Exec.forEach (fun zone => tell (manager S zone) (inError zone)) zones m).1 = .ok () →
      last = zones)
  | [], m => ⟨[], List.prefix_refl _, (List.append_nil _).symm, fun _ => rfl⟩
  | zone :: zones, m => by
    obtain ⟨outside, htell⟩ := tell_run (S := S) zone m
    unfold Exec.forEach
    cases hresult : (tell (manager S zone) (inError zone) m).1 with
    -- the message that is not taken was sent all the same
    | error e =>
      rw [hresult] at htell
      rw [Exec.bind_error htell]
      exact ⟨[zone], ⟨zones, rfl⟩, rfl, fun h => by cases h⟩
    | ok u =>
      rw [hresult] at htell
      rw [Exec.bind_ok htell]
      obtain ⟨last, hprefix, htold, hall⟩ := tellAll_run zones ⟨outside, m.told ++ [inError zone]⟩
      refine ⟨zone :: last, (List.prefix_cons_inj zone).mpr hprefix, ?_, fun h => ?_⟩
      · rw [htold, List.map_cons, List.append_assoc]
        rfl
      · rw [hall h]

variable (S) in
/-- A zone has failed in this cycle and in all before it; cycles are counted down. -/
def failsFrom (succeeds : Nat → ZoneView → String → Bool) (cycles cycle : Nat) (zone : ZoneView) :
    Bool := decide (∀ c < cycles, cycle ≤ c → fails S (succeeds c) zone = true)

/-- Who has failed since the first cycle failed in it, and has failed since the next one. -/
theorem filter_failsFrom (succeeds : Nat → ZoneView → String → Bool) {cycles cycle : Nat}
    (hcycle : cycle ≤ cycles) (zones : List ZoneView) :
    (zones.filter (fails S (succeeds cycles))).filter (failsFrom S succeeds cycles cycle) =
      zones.filter (failsFrom S succeeds (cycles + 1) cycle) := by
  rw [List.filter_filter]
  refine List.filter_congr fun zone _ => ?_
  rw [Bool.eq_iff_iff, Bool.and_eq_true, failsFrom, failsFrom, decide_eq_true_iff,
    decide_eq_true_iff]
  constructor
  · rintro ⟨hbefore, hnow⟩ c hc hle
    rcases Nat.lt_succ_iff_lt_or_eq.mp hc with hlt | rfl
    · exact hbefore c hlt hle
    · exact hnow
  · intro hall
    exact ⟨fun c hc hle => hall c (Nat.lt_succ_of_lt hc) hle,
      hall cycles (Nat.lt_succ_self _) hcycle⟩

/-- The messages of a synchronization are those of its first cycle, and those of the others. -/
theorem flatMap_failsFrom (succeeds : Nat → ZoneView → String → Bool) (cycles : Nat)
    (zones : List ZoneView) :
    ((List.range (cycles + 1)).reverse.flatMap fun cycle =>
        (zones.filter (failsFrom S succeeds (cycles + 1) cycle)).map inError) =
      (zones.filter (fails S (succeeds cycles))).map inError ++
        (List.range cycles).reverse.flatMap fun cycle =>
          ((zones.filter (fails S (succeeds cycles))).filter
            (failsFrom S succeeds cycles cycle)).map inError := by
  rw [List.range_succ, List.reverse_append, List.reverse_singleton, List.singleton_append,
    List.flatMap_cons, ← filter_failsFrom succeeds (Nat.le_refl cycles) zones]
  congr 1
  · refine congrArg _ (List.filter_eq_self.mpr fun zone _ => decide_eq_true ?_)
    exact fun c hc hle => absurd hle (Nat.not_le.mpr hc)
  · refine List.flatMap_congr fun cycle hcycle => ?_
    have hlt : cycle < cycles := List.mem_range.mp (List.mem_reverse.mp hcycle)
    rw [filter_failsFrom succeeds (Nat.le_of_lt hlt) zones]

variable (S) in
/-- `periodic_sync`, with the targets that let the updates of each cycle through. -/
abbrev synchronize (succeeds : Nat → ZoneView → String → Bool) :
    Nat → List ZoneView → Exec State Fault Unit :=
  periodicSync (manager S) fun cycle zone =>
    updateZone (manager S zone) pollForSerialNumber (succeeds cycle zone) zone

/-- A synchronization of at least one cycle, by induction on the cycles that are left. -/
theorem synchronize_told (S : Setup) (succeeds : Nat → ZoneView → String → Bool) (cycles : Nat) :
    ∀ zones (m : State), ∃ last,
      (synchronize S succeeds (cycles + 1) zones m).2.told = m.told ++
        ((List.range (cycles + 1)).reverse.flatMap fun cycle =>
          (zones.filter (failsFrom S succeeds (cycles + 1) cycle)).map inError) ++
        last.map inError ∧
      last <+: zones.filter (failsFrom S succeeds (cycles + 1) 0) ∧
      ((synchronize S succeeds (cycles + 1) zones m).1 = .ok () →
        last = zones.filter (failsFrom S succeeds (cycles + 1) 0)) := by
  induction cycles with
  | zero =>
    -- in the last cycle the zones that failed are told once more
    intro zones m
    obtain ⟨outside, hcycle⟩ := syncCycle_run (S := S) (succeeds 0) zones m
    rw [flatMap_failsFrom, ← filter_failsFrom succeeds (Nat.le_refl 0) zones]
    have hall : ∀ l : List ZoneView, l.filter (failsFrom S succeeds 0 0) = l := fun l =>
      List.filter_eq_self.mpr fun zone _ => decide_eq_true fun c hc => absurd hc (Nat.not_lt_zero c)
    rw [hall]
    unfold synchronize periodicSync
    rw [Exec.bind_ok hcycle]
    split
    · next hnone =>
      refine ⟨[], ?_, List.nil_prefix, fun _ => hnone.symm⟩
      simp
    · rw [if_pos rfl]
      obtain ⟨last, hprefix, htold, hlast⟩ := tellAll_run (S := S)
        (zones.filter (fails S (succeeds 0)))
        ⟨outside, m.told ++ (zones.filter (fails S (succeeds 0))).map inError⟩
      refine ⟨last, ?_, hprefix, hlast⟩
      rw [List.range_zero, List.reverse_nil, List.flatMap_nil, List.append_nil]
      exact htold
  | succ cycles ih =>
    -- what fails now is tried again, so the later cycles are about fewer zones
    intro zones m
    obtain ⟨outside, hcycle⟩ := syncCycle_run (S := S) (succeeds (cycles + 1)) zones m
    rw [flatMap_failsFrom, ← filter_failsFrom succeeds (Nat.zero_le (cycles + 1)) zones]
    unfold synchronize periodicSync
    rw [Exec.bind_ok hcycle]
    split
    · next hnone =>
      rw [hnone]
      exact ⟨[], by simp, List.nil_prefix, fun _ => rfl⟩
    · rw [if_neg (Nat.succ_ne_zero cycles)]
      obtain ⟨last, htold, hprefix, hlast⟩ := ih (zones.filter (fails S (succeeds (cycles + 1))))
        ⟨outside, m.told ++ (zones.filter (fails S (succeeds (cycles + 1)))).map inError⟩
      refine ⟨last, ?_, hprefix, hlast⟩
      rw [htold]
      simp only [List.append_assoc]

/--
**A zone is updated until an update comes through, and no longer**: in each cycle central is
told of the zones that have failed in all the cycles so far, and in the end once more of those
that have failed in every one, unless it does not take one of these messages. Where the number
of cycles is set to zero nothing is told, and the call does not return.
-/
theorem periodicSync_told (S : Setup) (succeeds : Nat → ZoneView → String → Bool) (cycles : Nat)
    (zones : List ZoneView) (m : State) :
    ∃ last,
      (synchronize S succeeds cycles zones m).2.told = m.told ++
        ((List.range cycles).reverse.flatMap fun cycle =>
          (zones.filter (failsFrom S succeeds cycles cycle)).map inError) ++
        last.map inError ∧
      last <+: zones.filter (failsFrom S succeeds cycles 0) ∧
      ((synchronize S succeeds cycles zones m).1 = .ok () →
        last = zones.filter (failsFrom S succeeds cycles 0)) := by
  cases cycles with
  | zero =>
    -- `zones_in_error` was never assigned, so its loop raises before it tells anything
    refine ⟨[], by simp [synchronize, periodicSync], List.nil_prefix, ?_⟩
    intro h
    exact absurd h (by simp [synchronize, periodicSync])
  | succ cycles => exact synchronize_told S succeeds cycles zones m

end

/-! ## Runs -/

section

variable {S : Setup}

/-- The mini DNS polls, and central does not come to know of it yet. -/
theorem poll_truthful {m : State} (n : Nat) (sends : List Sent) (h : Grounded S m) :
    Truthful S m (Deletion.happen S (.poll n sends) m) := by
  have hstands := Deletion.happen_stands (.poll n sends) m h.stands
  unfold Deletion.happen at hstands ⊢
  dsimp only at hstands ⊢
  split at hstands
  · exact h.truthful
  · next zone nameserver _ =>
    cases hpoll : poll S zone nameserver sends m.site with
    | mk result site =>
      rw [hpoll] at hstands
      obtain ⟨received, -, rfl, -⟩ := poll_run hpoll
      cases result with
      | error e => exact h.truthful.extend rfl rfl hstands
      | ok answer => exact h.truthful.extend rfl rfl hstands

/-- **Nothing but a request to central itself takes a zone for published that is not.** -/
theorem happen_truthful (happening : Happening) (m : State) (h : Grounded S m)
    (hown : ∀ input, happening ≠ .other (.request input)) :
    Truthful S m (happen S happening m) := by
  -- one case a happening; a request to central is the one that is excluded
  cases happening with
  | create zone attempts => exact keeps_createZone attempts m h.truthful
  | update zone succeeds => exact keeps_updateZone succeeds m h.truthful
  | sync cycles zones succeeds => exact keeps_periodicSync succeeds cycles zones m h.truthful
  | other happening =>
    cases happening with
    | delete zone attempts =>
      exact undisturbed_truthful.deleteZone attempts (keeps_tell_truthful (by simp)) m h.truthful
    | poll n sends => exact poll_truthful n sends h
    | deliver n polls =>
      simp only [happen, Deletion.happen]
      split
      · exact h.truthful
      · next report hreport =>
        have hpolled : Grounded S (m.withSite { m.site with polls }) :=
          ⟨h.linked, h.stands.kept, h.stands.reports⟩
        have hhandled :=
          handle_truthful hpolled (h.stands.reports report (List.mem_of_getElem? hreport))
        exact ⟨hhandled.grounded, hhandled.active⟩
    | expiry key => exact undisturbed_truthful m _ (quiet_without key m.outside) h.truthful
    | request input => exact absurd rfl (hown input)

theorem happen_grounded (happening : Happening) (m : State) (h : Grounded S m) :
    Grounded S (happen S happening m) := by
  by_cases hrequest : ∃ input, happening = .other (.request input)
  · obtain ⟨input, rfl⟩ := hrequest
    exact ⟨serve_linked S.conf input h.linked, h.stands.kept, h.stands.reports⟩
  · exact (happen_truthful happening m h fun input hinput => hrequest ⟨input, hinput⟩).grounded

/--
**A zone is active only once its nameservers have it**, whatever happens and in whichever
order: a zone that the pool manager has made active is answered for by as many of the
nameservers as the threshold asks for of the targets, with its serial or a later one.
-/
theorem run_published (S : Setup) (happenings : List Happening) (m : State)
    (hlinked : m.site.central.Linked) (hkept : ∀ key, m.outside.kept key = none)
    (hreports : m.site.reports = []) :
    ∀ t ∈ Run.transitions (happen S) happenings m,
      (∀ input, t.input ≠ .other (.request input)) → ∀ z, Active t.after.site.central z →
        (∃ y, Active t.before.site.central y ∧ y.id = z.id) ∨
          ∃ zoneId, S.rowOf zoneId = z.id ∧ Published S t.after.site.heard zoneId z.serial := by
  have hstart : Grounded S m :=
    ⟨hlinked, fun key e he => absurd (hkept key ▸ he) (by simp), by simp [hreports]⟩
  refine Run.forall_transitions (G := fun _ _ => True)
    (P := fun m happening m' => (∀ input, happening ≠ .other (.request input)) →
      ∀ z, Active m'.site.central z → (∃ y, Active m.site.central y ∧ y.id = z.id) ∨
        ∃ zoneId, S.rowOf zoneId = z.id ∧ Published S m'.site.heard zoneId z.serial)
    (fun happening m h _ => happen_grounded happening m h) ?_ hstart fun _ _ => trivial
  intro happening m h _ hown
  exact (happen_truthful happening m h hown).active

end

/-! ## A new zone on two nameservers -/

def newZone : Zone := { doomedZone with action := .CREATE }

def newView : ZoneView := { view with action := .CREATE }

/-- The zone is new, and nothing is known of the nameservers. -/
def unpublished : State :=
  start.withSite { start.site with central := { db := { zones := [newZone] }, nextId := 3 } }

/-- Both nameservers are polled for the zone, and the reports are handled. -/
def publishing : List Happening :=
  [.create newView fun _ _ => true, .other (.poll 0 [.response soa]),
    .other (.poll 1 [.response soa]), .other (.deliver 0 fun _ => []),
    .other (.deliver 1 fun _ => [])]

/-- The zone has been created on the targets, and this has been heard and reported. -/
def created (heard : List Heard) (reports : List Report) : State :=
  ⟨⟨Function.update (Function.update (fun _ => none) ⟨"one", "zone", .CREATE⟩ (some ⟨none, 0⟩))
      ⟨"two", "zone", .CREATE⟩ (some ⟨none, 0⟩), [],
    { unpublished.site with
      asked := [(newView, PoolManager.Polled.one), (newView, PoolManager.Polled.two)],
      heard, reports }⟩, []⟩

def bothServed : List Report :=
  [⟨newView, PoolManager.Polled.one, .SUCCESS, some 5⟩,
    ⟨newView, PoolManager.Polled.two, .SUCCESS, some 5⟩]

/-- The first of the reports has been taken down. -/
def firstHandled : State :=
  { created [⟨"zone", "one", soa⟩, ⟨"zone", "two", soa⟩] bothServed with
    outside := (created [⟨"zone", "one", soa⟩, ⟨"zone", "two", soa⟩] bothServed).outside.taken
      ⟨newView, PoolManager.Polled.one, .SUCCESS, some 5⟩ }

theorem create_run : happen (setup 100) (.create newView fun _ _ => true) unpublished =
    created [] [] := by
  have hmeets : meets 100 2 2 = true := (meets_iff (by decide)).mpr (by decide)
  exact congrArg (fun prog : Exec State Fault Unit => (prog unpublished).2) (if_pos hmeets)

/-- One of the reports does not make the zone active, and the other one does. -/
theorem publishing_final :
    (Run.final (happen (setup 100)) publishing unpublished).site.central.db.zones =
      [{ newZone with action := .NONE, status := .ACTIVE }] := by
  have hfirst : happen (setup 100) (.other (.deliver 0 fun _ => []))
      (created [⟨"zone", "one", soa⟩, ⟨"zone", "two", soa⟩] bothServed) =
        firstHandled := by
    show (handle _ _ _ _ _).2 = _
    rw [handle_of rfl rfl (c := some 0) (by decide)]
    rfl
  unfold publishing
  simp only [Run.final]
  rw [create_run]
  show (State.site (happen _ _ (happen _ _
    (created [⟨"zone", "one", soa⟩, ⟨"zone", "two", soa⟩] bothServed)))).central.db.zones = _
  rw [hfirst]
  show (State.site (handle _ _ _ _ _).2).central.db.zones = _
  rw [handle_of rfl rfl (c := some 5) (by decide)]
  decide +kernel

theorem run_published_sample :
    (∃ z, Active (Run.final (happen (setup 100)) publishing unpublished).site.central z) ∧
    ∀ t ∈ Run.transitions (happen (setup 100)) publishing unpublished,
      (∀ input, t.input ≠ .other (.request input)) → ∀ z, Active t.after.site.central z →
        (∃ y, Active t.before.site.central y ∧ y.id = z.id) ∨
          ∃ zoneId, (setup 100).rowOf zoneId = z.id ∧
            Published (setup 100) t.after.site.heard zoneId z.serial := by
  have hlinked : unpublished.site.central.Linked :=
    ⟨by decide, by decide, by decide, by decide, by decide, by decide, by decide, by decide⟩
  refine ⟨⟨{ newZone with action := .NONE, status := .ACTIVE }, ?_, rfl, rfl⟩,
    run_published (setup 100) publishing unpublished hlinked (fun _ => rfl) rfl⟩
  rw [publishing_final]
  exact List.mem_singleton_self _

/-! ## No success is lost -/

section

variable {ε : Type} {pool : Pool} {threshold : Nat} {P : Parties ε} {zoneId : String}
  {action : Action} {kept : Kept} {serial : Nat} {m : Manager (Outside ε)}

/-- Something is kept of every nameserver, for the zone and action. -/
def AllKept (pool : Pool) (zoneId : String) (action : Action) (kept : Kept) : Prop :=
  ∀ n ∈ pool.nameservers, (kept ⟨n.id, zoneId, action⟩).isSome = true

/-- What is kept of the nameservers for the zone and action is what was kept. -/
def Stays (pool : Pool) (zoneId : String) (action : Action) (kept : Kept)
    (m : Manager (Outside ε)) : Prop :=
  ∀ n ∈ pool.nameservers, m.outside.kept ⟨n.id, zoneId, action⟩ = kept ⟨n.id, zoneId, action⟩

/-- Something is kept of every nameserver, of too few of them with the serial. -/
structure Awaiting (pool : Pool) (threshold : Nat) (zoneId : String) (action : Action)
    (serial : Nat) (m : Manager (Outside ε)) : Prop where
  all : AllKept pool zoneId action m.outside.kept
  few : holding m.outside.kept zoneId action pool.nameservers serial < needed pool threshold

/-- Since the messages `old`, central has been told of a success with the serial or a later one. -/
def Succeeded (old : List Message) (zoneId : String) (serial : Nat) (m : Manager (Outside ε)) :
    Prop :=
  ∃ news, m.told = old ++ news ∧
    ∃ msg ∈ news, msg.zoneId = zoneId ∧ msg.status = .SUCCESS ∧ serial ≤ msg.serial

/-- What is reported of the zone is of this change, as long as it is under way. -/
def Timely (zoneId : String) (action : Action) (serial : Nat) : Arrival → Prop
  | .report r => r.zone.id = zoneId →
      actionOf r.zone = action ∧ r.zone.status ≠ .ACTIVE ∧ serial ≤ r.zone.serial
  | .expiry key => key.zoneId = zoneId → key.action ≠ action

/-- A report tells that the nameserver serves this serial or a later one. -/
def tells (zoneId : String) (action : Action) (serial : Nat) (n : Nameserver) : Arrival → Bool
  | .report r =>
    r.key == ⟨n.id, zoneId, action⟩ && decide (serial ≤ r.actualSerial.getD 0)
  | .expiry _ => false

/-- A nameserver is kept with this serial or a later one. -/
def Holds (m : Manager (Outside ε)) (zoneId : String) (action : Action) (serial : Nat)
    (n : Nameserver) : Prop :=
  serial ≤ (m.outside.kept.serial ⟨n.id, zoneId, action⟩).getD 0

theorem AllKept.of_stays (h : AllKept pool zoneId action kept)
    (hstays : Stays pool zoneId action kept m) : AllKept pool zoneId action m.outside.kept :=
  fun n hn => (hstays n hn).symm ▸ h n hn

theorem Stays.holding (hstays : Stays pool zoneId action kept m) (serial : Nat) :
    holding m.outside.kept zoneId action pool.nameservers serial =
      holding kept zoneId action pool.nameservers serial := by
  refine List.countP_congr fun n hn => ?_
  unfold Kept.serial
  rw [hstays n hn]

variable (threshold P) in
/-- Where something is kept of a nameserver, no answer takes its place. -/
theorem keeps_retrieveStatus_stays (hall : AllKept pool zoneId action kept) (z : ZoneView)
    {zone : ZoneView} (hzone : zone.id = zoneId → actionOf zone = action)
    (nameserver : Nameserver) :
    Exec.Keeps (Stays pool zoneId action kept)
      (retrieveStatus (service pool threshold P z) zone (actionOf zone) nameserver) := by
  intro m hm
  rcases retrieveStatus_cases pool threshold P z zone nameserver m with
    ⟨_, _, hrun⟩ | ⟨hmiss, ⟨_, _, _, _, _, hrun⟩ | ⟨r, rest, rfl, rfl, _, hrun⟩⟩
  · rw [hrun]; exact hm
  · rw [hrun]; exact hm
  · rw [hrun]
    intro n hn
    refine (Function.update_of_ne ?_ _ _).trans (hm n hn)
    intro hkey
    have haction : r.key.action = action :=
      hzone ((answerKey_zone r).symm.trans (congrArg Key.zoneId hkey.symm))
    rcases answerKey_cases r with hanswer | ⟨hupdate, hanswer⟩
    · -- the nameserver was asked as nothing was kept of it
      have hsome := hall n hn
      rw [← hm n hn, hkey, hanswer, show m.outside.kept r.key = none from hmiss] at hsome
      exact absurd hsome (by simp)
    · have hcreate : action = .CREATE := congrArg Key.action (hkey.trans hanswer)
      rw [haction, hcreate] at hupdate
      exact absurd hupdate (by simp)

/-- What follows the search for the consensus serial. -/
theorem keeps_conclude {I : Manager (Outside ε) → Prop} {r : Report} {c : Nat}
    (hone : ∀ nameserver, Exec.Keeps I
      (retrieveStatus (service pool threshold P r.zone) r.zone (actionOf r.zone) nameserver))
    (htell : ∀ msg, Exec.Keeps I (tell (service pool threshold P r.zone) msg))
    (htidy : Exec.Keeps I (tidyUp (service pool threshold P r.zone) r.zone c))
    (cacheSerial : Nat) :
    Exec.Keeps I (do
      tellSuccess (service pool threshold P r.zone) r.zone cacheSerial c
      tellFailure (service pool threshold P r.zone) r.zone r.status c
      tidyUp (service pool threshold P r.zone) r.zone c) := by
  refine Exec.Keeps.bind ?_ fun _ =>
    Exec.Keeps.bind (keeps_tellFailure hone (fun msg _ => htell msg) r.status c) fun _ => htidy
  unfold tellSuccess
  exact Exec.Keeps.ite (fun _ => htell _) fun _ => Exec.Keeps.pure _

variable (threshold P) in
/-- A report of another zone leaves what is kept for this one. -/
theorem handle_stays {r : Report} (hall : AllKept pool zoneId action m.outside.kept)
    (hother : r.zone.id ≠ zoneId) :
    Stays pool zoneId action m.outside.kept (handle pool threshold P r m).2 := by
  have hone := keeps_retrieveStatus_stays threshold P hall r.zone fun h => absurd h hother
  -- what is cleared is kept under the other zone's name
  have hclear : ∀ nameserver, Exec.Keeps (Stays pool zoneId action m.outside.kept)
      (call ((service pool threshold P r.zone).clear
        (buildStatusObject nameserver r.zone (actionOf r.zone)))) := by
    intro nameserver v hv n hn
    refine (Function.update_of_ne ?_ _ _).trans (hv n hn)
    intro hkey
    exact hother (congrArg Key.zoneId hkey).symm
  rw [handle_run]
  refine Exec.Keeps.bind ?_ (fun c => keeps_conclude hone (fun _ _ h => h)
    (keeps_tidyUp hone hclear c) _) _ ?_
  · exact Exec.Keeps.bind (keeps_retrieveStatusesOf _ hone _) fun _ => Exec.Keeps.pure _
  · intro n _
    refine Function.update_of_ne ?_ _ _
    intro hkey
    exact hother (congrArg Key.zoneId hkey).symm

variable (pool threshold P) in
/-- With something kept of every nameserver, none is asked. -/
theorem retrieveStatusesOf_kept (z zone : ZoneView) : ∀ nameservers : List Nameserver,
    (∀ n ∈ nameservers, (m.outside.kept ⟨n.id, zone.id, actionOf zone⟩).isSome = true) →
    ∃ statuses, retrieveStatusesOf (service pool threshold P z) zone (actionOf zone) nameservers m =
      (.ok statuses, m)
  | [], _ => ⟨[], rfl⟩
  | nameserver :: nameservers, hall => by
    obtain ⟨statuses, hrest⟩ := retrieveStatusesOf_kept z zone nameservers
      fun n hn => hall n (List.mem_cons_of_mem _ hn)
    rcases retrieveStatus_cases pool threshold P z zone nameserver m with
      ⟨e, _, hone⟩ | ⟨hmiss, _⟩
    · refine ⟨e.load ⟨nameserver.id, zone.id, actionOf zone⟩ :: statuses, ?_⟩
      unfold retrieveStatusesOf
      rw [Exec.bind_ok hone, Exec.bind_ok hrest]
      rfl
    · have hsome := hall nameserver List.mem_cons_self
      rw [hmiss] at hsome
      exact absurd hsome (by simp)

variable (threshold P) in
/-- Then the consensus serial is the one that is backed by what is kept. -/
theorem getConsensusSerial_kept (z zone : ZoneView)
    (hall : AllKept pool zone.id (actionOf zone) m.outside.kept) :
    ∃ c, getConsensusSerial (service pool threshold P z) zone m = (.ok c, m) ∧
      ∀ serial, 0 < serial → (serial ≤ c ↔
        needed pool threshold ≤
          holding m.outside.kept zone.id (actionOf zone) pool.nameservers serial) := by
  obtain ⟨statuses, hrun⟩ := retrieveStatusesOf_kept pool threshold P z zone pool.nameservers hall
  obtain ⟨news, hnews, hconsensus⟩ := consensus_backed (Q := fun _ _ => True) hrun
  obtain rfl : news = [] := List.append_cancel_left (hnews.log.symm.trans (List.append_nil _).symm)
  obtain ⟨hbacked, hmost⟩ := hconsensus fun e he => absurd he List.not_mem_nil
  refine ⟨_, getConsensusSerial_of hrun, fun serial hpos => ⟨fun hle => ?_, fun hneeded => ?_⟩⟩
  · refine Nat.le_trans (hbacked (by omega)).2 (List.countP_mono_left fun n _ hn => ?_)
    simp only [decide_eq_true_eq] at hn ⊢
    exact Nat.le_trans hle hn
  · exact hmost serial ⟨hpos, hneeded⟩

/-- A report is taken down, and what is kept of the others stays. -/
theorem Awaiting.taken (h : Awaiting pool threshold zoneId action serial m) (r : Report) :
    AllKept pool zoneId action (m.outside.taken r).kept := by
  intro n hn
  unfold Outside.taken
  dsimp only
  by_cases hkey : (⟨n.id, zoneId, action⟩ : Key) = r.key
  · rw [hkey, Function.update_self]
    rfl
  · rw [Function.update_of_ne hkey]
    exact h.all n hn

/-- Who is kept with the serial stays so, and who is reported with it is kept with it. -/
theorem holds_taken (r : Report) {n : Nameserver} (h : Holds m zoneId action serial n ∨
    tells zoneId action serial n (.report r) = true) :
    Holds { m with outside := m.outside.taken r } zoneId action serial n := by
  unfold Holds Outside.taken at *
  dsimp only at *
  -- the report is about this nameserver, zone and action, or it leaves them alone
  by_cases hkey : r.key = ⟨n.id, zoneId, action⟩
  · have hraised := recorded_serial r (m.outside.kept r.key)
    rw [← hkey, Kept.serial_update, Option.map_some, hraised]
    rcases h with h | h
    · rw [← hkey] at h
      exact Nat.le_trans h (le_raised _ _)
    · have hactual : serial ≤ r.actualSerial.getD 0 :=
        of_decide_eq_true (Bool.and_eq_true_iff.mp h).2
      cases hmax : raised ((m.outside.kept r.key).map Entry.serialNumber)
          [r.actualSerial.getD 0] with
      | none => simp [raised] at hmax
      | some greatest =>
        have := (List.max?_eq_some_iff.mp hmax).2 (r.actualSerial.getD 0) (by simp)
        exact Nat.le_trans hactual this
  · rw [Kept.serial_update_ne _ hkey]
    refine h.resolve_right fun h => hkey ?_
    exact eq_of_beq (Bool.and_eq_true_iff.mp h).1

/-- **As soon as enough are kept with the serial, it was the report that made them enough.** -/
theorem Awaiting.fresh (h : Awaiting pool threshold zoneId action serial m) {r : Report}
    (hneeded : needed pool threshold ≤
      holding (m.outside.taken r).kept zoneId action pool.nameservers serial) :
    (m.outside.kept.serial r.key).getD 0 < serial := by
  by_contra hle
  refine absurd (Nat.le_trans hneeded ?_) (Nat.not_le.mpr h.few)
  refine List.countP_mono_left fun n _ hn => ?_
  unfold Outside.taken at hn
  dsimp only at hn
  by_cases hkey : r.key = ⟨n.id, zoneId, action⟩
  · rw [← hkey]
    exact decide_eq_true (Nat.le_of_not_lt hle)
  · rwa [Kept.serial_update_ne _ hkey] at hn

/-- What has been told stays told. -/
theorem Succeeded.told {m' : Manager (Outside ε)} {old : List Message}
    (h : Succeeded old zoneId serial m) (hmore : PoolManager.Told m.told (fun _ => True) m') :
    Succeeded old zoneId serial m' := by
  obtain ⟨news, htold, msg, hmsg, hsuccess⟩ := h
  obtain ⟨more, htold', -⟩ := hmore
  refine ⟨news ++ more, ?_, msg, List.mem_append_left _ hmsg, hsuccess⟩
  rw [htold', htold, List.append_assoc]

/-- **A report that makes them enough is told to central; else they are still awaited.** -/
theorem handle_awaits {r : Report} (hpos : 0 < serial)
    (h : Awaiting pool threshold zoneId action serial m) (hzone : r.zone.id = zoneId)
    (htimely : Timely zoneId action serial (.report r)) :
    Succeeded m.told zoneId serial (handle pool threshold P r m).2 ∨
      Awaiting pool threshold zoneId action serial (handle pool threshold P r m).2 ∧
        Stays pool zoneId action (m.outside.taken r).kept (handle pool threshold P r m).2 := by
  obtain ⟨haction, hactive, hserial⟩ := htimely hzone
  subst hzone haction
  have hall := h.taken r
  obtain ⟨c, hrun, hbacked⟩ := getConsensusSerial_kept threshold P r.zone r.zone
    (m := { m with outside := m.outside.taken r }) hall
  rw [handle_run]
  unfold afterwards
  rw [Exec.bind_ok hrun]
  by_cases hneeded : needed pool threshold ≤
      holding (m.outside.taken r).kept r.zone.id (actionOf r.zone) pool.nameservers serial
  · have hle : serial ≤ c := (hbacked serial hpos).mpr hneeded
    have hfresh := h.fresh hneeded
    have hcond : c ≠ 0 ∧ (m.outside.kept.serial r.key).getD 0 ≤ c ∧ r.zone.status ≠ .ACTIVE :=
      ⟨by omega, by omega, hactive⟩
    -- the message is sent, and whatever follows takes no message back
    have hone : ∀ n, Exec.Keeps
        (PoolManager.Told (m.told ++ [⟨r.zone.id, .SUCCESS, c⟩]) fun _ => True)
        (retrieveStatus (service pool threshold P r.zone) r.zone (actionOf r.zone) n) :=
      keeps_retrieveStatus r.zone (actionOf r.zone)
    have hsend : Exec.Triple (fun v => v = { m with outside := m.outside.taken r })
        (tellSuccess (service pool threshold P r.zone) r.zone
          ((m.outside.kept.serial r.key).getD 0) c)
        (fun _ => PoolManager.Told (m.told ++ [⟨r.zone.id, .SUCCESS, c⟩]) fun _ => True)
        (PoolManager.Told (m.told ++ [⟨r.zone.id, .SUCCESS, c⟩]) fun _ => True) := by
      refine Exec.Triple.of_ends ?_
      rintro v rfl
      unfold tellSuccess
      rw [if_pos hcond]
      exact ⟨[], (List.append_nil _).symm, by simp⟩
    have hrest := fun _ : Unit =>
      (Exec.Keeps.bind (keeps_tellFailure hone (fun _ _ => keeps_tell trivial) r.status c)
        fun _ => keeps_tidyUp hone (fun _ => keeps_call _) c).triple
    obtain ⟨more, hmore, -⟩ := (hsend.bind hrest).ends rfl
    refine .inl ⟨[⟨r.zone.id, .SUCCESS, c⟩] ++ more, ?_, _, List.mem_cons_self, rfl, rfl, hle⟩
    rw [hmore, List.append_assoc]
  · -- the consensus is too early for the message, and for the cache to be cleared
    have hlt : c < serial := Nat.lt_of_not_le (mt (hbacked serial hpos).mp hneeded)
    have hone := keeps_retrieveStatus_stays threshold P hall r.zone fun _ => rfl
    have htidy : Exec.Keeps (Stays pool r.zone.id (actionOf r.zone) (m.outside.taken r).kept)
        (tidyUp (service pool threshold P r.zone) r.zone c) :=
      Exec.Keeps.ite (fun h => absurd h (by omega)) fun _ => Exec.Keeps.pure _
    have hstays := keeps_conclude hone (fun _ _ h => h) htidy
      ((m.outside.kept.serial r.key).getD 0) { m with outside := m.outside.taken r }
      fun _ _ => rfl
    refine .inr ⟨⟨hall.of_stays hstays, ?_⟩, hstays⟩
    rw [hstays.holding]
    exact Nat.lt_of_not_le hneeded

/-- What is told is only added to. -/
theorem arrive_told {old : List Message} (a : Arrival)
    (h : PoolManager.Told old (fun _ => True) m) :
    PoolManager.Told old (fun _ => True) (arrive pool threshold P a m) := by
  cases a with
  | expiry key => exact h
  | report r =>
    have hone : ∀ n, Exec.Keeps (PoolManager.Told old fun _ => True)
        (retrieveStatus (service pool threshold P r.zone) r.zone (actionOf r.zone) n) :=
      keeps_retrieveStatus r.zone (actionOf r.zone)
    refine Exec.Keeps.bind (keeps_call _) (fun _ => ?_) m h
    refine Exec.Keeps.bind (keeps_recordStatus _ r.zone r.nameserver r.status r.actualSerial)
      fun cacheSerial => Exec.Keeps.bind ?_ fun c => keeps_conclude hone
        (fun _ => keeps_tell trivial) (keeps_tidyUp hone (fun _ => keeps_call _) c) cacheSerial
    exact Exec.Keeps.bind (keeps_retrieveStatusesOf _ hone _) fun _ => Exec.Keeps.pure _

/-- What stays is awaited as before. -/
theorem Awaiting.stays {m' : Manager (Outside ε)}
    (h : Awaiting pool threshold zoneId action serial m)
    (hstays : Stays pool zoneId action m.outside.kept m') :
    Awaiting pool threshold zoneId action serial m' :=
  ⟨h.all.of_stays hstays, hstays.holding serial ▸ h.few⟩

theorem Stays.holds (hstays : Stays pool zoneId action kept m) {n : Nameserver}
    (hn : n ∈ pool.nameservers)
    (hserial : serial ≤ (Kept.serial kept ⟨n.id, zoneId, action⟩).getD 0) :
    Holds m zoneId action serial n := by
  unfold Holds Kept.serial
  rw [hstays n hn]
  exact hserial

theorem arrive_awaits {a : Arrival} (hpos : 0 < serial)
    (h : Awaiting pool threshold zoneId action serial m)
    (htimely : Timely zoneId action serial a) :
    Succeeded m.told zoneId serial (arrive pool threshold P a m) ∨
      Awaiting pool threshold zoneId action serial (arrive pool threshold P a m) ∧
        ∀ n ∈ pool.nameservers,
          Holds m zoneId action serial n ∨ tells zoneId action serial n a = true →
            Holds (arrive pool threshold P a m) zoneId action serial n := by
  cases a with
  | expiry key =>
    -- what expires is not of this zone and action
    have hstays : Stays pool zoneId action m.outside.kept
        (arrive pool threshold P (.expiry key) m) := by
      intro n _
      refine Function.update_of_ne ?_ _ _
      rintro rfl
      exact htimely rfl rfl
    refine .inr ⟨h.stays hstays, fun n hn hheld => hstays.holds hn ?_⟩
    exact hheld.resolve_right Bool.false_ne_true
  | report r =>
    by_cases hzone : r.zone.id = zoneId
    · -- a report of the zone is kept, and then it is counted
      refine (handle_awaits hpos h hzone htimely).imp_right ?_
      rintro ⟨hawaiting, hstays⟩
      exact ⟨hawaiting, fun n hn hheld => hstays.holds hn (holds_taken r hheld)⟩
    · -- a report of another zone touches nothing kept for this one
      have hstays := handle_stays threshold P h.all hzone
      refine .inr ⟨h.stays hstays, fun n hn hheld => hstays.holds hn ?_⟩
      refine hheld.resolve_right fun htells => hzone ?_
      exact congrArg Key.zoneId (eq_of_beq (Bool.and_eq_true_iff.mp htells).1)

/-- An entry without a serial is made for every nameserver, and stays as others are made. -/
theorem forEach_store_kept {pollFor : ZoneView → Nameserver → Exec (Outside ε) Fault Unit}
    (hpoll : ∀ zone n w, (pollFor zone n w).2.kept = w.kept) {zone : ZoneView} :
    ∀ (nameservers : List Nameserver) (m m' : Manager (Outside ε)),
      Exec.forEach
          (fun nameserver => do
            let _ ← call ((service pool threshold P zone).store
              (buildStatusObject nameserver zone .CREATE))
            call (pollFor zone nameserver))
          nameservers m = (.ok (), m') →
        ∀ n : Nameserver, n ∈ nameservers ∨
            m.outside.kept ⟨n.id, zone.id, .CREATE⟩ = some ⟨none, 0⟩ →
          m'.outside.kept ⟨n.id, zone.id, .CREATE⟩ = some ⟨none, 0⟩
  | [], m, m', hrun, n, hn => by
    cases hrun
    exact hn.resolve_left List.not_mem_nil
  | nameserver :: nameservers, m, m', hrun, n, hn => by
    obtain ⟨_, m₁, hfirst, hrest⟩ := Exec.bind_eq_ok.mp hrun
    refine forEach_store_kept hpoll nameservers m₁ m' hrest n ?_
    -- the store writes under this nameserver's key, and the poll keeps nothing
    have hkept : m₁.outside.kept = Function.update m.outside.kept
        ⟨nameserver.id, zone.id, .CREATE⟩ (some ⟨none, 0⟩) := by
      obtain ⟨_, m₂, hstore, hasked⟩ := Exec.bind_eq_ok.mp hfirst
      have hm₁ := congrArg Prod.snd hasked
      have hm₂ := congrArg Prod.snd hstore
      subst hm₁ hm₂
      exact hpoll _ _ _
    rw [hkept]
    by_cases hkey : n.id = nameserver.id
    · right
      rw [hkey, Function.update_self]
    · rw [Function.update_of_ne fun h => hkey (congrArg Key.nameserverId h)]
      refine hn.imp_left fun hmem => (List.mem_cons.mp hmem).resolve_left ?_
      rintro rfl
      exact hkey rfl

/-- A zone that is created on enough of the targets is awaited. -/
theorem createZone_awaits {pollFor : ZoneView → Nameserver → Exec (Outside ε) Fault Unit}
    (hpoll : ∀ zone n w, (pollFor zone n w).2.kept = w.kept) {zone : ZoneView} {maxRetries : Nat}
    {attempts : String → Nat → Bool} {m' : Manager (Outside ε)}
    (hmeets : meets threshold ((pool.targets.map fun target =>
      createZoneOnTarget maxRetries (attempts target)).count true) pool.targets.length = true)
    (hrun : createZone (service pool threshold P zone) pollFor maxRetries attempts zone m =
      (.ok (), m'))
    (hpos : 0 < serial) : Awaiting pool threshold zone.id .CREATE serial m' := by
  have hloop := (congrFun (if_pos hmeets) m).symm.trans hrun
  have hkept := forEach_store_kept hpoll pool.nameservers m m' hloop
  refine ⟨fun n hn => by rw [hkept n (.inl hn)]; rfl, ?_⟩
  have hnone : holding m'.outside.kept zone.id .CREATE pool.nameservers serial = 0 := by
    refine List.countP_eq_zero.mpr fun n hn => ?_
    rw [Kept.serial, hkept n (.inl hn), decide_eq_true_iff]
    exact Nat.not_le.mpr hpos
  rw [hnone]
  unfold needed
  omega

/-- By induction on what arrives: central has been told, or all that was reported is kept. -/
theorem run_awaits (hpos : 0 < serial) : ∀ (arrivals : List Arrival) (m : Manager (Outside ε)),
    Awaiting pool threshold zoneId action serial m →
    (∀ a ∈ arrivals, Timely zoneId action serial a) →
    Succeeded m.told zoneId serial (Run.final (arrive pool threshold P) arrivals m) ∨
      Awaiting pool threshold zoneId action serial
          (Run.final (arrive pool threshold P) arrivals m) ∧
        ∀ n ∈ pool.nameservers, Holds m zoneId action serial n ∨
            arrivals.any (tells zoneId action serial n) = true →
          Holds (Run.final (arrive pool threshold P) arrivals m) zoneId action serial n
  | [], m, h, _ => .inr ⟨h, fun _ _ hheld => hheld.resolve_right Bool.false_ne_true⟩
  | a :: arrivals, m, h, htimely => by
    have htold : PoolManager.Told m.told (fun _ => True) (arrive pool threshold P a m) :=
      arrive_told a ⟨[], (List.append_nil _).symm, by simp⟩
    -- once told, it stays told
    rcases arrive_awaits (P := P) hpos h (htimely a List.mem_cons_self) with hfirst | ⟨h₁, hheld₁⟩
    · refine .inl (hfirst.told ?_)
      exact (Run.invariant (G := fun _ _ => True) (fun a _ hv _ => arrive_told a hv)
        ⟨[], (List.append_nil _).symm, by simp⟩ fun _ _ => trivial).2
    · rcases run_awaits hpos arrivals _ h₁ fun a ha => htimely a (List.mem_cons_of_mem _ ha) with
        hlater | ⟨h₂, hheld₂⟩
      · -- the messages of the later arrivals come behind those of the first
        obtain ⟨news, hnews, -⟩ := htold
        obtain ⟨more, hmore, msg, hmsg, hsuccess⟩ := hlater
        refine .inl ⟨news ++ more, ?_, msg, List.mem_append_right _ hmsg, hsuccess⟩
        unfold Run.final
        rw [hmore, hnews, List.append_assoc]
      · refine .inr ⟨h₂, fun n hn hheld => hheld₂ n hn ?_⟩
        rw [List.any_cons, Bool.or_eq_true, ← or_assoc] at hheld
        exact hheld.imp_left (hheld₁ n hn)

/--
**No success is lost.** Once every nameserver has an entry for a change of a zone, and enough of
them are reported with its serial, in any order and whatever else arrives, central is told.
-/
theorem run_succeeded (pool : Pool) (threshold : Nat) (P : Parties ε) (arrivals : List Arrival)
    (m : Manager (Outside ε)) (hpos : 0 < serial)
    (h : Awaiting pool threshold zoneId action serial m)
    (htimely : ∀ a ∈ arrivals, Timely zoneId action serial a)
    (henough : needed pool threshold ≤ pool.nameservers.countP fun n =>
      arrivals.any (tells zoneId action serial n)) :
    Succeeded m.told zoneId serial (Run.final (arrive pool threshold P) arrivals m) := by
  rcases run_awaits (P := P) hpos arrivals m h htimely with hdone | ⟨hawaiting, hheld⟩
  · exact hdone
  · refine absurd (Nat.le_trans henough (List.countP_mono_left fun n hn htells => ?_))
      (Nat.not_le.mpr hawaiting.few)
    exact decide_eq_true (hheld n hn (.inr htells))

end

/-- The zone is created on both targets, and no nameserver has been heard of yet. -/
def createdZone : ZoneView := ⟨"zone", 7, .CREATE, .PENDING⟩

def creating : Manager (Outside PoolManager.Polled.Answers) :=
  ⟨⟨Function.update (Function.update (fun _ => none) ⟨"one", "zone", .CREATE⟩ (some ⟨none, 0⟩))
      ⟨"two", "zone", .CREATE⟩ (some ⟨none, 0⟩), [], []⟩, []⟩

/-- Another zone is reported and forgotten between the two reports of the new one. -/
def reporting : List Arrival :=
  [.report ⟨createdZone, PoolManager.Polled.two, .SUCCESS, some 7⟩,
    .report ⟨⟨"other", 3, .UPDATE, .PENDING⟩, PoolManager.Polled.one, .SUCCESS, some 3⟩,
    .expiry ⟨"one", "other", .UPDATE⟩,
    .report ⟨createdZone, PoolManager.Polled.one, .SUCCESS, some 8⟩]

theorem creating_awaits :
    Awaiting PoolManager.Polled.twoServers 100 "zone" .CREATE 7 creating := by
  have hmeets : meets 100 ((PoolManager.Polled.twoServers.targets.map fun _ =>
      createZoneOnTarget 3 fun _ => true).count true)
      PoolManager.Polled.twoServers.targets.length = true :=
    (meets_iff (by decide)).mpr (by decide)
  have hrun : createZone
      (service PoolManager.Polled.twoServers 100 PoolManager.Polled.asked createdZone)
      (fun _ _ => pure ()) 3 (fun _ _ => true) createdZone (PoolManager.Polled.start []) =
        (.ok (), creating) :=
    congrArg (fun prog : Exec (Manager (Outside PoolManager.Polled.Answers)) Fault Unit =>
      prog (PoolManager.Polled.start [])) (if_pos hmeets)
  exact createZone_awaits (fun _ _ _ => rfl) hmeets hrun (by decide)

theorem run_succeeded_sample :
    Succeeded creating.told "zone" 7
      (Run.final (arrive PoolManager.Polled.twoServers 100 PoolManager.Polled.asked) reporting
        creating) := by
  refine run_succeeded PoolManager.Polled.twoServers 100 PoolManager.Polled.asked reporting creating
    (by decide) creating_awaits ?_ (by decide)
  intro a ha
  simp only [reporting, List.mem_cons, List.not_mem_nil, or_false] at ha
  rcases ha with rfl | rfl | rfl | rfl
  · exact fun _ => ⟨rfl, by decide, by decide⟩
  · exact fun h => absurd h (by decide)
  · exact fun h => absurd h (by decide)
  · exact fun _ => ⟨rfl, by decide, by decide⟩

end Publication

end Designate
