import Designate.Proof.Coordination
import Designate.Proof.Serials
import Designate.Proof.Shards
import Designate.Proof.ZoneRows
import Designate.Worker.RecoverShard

/-!
# When recovery is right

A serial tells for how long a zone has been pending only if the request that made it pending took
it from the clock. Creating a zone does, unless the zone brings a serial along or is a secondary
one; a patch and a deletion leave the serial alone. The invariant is that the serial of a pending
zone is the time of its request, and that a zone in trouble still has an action to be done.
-/

namespace Designate

open Exec

variable {ctx : Context} {conf : Conf} {zs : List Zone} {n : Nat} {w : World}

/-! ## What the requests do to the rows -/

/-- What storing a zone object makes of the row. -/
def ZoneObject.stored (object : ZoneObject) (increment : Bool) (now : Nat) (row : Zone) : Zone :=
  if increment then
    { object.write row with serial := incrementSerial now object.serialValue }
  else object.write row

theorem storeZoneObject_zones (object : ZoneObject) (increment : Bool) :
    Triple (ZonesAt zs n) (storeZoneObject ctx conf object increment)
      (fun p w => p.2.id = object.zone.id ∧
        ZonesAt (Table.update Zone.id object.zone.id (object.pending.stored increment ctx.now) zs)
          n w)
      (ZonesAt zs n) := by
  refine Triple.bind (Q := fun _ => ZonesAt zs n) (Triple.read (fun _ _ h _ => h) fun _ h => h)
    fun _ => Triple.bind (Q := fun _ => ZonesAt zs n) (Triple.read (fun _ _ h _ => h) fun _ h => h)
    fun origin => ?_
  refine Triple.bind (Q := fun (z : Zone) w => z.id = object.zone.id ∧
    ZonesAt (Table.update Zone.id object.zone.id (object.pending.stored increment ctx.now) zs) n w)
    (transaction_zones ?_) fun zone => Triple.pure fun _ h => h
  -- with an increment the SOA is written behind the zone, which leaves the rows of the zones
  -- alone
  cases increment with
  | false =>
    refine (updateZoneRow_zones ctx object.zone.id _).weaken (fun _ h => h) (fun z w h => ?_)
      fun _ h => h.nextId
    obtain ⟨⟨z₀, -, rfl, hid⟩, hw⟩ := h
    exact ⟨hid, hw⟩
  | true =>
    refine Triple.bind (Q := fun (z : Zone) w => z.id = object.zone.id ∧
      ZonesAt (Table.update Zone.id object.zone.id (object.pending.stored true ctx.now) zs) n w)
      ?_ fun z => ?_
    · refine (updateZoneRow_zones ctx object.zone.id _).weaken (fun _ h => h) (fun z w h => ?_)
        fun _ h => h.nextId
      obtain ⟨⟨z₀, -, rfl, hid⟩, hw⟩ := h
      exact ⟨hid, hw⟩
    · have hsoa : Keeps (fun w => z.id = object.zone.id ∧
          ZonesAt (Table.update Zone.id object.zone.id (object.pending.stored true ctx.now) zs)
            n w) (updateSoa ctx conf z) :=
        IgnoresQuiet.updateSoa (fun _ _ hq h => ⟨h.1, h.2.still hq.still⟩) z
      exact Triple.bind (hsoa.triple.weaken (fun _ h => h) (fun _ _ h => h) fun _ h => h.2.nextId)
        fun _ => Triple.pure fun _ h => h

/-- Creating a zone appends its row, or leaves the rows alone. -/
theorem storeCreation_cases (ctx : Context) (conf : Conf) (zone : NewZone) (w : World) :
    (∃ e w', storeCreation ctx conf zone w = (.error e, w') ∧
      ZonesAt w.db.zones w.nextId w') ∨
    ∃ viewId parent, storeCreation ctx conf zone w =
      (.ok ((zone.owned ctx).row ctx conf w.nextId viewId parent),
        w.withZone ((zone.owned ctx).row ctx conf w.nextId viewId parent)) := by
  have hstate := createZoneChecks_state ctx conf (zone.owned ctx) w
  unfold storeCreation
  dsimp only
  cases hchecks : createZoneChecks ctx conf (zone.owned ctx) w with
  | mk res w' =>
    rw [hchecks] at hstate
    -- the checks only read
    obtain rfl : w' = w := hstate
    cases res with
    | error e =>
      rw [bind_error hchecks]
      exact Or.inl ⟨e, w', rfl, zonesAt_self w'⟩
    | ok p =>
      rw [bind_ok hchecks]
      cases hview : (zone.owned ctx).viewId with
      | none => exact Or.inl ⟨_, w', rfl, zonesAt_self w'⟩
      | some viewId =>
        dsimp only
        unfold getView
        cases hfind : findView ctx (some viewId) w'.db with
        | error e =>
          rw [bind_error (by rw [read_apply, hfind])]
          exact Or.inl ⟨e, w', rfl, zonesAt_self w'⟩
        | ok view =>
          rw [bind_ok (by rw [read_apply, hfind])]
          rcases createZoneInStorage_cases ctx conf (zone.owned ctx) viewId p.1 w' with ⟨e, he⟩ | hok
          · rw [he]
            exact Or.inl ⟨e, _, rfl, rfl, Nat.le_succ _⟩
          · -- the one path on which a row is added
            exact Or.inr ⟨viewId, p.1, hok⟩

/-! ## The invariant -/

/-- The zone is one that recovery is to look after. -/
def Zone.InTrouble (z : Zone) : Prop := z.status = .PENDING ∨ z.status = .ERROR

/--
Identifiers are unique and were handed out. The serial of a pending zone is the time of its
request, of which `Q` holds besides, and a zone in trouble has an action.
-/
structure ZoneHistory.Sound (Q : Nat → Nat → Prop) (s : ZoneHistory) : Prop where
  ids : (s.zones.map Zone.id).Nodup
  used : ∀ z ∈ s.zones, z.id < s.world.nextId
  timed : ∀ z ∈ s.zones, z.status = .PENDING →
    s.requestedAt z.id = z.serial ∧ Q z.id (s.requestedAt z.id)
  acting : ∀ z ∈ s.zones, z.InTrouble → z.action ≠ .NONE

/-- A change of a row that is no request: trouble is left alone, or comes to an end. -/
structure Zone.Calms (z z' : Zone) : Prop where
  id : z'.id = z.id
  serial : z'.serial = z.serial
  pending : z'.status = .PENDING → z.status = .PENDING
  trouble : z'.InTrouble → z.InTrouble ∧ z'.action = z.action

/-- What a request at the time `now` is to make of a row. -/
structure Zone.Asked (now : Nat) (z z' : Zone) : Prop where
  id : z'.id = z.id
  serial : z'.status = .PENDING → z'.serial = now
  trouble : z'.InTrouble → z'.action ≠ .NONE

namespace ZoneHistory

variable {Q : Nat → Nat → Prop} {s : ZoneHistory} {now id : Nat} {about : Option Nat}
  {f : Zone → Zone}

@[simp] theorem noted_none (w : World) : s.noted now none w = ⟨w, s.requestedAt⟩ := by
  unfold noted
  simp

theorem noted_self (w : World) : (s.noted now (some id) w).requestedAt id = now := if_pos rfl

theorem noted_other {k : Nat} (w : World) (h : about ≠ some k) :
    (s.noted now about w).requestedAt k = s.requestedAt k := if_neg h

namespace Sound

theorem same (hs : s.Sound Q) (hw : ZonesAt s.zones s.world.nextId w) :
    (s.noted now none w).Sound Q := by
  have hzones : (s.noted now none w).zones = s.zones := hw.zones
  rw [noted_none] at hzones ⊢
  refine ⟨?_, fun z hz => ?_, fun z hz => ?_, fun z hz => ?_⟩
  · rw [hzones]
    exact hs.ids
  · exact Nat.lt_of_lt_of_le (hs.used z (hzones ▸ hz)) hw.nextId
  · exact hs.timed z (hzones ▸ hz)
  · exact hs.acting z (hzones ▸ hz)

/-- One row is changed, and the step is about nothing else. -/
theorem updated (hs : s.Sound Q) (habout : ∀ k, about = some k → k = id)
    (hid : ∀ z ∈ s.zones, z.id = id → (f z).id = z.id)
    (htimed : ∀ z ∈ s.zones, z.id = id → (f z).status = .PENDING →
      (s.noted now about w).requestedAt id = (f z).serial ∧
        Q id ((s.noted now about w).requestedAt id))
    (hacting : ∀ z ∈ s.zones, z.id = id → (f z).InTrouble → (f z).action ≠ .NONE)
    (hw : ZonesAt (Table.update Zone.id id f s.zones) s.world.nextId w) :
    (s.noted now about w).Sound Q := by
  have hzones : (s.noted now about w).zones = Table.update Zone.id id f s.zones := hw.zones
  refine ⟨?_, fun z hz => ?_, fun z hz hpending => ?_, fun z hz htrouble => ?_⟩
  · rw [hzones, Table.map_update hid]
    exact hs.ids
  · refine Nat.lt_of_lt_of_le ?_ hw.nextId
    rcases Table.mem_update.mp (hzones ▸ hz) with ⟨hz, -⟩ | ⟨y, hy, hyid, rfl⟩
    · exact hs.used z hz
    · rw [hid y hy hyid]
      exact hs.used y hy
  · rcases Table.mem_update.mp (hzones ▸ hz) with ⟨hz, hne⟩ | ⟨y, hy, hyid, rfl⟩
    -- the note of the time is about the row that is changed, not about this one
    · rw [noted_other w fun h => hne (habout _ h)]
      exact hs.timed z hz hpending
    · rw [hid y hy hyid, hyid]
      exact htimed y hy hyid hpending
  · rcases Table.mem_update.mp (hzones ▸ hz) with ⟨hz, -⟩ | ⟨y, hy, hyid, rfl⟩
    · exact hs.acting z hz htrouble
    · exact hacting y hy hyid htrouble

theorem calmed (hs : s.Sound Q) (hf : ∀ z ∈ s.zones, z.id = id → z.Calms (f z))
    (hw : ZonesAt (Table.update Zone.id id f s.zones) s.world.nextId w) :
    (s.noted now none w).Sound Q := by
  have habout : ∀ k, (none : Option Nat) = some k → k = id := nofun
  refine hs.updated habout (fun z hz h => (hf z hz h).id) (fun z hz h hpending => ?_)
    (fun z hz h htrouble => ?_) hw
  · rw [noted_none, (hf z hz h).serial, ← h]
    exact hs.timed z hz ((hf z hz h).pending hpending)
  · obtain ⟨hwas, haction⟩ := (hf z hz h).trouble htrouble
    rw [haction]
    exact hs.acting z hz hwas

theorem calms (hs : s.Sound Q) (hf : ∀ z ∈ s.zones, z.id = id → z.Calms (f z))
    (hw : ZonesChanged s.zones s.world.nextId id f w) : (s.noted now none w).Sound Q :=
  hw.elim hs.same (hs.calmed hf)

theorem asked (hs : s.Sound Q) (hq : Q id now)
    (hf : ∀ z ∈ s.zones, z.id = id → z.Asked now (f z))
    (hw : ZonesAt (Table.update Zone.id id f s.zones) s.world.nextId w) :
    (s.noted now (some id) w).Sound Q := by
  refine hs.updated (fun k hk => (Option.some.inj hk).symm) (fun z hz h => (hf z hz h).id)
    (fun z hz h hpending => ?_) (fun z hz h => (hf z hz h).trouble) hw
  rw [noted_self]
  exact ⟨((hf z hz h).serial hpending).symm, hq⟩

/-- A zone is added, under the next identifier. -/
theorem created {row : Zone} (hs : s.Sound Q) (hq : Q s.world.nextId now)
    (hid : row.id = s.world.nextId) (hserial : row.serial = now) (haction : row.action = .CREATE) :
    (s.noted now (some row.id) (s.world.withZone row)).Sound Q := by
  -- identifiers are given out in ascending order, so the new one is free
  have hnew : ∀ z ∈ s.zones, z.id ≠ row.id := by
    intro z hz he
    have hlt := hs.used z hz
    omega
  have hzones : (s.noted now (some row.id) (s.world.withZone row)).zones = s.zones ++ [row] := rfl
  refine ⟨?_, fun z hz => ?_, fun z hz hpending => ?_, fun z hz htrouble => ?_⟩
  · rw [hzones, List.map_append, List.map_singleton]
    refine List.Nodup.append hs.ids (List.nodup_singleton _) ?_
    intro k hk hrow
    obtain ⟨z, hz, rfl⟩ := List.mem_map.mp hk
    exact hnew z hz (List.mem_singleton.mp hrow)
  · show z.id < s.world.nextId + 1
    rcases List.mem_append.mp hz with hz | hz
    · exact Nat.lt_succ_of_lt (hs.used z hz)
    · rw [List.mem_singleton.mp hz, hid]
      exact Nat.lt_succ_self _
  · rcases List.mem_append.mp hz with hz | hz
    · -- what is noted of the new zone leaves the times of the others
      rw [noted_other _ fun h => hnew z hz (Option.some.inj h).symm]
      exact hs.timed z hz hpending
    · rw [List.mem_singleton.mp hz, noted_self]
      exact ⟨hserial.symm, hid ▸ hq⟩
  · rcases List.mem_append.mp hz with hz | hz
    · exact hs.acting z hz htrouble
    · rw [List.mem_singleton.mp hz, haction]
      decide

end Sound

end ZoneHistory

/-! ## Reports -/

theorem calms_ending (action : Action) (status : Status) (z : Zone) :
    z.Calms (Zone.ending action status z) := by
  unfold Zone.ending
  split
  · exact ⟨rfl, rfl, nofun, fun h => by rcases h with h | h <;> exact absurd h nofun⟩
  · exact ⟨rfl, rfl, nofun, fun h => by rcases h with h | h <;> exact absurd h nofun⟩

theorem calms_zoneChange (m : PoolStatus) (z : Zone) : z.Calms (m.zoneChange z z) := by
  unfold PoolStatus.zoneChange
  rcases updateZoneOrRecordStatus_cases m z.action z.status z.serial with
    hu | ⟨-, -, -, -, hu⟩ | ⟨-, -, -, -, hu⟩ | ⟨-, hpending, -, hu⟩ | ⟨-, hu⟩ <;> rw [hu]
  · exact ⟨rfl, rfl, fun h => h, fun h => ⟨h, rfl⟩⟩
  · exact ⟨rfl, rfl, nofun, fun h => by rcases h with h | h <;> exact absurd h nofun⟩
  · exact ⟨rfl, rfl, nofun, fun h => by rcases h with h | h <;> exact absurd h nofun⟩
  · exact ⟨rfl, rfl, nofun, fun _ => ⟨Or.inl hpending, rfl⟩⟩
  · exact ⟨rfl, rfl, nofun, fun h => by rcases h with h | h <;> exact absurd h nofun⟩

theorem calms_restore (loaded origin z : Zone) (ttl : Nat) :
    z.Calms ((patchedObject loaded ttl).restore origin z) :=
  ⟨rfl, rfl, fun h => h, fun h => ⟨h, rfl⟩⟩

/-! ## Requests that take their time from the clock -/

/--
An update of the zone that was loaded makes the row pending, unless it was loaded as pending and
the row has moved on since. The serial is then the time, and the row gets the action, or has one.
-/
def Zone.Renews (loaded : Zone) (increment : Bool) (now : Nat) (row : Zone) : Prop :=
  loaded.status ≠ .PENDING ∨ row.status = .PENDING →
    (if increment then loaded.serial < now else row.serial = now) ∧
      (loaded.action = .UPDATE → row.action ≠ .NONE)

/-- Where a request makes a zone pending, its serial is the time of the request. -/
def Timely (input : HistoryInput) (s : ZoneHistory) : Prop :=
  let now := input.ctx.now
  match input.step with
  | .create zone => zone.serial.getD (if zone.type = .SECONDARY then 1 else now) = now
  | .patch loaded _ => ∀ row ∈ s.zones, row.id = loaded.id → loaded.Renews false now row
  | .adopt loaded => ∀ row ∈ s.zones, row.id = loaded.id → loaded.Renews true now row
  | .delete zoneId => input.ctx.abandon = true ∨ ∀ row ∈ s.zones, row.id = zoneId → row.serial = now
  | _ => True

theorem write_set_loaded {α : Type} [DecidableEq α] (a b old : α) :
    ((Tracked.loaded a).set b).write old = if a = b then old else b := by
  by_cases h : a = b <;> simp [Tracked.set, Tracked.write, Tracked.loaded, h]

theorem incrementSerial_eq_now {now serial : Nat} (h : serial < now) :
    incrementSerial now serial = now := by
  unfold incrementSerial
  split <;> omega

theorem asked_stored {object : ZoneObject} {loaded row : Zone} {increment : Bool} {now : Nat}
    (haction : object.action = .loaded loaded.action)
    (hstatus : object.status = .loaded loaded.status)
    (hserial : object.serial = .loaded loaded.serial)
    (hacting : row.InTrouble → row.action ≠ .NONE)
    (hrenews : loaded.Renews increment now row) :
    row.Asked now (object.pending.stored increment now row) := by
  have hid : (object.pending.stored increment now row).id = row.id := by
    cases increment <;> rfl
  have hstatus' : (object.pending.stored increment now row).status =
      if loaded.status = .PENDING then row.status else .PENDING := by
    rw [← write_set_loaded, ← hstatus]
    cases increment <;> rfl
  have haction' : (object.pending.stored increment now row).action =
      if loaded.action = .UPDATE then row.action else .UPDATE := by
    rw [← write_set_loaded, ← haction]
    cases increment <;> rfl
  refine ⟨hid, fun hpending => ?_, fun htrouble => ?_⟩
  · rw [hstatus'] at hpending
    -- `PENDING` is written only over what was loaded as something else
    have hmoved : loaded.status ≠ .PENDING ∨ row.status = .PENDING := by
      by_cases hl : loaded.status = .PENDING
      · rw [if_pos hl] at hpending
        exact Or.inr hpending
      · exact Or.inl hl
    have hnow := (hrenews hmoved).1
    cases increment with
    | false =>
      have hkept : (object.pending.stored false now row).serial = row.serial := by
        show object.serial.write row.serial = row.serial
        rw [hserial, Tracked.write_loaded]
      exact hkept.trans hnow
    | true =>
      have hnew : (object.pending.stored true now row).serial =
          incrementSerial now loaded.serial := by
        show incrementSerial now (object.serial.value.getD object.zone.serial) = _
        rw [hserial]
        rfl
      exact hnew.trans (incrementSerial_eq_now hnow)
  · rw [haction']
    by_cases hupdate : loaded.action = .UPDATE
    · rw [if_pos hupdate]
      by_cases hmoved : loaded.status ≠ .PENDING ∨ row.status = .PENDING
      · exact (hrenews hmoved).2 hupdate
      · -- the row has moved on, so the status is what it was
        have hl : loaded.status = .PENDING := by
          by_contra hl
          exact hmoved (Or.inl hl)
        unfold Zone.InTrouble at htrouble
        rw [hstatus', if_pos hl] at htrouble
        exact hacting htrouble
    · rw [if_neg hupdate]
      decide

theorem asked_deletion {d : Deletion} {z : Zone}
    (h : d.ctx.abandon = true ∨ z.serial = d.ctx.now) : z.Asked d.ctx.now (d.change z) := by
  unfold Deletion.change
  by_cases ha : d.ctx.abandon = true
  · rw [if_pos ha]
    exact ⟨rfl, nofun, fun h => by rcases h with h | h <;> exact absurd h nofun⟩
  · rw [if_neg ha]
    exact ⟨rfl, fun _ => h.resolve_left ha, fun _ => nofun⟩

/-! ## Steps and runs -/

namespace ZoneHistory

variable {Q : Nat → Nat → Prop} {s : ZoneHistory}

/-- What a step returns, and what it leaves where it raises. -/
theorem sound_of_triple {input : HistoryInput}
    (h : Triple (ZonesAt s.zones s.world.nextId) (input.step.call input.ctx conf)
      (fun about w => (s.noted input.ctx.now about w).Sound Q)
      fun w => (s.noted input.ctx.now none w).Sound Q) : (s.next conf input).Sound Q := by
  have hend := h s.world (zonesAt_self s.world)
  unfold next
  cases hrun : input.step.call input.ctx conf s.world with
  | mk res w =>
    rw [hrun] at hend
    cases res with
    | ok about => exact hend
    | error e => exact hend

/-- A step that is no request. -/
theorem next_quiet {input : HistoryInput} {m : Call Unit}
    (h : input.step.call input.ctx conf = (do m; pure none)) :
    s.next conf input = s.noted input.ctx.now none (m s.world).2 := by
  unfold next
  rw [h, bind_apply]
  cases m s.world with
  | mk res w => cases res <;> rfl

/-- **A timely step keeps the invariant.** -/
theorem sound_next {input : HistoryInput} (hs : s.Sound Q) (htimely : Timely input s)
    (hq : ∀ id, Q id input.ctx.now) : (s.next conf input).Sound Q := by
  obtain ⟨ctx, step⟩ := input
  have hsame : ∀ w, ZonesAt s.zones s.world.nextId w → (s.noted ctx.now none w).Sound Q :=
    fun w hw => hs.same hw
  cases step with
  | create zone =>
    rcases storeCreation_cases ctx conf zone s.world with ⟨e, w, he, hw⟩ | ⟨viewId, parent, hok⟩
    · have hrun : s.next conf ⟨ctx, .create zone⟩ = s.noted ctx.now none w := by
        unfold next ZoneStep.call
        dsimp only
        rw [bind_error he]
      rw [hrun]
      exact hs.same hw
    · have hrun : s.next conf ⟨ctx, .create zone⟩ = s.noted ctx.now
          (some ((zone.owned ctx).row ctx conf s.world.nextId viewId parent).id)
          (s.world.withZone ((zone.owned ctx).row ctx conf s.world.nextId viewId parent)) := by
        unfold next ZoneStep.call
        dsimp only
        rw [bind_ok hok]
        rfl
      rw [hrun]
      exact hs.created (hq _) rfl htimely rfl
  | patch loaded ttl =>
    refine sound_of_triple ?_
    refine Triple.bind (Q := fun _ => ZonesAt s.zones s.world.nextId)
      (Triple.raiseIf (fun _ h _ => h) fun w h _ => hsame w h) fun _ => ?_
    refine Triple.bind ((storeZoneObject_zones (patchedObject loaded ttl) false).weaken
      (fun _ h => h) (fun _ _ h => h) hsame) fun p => Triple.pure fun w h => ?_
    rw [h.1]
    exact hs.asked (hq _) (fun z hz hid => asked_stored rfl rfl rfl (hs.acting z hz)
      (htimely z hz hid)) h.2
  | adopt loaded =>
    refine sound_of_triple ?_
    refine Triple.bind ((storeZoneObject_zones (.ofRow loaded) true).weaken
      (fun _ h => h) (fun _ _ h => h) hsame) fun p => Triple.pure fun w h => ?_
    rw [h.1]
    exact hs.asked (hq _) (fun z hz hid => asked_stored rfl rfl rfl (hs.acting z hz)
      (htimely z hz hid)) h.2
  | delete zoneId =>
    refine sound_of_triple ?_
    have hchecks : Triple (ZonesAt s.zones s.world.nextId) (deleteZoneChecks ctx zoneId)
        (fun zone w => zone.id = zoneId ∧ ZonesAt s.zones s.world.nextId w)
        (ZonesAt s.zones s.world.nextId) := by
      refine Triple.bind (Q := fun (zone : Zone) w => zone.id = zoneId ∧
        ZonesAt s.zones s.world.nextId w)
        (Triple.read (fun _ _ h hz => ⟨(findZone_mem hz).2.1, h⟩) fun _ h => h) fun zone => ?_
      refine Triple.bind (Q := fun _ w => zone.id = zoneId ∧ ZonesAt s.zones s.world.nextId w)
        (Triple.read (fun _ _ h _ => h) fun _ h => h.2) fun children => ?_
      exact Triple.bind (Q := fun _ w => zone.id = zoneId ∧ ZonesAt s.zones s.world.nextId w)
        (Triple.raiseIf (fun _ h _ => h) fun _ h _ => h.2) fun _ => Triple.pure fun _ h => h
    refine Triple.bind (hchecks.weaken (fun _ h => h) (fun _ _ h => h) hsame) fun zone => ?_
    rintro w ⟨rfl, hw⟩
    refine Triple.bind ((storeDeletion_zones ⟨ctx, zone⟩).weaken (fun _ h => h) (fun _ _ h => h)
      hsame) (fun deleted => Triple.pure fun w h => ?_) w hw
    rw [h.1]
    have hasked : ∀ z ∈ s.zones, z.id = zone.id → z.Asked ctx.now (Deletion.change ⟨ctx, zone⟩ z) :=
      fun z hz hid => asked_deletion (d := ⟨ctx, zone⟩)
        (htimely.elim Or.inl fun h => Or.inr (h z hz hid))
    exact hs.asked (hq _) hasked h.2
  | takeBack loaded ttl origin =>
    refine sound_of_triple ?_
    refine Triple.bind ((updateZoneRow_changes ctx loaded.id _).weaken (fun _ h => h)
      (fun _ _ h => h) fun w h => ?_) fun _ => Triple.pure fun w h => ?_
    · exact hs.calms (fun z _ _ => calms_restore loaded origin z ttl) h
    · exact hs.calms (fun z _ _ => calms_restore loaded origin z ttl) h
  | report zoneId action status faults =>
    rw [next_quiet (m := updateZoneStatus ctx conf faults zoneId action status) rfl]
    exact hs.calms (fun z _ _ => calms_ending action status z)
      (updateZoneStatus_zones faults zoneId action status s.world)
  | poolReport zoneId message =>
    rw [next_quiet (m := updateStatus ctx conf message zoneId) rfl]
    rcases updateStatus_zones message zoneId s.world with hw | ⟨z, hz, hw⟩
    · exact hs.same hw
    · obtain ⟨hm, hid, -⟩ := findZone_mem hz
      refine hs.calmed (fun y hy hyid => ?_) hw
      -- the row the message was found for is the one that is changed
      obtain rfl : y = z := Table.eq_of_key hs.ids hy hm (hyid.trans hid.symm)
      exact calms_zoneChange message y

/-- No zone in any table. -/
theorem sound_of_empty (h : s.world.db.zones = []) : s.Sound Q := by
  have hnone : ∀ z, z ∉ s.zones := by
    intro z hz
    unfold zones at hz
    rw [h] at hz
    exact absurd hz List.not_mem_nil
  refine ⟨?_, fun z hz => absurd hz (hnone z), fun z hz => absurd hz (hnone z),
    fun z hz => absurd hz (hnone z)⟩
  unfold zones
  rw [h]
  exact List.nodup_nil

theorem sound_final {inputs : List HistoryInput} (hs : s.Sound Q)
    (htimely : ∀ t ∈ Run.transitions (next conf) inputs s, Timely t.input t.before)
    (hq : ∀ input ∈ inputs, ∀ id, Q id input.ctx.now) :
    (Run.final (next conf) inputs s).Sound Q :=
  (Run.invariant (G := fun input s => Timely input s ∧ ∀ id, Q id input.ctx.now)
    (fun _ _ hs hg => sound_next hs hg.1 hg.2) hs
    fun t ht => ⟨htimely t ht, hq _ (Run.input_mem ht)⟩).2

end ZoneHistory

/-! ## Recovery -/

/-- The shard of the zone is in the range. -/
def RecoverShard.Covers (task : RecoverShard) (zone : Zone) : Prop :=
  ∃ shard, Shards.defaultShard zone.id = some shard ∧ task.beginShard ≤ shard ∧
    shard ≤ task.endShard

/--
Recovery does what it is for, where the zones in error are asked for in `s` and the stale ones in
`later`, and the clock reads `current`.
-/
structure RecoversRight (task : RecoverShard) (current : Nat) (s later : ZoneHistory) : Prop where
  /-- No pending zone is sent that has not been pending for too long. -/
  onlyStale : ∀ p ∈ task.requests current s.zones later.zones, p.2.status = .PENDING →
    later.requestedAt p.2.id + task.maxPropTime < current
  errors : ∀ z ∈ s.zones, z.deleted = false → task.Covers z → z.status = .ERROR →
    (z.action, z) ∈ task.requests current s.zones later.zones
  stale : ∀ z ∈ later.zones, z.deleted = false → task.Covers z → z.status = .PENDING →
    later.requestedAt z.id + task.maxPropTime < current →
    (z.action, z) ∈ task.requests current s.zones later.zones
  once : ((task.requests current s.zones later.zones).map fun p => p.2.id).Nodup

section

variable {task : RecoverShard} {current : Nat} {zones later : List Zone} {z : Zone}

theorem inShards_iff : task.inShards z = true ↔ task.Covers z := by
  unfold RecoverShard.inShards RecoverShard.Covers
  rw [Shards.betweenBounds_text]
  cases hshard : Shards.defaultShard z.id with
  | none => exact ⟨nofun, fun ⟨_, h, _⟩ => absurd h nofun⟩
  | some shard =>
    show Shards.between (toString task.beginShard, toString task.endShard) shard = true ↔ _
    rw [Shards.between_toString]
    constructor
    · exact fun h => ⟨shard, rfl, h⟩
    · rintro ⟨shard', hsome, h⟩
      obtain rfl := Option.some.inj hsome
      exact h

theorem mem_errorZones : z ∈ task.errorZones zones ↔
    z ∈ zones ∧ task.Covers z ∧ z.status = .ERROR ∧ z.deleted = false := by
  unfold RecoverShard.errorZones
  rw [List.mem_filter, Bool.and_eq_true, Bool.and_eq_true, inShards_iff, beq_iff_eq,
    Bool.not_eq_true', and_assoc]

theorem mem_staleZones : z ∈ task.staleZones current zones ↔
    z ∈ zones ∧ task.Covers z ∧ z.status = .PENDING ∧ z.serial + task.maxPropTime < current ∧
      z.deleted = false := by
  unfold RecoverShard.staleZones
  have hserial : (z.serial : Int) < (current : Int) - (task.maxPropTime : Int) ↔
      z.serial + task.maxPropTime < current := by omega
  rw [List.mem_filter, Bool.and_eq_true, Bool.and_eq_true, Bool.and_eq_true, inShards_iff,
    beq_iff_eq, decide_eq_true_iff, hserial, Bool.not_eq_true', and_assoc, and_assoc]

theorem request_eq_some {p : Action × Zone} :
    RecoverShard.request z = some p ↔ z.action ≠ .NONE ∧ p = (z.action, z) := by
  unfold RecoverShard.request
  cases haction : z.action <;> simp [eq_comm]

theorem mem_requests {p : Action × Zone} :
    p ∈ task.requests current zones later ↔
      (p.2 ∈ task.errorZones zones ∨ p.2 ∈ task.staleZones current later) ∧
        p.2.action ≠ .NONE ∧ p = (p.2.action, p.2) := by
  unfold RecoverShard.requests RecoverShard.getZones
  rw [List.mem_filterMap]
  constructor
  · rintro ⟨z, hz, hrequest⟩
    obtain ⟨haction, rfl⟩ := request_eq_some.mp hrequest
    exact ⟨List.mem_append.mp hz, haction, rfl⟩
  · rintro ⟨hz, haction, hp⟩
    exact ⟨p.2, List.mem_append.mpr hz, request_eq_some.mpr ⟨haction, hp⟩⟩

/-- No zone is asked for that was not found. -/
theorem requests_ids (zones : List Zone) :
    ((zones.filterMap RecoverShard.request).map fun p => p.2.id).Sublist (zones.map Zone.id) := by
  induction zones with
  | nil => exact List.Sublist.refl _
  | cons z zones ih =>
    rw [List.filterMap_cons]
    cases hrequest : RecoverShard.request z with
    | none => exact ih.cons _
    | some p =>
      obtain ⟨-, rfl⟩ := request_eq_some.mp hrequest
      exact ih.cons_cons _

end

section

variable {task : RecoverShard} {current : Nat} {s later : ZoneHistory}
  {Q Q' : Nat → Nat → Prop}

/-- From the invariant, where no zone has come from error to being stale in between. -/
theorem recoversRight_of_sound (hs : s.Sound Q) (hlater : later.Sound Q')
    (hapart : ∀ z ∈ s.zones, z.status = .ERROR → ∀ y ∈ later.zones, y.id = z.id →
      y.status = .PENDING → current ≤ later.requestedAt y.id + task.maxPropTime) :
    RecoversRight task current s later := by
  refine ⟨fun p hp hpending => ?_, fun z hz hlive hcovers herror => ?_,
    fun z hz hlive hcovers hpending hold => ?_, ?_⟩
  -- the serial of a pending zone is the time of its request
  · rcases (mem_requests.mp hp).1 with hfound | hfound
    · obtain ⟨-, -, herror, -⟩ := mem_errorZones.mp hfound
      rw [herror] at hpending
      exact absurd hpending nofun
    · obtain ⟨hm, -, -, hserial, -⟩ := mem_staleZones.mp hfound
      rw [(hlater.timed p.2 hm hpending).1]
      exact hserial
  · exact mem_requests.mpr ⟨Or.inl (mem_errorZones.mpr ⟨hz, hcovers, herror, hlive⟩),
      hs.acting z hz (Or.inr herror), rfl⟩
  · rw [(hlater.timed z hz hpending).1] at hold
    exact mem_requests.mpr ⟨Or.inr (mem_staleZones.mpr ⟨hz, hcovers, hpending, hold, hlive⟩),
      hlater.acting z hz (Or.inl hpending), rfl⟩
  · refine List.Nodup.sublist (requests_ids _) ?_
    unfold RecoverShard.getZones
    rw [List.map_append]
    -- a zone found in error and found stale was asked to change in between
    refine List.Nodup.append (hs.ids.sublist (List.filter_sublist.map _))
      (hlater.ids.sublist (List.filter_sublist.map _)) ?_
    intro id herror hstale
    obtain ⟨z, hz, rfl⟩ := List.mem_map.mp herror
    obtain ⟨y, hy, hid⟩ := List.mem_map.mp hstale
    obtain ⟨hzm, -, hzerror, -⟩ := mem_errorZones.mp hz
    obtain ⟨hym, -, hypending, hyserial, -⟩ := mem_staleZones.mp hy
    have hrecent := hapart z hzm hzerror y hym hid hypending
    rw [(hlater.timed y hym hypending).1] at hrecent
    omega

end

/--
**Recovery is right along every timely history.** Whatever zones are created, patched and deleted,
and whatever is reported of them: if every request that makes a zone pending leaves the time of
the request as its serial, recovery sends the zones that are in error or have been pending for too
long, each once and no others. Requests that come in while it runs are not that old.
-/
theorem recovery_right (conf : Conf) (s : ZoneHistory) (before meanwhile : List HistoryInput)
    (task : RecoverShard) (current : Nat) (hempty : s.world.db.zones = [])
    (htimely : ∀ t ∈ Run.transitions (ZoneHistory.next conf) (before ++ meanwhile) s,
      Timely t.input t.before)
    (hmeanwhile : ∀ input ∈ meanwhile, current ≤ input.ctx.now + task.maxPropTime) :
    RecoversRight task current (Run.final (ZoneHistory.next conf) before s)
      (Run.final (ZoneHistory.next conf) (before ++ meanwhile) s) := by
  have hbefore : (Run.final (ZoneHistory.next conf) before s).Sound fun _ _ => True :=
    ZoneHistory.sound_final (ZoneHistory.sound_of_empty hempty)
      (fun t ht => htimely t (Run.mem_transitions_left ht)) fun _ _ _ => trivial
  have hafter : (Run.final (ZoneHistory.next conf) (before ++ meanwhile) s).Sound
      fun _ _ => True :=
    ZoneHistory.sound_final (ZoneHistory.sound_of_empty hempty) htimely fun _ _ _ => trivial
  refine recoversRight_of_sound hbefore hafter fun z hz herror y hy hid hpending => ?_
  -- that zone is pending since a request that came in meanwhile
  have hrecent : (Run.final (ZoneHistory.next conf) before s).Sound
      fun id time => id = z.id → current ≤ time + task.maxPropTime := by
    refine ⟨hbefore.ids, hbefore.used, fun x hx hxpending => ?_, hbefore.acting⟩
    refine ⟨(hbefore.timed x hx hxpending).1, fun hxid => ?_⟩
    obtain rfl : x = z := Table.eq_of_key hbefore.ids hx hz hxid
    rw [herror] at hxpending
    exact absurd hxpending nofun
  have hend := ZoneHistory.sound_final hrecent
    (fun t ht => htimely t (Run.mem_transitions_append ht))
    fun input hinput _ _ => hmeanwhile input hinput
  rw [← Run.final_append] at hend
  exact (hend.timed y hy hpending).2 hid

namespace Sample

/-- A view without zones. -/
def unused : ZoneHistory := ⟨{ db := { views := [view] }, nextId := 2 }, fun _ => 0⟩

def requestedZone : NewZone :=
  { name := "example.com.", tenantId := none, type := .PRIMARY, ttl := none, serial := none
    viewId := some 1 }

/-- The zone is created at 100. -/
def creationRequest : HistoryInput := ⟨{ Sample.ctx with now := 100 }, .create requestedZone⟩

/-- The zone of this identifier has been created, and the worker has done its part. -/
def active : ZoneHistory :=
  Run.final (ZoneHistory.next Sample.confNs)
    [creationRequest, ⟨Sample.ctx, .report 2 .CREATE .SUCCESS fun _ => false⟩] unused

/-- The zone is patched at 10000, as it is stored. -/
def patching : HistoryInput :=
  ⟨{ Sample.ctx with now := 10000 }, .patch (active.zones.headD zone) 600⟩

def everyShard : RecoverShard := ⟨0, 4095, 3600⟩

end Sample

theorem recovery_right_sample :
    RecoversRight Sample.everyShard 10000
      (Run.final (ZoneHistory.next Sample.confNs) [Sample.creationRequest] Sample.unused)
      (Run.final (ZoneHistory.next Sample.confNs) [Sample.creationRequest] Sample.unused) := by
  refine recovery_right Sample.confNs Sample.unused [Sample.creationRequest] [] Sample.everyShard
    10000 rfl (fun t ht => ?_) fun _ h => absurd h List.not_mem_nil
  obtain rfl := List.mem_singleton.mp ht
  rfl

/-- A zone that was created long ago is sent again in the second it was patched. -/
theorem fresh_patch_recovered :
    ¬ ∀ (conf : Conf) (s : ZoneHistory) (before meanwhile : List HistoryInput) (task : RecoverShard)
      (current : Nat), s.world.db.zones = [] →
      RecoversRight task current (Run.final (ZoneHistory.next conf) before s)
        (Run.final (ZoneHistory.next conf) (before ++ meanwhile) s) := by
  intro h
  have hright := h Sample.confNs Sample.unused
    [Sample.creationRequest, ⟨Sample.ctx, .report 2 .CREATE .SUCCESS fun _ => false⟩,
      Sample.patching] [] Sample.everyShard 10000 rfl
  have hsent : ∃ p ∈ Sample.everyShard.requests 10000
      (Sample.active.next Sample.confNs Sample.patching).zones
      (Sample.active.next Sample.confNs Sample.patching).zones,
      p.2.status = .PENDING ∧ p.2.id = 2 := by
    decide +kernel
  obtain ⟨p, hp, hpending, hid⟩ := hsent
  have hold := hright.onlyStale p hp hpending
  rw [hid] at hold
  have hnow : (Sample.active.next Sample.confNs Sample.patching).requestedAt 2 = 10000 := by
    decide +kernel
  have hlt : (Sample.active.next Sample.confNs Sample.patching).requestedAt 2 + 3600 < 10000 := hold
  omega

namespace RecoverShard

/-! ## The recoveries of all producers -/

section

open Shards Partitioners

variable {initial members : List String} {before after : List Partitioners.Event} {me : String}
  {cluster : Cluster} {task : RecoverShard} {maxPropTime id shard : Nat}

/-- The zone is found in error, or then found to be pending with a serial that is too old. -/
def Troubled (maxPropTime current : Nat) (zones later : List Zone) (z : Zone) : Prop :=
  (z ∈ zones ∧ z.status = .ERROR ∨
    z ∈ later ∧ z.status = .PENDING ∧ z.serial + maxPropTime < current) ∧ z.deleted = false

/-- The task that a producer has the worker do. -/
def recovery (maxPropTime : Nat) (cluster : Cluster) (me : String) : Option RecoverShard :=
  (workerPeriodicRecovery true (cluster.told me "worker_periodic_recovery")).map
    (recoverShard maxPropTime)

/-- The producer has nothing asked for on behalf of a zone, whatever its worker finds. -/
def Silent (maxPropTime : Nat) (cluster : Cluster) (id : Nat) (me : String) : Prop :=
  ∀ task, recovery maxPropTime cluster me = some task →
    ∀ current zones later, ∀ p ∈ task.requests current zones later, p.2.id ≠ id

/-- The task covers what its producer handles. -/
theorem covers_of_settled (hsettled : Settled members me cluster)
    (hwatch : "worker_periodic_recovery" ∈ (cluster.partitioners me).callbacks)
    (htask : recovery maxPropTime cluster me = some task) (z : Zone) :
    task.Covers z ↔ handles members me z.id = true := by
  obtain ⟨range, hasked, rfl⟩ := Option.map_eq_some_iff.mp htask
  have htold : cluster.told me "worker_periodic_recovery" =
      updatePartitions members me partitions :=
    (hsettled.told _ hwatch).trans hsettled.mine
  unfold workerPeriodicRecovery at hasked
  rw [if_pos rfl, htold] at hasked
  obtain ⟨mine, hmine, hrange⟩ := Option.bind_eq_some_iff.mp hasked
  rw [← inShards_iff]
  unfold handles inShards filterBetween
  simp only [hmine, hrange, Option.bind_eq_bind, Option.bind_some, Option.map_some]
  exact Iff.rfl

/-- A producer with a partition of a zone has a task. -/
theorem exists_recovery (hsettled : Settled members me cluster)
    (hwatch : "worker_periodic_recovery" ∈ (cluster.partitioners me).callbacks)
    {slice : List Nat} (hslice : updatePartitions members me partitions = some slice)
    (hne : slice ≠ []) : ∃ task, recovery maxPropTime cluster me = some task := by
  have htold : cluster.told me "worker_periodic_recovery" = some slice :=
    (hsettled.told _ hwatch).trans (hsettled.mine.trans hslice)
  unfold recovery workerPeriodicRecovery myRange
  rw [htold, if_pos rfl]
  cases slice with
  | nil => exact absurd rfl hne
  | cons first rest =>
    rw [Option.bind_some, List.head?_cons, List.getLast?_cons]
    exact ⟨_, rfl⟩

/-- What is asked for on behalf of a zone the task covers. -/
theorem mem_requests_covered {current : Nat} {zones later : List Zone} {z : Zone}
    (hcovers : task.Covers z) (action : Action) :
    (action, z) ∈ task.requests current zones later ↔
      action = z.action ∧ action ≠ .NONE ∧ Troubled task.maxPropTime current zones later z := by
  rw [mem_requests, mem_errorZones, mem_staleZones]
  constructor
  · rintro ⟨hfound, haction, heq⟩
    obtain rfl : action = z.action := congrArg Prod.fst heq
    refine ⟨rfl, haction, ?_⟩
    rcases hfound with ⟨hz, -, hstatus, hlive⟩ | ⟨hz, -, hstatus, hserial, hlive⟩
    · exact ⟨.inl ⟨hz, hstatus⟩, hlive⟩
    · exact ⟨.inr ⟨hz, hstatus, hserial⟩, hlive⟩
  · rintro ⟨rfl, haction, hfound, hlive⟩
    refine ⟨?_, haction, rfl⟩
    rcases hfound with ⟨hz, hstatus⟩ | ⟨hz, hstatus, hserial⟩
    · exact .inl ⟨hz, hcovers, hstatus, hlive⟩
    · exact .inr ⟨hz, hcovers, hstatus, hserial, hlive⟩

/-- Nothing is asked for on behalf of a zone that the task does not cover. -/
theorem covers_of_mem_requests {current : Nat} {zones later : List Zone} {p : Action × Zone}
    (hp : p ∈ task.requests current zones later) : task.Covers p.2 := by
  rcases (mem_requests.mp hp).1 with hfound | hfound
  · exact (mem_errorZones.mp hfound).2.1
  · exact (mem_staleZones.mp hfound).2.1

/-- Whoever does not handle a zone is silent about it. -/
theorem silent_of_settled (hsettled : Settled members me cluster)
    (hwatch : "worker_periodic_recovery" ∈ (cluster.partitioners me).callbacks)
    (hother : handles members me id ≠ true) : Silent maxPropTime cluster id me := by
  intro task htask current zones later p hp hid
  have hhandles := (covers_of_settled hsettled hwatch htask p.2).mp (covers_of_mem_requests hp)
  exact hother (hid ▸ hhandles)

/--
**Once every member has read the last change, each zone has one producer that recovers it**: its
worker is asked for the pending action of the zone exactly if it finds it in trouble, and no other
worker is ever. Only the zones of the last shard have none.
-/
theorem run_recovered_once (maxPropTime : Nat) (h : LastRead initial members before after)
    (hwatch : ∀ me ∈ members, "worker_periodic_recovery" ∈
      ((reached initial members before after).partitioners me).callbacks) (id : Nat) :
    (defaultShard id ≠ some 0xfff → ∃ me ∈ members,
      (∃ task, recovery maxPropTime (reached initial members before after) me = some task ∧
        ∀ current zones later action z, z.id = id →
          ((action, z) ∈ task.requests current zones later ↔
            action = z.action ∧ action ≠ .NONE ∧ Troubled maxPropTime current zones later z)) ∧
      ∀ other ∈ members, other ≠ me →
        Silent maxPropTime (reached initial members before after) id other) ∧
    (defaultShard id = some 0xfff → ∀ me ∈ members,
      Silent maxPropTime (reached initial members before after) id me) := by
  have hsettled := fun me (hme : me ∈ members) => settled_run h hme
  obtain ⟨shard, hshard, hlt⟩ := defaultShard_lt id
  refine ⟨fun hid => ?_, fun hid me hme => ?_⟩
  -- any other shard is a partition, and in the slice of one producer
  · have hmem : shard ∈ partitions := by
      refine List.mem_range.mpr ?_
      have : shard ≠ 0xfff := fun heq => hid (heq ▸ hshard)
      omega
    obtain ⟨me, ⟨hme, slice, hslice, hin⟩, honly⟩ :=
      existsUnique_updatePartitions h.ne h.nodup hmem
    have hexists : ∃ task,
        recovery maxPropTime (reached initial members before after) me = some task :=
      exists_recovery (hsettled me hme) (hwatch me hme) hslice (List.ne_nil_of_mem hin)
    obtain ⟨task, htask⟩ := hexists
    refine ⟨me, hme, ⟨task, htask, ?_⟩, fun other hother hne => ?_⟩
    · intro current zones later action z hz
      have hcovers : task.Covers z := by
        rw [covers_of_settled (hsettled me hme) (hwatch me hme) htask, hz]
        exact (handles_iff_mem hshard hme).mpr ⟨slice, hslice, hin⟩
      obtain ⟨range, -, rfl⟩ := Option.map_eq_some_iff.mp htask
      exact mem_requests_covered hcovers action
    · refine silent_of_settled (hsettled other hother) (hwatch other hother) fun hhandles => ?_
      exact hne (honly other ⟨hother, (handles_iff_mem hshard hother).mp hhandles⟩)
  -- the last shard is no partition, and in no slice
  · refine silent_of_settled (hsettled me hme) (hwatch me hme) fun hhandles => ?_
    obtain ⟨slice, hslice, hin⟩ := (handles_iff_mem hshard hme).mp hhandles
    have hpart := List.mem_range.mp (mem_partitions_of_slice hslice hin)
    obtain rfl : shard = 0xfff := Option.some.inj (hshard.symm.trans hid)
    omega

/-- The zone of this identifier is in the first shard, and one of the two producers has it. -/
theorem run_recovered_once_sample :
    ∃ me ∈ ["a", "b"],
      (∃ task, recovery 3600 (reached ["a"] ["a", "b"] starting reading) me = some task ∧
        ∀ current zones later action z, z.id = 2 →
          ((action, z) ∈ task.requests current zones later ↔
            action = z.action ∧ action ≠ .NONE ∧ Troubled 3600 current zones later z)) ∧
      ∀ other ∈ ["a", "b"], other ≠ me →
        Silent 3600 (reached ["a"] ["a", "b"] starting reading) 2 other :=
  (run_recovered_once 3600 starting_read
    (fun me hme => starting_watched me _ hme (by decide)) 2).1 (by decide +kernel)

end

end RecoverShard

end Designate
