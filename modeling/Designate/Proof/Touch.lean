import Designate.Proof.Serials

/-!
# What a touched zone makes known

Touching a zone stores a new serial and has the worker act on the zone. The serial is assigned to
a copy, which the wrapper of the transaction makes: what goes to the worker, and comes back from
the call, is the zone as it was before. Nor is it marked as updated, so what the device is asked
for is what the zone was waiting for, if anything. The worker sends the zone back with nothing
changed but what it assigned itself, so the new serial stays where it is.
-/

namespace Designate

open Exec

variable {ctx : Context} {conf : Conf} {faults : ZoneFaults} {zoneId : Nat}
  {w stored after : World} {sent zone : Zone}

/--
What `touch_zone` is there for: `sent` goes to the worker once the serial is `stored`, `zone`
comes back, and `after` is what there is then.
-/
structure Published (zoneId : Nat) (sent : Zone) (stored : World) (zone : Zone) (after : World) :
    Prop where
  current : stored.serials.lookup zoneId = some sent.serial
  returned : stored.serials.lookup zoneId = some zone.serial
  /-- The worker has the device do what the zone says. -/
  asked : sent.action = .UPDATE
  /-- The callback leaves the serial in place. -/
  kept : after.serials.lookup zoneId = stored.serials.lookup zoneId

/-- What `touch_zone` does make known: the zone as it was found. -/
structure Told (ctx : Context) (zoneId : Nat) (w : World) (sent : Zone) (stored : World)
    (zone : Zone) (after : World) : Prop where
  found : findZone ctx zoneId w.db = .ok sent
  returned : zone = sent
  serial : stored.serials.lookup zoneId = some (incrementSerial ctx.now sent.serial)
  kept : after.serials = stored.serials

/-- The new serial is bigger. -/
theorem Told.serial_lt (h : Told ctx zoneId w sent stored zone after) :
    ∃ serial, stored.serials.lookup zoneId = some serial ∧ sent.serial < serial :=
  ⟨_, h.serial, lt_incrementSerial.mpr (Or.inr (Nat.le_refl _))⟩

theorem Told.not_published (h : Told ctx zoneId w sent stored zone after) :
    ¬ Published zoneId sent stored zone after := by
  intro hp
  obtain ⟨serial, hserial, hlt⟩ := h.serial_lt
  have heq : serial = sent.serial := Option.some.inj (hserial.symm.trans hp.current)
  omega

theorem touchZone_told (hw : w.Linked) (hstore : storeTouch ctx conf zoneId w = (.ok sent, stored))
    (h : touchZone ctx conf faults zoneId w = (.ok zone, after)) :
    Told ctx zoneId w sent stored zone after := by
  -- the serial goes up in the table, and the zone that comes back is the one that was loaded
  have hserials := storeTouch_serials ctx conf zoneId w ⟨hw, rfl⟩
  rw [hstore] at hserials
  obtain ⟨old, hold, -, hstored⟩ := hserials
  have hget := hstore
  unfold storeTouch getZone at hget
  obtain ⟨found, hfound, hrest⟩ := of_read_bind hget
  obtain ⟨_, w', -, hpure⟩ := bind_eq_ok.mp hrest
  obtain ⟨hsent, -⟩ := Prod.mk.inj hpure
  obtain rfl : found = sent := Except.ok.inj hsent
  have hserial : old = found.serial :=
    Option.some.inj (hold.symm.trans (hw.serialOf_eq hfound))
  unfold touchZone at h
  rw [bind_ok hstore] at h
  obtain ⟨_, w₂, haction, hreturn⟩ := bind_eq_ok.mp h
  obtain ⟨hzone, hafter⟩ := Prod.mk.inj hreturn
  have hkeeps := (serials_steady ctx conf stored.serials).zoneAction faults found stored
    ⟨hstored.1, rfl⟩
  rw [haction, hafter] at hkeeps
  refine ⟨hfound, (Except.ok.inj hzone).symm, ?_, hkeeps.2⟩
  rw [hstored.2, lookup_serialsChanged, if_pos rfl, hold, hserial]
  rfl

/--
**A touched zone is never published**: whenever the call returns, the zone that went to the worker
and came back has the serial of before.
-/
theorem touchZone_unpublished (ctx : Context) (conf : Conf) (faults : ZoneFaults) (zoneId : Nat)
    (w after : World) (zone : Zone) (hw : w.Linked)
    (h : touchZone ctx conf faults zoneId w = (.ok zone, after)) :
    ∃ sent stored, storeTouch ctx conf zoneId w = (.ok sent, stored) ∧
      ¬ Published zoneId sent stored zone after := by
  obtain ⟨sent, stored, hstore, -⟩ := bind_eq_ok.mp (show (storeTouch ctx conf zoneId >>= _) w = _
    from h)
  exact ⟨sent, stored, hstore, (touchZone_told hw hstore h).not_published⟩

theorem touchZone_unpublished_sample :
    ∃ sent stored, storeTouch Sample.ctx Sample.conf 2 Sample.secondary.world = (.ok sent, stored) ∧
      ¬ Published 2 sent stored { Sample.zone with type := .SECONDARY }
        (touchZone Sample.ctx Sample.conf ZoneFaults.none 2 Sample.secondary.world).2 :=
  touchZone_unpublished Sample.ctx Sample.conf ZoneFaults.none 2 Sample.secondary.world _ _
    secondary_plain.linked (Prod.ext (by decide +kernel) rfl)

/-- An active zone: neither does the worker get the new serial, nor the device the zone. -/
theorem touchZone_unheard :
    ¬ ∀ (ctx : Context) (conf : Conf) (faults : ZoneFaults) (zoneId : Nat)
      (w stored after : World) (sent zone : Zone), w.Linked →
      storeTouch ctx conf zoneId w = (.ok sent, stored) →
      touchZone ctx conf faults zoneId w = (.ok zone, after) →
      Published zoneId sent stored zone after := by
  intro h
  have hpublished := h Sample.ctx Sample.conf ZoneFaults.none 2 Sample.secondary.world
    (storeTouch Sample.ctx Sample.conf 2 Sample.secondary.world).2
    (touchZone Sample.ctx Sample.conf ZoneFaults.none 2 Sample.secondary.world).2
    { Sample.zone with type := .SECONDARY } { Sample.zone with type := .SECONDARY }
    secondary_plain.linked (Prod.ext (by decide +kernel) rfl) (Prod.ext (by decide +kernel) rfl)
  exact absurd hpublished.asked (by decide)

end Designate
