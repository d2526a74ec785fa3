import Designate.PoolManager.Deletion
import Designate.Proof.Notify
import Designate.Proof.Reports
import Designate.Proof.StatusMessages

/-!
# When a zone is removed

A message removes a zone in two cases. `NO_ZONE` does whatever else is known, and the pool
manager sends it for every report that the zone is missing. Success does for a zone that is to
be deleted, once the consensus serial reaches the zone's own: and since a serial is only ever
kept of an SOA, a zone is then removed because enough nameservers still serve it.

So a removal is right as long as no report is handled that lets the nameservers' serials get to
the zone's, and none that the zone is missing before there is a consensus on that in what has
been reported and is kept of them. What is reported or kept so stands on a denial that the
nameserver has sent: this holds in every run, and it is what the consensus is worth.
-/

namespace Designate

namespace Deletion

open PoolManager Notify

/-! ## What central does with a message -/

section Message

variable {ctx : Context} {conf : Conf} {m : PoolStatus} {id : Nat} {w : World}

/-- The row a message makes of a live one, if it is live itself. -/
theorem zoneChange_live {found row : Zone} (hlive : (m.zoneChange found row).deleted = false) :
    (m.zoneChange found row).id = row.id ∧ (m.zoneChange found row).serial = row.serial ∧
      row.deleted = false ∧ ((m.zoneChange found row).action = .DELETE → found.action = .DELETE) := by
  have haction : (updateZoneOrRecordStatus m found.action found.status found.serial).1 = .DELETE →
      found.action = .DELETE := fun h => updateZoneOrRecordStatus_action h (by decide)
  unfold PoolStatus.zoneChange at hlive ⊢
  generalize updateZoneOrRecordStatus m found.action found.status found.serial = u at hlive haction ⊢
  obtain ⟨action, status, deleted⟩ := u
  cases deleted with
  | true => exact absurd hlive (by simp [Zone.drop])
  | false => exact ⟨rfl, rfl, hlive, haction⟩

/-- The live rows after a message are those before, of the same serials. -/
theorem message_rows (hw : w.Linked) {z' : Zone}
    (hz' : z' ∈ (Designate.updateStatus ctx conf m id w).2.db.zones) (hlive : z'.deleted = false) :
    ∃ z ∈ w.db.zones, z.id = z'.id ∧ z.deleted = false ∧ z.serial = z'.serial ∧
      (z'.action = .DELETE → z.action = .DELETE) := by
  have hrows : ZonesAt w.db.zones w.nextId (Designate.updateStatus ctx conf m id w).2 ∨ _ :=
    updateStatus_zones m id w
  rcases hrows with h | ⟨found, hfound, h⟩
  · rw [h.zones] at hz'
    exact ⟨z', hz', rfl, hlive, rfl, fun h => h⟩
  · rw [h.zones] at hz'
    rcases Table.mem_update.mp hz' with ⟨hz', _⟩ | ⟨z, hz, hid, rfl⟩
    · exact ⟨z', hz', rfl, hlive, rfl, fun h => h⟩
    · obtain ⟨hm, hfid, _⟩ := findZone_mem hfound
      obtain rfl : z = found := Table.eq_of_key hw.zoneIds hz hm (hid.trans hfid.symm)
      obtain ⟨hid', hserial, hdeleted, haction⟩ := zoneChange_live hlive
      exact ⟨z, hz, hid'.symm, hdeleted, hserial.symm, haction⟩

/-- **What a message removes was missing, or was to be deleted and has got to its serial.** -/
theorem message_removes (hw : w.Linked) {z : Zone}
    (hz : z ∈ removed w.db (Designate.updateStatus ctx conf m id w).2.db id) :
    z ∈ w.db.zones ∧ z.id = id ∧ z.deleted = false ∧
      (m.status = .NO_ZONE ∨ m.status = .SUCCESS ∧ z.action = .DELETE ∧ z.serial ≤ m.serial) := by
  unfold removed at hz
  obtain ⟨hmem, hz⟩ := List.mem_filter.mp hz
  simp only [Bool.and_eq_true, beq_iff_eq, Bool.not_eq_true', List.any_eq_false, not_and] at hz
  obtain ⟨⟨hid, hlive⟩, hnone⟩ := hz
  refine ⟨hmem, hid, hlive, ?_⟩
  -- either the message has changed no zone, or the one row it is about
  have hrows : ZonesAt w.db.zones w.nextId (Designate.updateStatus ctx conf m id w).2 ∨ _ :=
    updateStatus_zones m id w
  rcases hrows with h | ⟨found, hfound, h⟩
  · rw [h.zones] at hnone
    exact absurd (hnone z hmem hid) (by simp [hlive])
  · obtain ⟨hm, hfid, _⟩ := findZone_mem hfound
    obtain rfl : z = found := Table.eq_of_key hw.zoneIds hmem hm (hid.trans hfid.symm)
    rw [h.zones] at hnone
    have hgone := hnone (m.zoneChange z z) (Table.mem_update.mpr (.inr ⟨z, hmem, hid, rfl⟩))
    unfold PoolStatus.zoneChange at hgone
    -- of the five ways a message may go two delete the row
    rcases updateZoneOrRecordStatus_cases m z.action z.status z.serial with
      hu | ⟨_, _, _, _, hu⟩ | ⟨hm, ha, _, hserial, _⟩ | ⟨_, _, _, hu⟩ | ⟨hm, _⟩
    · rw [hu] at hgone
      exact absurd (hgone hid) (by simp [hlive])
    · rw [hu] at hgone
      exact absurd (hgone hid) (by simp [hlive])
    · exact .inr ⟨hm, ha, hserial⟩
    · rw [hu] at hgone
      exact absurd (hgone hid) (by simp [hlive])
    · exact .inl hm

end Message

/-! ## What the nameservers answer -/

section

variable (S : Setup) (heard : List Heard) (zoneId nameserverId : String)

/-- The responses of a nameserver that tell something of a zone. -/
def answers : List Response :=
  (heard.filter fun h => h.zoneId == zoneId && h.nameserverId == nameserverId &&
    (h.response.noZone || (h.response.serial (S.nameOf zoneId)).isSome)).map Heard.response

/-- The nameserver has last answered that it does not have the zone. -/
def denies : Bool := (answers S heard zoneId nameserverId).getLast?.any Response.noZone

/-- The nameserver still answers with an SOA of this serial or a later one. -/
def serves (serial : Nat) : Bool :=
  (answers S heard zoneId nameserverId).getLast?.any (reaches (S.nameOf zoneId) serial)

end

/--
Enough of the nameservers had denied the zone when it was removed, and what removed it was no
success of nameservers that still serve it.
-/
structure Right (S : Setup) (removal : Removal) : Prop where
  denied : meets S.threshold
    (S.pool.nameservers.countP fun n => denies S removal.heard removal.message.zoneId n.id)
    S.pool.nameservers.length = true
  unserved : removal.message.status = .SUCCESS → ∀ n ∈ S.pool.nameservers,
    serves S removal.heard removal.message.zoneId n.id removal.message.serial = false

/-- A nameserver will answer a poll with an SOA of this serial or a later one. -/
def foretells (S : Setup) (polls : Polls) (zoneId nameserverId : String) (serial : Nat) : Bool :=
  (polls nameserverId).any fun sends => (sends.getD []).any fun
    | .response r => reaches (S.nameOf zoneId) serial r
    | _ => false

section

variable (S : Setup) (m : State) (polls : Polls) (r : Report)

/--
An entry says that the nameserver does not have the zone: it was kept as `NO_ZONE`, or as the
success that `_retrieve_from_mdns` makes of that for a zone that is to be deleted.
-/
def saysMissing (action : Action) (e : PoolManager.Entry) : Bool :=
  e.status == some .NO_ZONE || action == .DELETE && e == ⟨some .SUCCESS, 0⟩

/-- What is kept of a nameserver under the zone and action of a report. -/
def keptOf (nameserverId : String) : Option PoolManager.Entry :=
  m.outside.kept ⟨nameserverId, r.zone.id, actionOf r.zone⟩

/--
A nameserver has got to a serial: it is kept with it, the report has it, or a poll will find
it, if nothing is kept.
-/
def getsTo (serial : Nat) (nameserverId : String) : Bool :=
  nameserverId == r.nameserver.id && decide (serial ≤ r.actualSerial.getD 0) ||
    match keptOf m r nameserverId with
    | some e => decide (serial ≤ e.serialNumber)
    | none => nameserverId != r.nameserver.id && foretells S polls r.zone.id nameserverId serial

/--
NO_ZONE has been reported of a nameserver, by this report or by another one on the zone, or is
kept of it.
-/
def missing (nameserverId : String) : Bool :=
  (m.site.reports.any fun report =>
      report.zone.id == r.zone.id && report.nameserver.id == nameserverId &&
        report.status == .NO_ZONE) ||
    (keptOf m r nameserverId).any (saysMissing (actionOf r.zone))

/--
A nameserver is back: the SOA is the last it has answered with, or a poll will find that it has
the zone after all.
-/
def back (nameserverId : String) : Bool :=
  serves S m.site.heard r.zone.id nameserverId 0 ||
    (keptOf m r nameserverId).isNone && foretells S polls r.zone.id nameserverId 0

/--
A report can be handled while this row is there: too few nameservers have got to its serial
for a success to remove it, and if the zone is reported missing, there is a consensus on that
in what has been reported and kept of the nameservers that are not back.
-/
structure Harmless (z : Zone) : Prop where
  unreached : r.zone.status ≠ .ACTIVE →
    S.pool.nameservers.countP (fun n => getsTo S m polls r
      (max 1 (max z.serial ((m.outside.kept.serial r.key).getD 0))) n.id) <
        needed S.pool S.threshold
  agreed : r.status = .NO_ZONE → meets S.threshold
    (S.pool.nameservers.countP fun n => missing m r n.id && !back S m polls r n.id)
    S.pool.nameservers.length = true

end

/-- The row of a zone that is to be deleted. -/
structure Doomed (id : Nat) (w : World) (z : Zone) : Prop where
  mem : z ∈ w.db.zones
  id : z.id = id
  live : z.deleted = false
  action : z.action = .DELETE

/-- A step only handles reports that are harmless to the zones that are to be deleted. -/
def Allowed (S : Setup) : Happening → State → Prop
  | .deliver n polls, m => ∀ r z, m.site.reports[n]? = some r →
      Doomed (S.rowOf r.zone.id) m.site.central z → Harmless S m polls r z
  | _, _ => True

/-! ## Answers and polls -/

section

variable {S : Setup} {heard new : List Heard} {zoneId nameserverId : String} {serial serial' : Nat}
  {polls polls' : Polls}

/-- What says nothing of a serial leaves a denial as it is. -/
theorem denies_append (h : denies S heard zoneId nameserverId = true)
    (hnew : ∀ a ∈ new, a.zoneId = zoneId → a.nameserverId = nameserverId →
      a.response.serial (S.nameOf zoneId) = none) :
    denies S (heard ++ new) zoneId nameserverId = true := by
  -- the last answer that says anything decides, and what is new says the same or nothing
  have hdenials : ∀ r ∈ answers S new zoneId nameserverId, r.noZone = true := by
    intro r hr
    obtain ⟨a, ha, rfl⟩ := List.mem_map.mp hr
    obtain ⟨ha, hp⟩ := List.mem_filter.mp ha
    simp only [Bool.and_eq_true, beq_iff_eq, Bool.or_eq_true] at hp
    obtain ⟨⟨hzone, hnameserver⟩, hp⟩ := hp
    rcases hp with hp | hp
    · exact hp
    · rw [hnew a ha hzone hnameserver] at hp
      exact absurd hp (by simp)
  have happend : answers S (heard ++ new) zoneId nameserverId =
      answers S heard zoneId nameserverId ++ answers S new zoneId nameserverId := by
    simp [answers]
  unfold denies at h ⊢
  rw [happend, List.getLast?_append]
  cases hlast : (answers S new zoneId nameserverId).getLast? with
  | none => simpa using h
  | some r => simpa using hdenials r (List.mem_of_getLast? hlast)

variable (heard zoneId nameserverId) in
/-- The nameserver has answered that it does not have the zone. -/
def denied : Bool :=
  heard.any fun h => h.zoneId == zoneId && h.nameserverId == nameserverId && h.response.noZone

variable (S heard zoneId nameserverId) in
/-- The nameserver has answered with an SOA of the zone. -/
def shown : Bool :=
  heard.any fun h => h.zoneId == zoneId && h.nameserverId == nameserverId &&
    (h.response.serial (S.nameOf zoneId)).isSome

/-- **Who has answered, and not with the SOA in the end, denies the zone.** -/
theorem denies_of_answered
    (hanswered : denied heard zoneId nameserverId = true ∨
      shown S heard zoneId nameserverId = true)
    (hnot : serves S heard zoneId nameserverId 0 = false) :
    denies S heard zoneId nameserverId = true := by
  have hsome : answers S heard zoneId nameserverId ≠ [] := by
    have hany : ∃ h ∈ heard, (h.zoneId == zoneId && h.nameserverId == nameserverId &&
        (h.response.noZone || (h.response.serial (S.nameOf zoneId)).isSome)) = true := by
      rcases hanswered with hdenied | hshown
      · obtain ⟨h, hmem, hh⟩ := List.any_eq_true.mp hdenied
        simp only [Bool.and_eq_true] at hh
        exact ⟨h, hmem, by simp [hh.1.1, hh.1.2, hh.2]⟩
      · obtain ⟨h, hmem, hh⟩ := List.any_eq_true.mp hshown
        simp only [Bool.and_eq_true] at hh
        exact ⟨h, hmem, by simp [hh.1.1, hh.1.2, hh.2]⟩
    obtain ⟨h, hmem, hh⟩ := hany
    exact List.ne_nil_of_mem (List.mem_map_of_mem (List.mem_filter.mpr ⟨hmem, hh⟩))
  unfold serves at hnot
  unfold denies
  cases hlast : (answers S heard zoneId nameserverId).getLast? with
  | none => exact absurd (List.getLast?_eq_none_iff.mp hlast) hsome
  | some a =>
    rw [hlast] at hnot
    obtain ⟨h, hmem, rfl⟩ := List.mem_map.mp (List.mem_of_getLast? hlast)
    have htells := (List.mem_filter.mp hmem).2
    simp only [Bool.and_eq_true, Bool.or_eq_true] at htells
    -- an answer that counts and is no SOA is a denial
    rcases htells.2 with hzone | hserial
    · simpa using hzone
    · obtain ⟨serial, hserial⟩ := Option.isSome_iff_exists.mp hserial
      simp [reaches, hserial] at hnot

theorem denied_append (new : List Heard) (h : denied heard zoneId nameserverId = true) :
    denied (heard ++ new) zoneId nameserverId = true := by
  unfold denied at h ⊢
  rw [List.any_append, h, Bool.true_or]

theorem shown_append (new : List Heard) (h : shown S heard zoneId nameserverId = true) :
    shown S (heard ++ new) zoneId nameserverId = true := by
  unfold shown at h ⊢
  rw [List.any_append, h, Bool.true_or]

theorem foretells_mono (hle : polls nameserverId ⊆ polls' nameserverId)
    (h : foretells S polls zoneId nameserverId serial = true) :
    foretells S polls' zoneId nameserverId serial = true := by
  obtain ⟨sends, hsends, h⟩ := List.any_eq_true.mp h
  exact List.any_eq_true.mpr ⟨sends, hle hsends, h⟩

theorem foretells_of {sends : List Sent} {r : Response}
    (hsends : some sends ∈ polls nameserverId) (hr : .response r ∈ sends)
    (hreaches : reaches (S.nameOf zoneId) serial r = true) :
    foretells S polls zoneId nameserverId serial = true :=
  List.any_eq_true.mpr ⟨_, hsends, List.any_eq_true.mpr ⟨_, hr, hreaches⟩⟩

/-- What a poll of a nameserver does to the site, and what it comes to. -/
structure Polled (S : Setup) (zone : ZoneView) (nameserver : Nameserver) (site site' : Site)
    (result : Except Fault (Status × Option Nat)) : Prop where
  central : site'.central = site.central
  removals : site'.removals = site.removals
  reports : site'.reports = site.reports
  polls : ∀ n, site'.polls n ⊆ site.polls n
  heard : ∃ new, site'.heard = site.heard ++ new ∧ ∀ h ∈ new, h.nameserverId = nameserver.id ∧
    ∃ sends, some sends ∈ site.polls nameserver.id ∧ .response h.response ∈ sends
  actual : ∀ status actualSerial, result = .ok (status, actualSerial) →
    ∀ serial, 0 < serial → serial ≤ actualSerial.getD 0 →
      foretells S site.polls zone.id nameserver.id serial = true

/-- The mini DNS polls: what it receives has been sent, and what it reports rests on that. -/
theorem poll_run {zone : ZoneView} {nameserver : Nameserver} {sends : List Sent}
    {site site' : Site} {result : Except Fault (Status × Option Nat × Int)}
    (h : poll S zone nameserver sends site = (result, site')) :
    ∃ received : List Response, (∀ r ∈ received, .response r ∈ sends) ∧
      site' = { site with
        heard := site.heard ++ received.map fun r => ⟨zone.id, nameserver.id, r⟩ } ∧
      ∀ status actualSerial left, result = .ok (status, actualSerial, left) →
        status = verdict (S.nameOf zone.id) zone.serial received ∧
          Founded (S.nameOf zone.id) actualSerial received := by
  unfold poll at h
  -- a poll begins with nothing received, so all that it received was sent during it
  cases hrun : getSerialNumber (S.nameOf zone.id) zone S.maxRetries { sends } with
  | mk result' wire =>
    rw [hrun] at h
    cases h
    refine ⟨wire.received, fun r hr => ?_, rfl, fun status actualSerial left hresult => ?_⟩
    · have hmem : r ∈ (getSerialNumber (S.nameOf zone.id) zone S.maxRetries
          { sends }).2.received := by rw [hrun]; exact hr
      exact received_sent hmem
    · subst hresult
      exact getSerialNumber_founded hrun

/-- The polls that are left are among those there were. -/
theorem update_tail_subset (polls : Polls) (nameserverId n : String) :
    Function.update polls nameserverId (polls nameserverId).tail n ⊆ polls n := by
  by_cases hn : n = nameserverId
  · subst hn
    rw [Function.update_self]
    exact fun _ => List.mem_of_mem_tail
  · rw [Function.update_of_ne hn]
    exact List.Subset.refl _

/-- A poll for the pool manager is carried out, or gets lost. -/
theorem parties_poll {zone : ZoneView} {nameserver : Nameserver} {site site' : Site}
    {result : Except Fault (Status × Option Nat)}
    (h : (parties S).getSerialNumber zone nameserver site = (result, site')) :
    Polled S zone nameserver site site' result := by
  -- the next poll of the nameserver is taken from those foreseen for it
  have htail := update_tail_subset site.polls nameserver.id
  unfold parties at h
  dsimp only at h
  split at h
  · next sends polls hpolls =>
    have hsends : some sends ∈ site.polls nameserver.id := by
      rw [hpolls]
      exact List.mem_cons_self
    rw [hpolls, List.tail_cons] at htail
    cases hpoll : poll S zone nameserver sends
        { site with polls := Function.update site.polls nameserver.id polls } with
    | mk answer site₁ =>
      rw [hpoll] at h
      cases h
      obtain ⟨received, hsent, rfl, hfounded⟩ := poll_run hpoll
      refine ⟨rfl, rfl, rfl, htail, ⟨_, rfl, ?_⟩, ?_⟩
      · intro a ha
        obtain ⟨r, hr, rfl⟩ := List.mem_map.mp ha
        exact ⟨rfl, sends, hsends, hsent r hr⟩
      · -- a serial that the poll reports was in an answer, and the answer was foreseen
        intro status actualSerial hresult serial hpos hle
        cases answer with
        | error e => cases hresult
        | ok answer =>
          cases hresult
          cases hactual : answer.2.1 with
          | none => rw [hactual] at hle; exact absurd hle (by simp; omega)
          | some s =>
            rw [hactual, Option.getD_some] at hle
            obtain ⟨r, hr, hserial⟩ := (hfounded _ _ _ rfl).2 s hactual (by omega)
            refine foretells_of hsends (hsent r hr) ?_
            simp [reaches, hserial, hle]
  · -- no poll is foreseen any more: the request gets lost
    cases h
    exact ⟨rfl, rfl, rfl, htail, ⟨[], (List.append_nil _).symm, by simp⟩,
      fun _ _ h => by cases h⟩

end

/-! ## What is known of the nameservers -/

/--
What an entry that is kept, and what a report, say of the answers of a nameserver. It stays
said whatever is answered later, a new entry says nothing, and a poll reports nothing but what
it has heard.
-/
structure Testimony (S : Setup) where
  kept : List Heard → Key → PoolManager.Entry → Prop
  reported : List Heard → Report → Prop
  kept_append : ∀ {heard key e} (new : List Heard), kept heard key e → kept (heard ++ new) key e
  reported_append : ∀ {heard r} (new : List Heard), reported heard r → reported (heard ++ new) r
  fresh : ∀ heard key, kept heard key ⟨none, 0⟩
  taken : ∀ {heard} {r : Report}, reported heard r → r.actualSerial.getD 0 ≠ 0 →
    kept heard r.key ⟨some r.status, r.actualSerial.getD 0⟩
  answered : ∀ {heard} {r : Report}, reported heard r → kept heard r.answerKey r.object.entry
  polled : ∀ (heard : List Heard) (zone : ZoneView) (nameserver : Nameserver)
    {received : List Response} {actualSerial : Option Nat},
    Founded (S.nameOf zone.id) actualSerial received →
    reported (heard ++ received.map fun r => ⟨zone.id, nameserver.id, r⟩)
      ⟨zone, nameserver, verdict (S.nameOf zone.id) zone.serial received, actualSerial⟩

/--
What is kept and reported stands on what has been heard. What is heard only ever grows, so what
stands once stands for good, and a step only has to show it of what it adds.
-/
structure Stands {S : Setup} (T : Testimony S) (m : State) : Prop where
  kept : ∀ key e, m.outside.kept key = some e → T.kept m.site.heard key e
  reports : ∀ r ∈ m.site.reports, T.reported m.site.heard r

/-- What is left alone, but for what is kept anew or cleared. -/
structure Quiet (w w' : Outside Site) : Prop where
  central : w'.rest.central = w.rest.central
  removals : w'.rest.removals = w.rest.removals
  heard : w'.rest.heard = w.rest.heard
  reports : w'.rest.reports = w.rest.reports
  kept : ∀ key e, w'.kept key = some e → w.kept key = some e ∨ e = ⟨none, 0⟩

theorem quiet_store (nameserver : Nameserver) (zone : ZoneView) (action : Action)
    (w : Outside Site) :
    Quiet w (Outside.store (buildStatusObject nameserver zone action) w).2 := by
  refine ⟨rfl, rfl, rfl, rfl, fun key e he => ?_⟩
  unfold Outside.store at he
  dsimp only at he
  by_cases hkey : key = (buildStatusObject nameserver zone action).key
  · rw [hkey, Function.update_self] at he
    cases he
    exact .inr rfl
  · rw [Function.update_of_ne hkey] at he
    exact .inl he

theorem quiet_without (key : Key) (w : Outside Site) : Quiet w (w.without key) := by
  refine ⟨rfl, rfl, rfl, rfl, fun key' e he => .inl ?_⟩
  unfold Outside.without at he
  dsimp only at he
  by_cases hkey : key' = key
  · rw [hkey, Function.update_self] at he
    cases he
  · rwa [Function.update_of_ne hkey] at he

/-- What is only looked up or asked for changes nothing. -/
theorem quiet_retrieve (nameserverId zoneId : String) (action : Action)
    (w : Outside Site) : Quiet w (Outside.retrieve nameserverId zoneId action w).2 :=
  ⟨rfl, rfl, rfl, rfl, fun _ _ he => .inl he⟩

theorem quiet_poll (zone : ZoneView) (nameserver : Nameserver) (w : Outside Site) :
    Quiet w (pollForSerialNumber zone nameserver w).2 :=
  ⟨rfl, rfl, rfl, rfl, fun _ _ he => .inl he⟩

/-- What every quiet call keeps. -/
def Undisturbed (I : State → Prop) : Prop :=
  ∀ m outside, Quiet m.outside outside → I m → I { m with outside }

section

variable {S : Setup} {I : State → Prop} {zone : ZoneView}

theorem Undisturbed.call (hI : Undisturbed I) {α : Type} {prog : Exec (Outside Site) Fault α}
    (hquiet : ∀ w, Quiet w (prog w).2) : Exec.Keeps I (PoolManager.call prog) :=
  fun m h => hI m (prog m.outside).2 (hquiet m.outside) h

variable (S zone) in
/-- An entry that is there is left, and else there is a new one; then a poll is asked for. -/
def askFor (z : ZoneView) (action : Action) (nameserver : Nameserver) : Exec State Fault Unit := do
  Exec.catching (· == .PoolManagerStatusNotFound)
    (do
      let _ ← call ((manager S zone).retrieve nameserver.id z.id action)
      pure ())
    (do
      let _ ← call ((manager S zone).store (buildStatusObject nameserver z action))
      pure ())
  call (pollForSerialNumber z nameserver)

theorem Undisturbed.askFor (hI : Undisturbed I) (z : ZoneView) (action : Action)
    (nameserver : Nameserver) : Exec.Keeps I (askFor S zone z action nameserver) := by
  refine Exec.Keeps.bind (Exec.Keeps.catching ?_ ?_) fun _ => hI.call fun _ => quiet_poll _ _ _
  · exact Exec.Keeps.bind (hI.call fun _ => quiet_retrieve _ _ _ _) fun _ => Exec.Keeps.pure _
  · exact Exec.Keeps.bind (hI.call fun _ => quiet_store _ _ _ _) fun _ => Exec.Keeps.pure _

/-- A deletion keeps what a failure that is told of does, and what is only asked for. -/
theorem Undisturbed.deleteZone (hI : Undisturbed I) (attempts : String → Nat → Bool)
    (htell : Exec.Keeps I (tell (manager S zone) ⟨zone.id, .ERROR, zone.serial⟩)) :
    Exec.Keeps I
      (deleteZone (manager S zone) pollForSerialNumber S.maxRetries attempts zone) := by
  have hask : ∀ z, Exec.Keeps I (askAll (manager S zone) pollForSerialNumber z) :=
    fun z => Exec.Keeps.forEach fun nameserver _ => hI.askFor z _ nameserver
  unfold Deletion.deleteZone
  refine Exec.Keeps.ite (fun _ => hask _) fun _ => ?_
  exact Exec.Keeps.bind htell fun _ => hask _

end

section

variable {S : Setup} {T : Testimony S} {m m' : State}

/-- With more answers, what is kept and reported still stands, and what is new may as well. -/
theorem Stands.extend (h : Stands T m) {new : List Heard}
    (hheard : m'.site.heard = m.site.heard ++ new)
    (hkept : ∀ key e, m'.outside.kept key = some e →
      m.outside.kept key = some e ∨ T.kept m'.site.heard key e)
    (hreports : ∀ r ∈ m'.site.reports, r ∈ m.site.reports ∨ T.reported m'.site.heard r) :
    Stands T m' where
  kept key e he := (hkept key e he).elim
    (fun he => hheard ▸ T.kept_append new (h.kept key e he)) id
  reports r hr := (hreports r hr).elim
    (fun hr => hheard ▸ T.reported_append new (h.reports r hr)) id

theorem undisturbed_stands : Undisturbed (Stands T) := by
  intro m outside hquiet h
  refine h.extend (hquiet.heard.trans (List.append_nil _).symm) (fun key e he => ?_)
    fun r hr => .inl (hquiet.reports ▸ hr)
  refine (hquiet.kept key e he).imp_right fun hfresh => ?_
  rw [hfresh]
  exact T.fresh _ key

/-- A message to central is no answer. -/
theorem keeps_tell_stands (zone : ZoneView) (msg : Message) :
    Exec.Keeps (Stands T) (tell (service S.pool S.threshold (parties S) zone) msg) :=
  fun _ h => ⟨h.kept, h.reports⟩

/-- A poll for the pool manager, and what it says by its end. -/
theorem parties_reported {zone : ZoneView} {nameserver : Nameserver} {site site' : Site}
    {result : Except Fault (Status × Option Nat)}
    (h : (parties S).getSerialNumber zone nameserver site = (result, site')) :
    ∀ status actualSerial, result = .ok (status, actualSerial) →
      T.reported site'.heard ⟨zone, nameserver, status, actualSerial⟩ := by
  unfold parties at h
  dsimp only at h
  split at h
  · next sends polls hpolls =>
    cases hpoll : poll S zone nameserver sends
        { site with polls := Function.update site.polls nameserver.id polls } with
    | mk answer site₁ =>
      rw [hpoll] at h
      cases h
      obtain ⟨received, -, rfl, hfounded⟩ := poll_run hpoll
      intro status actualSerial hresult
      cases answer with
      | error e => cases hresult
      | ok answer =>
        cases hresult
        -- what is reported is what the last answer said
        obtain ⟨hstatus, hserial⟩ := hfounded _ _ _ rfl
        rw [hstatus]
        exact T.polled site.heard zone nameserver hserial
  · cases h
    intro status actualSerial hresult
    cases hresult

/-- **A status that is retrieved stands on an answer**, whether it was kept or is a new one. -/
theorem retrieveStatus_stands (h : Stands T m) {z zone : ZoneView} {nameserver : Nameserver}
    {result : Except Fault (Option PoolManagerStatus)}
    (hrun : retrieveStatus (service S.pool S.threshold (parties S) z) zone (actionOf zone)
      nameserver m = (result, m')) :
    Stands T m' ∧ m'.site.central = m.site.central ∧
      (∃ new, m'.site.heard = m.site.heard ++ new) ∧
      ∀ o, result = .ok (some o) → o.key.zoneId = zone.id ∧ o.key.nameserverId = nameserver.id ∧
        T.kept m'.site.heard o.key o.entry := by
  -- it was kept, or it is asked for without success, or with
  rcases retrieveStatus_cases S.pool S.threshold (parties S) z zone nameserver m with
    ⟨e, hkept, hcase⟩ |
      ⟨hmiss, ⟨e, rest, result', hpoll, hnone, hcase⟩ | ⟨answer, rest, rfl, rfl, hpoll, hcase⟩⟩
  · rw [hcase] at hrun
    cases hrun
    refine ⟨h, rfl, ⟨[], (List.append_nil _).symm⟩, fun o ho => ?_⟩
    cases ho
    exact ⟨rfl, rfl, h.kept _ e hkept⟩
  · rw [hcase] at hrun
    cases hrun
    have hpolled := parties_poll hpoll
    obtain ⟨new, hheard, -⟩ := hpolled.heard
    refine ⟨h.extend hheard (fun _ _ he => .inl he) fun r hr => .inl ?_, hpolled.central,
      ⟨new, hheard⟩, fun o ho => absurd ho (hnone o)⟩
    exact hpolled.reports ▸ hr
  · rw [hcase] at hrun
    cases hrun
    have hpolled := parties_poll hpoll
    obtain ⟨new, hheard, -⟩ := hpolled.heard
    -- a new answer is among those heard, and is what is kept now
    have hsays : T.kept rest.heard answer.answerKey answer.object.entry :=
      T.answered (parties_reported hpoll _ _ rfl)
    refine ⟨h.extend hheard (fun key e he => ?_) fun r hr => .inl (hpolled.reports ▸ hr),
      hpolled.central, ⟨new, hheard⟩, fun o ho => ?_⟩
    · dsimp only at he
      by_cases hkey : key = answer.answerKey
      · rw [hkey, Function.update_self] at he
        cases he
        exact .inr (hkey ▸ hsays)
      · rw [Function.update_of_ne hkey] at he
        exact .inl he
    · cases ho
      refine ⟨answerKey_zone answer, ?_, hsays⟩
      rcases answerKey_cases answer with hanswer | ⟨_, hanswer⟩
      · exact congrArg Key.nameserverId hanswer
      · exact congrArg Key.nameserverId hanswer

theorem keeps_retrieveStatus_stands (z zone : ZoneView) (nameserver : Nameserver) :
    Exec.Keeps (Stands T)
      (retrieveStatus (service S.pool S.threshold (parties S) z) zone (actionOf zone)
        nameserver) :=
  fun _ h => (retrieveStatus_stands h rfl).1

/-- With a report taken down, what is kept still stands. -/
theorem Stands.taken {r : Report} (h : Stands T m) (hr : T.reported m.site.heard r) :
    Stands T { m with outside := m.outside.taken r } := by
  refine h.extend (List.append_nil _).symm (fun key e he => ?_) fun _ hr => .inl hr
  unfold Outside.taken at he
  dsimp only at he
  by_cases hkey : key = r.key
  · subst hkey
    rw [Function.update_self] at he
    cases he
    unfold recorded
    -- what is reported, what was kept, or a new entry
    dsimp only
    split
    · next hnews => exact .inr (T.taken hr hnews.1)
    · cases hbefore : m.outside.kept r.key with
      | none => exact .inr (T.fresh _ _)
      | some e => exact .inl rfl
  · rw [Function.update_of_ne hkey] at he
    exact .inl he

/-- **A report that stands leaves all the others standing**, and what is kept. -/
theorem handle_stands {r : Report} (h : Stands T m) (hr : T.reported m.site.heard r) :
    Stands T (handle S.pool S.threshold (parties S) r m).2 := by
  have hone := keeps_retrieveStatus_stands (T := T) r.zone r.zone
  rw [handle_run]
  refine (Exec.Keeps.bind
    (Exec.Keeps.bind (keeps_retrieveStatusesOf _ hone _) fun _ => Exec.Keeps.pure _) fun c =>
      Exec.Keeps.bind (Exec.Keeps.ite (fun _ => keeps_tell_stands _ _) fun _ => Exec.Keeps.pure _)
        fun _ => Exec.Keeps.bind
          (keeps_tellFailure hone (fun msg _ => keeps_tell_stands _ msg) r.status c) fun _ =>
            keeps_tidyUp hone (fun _ => undisturbed_stands.call fun _ => quiet_without _ _) c)
    _ (h.taken hr)

/-- **Whatever happens, what is kept and reported stands on what has been heard.** -/
theorem happen_stands (happening : Happening) (m : State) (h : Stands T m) :
    Stands T (happen S happening m) := by
  cases happening with
  -- a poll adds an answer and a report of it; a report that is handled adds what is kept
  | delete zone attempts =>
    exact undisturbed_stands.deleteZone attempts (keeps_tell_stands _ _) m h
  | poll n sends =>
    unfold happen
    dsimp only
    split
    · exact h
    · next zone nameserver _ =>
      cases hpoll : poll S zone nameserver sends m.site with
      | mk result site =>
        obtain ⟨received, -, rfl, hfounded⟩ := poll_run hpoll
        cases result with
        | error e => exact h.extend rfl (fun _ _ he => .inl he) fun _ hr => .inl hr
        | ok answer =>
          refine h.extend rfl (fun _ _ he => .inl he) fun r hr => ?_
          rcases List.mem_append.mp hr with hr | hr
          · exact .inl hr
          · obtain rfl := List.mem_singleton.mp hr
            obtain ⟨hstatus, hserial⟩ := hfounded _ _ _ rfl
            rw [hstatus]
            exact .inr (T.polled m.site.heard zone nameserver hserial)
  | deliver n polls =>
    unfold happen
    dsimp only
    split
    · exact h
    · next report hreport =>
      exact handle_stands ⟨h.kept, h.reports⟩ (h.reports report (List.mem_of_getElem? hreport))
  | expiry key => exact undisturbed_stands m _ (quiet_without key m.outside) h
  | request input => exact ⟨h.kept, h.reports⟩

end

/-! ## What stands on a denial -/

variable (S : Setup) in
/--
Who is reported missing has denied the zone. An entry that says so may also be that of an SOA
with serial 0.
-/
def denials : Testimony S where
  kept heard key e := saysMissing key.action e = true →
    denied heard key.zoneId key.nameserverId = true ∨
      shown S heard key.zoneId key.nameserverId = true
  reported heard r :=
    (r.status = .NO_ZONE → denied heard r.zone.id r.nameserver.id = true) ∧
      (r.status = .SUCCESS → shown S heard r.zone.id r.nameserver.id = true)
  kept_append new h hsays := (h hsays).imp (denied_append new) (shown_append new)
  reported_append new h :=
    ⟨fun hs => denied_append new (h.1 hs), fun hs => shown_append new (h.2 hs)⟩
  fresh heard key hsays := by simp [saysMissing] at hsays
  taken := by
    intro heard r h hserial hsays
    simp only [saysMissing, Bool.or_eq_true, Bool.and_eq_true, beq_iff_eq] at hsays
    rcases hsays with hstatus | ⟨_, hentry⟩
    · exact .inl (h.1 (Option.some.inj hstatus))
    · exact absurd (congrArg Entry.serialNumber hentry) hserial
  answered := by
    intro heard r h
    unfold Report.answerKey Report.object answered
    by_cases hmissing : r.status = .NO_ZONE
    · intro _
      rw [if_pos hmissing]
      have hdenied := h.1 hmissing
      cases haction : (buildStatusObject r.nameserver r.zone (actionOf r.zone)).action with
      | CREATE => exact .inl hdenied
      | DELETE => exact .inl hdenied
      | UPDATE => exact .inl hdenied
      | NONE => exact .inl hdenied
    · rw [if_neg hmissing]
      intro hsays
      simp only [saysMissing, PoolManagerStatus.entry, PoolManagerStatus.key, Bool.or_eq_true,
        Bool.and_eq_true, beq_iff_eq] at hsays
      rcases hsays with hstatus | ⟨_, hentry⟩
      · exact absurd (Option.some.inj hstatus) hmissing
      · refine .inr (h.2 ?_)
        exact Option.some.inj (congrArg Entry.status hentry)
  polled := by
    intro heard zone nameserver received actualSerial _
    refine ⟨fun hstatus => ?_, fun hstatus => ?_⟩
    · obtain ⟨r, hr, hzone⟩ := exists_noZone_of_verdict hstatus
      unfold denied
      rw [List.any_append, Bool.or_eq_true]
      exact .inr (List.any_eq_true.mpr ⟨_, List.mem_map_of_mem hr, by simp [hzone]⟩)
    · obtain ⟨r, hr, hreaches⟩ := exists_reaches_of_verdict hstatus
      unfold shown
      rw [List.any_append, Bool.or_eq_true]
      refine .inr (List.any_eq_true.mpr ⟨_, List.mem_map_of_mem hr, ?_⟩)
      obtain ⟨serial, hserial, _⟩ := Option.any_eq_true .. |>.mp hreaches
      simp [hserial]

section

variable {S : Setup} {m : State} {polls : Polls} {r : Report}

/-- **Who is taken for missing, and is not back, denies the zone.** -/
theorem Stands.denies (h : Stands (denials S) m) {n : String} (hmissing : missing m r n = true)
    (hback : back S m polls r n = false) : Deletion.denies S m.site.heard r.zone.id n = true := by
  have hanswered : denied m.site.heard r.zone.id n = true ∨
      shown S m.site.heard r.zone.id n = true := by
    rcases Bool.or_eq_true _ _ |>.mp hmissing with hreported | hkept
    · obtain ⟨report, hreport, htells⟩ := List.any_eq_true.mp hreported
      simp only [Bool.and_eq_true, beq_iff_eq] at htells
      obtain ⟨⟨hzone, hnameserver⟩, hstatus⟩ := htells
      rw [← hzone, ← hnameserver]
      exact .inl ((h.reports report hreport).1 hstatus)
    · cases he : keptOf m r n with
      | none => rw [he] at hkept; exact absurd hkept (by simp)
      | some e =>
        rw [he] at hkept
        exact h.kept _ e he hkept
  exact denies_of_answered hanswered (Bool.or_eq_false_iff.mp hback).1

end

/-! ## Handling a report -/

/-- The tables are linked, and the zones that were to be deleted have been removed rightly. -/
structure Safe (S : Setup) (m : State) : Prop where
  linked : m.site.central.Linked
  right : ∀ removal ∈ m.site.removals, removal.zone.action = .DELETE → Right S removal

/--
The pool manager is handling a report that came in at `m₀`, and has not told that the zone is
missing. Whom it polls there was nothing kept of, and what it keeps is what a nameserver gets to.
-/
structure Handling (S : Setup) (r : Report) (m₀ m : State) : Prop where
  safe : Safe S m
  rows : ∀ z', Doomed (S.rowOf r.zone.id) m.site.central z' →
    ∃ z, Doomed (S.rowOf r.zone.id) m₀.site.central z ∧ z.serial = z'.serial
  polls : ∀ n, m.site.polls n ⊆ m₀.site.polls n
  heard : ∃ new, m.site.heard = m₀.site.heard ++ new ∧ ∀ a ∈ new,
    keptOf m₀ r a.nameserverId = none ∧
      ∃ sends, some sends ∈ m₀.site.polls a.nameserverId ∧ .response a.response ∈ sends
  kept : ∀ n, n = r.nameserver.id ∨ (keptOf m₀ r n).isSome = true → (keptOf m r n).isSome = true
  serials : ∀ n e serial, keptOf m r n = some e → 0 < serial → serial ≤ e.serialNumber →
    getsTo S m₀ m₀.site.polls r serial n = true

section

variable {S : Setup} {r : Report} {m₀ m m' : State} {nameserver : Nameserver}

/-- Only who is not kept is polled, and that is not the one of the report. -/
theorem Handling.missed (h : Handling S r m₀ m) {n : String} (hmiss : keptOf m r n = none) :
    n ≠ r.nameserver.id ∧ keptOf m₀ r n = none := by
  have hnot : ¬ (n = r.nameserver.id ∨ (keptOf m₀ r n).isSome = true) := by
    intro hkept
    have := h.kept n hkept
    rw [hmiss] at this
    exact absurd this (by simp)
  exact ⟨fun hn => hnot (.inl hn), Option.not_isSome_iff_eq_none.mp fun hs => hnot (.inr hs)⟩

theorem Handling.getsTo (h : Handling S r m₀ m) {n : String} (hmiss : keptOf m r n = none)
    {serial : Nat} (hforetold : foretells S m.site.polls r.zone.id n serial = true) :
    Deletion.getsTo S m₀ m₀.site.polls r serial n = true := by
  obtain ⟨hne, hnone⟩ := h.missed hmiss
  unfold Deletion.getsTo
  rw [hnone]
  simp [hne, foretells_mono (h.polls n) hforetold]

theorem Polled.safe {zone : ZoneView} {result : Except Fault (Status × Option Nat)}
    (hpoll : Polled S zone nameserver m.site m'.site result) (h : Safe S m) : Safe S m' where
  linked := by rw [hpoll.central]; exact h.linked
  right := by rw [hpoll.removals]; exact h.right

/-- A nameserver is polled of which nothing is kept. -/
theorem Handling.polled {result : Except Fault (Status × Option Nat)} (h : Handling S r m₀ m)
    (hmiss : keptOf m r nameserver.id = none)
    (hpoll : Polled S r.zone nameserver m.site m'.site result)
    (hkept : ∀ n, (keptOf m r n).isSome = true → (keptOf m' r n).isSome = true)
    (hserials : ∀ n e serial, keptOf m' r n = some e → 0 < serial → serial ≤ e.serialNumber →
      Deletion.getsTo S m₀ m₀.site.polls r serial n = true) :
    Handling S r m₀ m' where
  safe := hpoll.safe h.safe
  rows := by rw [hpoll.central]; exact h.rows
  polls n := List.Subset.trans (hpoll.polls n) (h.polls n)
  heard := by
    obtain ⟨new, hheard, hnew⟩ := h.heard
    obtain ⟨more, hheard', hmore⟩ := hpoll.heard
    refine ⟨new ++ more, by rw [hheard', hheard, List.append_assoc], ?_⟩
    intro a ha
    -- what was heard before this poll, and what is heard in it
    rcases List.mem_append.mp ha with ha | ha
    · exact hnew a ha
    · obtain ⟨hnameserver, sends, hsends, hresponse⟩ := hmore a ha
      rw [hnameserver]
      exact ⟨(h.missed hmiss).2, sends, h.polls _ hsends, hresponse⟩
  kept n hn := hkept n (h.kept n hn)
  serials := hserials

/-- **A status is retrieved, and its serial is one that the nameserver gets to.** -/
theorem retrieveStatus_handling (h : Handling S r m₀ m)
    {result : Except Fault (Option PoolManagerStatus)}
    (hrun : retrieveStatus (service S.pool S.threshold (parties S) r.zone) r.zone
      (actionOf r.zone) nameserver m = (result, m')) :
    Handling S r m₀ m' ∧ ∀ o, result = .ok (some o) → ∀ serial, 0 < serial →
      serial ≤ o.serialNumber → getsTo S m₀ m₀.site.polls r serial nameserver.id = true := by
  rcases retrieveStatus_cases S.pool S.threshold (parties S) r.zone r.zone nameserver m with
    ⟨e, hkept, hcase⟩ |
      ⟨hmiss, ⟨e, rest, result', hpoll, hnone, hcase⟩ | ⟨answer, rest, _, rfl, hpoll, hcase⟩⟩
  · rw [hcase] at hrun
    cases hrun
    refine ⟨h, fun o ho serial hpos hle => ?_⟩
    cases ho
    exact h.serials _ e serial hkept hpos hle
  · rw [hcase] at hrun
    cases hrun
    refine ⟨h.polled hmiss (parties_poll hpoll) (fun _ hn => hn) h.serials, fun o ho => ?_⟩
    exact absurd ho (hnone o)
  · rw [hcase] at hrun
    cases hrun
    have hpolled := parties_poll hpoll
    -- the poll just made is one of those that the nameserver may still make
    have hgets : ∀ serial, 0 < serial → serial ≤ answer.actualSerial.getD 0 →
        getsTo S m₀ m₀.site.polls r serial answer.nameserver.id = true := fun serial hpos hle =>
      h.getsTo hmiss (hpolled.actual _ _ rfl serial hpos hle)
    refine ⟨h.polled hmiss hpolled (fun n hn => ?_) (fun n e serial hkept hpos hle => ?_),
      fun o ho serial hpos hle => ?_⟩
    · unfold keptOf at hn ⊢
      dsimp only
      -- the new entry is in the place of this nameserver's; the others have theirs
      by_cases hkey : (⟨n, r.zone.id, actionOf r.zone⟩ : Key) = answer.answerKey
      · rw [hkey, Function.update_self]
        rfl
      · rw [Function.update_of_ne hkey]
        exact hn
    · unfold keptOf at hkept
      dsimp only at hkept
      by_cases hkey : (⟨n, r.zone.id, actionOf r.zone⟩ : Key) = answer.answerKey
      · rw [hkey, Function.update_self] at hkept
        cases hkept
        -- the place in the cache tells the nameserver
        have hn : n = answer.nameserver.id := by
          rw [show n = answer.answerKey.nameserverId from congrArg Key.nameserverId hkey]
          rcases answerKey_cases answer with hanswer | ⟨_, hanswer⟩
          · rw [hanswer]; rfl
          · rw [hanswer]; rfl
        rw [hn]
        exact hgets serial hpos hle
      · rw [Function.update_of_ne hkey] at hkept
        exact h.serials n e serial hkept hpos hle
    · cases ho
      exact hgets serial hpos hle

end

section

variable {S : Setup} {r : Report} {m₀ m m' : State}

/-- What is kept of a nameserver once a report is taken down. -/
theorem keptOf_taken (m : State) (r : Report) (n : String) :
    keptOf { m with outside := m.outside.taken r } r n =
      if n = r.nameserver.id then some (recorded r (keptOf m r n)) else keptOf m r n := by
  unfold keptOf Outside.taken
  by_cases hn : n = r.nameserver.id
  · subst hn
    rw [if_pos rfl]
    exact Function.update_self _ _ _
  · rw [if_neg hn]
    refine Function.update_of_ne (fun hkey => hn ?_) _ _
    exact congrArg Key.nameserverId hkey

/-- With the report taken down, the pool manager is handling it. -/
theorem Safe.handling (h : Safe S m) :
    Handling S r m { m with outside := m.outside.taken r } where
  safe := ⟨h.linked, h.right⟩
  rows z' hz' := ⟨z', hz', rfl⟩
  polls n := List.Subset.refl _
  heard := ⟨[], (List.append_nil _).symm, by simp⟩
  kept n hn := by
    rw [keptOf_taken]
    split
    · rfl
    · next hne => exact hn.resolve_left hne
  serials n e serial hkept hpos hle := by
    rw [keptOf_taken] at hkept
    unfold getsTo
    split at hkept
    · next hn =>
      cases hkept
      subst hn
      unfold recorded at hle
      -- the later of what was kept and what is reported
      cases hbefore : keptOf m r r.nameserver.id with
      | none =>
        rw [hbefore] at hle
        dsimp only at hle
        split at hle
        · simp [hle]
        · exact absurd hle (by simp; omega)
      | some e =>
        rw [hbefore] at hle
        dsimp only [Option.getD_some] at hle
        split at hle
        · simp [hle]
        · simp [hle]
    · rw [hkept]
      simp [hle]

/--
**As many are retrieved with a serial as may get to it.** By induction on the nameservers, of
whom each is handled on its own.
-/
theorem retrieveStatusesOf_handling {nameservers : List Nameserver} :
    ∀ {m m' : State} {result : Except Fault (List PoolManagerStatus)}, Handling S r m₀ m →
      retrieveStatusesOf (service S.pool S.threshold (parties S) r.zone) r.zone (actionOf r.zone)
        nameservers m = (result, m') →
      Handling S r m₀ m' ∧ ∀ statuses, result = .ok statuses → ∀ serial, 0 < serial →
        Quorum.support (serials statuses) serial ≤
          nameservers.countP fun n => getsTo S m₀ m₀.site.polls r serial n.id := by
  induction nameservers with
  | nil =>
    intro m m' result h hrun
    cases hrun
    refine ⟨h, fun statuses hstatuses serial _ => ?_⟩
    cases hstatuses
    exact Nat.le_refl _
  | cons nameserver nameservers ih =>
    intro m m' result h hrun
    unfold retrieveStatusesOf at hrun
    rw [Exec.bind_apply] at hrun
    cases hone : retrieveStatus (service S.pool S.threshold (parties S) r.zone) r.zone
        (actionOf r.zone) nameserver m with
    | mk first m₁ =>
      rw [hone] at hrun
      -- the first nameserver, and then the others in the state it leaves
      obtain ⟨h₁, hfirst⟩ := retrieveStatus_handling h hone
      cases first with
      | error e =>
        cases hrun
        exact ⟨h₁, fun statuses hstatuses => by cases hstatuses⟩
      | ok status =>
        dsimp only at hrun
        rw [Exec.bind_apply] at hrun
        cases hrest : retrieveStatusesOf (service S.pool S.threshold (parties S) r.zone) r.zone
            (actionOf r.zone) nameservers m₁ with
        | mk others m₂ =>
          rw [hrest] at hrun
          obtain ⟨h₂, hothers⟩ := ih h₁ hrest
          cases others with
          | error e =>
            cases hrun
            exact ⟨h₂, fun statuses hstatuses => by cases hstatuses⟩
          | ok others =>
            cases hrun
            refine ⟨h₂, fun statuses hstatuses serial hpos => ?_⟩
            cases hstatuses
            rw [support_serials_cons status others hpos, List.countP_cons]
            -- it supports the serial only if it may get to it
            refine Nat.add_le_add (hothers _ rfl serial hpos) ?_
            cases status with
            | none =>
              rw [if_neg (by simp; omega)]
              exact Nat.zero_le _
            | some o =>
              dsimp only [Option.map_some, Option.getD_some]
              split
              · next hle => rw [if_pos (hfirst o rfl serial hpos hle)]
              · exact Nat.zero_le _

/-- **A consensus has enough nameservers that may get to it.** -/
theorem getConsensusSerial_handling :
    Exec.Triple (Handling S r m₀)
      (getConsensusSerial (service S.pool S.threshold (parties S) r.zone) r.zone)
      (fun c m => Handling S r m₀ m ∧ ∀ serial, 0 < serial → serial ≤ c →
        needed S.pool S.threshold ≤
          S.pool.nameservers.countP fun n => getsTo S m₀ m₀.site.polls r serial n.id)
      (Handling S r m₀) := by
  intro m h
  unfold getConsensusSerial retrieveStatuses
  rw [Exec.bind_apply]
  cases hrun : retrieveStatusesOf (service S.pool S.threshold (parties S) r.zone) r.zone
      (actionOf r.zone) (service S.pool S.threshold (parties S) r.zone).pool.nameservers m with
  | mk result m' =>
    obtain ⟨h', hsupport⟩ := retrieveStatusesOf_handling h hrun
    cases result with
    | error e => exact h'
    | ok statuses =>
      refine ⟨h', fun serial hpos hle => ?_⟩
      rw [consensusSerial_eq_place] at hle
      -- the consensus is the greatest serial with enough support
      have hgreatest := Quorum.place_isGreatest (serials statuses)
        (share S.threshold S.pool.targets.length)
      change serial ≤ ((Quorum.place (serials statuses)
        (share S.threshold S.pool.targets.length)).getD 0) at hle
      cases hplace : Quorum.place (serials statuses)
          (share S.threshold S.pool.targets.length) with
      | none =>
        rw [hplace] at hle
        exact absurd hle (by simp; omega)
      | some c =>
        rw [hplace] at hgreatest hle
        -- a lower serial has the support of the consensus, so it has enough as well
        have hself := Quorum.support_pos hgreatest.1
        have hfewer := Quorum.support_antitone (l := serials statuses) hle
        have henough := hgreatest.2.1
        have hmay := hsupport statuses rfl serial hpos
        have hall : (service S.pool S.threshold (parties S) r.zone).pool.nameservers =
          S.pool.nameservers := rfl
        rw [hall] at hmay
        rw [Option.getD_some] at hfewer
        unfold needed
        omega

end

section

variable {S : Setup} {r : Report} {m₀ m : State} {msg : Message}

/-- A message to central that only removes zones rightly. -/
theorem tell_safe {zone : ZoneView} (h : Safe S m)
    (hright : ∀ z, Doomed (S.rowOf msg.zoneId) m.site.central z →
      msg.status = .NO_ZONE ∨ msg.status = .SUCCESS ∧ z.serial ≤ msg.serial →
        Right S ⟨msg, z, m.site.heard⟩) :
    Safe S (tell (service S.pool S.threshold (parties S) zone) msg m).2 := by
  have hlinked : (Designate.updateStatus S.ctx S.conf ⟨msg.status, msg.serial⟩
      (S.rowOf msg.zoneId) m.site.central).2.Linked :=
    serve_linked S.conf ⟨S.ctx, .updateStatus (S.rowOf msg.zoneId) ⟨msg.status, msg.serial⟩⟩
      h.linked
  refine ⟨hlinked, ?_⟩
  intro removal hremoval haction
  rcases List.mem_append.mp hremoval with hremoval | hremoval
  · exact h.right removal hremoval haction
  · obtain ⟨z, hz, rfl⟩ := List.mem_map.mp hremoval
    obtain ⟨hmem, hid, hlive, hwhy⟩ := message_removes h.linked hz
    refine hright z ⟨hmem, hid, hlive, haction⟩ ?_
    exact hwhy.imp_right fun hsuccess => ⟨hsuccess.1, hsuccess.2.2⟩

/-- **A message that only removes zones rightly leaves the handling going.** -/
theorem tell_handling (hzone : msg.zoneId = r.zone.id)
    (hright : ∀ m z, Handling S r m₀ m → Doomed (S.rowOf r.zone.id) m.site.central z →
      msg.status = .NO_ZONE ∨ msg.status = .SUCCESS ∧ z.serial ≤ msg.serial →
        Right S ⟨msg, z, m.site.heard⟩) :
    Exec.Keeps (Handling S r m₀) (tell (service S.pool S.threshold (parties S) r.zone) msg) := by
  intro m h
  refine ⟨tell_safe h.safe fun z hz => hright m z h (hzone ▸ hz), ?_, h.polls, h.heard, h.kept,
    h.serials⟩
  intro z' hz'
  obtain ⟨z, hz, hid, hlive, hserial, haction⟩ := message_rows h.safe.linked hz'.mem hz'.live
  obtain ⟨z₀, hz₀, hserial₀⟩ := h.rows z ⟨hz, hid.trans hz'.id, hlive, haction hz'.action⟩
  exact ⟨z₀, hz₀, hserial₀.trans hserial⟩

/-- A success is told only of a serial that no zone to be deleted has. -/
theorem tellSuccess_handling
    (hharmless : ∀ z, Doomed (S.rowOf r.zone.id) m₀.site.central z →
      Harmless S m₀ m₀.site.polls r z) (c : Nat) :
    Exec.Triple
      (fun m => Handling S r m₀ m ∧ ∀ serial, 0 < serial → serial ≤ c →
        needed S.pool S.threshold ≤
          S.pool.nameservers.countP fun n => getsTo S m₀ m₀.site.polls r serial n.id)
      (tellSuccess (service S.pool S.threshold (parties S) r.zone) r.zone
        ((m₀.outside.kept.serial r.key).getD 0) c)
      (fun _ => Handling S r m₀) (Handling S r m₀) := by
  refine Exec.Triple.of_ends ?_
  rintro m ⟨h, henough⟩
  unfold tellSuccess
  split
  · next hcond =>
    obtain ⟨hne, hcache, hactive⟩ := hcond
    refine tell_handling (r := r) rfl ?_ m h
    rintro m z h hz (hmissing | ⟨_, hle⟩)
    · cases hmissing
    · -- the zone's serial is reached, and too few nameservers get to it
      obtain ⟨z₀, hz₀, hserial⟩ := h.rows z hz
      dsimp only at hle
      have hfew := (hharmless z₀ hz₀).unreached hactive
      have hmany := henough (max 1 (max z₀.serial ((m₀.outside.kept.serial r.key).getD 0)))
        (by omega) (by omega)
      exact absurd hfew (Nat.not_lt.mpr hmany)
  · exact h

/-- A nameserver that is missing and not back denies the zone all through the handling. -/
theorem Handling.denies (h : Handling S r m₀ m) (hstands : Stands (denials S) m₀) {n : String}
    (hmissing : missing m₀ r n = true) (hback : back S m₀ m₀.site.polls r n = false) :
    Deletion.denies S m.site.heard r.zone.id n = true := by
  obtain ⟨new, hheard, hnew⟩ := h.heard
  have hdenies := hstands.denies hmissing hback
  have hquiet := (Bool.or_eq_false_iff.mp hback).2
  rw [hheard]
  refine denies_append hdenies fun a ha _ hnameserver => ?_
  obtain ⟨hmiss, sends, hsends, hresponse⟩ := hnew a ha
  rw [hnameserver] at hmiss hsends
  have hsilent : foretells S m₀.site.polls r.zone.id n 0 = false := by
    simpa [hmiss] using hquiet
  cases hserial : a.response.serial (S.nameOf r.zone.id) with
  | none => rfl
  | some s =>
    have htold : foretells S m₀.site.polls r.zone.id n 0 = true :=
      foretells_of hsends hresponse (by simp [reaches, hserial])
    rw [hsilent] at htold
    exact absurd htold (by simp)

/-- A zone is told to be missing only if enough of the nameservers deny it. -/
theorem tellFailure_handling (hstands : Stands (denials S) m₀)
    (hharmless : ∀ z, Doomed (S.rowOf r.zone.id) m₀.site.central z →
      Harmless S m₀ m₀.site.polls r z) (c : Nat) :
    Exec.Keeps (Handling S r m₀)
      (tellFailure (service S.pool S.threshold (parties S) r.zone) r.zone r.status c) := by
  have hone : ∀ nameserver, Exec.Keeps (Handling S r m₀)
      (retrieveStatus (service S.pool S.threshold (parties S) r.zone) r.zone (actionOf r.zone)
        nameserver) := fun _ _ h => (retrieveStatus_handling h rfl).1
  unfold tellFailure
  split
  · refine Exec.Keeps.bind (keeps_getErrorSerial hone _) fun errorSerial => ?_
    refine Exec.Keeps.ite (fun _ => tell_handling (r := r) rfl ?_) fun _ => Exec.Keeps.pure _
    -- an error is neither of the messages that remove a zone
    rintro m z h hz (hmissing | ⟨hsuccess, _⟩)
    · cases hmissing
    · cases hsuccess
  · next hstatus =>
    refine tell_handling (r := r) rfl ?_
    rintro m z h hz -
    obtain ⟨z₀, hz₀, _⟩ := h.rows z hz
    have henough := (hharmless z₀ hz₀).agreed hstatus
    -- those that were missing and have not come back are among those that deny it
    have hmore : S.pool.nameservers.countP
          (fun n => missing m₀ r n.id && !back S m₀ m₀.site.polls r n.id) ≤
        S.pool.nameservers.countP fun n => denies S m.site.heard r.zone.id n.id := by
      refine List.countP_mono_left fun n _ hn => ?_
      rw [Bool.and_eq_true, Bool.not_eq_true'] at hn
      exact h.denies hstands hn.1 hn.2
    exact ⟨meets_mono hmore henough, fun hsuccess => by cases hsuccess⟩
  · exact Exec.Keeps.pure _

/-- What is retrieved and cleared in the end removes nothing. -/
theorem tidyUp_safe (c : Nat) :
    Exec.Keeps (Safe S)
      (tidyUp (service S.pool S.threshold (parties S) r.zone) r.zone c) := by
  refine keeps_tidyUp (fun nameserver m h => ?_) (fun nameserver m h => ⟨h.linked, h.right⟩) c
  rcases retrieveStatus_cases S.pool S.threshold (parties S) r.zone r.zone nameserver m with
    ⟨_, _, hcase⟩ | ⟨_, ⟨_, _, _, hpoll, _, hcase⟩ | ⟨_, _, _, _, hpoll, hcase⟩⟩
  · rw [hcase]; exact h
  · rw [hcase]; exact (parties_poll hpoll).safe h
  · rw [hcase]; exact (parties_poll hpoll).safe h

/-- **A report that is harmless is handled safely.** -/
theorem handle_safe (h : Safe S m₀) (hstands : Stands (denials S) m₀)
    (hharmless : ∀ z, Doomed (S.rowOf r.zone.id) m₀.site.central z →
      Harmless S m₀ m₀.site.polls r z) :
    Safe S (handle S.pool S.threshold (parties S) r m₀).2 := by
  rw [handle_run]
  refine Exec.Triple.ends (Exec.Triple.bind
    (getConsensusSerial_handling.weaken (fun _ h => h) (fun _ _ h => h) fun _ h => h.safe)
    fun c => Exec.Triple.bind
      ((tellSuccess_handling hharmless c).weaken (fun _ h => h) (fun _ _ h => h) fun _ h => h.safe)
      fun _ => Exec.Triple.bind
        ((tellFailure_handling hstands hharmless c).triple.weaken (fun _ h => h) (fun _ _ h => h.safe)
          fun _ h => h.safe)
        fun _ => (tidyUp_safe c).triple) h.handling

end

/-! ## Runs -/

section

variable {S : Setup} {m : State}

theorem undisturbed_safe : Undisturbed (Safe S) := by
  intro m outside hquiet h
  refine ⟨?_, ?_⟩
  · show outside.rest.central.Linked
    rw [hquiet.central]
    exact h.linked
  · show ∀ removal ∈ outside.rest.removals, _
    rw [hquiet.removals]
    exact h.right

/-- The deletion of a zone is no removal: it only has the nameservers polled. -/
theorem deleteZone_safe (zone : ZoneView) (attempts : String → Nat → Bool) :
    Exec.Keeps (Safe S)
      (deleteZone (manager S zone) pollForSerialNumber S.maxRetries attempts zone) := by
  refine undisturbed_safe.deleteZone attempts fun m h => tell_safe h ?_
  rintro z hz (hmissing | ⟨hsuccess, _⟩)
  · cases hmissing
  · cases hsuccess

/-- **What is allowed to happen is safe.** -/
theorem happen_safe (happening : Happening) (m : State) (h : Safe S m ∧ Stands (denials S) m)
    (hallowed : Allowed S happening m) :
    Safe S (happen S happening m) ∧ Stands (denials S) (happen S happening m) := by
  obtain ⟨h, hstands⟩ := h
  refine ⟨?_, happen_stands happening m hstands⟩
  cases happening with
  | delete zone attempts => exact deleteZone_safe zone attempts m h
  | poll n sends =>
    unfold happen
    dsimp only
    split
    · exact h
    · next zone nameserver _ =>
      cases hpoll : poll S zone nameserver sends m.site with
      | mk result site =>
        obtain ⟨_, _, rfl, _⟩ := poll_run hpoll
        cases result with
        | ok answer => exact ⟨h.linked, h.right⟩
        | error e => exact ⟨h.linked, h.right⟩
  | deliver n polls =>
    unfold happen
    dsimp only
    split
    · exact h
    · next report hreport =>
      refine handle_safe ⟨h.linked, h.right⟩ ⟨hstands.kept, hstands.reports⟩ fun z hz => ?_
      -- only a report that is handled can remove a zone, and it is one that was allowed
      obtain ⟨hunreached, hagreed⟩ :=
        hallowed report z hreport ⟨hz.mem, hz.id, hz.live, hz.action⟩
      exact ⟨hunreached, hagreed⟩
  | expiry key => exact ⟨h.linked, h.right⟩
  | request input => exact ⟨serve_linked S.conf input h.linked, h.right⟩

/--
**As long as only harmless reports are handled, zones are removed rightly**, whatever else
happens and in whichever order: enough of the nameservers have denied the zone, and none that
still serves it stands for its removal. At the start nothing is taken for missing that nobody
has answered for.
-/
theorem removals_right (S : Setup) (happenings : List Happening) (m : State)
    (hlinked : m.site.central.Linked) (hnone : m.site.removals = [])
    (hstands : Stands (denials S) m)
    (hallowed : ∀ t ∈ Run.transitions (happen S) happenings m, Allowed S t.input t.before) :
    ∀ removal ∈ (Run.final (happen S) happenings m).site.removals,
      removal.zone.action = .DELETE → Right S removal := by
  have hstart : Safe S m := ⟨hlinked, by simp [hnone]⟩
  exact (Run.invariant happen_safe ⟨hstart, hstands⟩ hallowed).2.1.right

end

/-! ## A pool of two nameservers -/

def doomedZone : Zone where
  id := 2
  tenantId := some "tenant"
  name := "example.org."
  type := .PRIMARY
  ttl := 3600
  serial := 5
  action := .DELETE
  status := .PENDING
  poolId := 0
  viewId := none
  parentZoneId := none
  deleted := false

/-- The two nameservers, with this threshold. -/
def setup (threshold : Nat) : Setup where
  pool := PoolManager.Polled.twoServers
  threshold := threshold
  maxRetries := 3
  ctx := { tenant := "admin", allTenants := true }
  conf := {}
  rowOf _ := 2
  nameOf _ := "example.org."

/-- The zone is to be deleted, and nothing is known of the nameservers. -/
def start : State :=
  ⟨⟨fun _ => none, [],
    { polls := fun _ => [], heard := [], central := { db := { zones := [doomedZone] }, nextId := 3 }
      removals := [], asked := [], reports := [] }⟩, []⟩

def view : ZoneView := ⟨"zone", 5, .DELETE, .PENDING⟩

/-- What the nameservers are polled for. -/
def gone : ZoneView := { view with serial := 0 }

def denial : Response := ⟨.NXDOMAIN, false, []⟩

def soa : Response := ⟨.NOERROR, true, [⟨"example.org.", true, some 5⟩]⟩

/-- The zone is deleted, and the polls that are asked for get these responses. -/
def polling (responses : List Response) : List Happening :=
  .delete view (fun _ _ => true) ::
    responses.zipIdx.map fun p => .poll p.2 [.response p.1]

/-- The first report is handled, without a poll. -/
def delivered (responses : List Response) : List Happening :=
  polling responses ++ [.deliver 0 fun _ => []]

/-- Both nameservers have been asked, and this has been heard and reported. -/
def polled (heard : List Heard) (reports : List Report) : State :=
  ⟨⟨Function.update (Function.update (fun _ => none) ⟨"one", "zone", .DELETE⟩ (some ⟨none, 0⟩))
      ⟨"two", "zone", .DELETE⟩ (some ⟨none, 0⟩), [],
    { start.site with
      asked := [(gone, PoolManager.Polled.one), (gone, PoolManager.Polled.two)], heard, reports }⟩, []⟩

theorem delete_run (threshold : Nat) :
    happen (setup threshold) (.delete view fun _ _ => true) start = polled [] [] := by
  have hmeets : meets 100 2 2 = true := (meets_iff (by decide)).mpr (by decide)
  have hrun : deleteZone (manager (setup threshold) view) pollForSerialNumber 3 (fun _ _ => true)
      view = askAll (manager (setup threshold) view) pollForSerialNumber gone := if_pos hmeets
  exact congrArg (fun prog : Exec State Fault Unit => (prog start).2) hrun

/-- Both nameservers deny the zone. -/
theorem polling_denied : Run.final (happen (setup 100)) (polling [denial, denial]) start =
    polled [⟨"zone", "one", denial⟩, ⟨"zone", "two", denial⟩]
      [⟨gone, PoolManager.Polled.one, .NO_ZONE, some 0⟩,
        ⟨gone, PoolManager.Polled.two, .NO_ZONE, some 0⟩] := by
  show Run.final _ _ (happen _ _ _) = _
  rw [delete_run]
  rfl

/-- With both of the nameservers heard, the first report is harmless. -/
theorem delivered_allowed : ∀ t ∈ Run.transitions (happen (setup 100)) (delivered [denial, denial])
    start, Allowed (setup 100) t.input t.before := by
  intro t ht
  have hbefore := polling_denied
  simp only [delivered, polling, List.zipIdx_cons, List.zipIdx_nil, List.map_cons, List.map_nil,
    List.cons_append, List.nil_append, Run.transitions, Run.final, List.mem_cons,
    List.not_mem_nil, or_false] at ht hbefore
  rcases ht with rfl | rfl | rfl | rfl
  · trivial
  · trivial
  · trivial
  · intro r z hr hz
    dsimp only at hr hz ⊢
    rw [hbefore] at hr hz ⊢
    cases hr
    obtain rfl : z = doomedZone := List.mem_singleton.mp hz.mem
    exact ⟨fun _ => by decide, fun _ => (meets_iff (by decide)).mpr (by decide)⟩

theorem removals_right_sample :
    (Run.final (happen (setup 100)) (delivered [denial, denial]) start).site.removals =
        [⟨⟨"zone", .NO_ZONE, 0⟩, doomedZone,
          [⟨"zone", "one", denial⟩, ⟨"zone", "two", denial⟩]⟩] ∧
      ∀ removal ∈ (Run.final (happen (setup 100)) (delivered [denial, denial]) start).site.removals,
        removal.zone.action = .DELETE → Right (setup 100) removal := by
  have hlinked : start.site.central.Linked :=
    ⟨by decide, by decide, by decide, by decide, by decide, by decide, by decide, by decide⟩
  have hstands : Stands (denials (setup 100)) start := by
    refine ⟨fun key e he => ?_, fun r hr => ?_⟩
    · cases he
    · cases hr
  refine ⟨?_, removals_right (setup 100) _ start hlinked rfl hstands delivered_allowed⟩
  unfold delivered
  rw [Run.final_append, polling_denied]
  show (State.site (handle _ _ _ _ _).2).removals = _
  rw [handle_of rfl rfl (c := some 0) (by decide)]
  decide +kernel

/--
One of the nameservers denies the zone, and it is removed; one of them still serves it, and it is
removed.
-/
theorem removed_too_early :
    (∃ removal ∈ (Run.final (happen (setup 100)) (delivered [denial]) start).site.removals,
      removal.zone.action = .DELETE ∧ denies (setup 100) removal.heard "zone" "two" = false ∧
        ¬ Right (setup 100) removal) ∧
    ∃ removal ∈ (Run.final (happen (setup 50)) (delivered [soa]) start).site.removals,
      removal.zone.action = .DELETE ∧ removal.message.status = .SUCCESS ∧
        serves (setup 50) removal.heard "zone" "one" removal.message.serial = true ∧
        ¬ Right (setup 50) removal := by
  -- the run up to the poll, whose report is still under way
  have hdenied : Run.final (happen (setup 100)) (polling [denial]) start =
      polled [⟨"zone", "one", denial⟩] [⟨gone, PoolManager.Polled.one, .NO_ZONE, some 0⟩] := by
    show Run.final _ _ (happen _ _ _) = _
    rw [delete_run]
    rfl
  have hserved : Run.final (happen (setup 50)) (polling [soa]) start =
      polled [⟨"zone", "one", soa⟩] [⟨gone, PoolManager.Polled.one, .SUCCESS, some 5⟩] := by
    show Run.final _ _ (happen _ _ _) = _
    rw [delete_run]
    rfl
  constructor
  · -- one denial out of two makes the whole of what one target needs
    refine ⟨⟨⟨"zone", .NO_ZONE, 0⟩, doomedZone, [⟨"zone", "one", denial⟩]⟩, ?_, rfl, by decide, ?_⟩
    · unfold delivered
      rw [Run.final_append, hdenied]
      show _ ∈ (State.site (handle _ _ _ _ _).2).removals
      rw [handle_of rfl rfl (c := some 0) (by decide)]
      decide +kernel
    · intro hright
      exact absurd ((meets_iff (by decide)).mp hright.denied) (by decide)
  · -- with half the share one answer is enough, though it shows that the zone is served
    refine ⟨⟨⟨"zone", .SUCCESS, 5⟩, doomedZone, [⟨"zone", "one", soa⟩]⟩, ?_, rfl, rfl, by decide, ?_⟩
    · unfold delivered
      rw [Run.final_append, hserved]
      show _ ∈ (State.site (handle _ _ _ _ _).2).removals
      rw [handle_of rfl rfl (c := some 5) (by decide)]
      decide +kernel
    · intro hright
      exact absurd ((meets_iff (by decide)).mp hright.denied) (by decide)

end Deletion

end Designate
