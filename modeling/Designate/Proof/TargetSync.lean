import Designate.PoolManager.TargetSync
import Mathlib.Data.List.Pairwise

/-!
# What is replayed on a target

Of all rows of one name only the last one listed decides what is done for the name. A name that
had a zone before the time is to be deleted if that zone was; but when a zone that was created
after it has been deleted too, the deletion of the first one is taken back with everything else.
So a target keeps a zone that was deleted, created anew and deleted again.
-/

namespace Designate

namespace TargetSync

open Removal

variable {zones : List Zone} {now timestamp : Nat}

/-! ## Rows -/

/-- Of two rows of one name the first was deleted before the second was created. -/
def Succeeds (zone zone' : Zone) : Prop :=
  zone.id ≠ zone'.id ∧ (zone.name = zone'.name → zone.live = false ∧
    ∃ updated, zone.updatedAt = some updated ∧ updated ≤ zone'.createdAt)

/-- What holds of the rows at some time. -/
structure Rows (zones : List Zone) (now : Nat) : Prop where
  succeeds : zones.Pairwise Succeeds
  created : ∀ zone ∈ zones, zone.createdAt ≤ now
  updated : ∀ zone ∈ zones, ∀ updated, zone.updatedAt = some updated → updated ≤ now
  deleted : ∀ zone ∈ zones, zone.live = false → zone.updatedAt.isSome

theorem rows_nil (now : Nat) : Rows [] now :=
  ⟨.nil, fun _ h => absurd h List.not_mem_nil, fun _ h => absurd h List.not_mem_nil,
    fun _ h => absurd h List.not_mem_nil⟩

theorem rows_mono {later : Nat} (hrows : Rows zones now) (hle : now ≤ later) :
    Rows zones later :=
  ⟨hrows.succeeds, fun zone h => Nat.le_trans (hrows.created zone h) hle,
    fun zone h updated hu => Nat.le_trans (hrows.updated zone h updated hu) hle, hrows.deleted⟩

/-- An update touches a row that is not deleted, and nothing but its time and status. -/
theorem mem_touch {id : Nat} {status : Status} {zone : Zone} :
    zone ∈ touch zones now id status ↔
      ∃ old ∈ zones, zone =
        if old.id = id ∧ old.live then { old with updatedAt := some now, status } else old := by
  simp only [touch, List.mem_map, eq_comm]

theorem rows_touch (hrows : Rows zones now) (id : Nat) (status : Status) :
    Rows (touch zones now id status) now := by
  refine ⟨?_, ?_, ?_, ?_⟩
  · refine List.pairwise_map.mpr (hrows.succeeds.imp ?_)
    intro zone zone' ⟨hid, hname⟩
    refine ⟨?_, ?_⟩
    · split <;> split <;> exact hid
    · intro hsame
      have hsame' : zone.name = zone'.name := by
        revert hsame
        split <;> split <;> exact fun h => h
      -- the first one is deleted, so it is not touched
      obtain ⟨hlive, updated, hupdated, hle⟩ := hname hsame'
      rw [if_neg (by simp [hlive])]
      refine ⟨hlive, updated, hupdated, ?_⟩
      split <;> exact hle
  · intro zone hzone
    obtain ⟨old, hold, rfl⟩ := mem_touch.mp hzone
    split <;> exact hrows.created old hold
  · intro zone hzone updated hupdated
    obtain ⟨old, hold, rfl⟩ := mem_touch.mp hzone
    split at hupdated
    · obtain rfl := Option.some.inj hupdated
      exact Nat.le_refl _
    · exact hrows.updated old hold updated hupdated
  · intro zone hzone hlive
    obtain ⟨old, hold, rfl⟩ := mem_touch.mp hzone
    split
    · rfl
    · next hnot =>
      rw [if_neg hnot] at hlive
      exact hrows.deleted old hold hlive

theorem rows_apply (hrows : Rows zones now) (change : Change) :
    Rows (change.apply zones now) now := by
  cases change with
  | create id name =>
    rw [Change.apply]
    split
    · exact hrows
    · next hnot =>
      have hnew : ∀ zone ∈ zones, zone.id ≠ id ∧ (zone.live = true → zone.name ≠ name) := by
        simpa only [List.any_eq_true, Bool.or_eq_true, beq_iff_eq, Bool.and_eq_true, not_exists,
          not_and, not_or] using hnot
      refine ⟨?_, ?_, ?_, ?_⟩
      · refine List.pairwise_append.mpr ⟨hrows.succeeds, List.pairwise_singleton _ _, ?_⟩
        intro zone hzone zone' hzone'
        obtain rfl := List.mem_singleton.mp hzone'
        refine ⟨(hnew zone hzone).1, fun hname => ?_⟩
        -- a row of the same name must have been deleted before, and stays so
        have hlive : zone.live = false := by
          cases hlive : zone.live with
          | false => rfl
          | true => exact absurd hname ((hnew zone hzone).2 hlive)
        obtain ⟨updated, hupdated⟩ := Option.isSome_iff_exists.mp (hrows.deleted zone hzone hlive)
        exact ⟨hlive, updated, hupdated, hrows.updated zone hzone updated hupdated⟩
      · intro zone hzone
        obtain hzone | hzone := List.mem_append.mp hzone
        · exact hrows.created zone hzone
        · obtain rfl := List.mem_singleton.mp hzone
          exact Nat.le_refl _
      · intro zone hzone updated hupdated
        obtain hzone | hzone := List.mem_append.mp hzone
        · exact hrows.updated zone hzone updated hupdated
        · obtain rfl := List.mem_singleton.mp hzone
          exact absurd hupdated (by simp)
      · intro zone hzone hlive
        obtain hzone | hzone := List.mem_append.mp hzone
        · exact hrows.deleted zone hzone hlive
        · obtain rfl := List.mem_singleton.mp hzone
          exact absurd hlive (by simp [Zone.live])
  | update id status =>
    rw [Change.apply]
    split
    · exact hrows
    · exact rows_touch hrows id status
  | delete id => exact rows_touch hrows id .DELETED

/-! ## The names at a time -/

/-- The zone was there at the time, as its row tells later. -/
def Zone.wasLive (timestamp : Nat) (zone : Zone) : Bool :=
  decide (zone.createdAt ≤ timestamp) &&
    (zone.live || zone.updatedAt.any fun updated => decide (timestamp < updated))

def wasNames (timestamp : Nat) (zones : List Zone) : Finset String :=
  ((zones.filter (Zone.wasLive timestamp)).map Zone.name).toFinset

theorem mem_liveNames {name : String} :
    name ∈ liveNames zones ↔ ∃ zone ∈ zones, zone.live = true ∧ zone.name = name := by
  simp [liveNames, and_assoc]

theorem mem_wasNames {name : String} :
    name ∈ wasNames timestamp zones ↔
      ∃ zone ∈ zones, zone.wasLive timestamp = true ∧ zone.name = name := by
  simp [wasNames, and_assoc]

/-- At the time itself the two are the same. -/
theorem wasNames_eq_liveNames (hrows : Rows zones timestamp) :
    wasNames timestamp zones = liveNames zones := by
  have hsame : ∀ zone ∈ zones, zone.wasLive timestamp = zone.live := by
    intro zone hzone
    have hcreated := hrows.created zone hzone
    have hupdated : (zone.updatedAt.any fun updated => decide (timestamp < updated)) = false := by
      cases hu : zone.updatedAt with
      | none => rfl
      | some updated =>
        have hle := hrows.updated zone hzone updated hu
        simpa using hle
    simp [Zone.wasLive, hcreated, hupdated]
  unfold wasNames liveNames
  rw [List.filter_congr hsame]

/-- What happens later does not change what was. -/
theorem wasNames_apply (hlater : timestamp < now) (change : Change) :
    wasNames timestamp (change.apply zones now) = wasNames timestamp zones := by
  -- only a live row is touched, and only after the time, so it was live then as before
  have htouch : ∀ id status,
      wasNames timestamp (touch zones now id status) = wasNames timestamp zones := by
    intro id status
    have hone : ∀ zone : Zone, (if zone.id = id ∧ zone.live then
        { zone with updatedAt := some now, status } else zone).wasLive timestamp =
        zone.wasLive timestamp := by
      intro zone
      split
      · next hlive => simp [Zone.wasLive, hlive.2, hlater]
      · rfl
    ext name
    simp only [mem_wasNames, touch, List.mem_map]
    constructor
    · rintro ⟨zone', ⟨zone, hzone, hzone'⟩, hwas, hname⟩
      subst hzone'
      rw [hone] at hwas
      refine ⟨zone, hzone, hwas, ?_⟩
      revert hname
      split <;> exact fun h => h
    · rintro ⟨zone, hzone, hwas, hname⟩
      refine ⟨_, ⟨zone, hzone, rfl⟩, (hone zone).trans hwas, ?_⟩
      split <;> exact hname
  cases change with
  | create id name =>
    rw [Change.apply]
    split
    · rfl
    · unfold wasNames
      rw [List.filter_append, List.filter_cons_of_neg (by simp [Zone.wasLive, hlater])]
      simp
  | update id status =>
    rw [Change.apply]
    split
    · rfl
    · exact htouch id status
  | delete id => exact htouch id .DELETED

theorem replay_rows {history : List Event} (hordered : history.Pairwise (·.time ≤ ·.time))
    (hlast : ∀ event ∈ history, event.time ≤ now) : Rows (replay history) now := by
  induction history using List.reverseRecOn generalizing now with
  | nil => exact rows_nil now
  | append_singleton history event ih =>
    obtain ⟨hbefore, -, hle⟩ := List.pairwise_append.mp hordered
    have hrows : Rows (replay history) event.time :=
      ih hbefore fun e he => hle e he event (List.mem_singleton_self event)
    unfold replay
    rw [List.foldl_append]
    exact rows_mono (rows_apply hrows event.change) (hlast event (by simp))

/-- The names at the time can be told from the rows at any time after. -/
theorem wasNames_replay {history : List Event} (hordered : history.Pairwise (·.time ≤ ·.time))
    (timestamp : Nat) : wasNames timestamp (replay history) = liveAt history timestamp := by
  induction history using List.reverseRecOn with
  | nil => rfl
  | append_singleton history event ih =>
    obtain ⟨hbefore, -, hle⟩ := List.pairwise_append.mp hordered
    have hlast : ∀ e ∈ history, e.time ≤ event.time :=
      fun e he => hle e he event (List.mem_singleton_self event)
    -- up to the time all events count; later ones change nothing about it
    by_cases hnow : event.time ≤ timestamp
    · have hall : (history ++ [event]).filter (fun e => decide (e.time ≤ timestamp)) =
          history ++ [event] := by
        refine List.filter_eq_self.mpr fun e he => decide_eq_true ?_
        obtain he | he := List.mem_append.mp he
        · exact Nat.le_trans (hlast e he) hnow
        · obtain rfl := List.mem_singleton.mp he
          exact hnow
      unfold liveAt
      rw [hall]
      refine wasNames_eq_liveNames (replay_rows hordered fun e he => ?_)
      exact of_decide_eq_true (List.filter_eq_self.mp hall e he)
    · have hsame : liveAt (history ++ [event]) timestamp = liveAt history timestamp := by
        unfold liveAt
        rw [List.filter_append, List.filter_cons_of_neg (by simpa using hnow), List.filter_nil,
          List.append_nil]
      have hreplay : replay (history ++ [event]) =
          event.change.apply (replay history) event.time := by
        unfold replay
        rw [List.foldl_append]
        rfl
      rw [hsame, hreplay, wasNames_apply (by omega), ih hbefore]

/-! ## The rows that are listed -/

theorem mem_findZones {zone : Zone} :
    zone ∈ findZones timestamp zones ↔
      zone ∈ zones ∧ ∃ updated, zone.updatedAt = some updated ∧ timestamp < updated := by
  simp [findZones, Option.any_eq_true, List.mem_insertionSort]

variable (timestamp) in
theorem findZones_nodup (hrows : Rows zones now) : (findZones timestamp zones).Nodup := by
  have hnodup : zones.Nodup := hrows.succeeds.imp fun h heq => h.1 (congrArg Zone.id heq)
  exact (List.perm_insertionSort _ _).nodup_iff.mpr (hnodup.filter _)

/-- Of two rows of one name one came first. -/
theorem succeeds_or (hrows : Rows zones now) {zone zone' : Zone} (hzone : zone ∈ zones)
    (hzone' : zone' ∈ zones) (hne : zone ≠ zone') :
    Succeeds zone zone' ∨ Succeeds zone' zone := by
  have hpairs : zones.Pairwise fun z z' => Succeeds z z' ∨ Succeeds z' z :=
    hrows.succeeds.imp Or.inl
  have hsymm : Std.Symm fun z z' => Succeeds z z' ∨ Succeeds z' z := ⟨fun _ _ h => h.symm⟩
  exact hpairs.forall hzone hzone' hne

/-- What came after a row that is listed was created after the time. -/
theorem created_after {zone zone' : Zone} (hlisted : zone ∈ findZones timestamp zones)
    (hsucceeds : Succeeds zone zone') (hname : zone.name = zone'.name) :
    zone.live = false ∧ timestamp < zone'.createdAt := by
  obtain ⟨hlive, updated, hupdated, hle⟩ := hsucceeds.2 hname
  obtain ⟨-, updated', hupdated', hlt⟩ := mem_findZones.mp hlisted
  obtain rfl := Option.some.inj (hupdated.symm.trans hupdated')
  exact ⟨hlive, by omega⟩

/-- At most one zone of a name is not deleted. -/
theorem live_unique (hrows : Rows zones now) {zone zone' : Zone} (hzone : zone ∈ zones)
    (hzone' : zone' ∈ zones) (hname : zone.name = zone'.name) (hlive : zone.live = true)
    (hlive' : zone'.live = true) : zone = zone' := by
  by_contra hne
  obtain h | h := succeeds_or hrows hzone hzone' hne
  · have hdeleted := (h.2 hname).1
    rw [hlive] at hdeleted
    exact absurd hdeleted (by simp)
  · have hdeleted := (h.2 hname.symm).1
    rw [hlive'] at hdeleted
    exact absurd hdeleted (by simp)

/-! ## The plan -/

def named (name : String) (zone : Zone) : Bool :=
  decide (zone.name = name)

/-- The last row of a name that has been gone through. -/
def lastNamed (zones : List Zone) (name : String) : Option Zone :=
  (zones.filter (named name)).getLast?

/-- What the last row of a name leaves to be done. -/
def opOf (timestamp : Nat) (zone : Zone) : List (Zone × Action) :=
  if zone.status = .DELETED then
    if zone.createdAt ≤ timestamp then [(zone, .DELETE)] else []
  else if timestamp < zone.createdAt then [(zone, .CREATE)]
  else [(zone, .UPDATE)]

/-- The operations of a name are those of its last row. -/
def Planned (timestamp : Nat) (done : List Zone) (ops : List (Zone × Action)) : Prop :=
  ∀ name, ops.filter (fun op => named name op.1) = (lastNamed done name).elim [] (opOf timestamp)

theorem opOf_length (zone : Zone) : (opOf timestamp zone).length ≤ 1 := by
  unfold opOf
  split
  · split <;> simp
  · split <;> simp

theorem opOf_fst {zone : Zone} {op : Zone × Action} (h : op ∈ opOf timestamp zone) :
    op.1 = zone := by
  unfold opOf at h
  split at h
  · split at h
    · exact congrArg Prod.fst (List.mem_singleton.mp h)
    · exact absurd h List.not_mem_nil
  · split at h <;> exact congrArg Prod.fst (List.mem_singleton.mp h)

theorem lastNamed_append (done : List Zone) (zone : Zone) (name : String) :
    lastNamed (done ++ [zone]) name =
      if zone.name = name then some zone else lastNamed done name := by
  unfold lastNamed
  rw [List.filter_append]
  by_cases hname : zone.name = name
  · rw [List.filter_cons_of_pos (by simpa [named] using hname), List.filter_nil, if_pos hname]
    simp
  · rw [List.filter_cons_of_neg (by simpa [named] using hname), List.filter_nil, if_neg hname,
      List.append_nil]

theorem lastNamed_mem {done : List Zone} {name : String} {zone : Zone}
    (h : lastNamed done name = some zone) : zone ∈ done ∧ zone.name = name := by
  have hmem := List.mem_filter.mp (List.mem_of_getLast? h)
  exact ⟨hmem.1, of_decide_eq_true hmem.2⟩

theorem planned_length {done : List Zone} {ops : List (Zone × Action)}
    (hplanned : Planned timestamp done ops) (name : String) :
    (ops.filter fun op => named name op.1).length ≤ 1 := by
  rw [hplanned name]
  cases lastNamed done name with
  | none => exact Nat.zero_le 1
  | some zone => exact opOf_length zone

/-- The rows gone through before `zone` are listed rows of others. -/
def Before (timestamp : Nat) (zones done : List Zone) (zone : Zone) : Prop :=
  zone ∈ findZones timestamp zones ∧
    ∀ other ∈ done, other ∈ findZones timestamp zones ∧ other ≠ zone

/-- A row of the same name was deleted if this one was not, which was then created after. -/
theorem before_live (hrows : Rows zones now) {done : List Zone} {zone other : Zone}
    (hbefore : Before timestamp zones done zone) (hother : other ∈ done)
    (hname : other.name = zone.name) (hlive : zone.live = true) :
    other.live = false ∧ timestamp < zone.createdAt := by
  obtain ⟨hlisted, hne⟩ := hbefore.2 other hother
  have hmem := (mem_findZones.mp hlisted).1
  have hmem' := (mem_findZones.mp hbefore.1).1
  obtain h | h := succeeds_or hrows hmem hmem' hne
  · exact created_after hlisted h hname
  · have hdeleted := (h.2 hname.symm).1
    rw [hlive] at hdeleted
    exact absurd hdeleted (by simp)

theorem live_iff {zone : Zone} : zone.live = true ↔ zone.status ≠ .DELETED := by
  simp [Zone.live]

theorem opOf_deleted {zone : Zone} (hdeleted : zone.status = .DELETED) {op : Zone × Action}
    (h : op ∈ opOf timestamp zone) : op.2 = .DELETE := by
  unfold opOf at h
  rw [if_pos hdeleted] at h
  split at h
  · exact congrArg Prod.snd (List.mem_singleton.mp h)
  · exact absurd h List.not_mem_nil

/-- Operations of one name are removed in one go, for there is one at most. -/
theorem removing_named {done : List Zone} {ops : List (Zone × Action)}
    (hplanned : Planned timestamp done ops) {p : Zone × Action → Bool} {name : String}
    (hp : ∀ op, p op = true → op.1.name = name) :
    removing p ops = ops.filter fun op => !p op := by
  refine removing_eq_filter ?_
  refine Nat.le_trans (List.Sublist.length_le ?_) (planned_length hplanned name)
  refine List.monotone_filter_right _ fun op hop => ?_
  exact decide_eq_true (hp op hop)

/-- Those of other names stay. -/
theorem filter_other {ops : List (Zone × Action)} {p : Zone × Action → Bool} {name other : String}
    (hp : ∀ op, p op = true → op.1.name = name) (hne : name ≠ other) :
    (ops.filter fun op => !p op).filter (fun op => named other op.1) =
      ops.filter fun op => named other op.1 := by
  rw [List.filter_filter]
  refine List.filter_congr fun op _ => ?_
  cases hop : p op with
  | false => simp
  | true =>
    have hname := hp op hop
    simp [named, hname, hne]

/-- All operations of a name are taken back, and what its last row leaves is put at the end. -/
theorem planned_replaced {done : List Zone} {ops : List (Zone × Action)} (zone : Zone)
    (hplanned : Planned timestamp done ops) {p : Zone × Action → Bool}
    (hp : ∀ op, p op = true → op.1.name = zone.name)
    (hall : ∀ op ∈ ops, op.1.name = zone.name → p op = true) :
    Planned timestamp (done ++ [zone]) (removing p ops ++ opOf timestamp zone) := by
  intro name
  rw [lastNamed_append, removing_named hplanned hp, List.filter_append]
  by_cases hname : zone.name = name
  · -- the operations there were of this name are gone
    have hnone : (ops.filter fun op => !p op).filter (fun op => named name op.1) = [] := by
      rw [List.filter_filter, List.filter_eq_nil_iff]
      intro op hop hboth
      simp only [named, Bool.and_eq_true, Bool.not_eq_true', decide_eq_true_eq] at hboth
      rw [hall op hop (hboth.1.trans hname.symm)] at hboth
      exact absurd hboth.2 (by simp)
    have hown : (opOf timestamp zone).filter (fun op => named name op.1) =
        opOf timestamp zone := by
      refine List.filter_eq_self.mpr fun op hop => ?_
      rw [opOf_fst hop]
      exact decide_eq_true hname
    rw [hnone, hown, if_pos hname]
    rfl
  · -- other names keep theirs
    have hnot : (opOf timestamp zone).filter (fun op => named name op.1) = [] := by
      refine List.filter_eq_nil_iff.mpr fun op hop => ?_
      rw [opOf_fst hop]
      simpa [named] using hname
    rw [filter_other hp hname, hnot, if_neg hname, List.append_nil, hplanned name]

/-- One more row keeps the plan. -/
theorem planned_step (hrows : Rows zones now) {done : List Zone} {ops : List (Zone × Action)}
    {zone : Zone} (hplanned : Planned timestamp done ops)
    (hbefore : Before timestamp zones done zone) :
    Planned timestamp (done ++ [zone]) (plan timestamp ops zone) := by
  unfold plan
  by_cases hdeleted : zone.status = .DELETED
  · rw [if_pos hdeleted]
    have hstep := planned_replaced zone hplanned (p := fun op => zone.name == op.1.name)
      (fun op hop => (beq_iff_eq.mp hop).symm) (fun op _ hop => beq_iff_eq.mpr hop.symm)
    unfold opOf at hstep
    rw [if_pos hdeleted] at hstep
    by_cases hcreated : zone.createdAt ≤ timestamp
    · simpa only [if_pos hcreated] using hstep
    · simpa only [if_neg hcreated, List.append_nil] using hstep
  · have hlive : zone.live = true := live_iff.mpr hdeleted
    rw [if_neg hdeleted]
    by_cases hcreated : timestamp < zone.createdAt
    · rw [if_pos hcreated]
      have hown : [(zone, .CREATE)] = opOf timestamp zone := by simp [opOf, hdeleted, hcreated]
      rw [hown]
      refine planned_replaced zone hplanned ?_ ?_
      · intro op hop
        rw [Bool.and_eq_true, beq_iff_eq] at hop
        exact hop.1.symm
      · -- whatever is planned for the name is a deletion, since the others of it are deleted
        intro op hop hname
        have hmem : op ∈ ops.filter fun op => named zone.name op.1 :=
          List.mem_filter.mpr ⟨hop, decide_eq_true hname⟩
        rw [hplanned zone.name] at hmem
        cases hother : lastNamed done zone.name with
        | none =>
          rw [hother] at hmem
          exact absurd hmem List.not_mem_nil
        | some other =>
          rw [hother] at hmem
          obtain ⟨hdone, hname'⟩ := lastNamed_mem hother
          have hnot := (before_live hrows hbefore hdone hname' hlive).1
          have hstatus : other.status = .DELETED := by simpa [Zone.live] using hnot
          rw [opOf_deleted hstatus hmem, hname]
          simp
    · -- no other row of the name is listed
      have hnone : lastNamed done zone.name = none := by
        cases hother : lastNamed done zone.name with
        | none => rfl
        | some other =>
          obtain ⟨hdone, hname⟩ := lastNamed_mem hother
          exact absurd (before_live hrows hbefore hdone hname hlive).2 hcreated
      rw [if_neg hcreated]
      intro name
      rw [lastNamed_append, List.filter_append, hplanned name]
      by_cases hname : zone.name = name
      · subst hname
        rw [hnone, if_pos rfl]
        simp [opOf, hdeleted, hcreated, named]
      · rw [if_neg hname, List.filter_cons_of_neg (by simpa [named] using hname), List.filter_nil,
          List.append_nil]

/-- What is planned in the end. -/
theorem planned_zoneOps (hrows : Rows zones now) :
    Planned timestamp (findZones timestamp zones)
      (zoneOps timestamp (findZones timestamp zones)) := by
  -- by induction on the zones still to come, with the operations planned so far
  have hall : ∀ done rest, findZones timestamp zones = done ++ rest → ∀ ops,
      Planned timestamp done ops →
      Planned timestamp (findZones timestamp zones) (rest.foldl (plan timestamp) ops) := by
    intro done rest
    induction rest generalizing done with
    | nil =>
      intro hlisted ops hplanned
      rw [hlisted, List.append_nil]
      exact hplanned
    | cons zone rest ih =>
      intro hlisted ops hplanned
      have hnodup := findZones_nodup timestamp hrows
      rw [hlisted, List.nodup_append] at hnodup
      refine ih (done ++ [zone]) (by rw [hlisted, List.append_assoc]; rfl) _
        (planned_step hrows hplanned ⟨?_, ?_⟩)
      · rw [hlisted]
        simp
      · intro other hother
        refine ⟨?_, hnodup.2.2 other hother zone List.mem_cons_self⟩
        rw [hlisted]
        exact List.mem_append_left _ hother
  exact hall [] _ rfl [] fun name => rfl

/-! ## The run -/

/-- What is done for a name in the end. -/
def leaves (before : Prop) : List (Zone × Action) → Prop
  | [] => before
  | (_, action) :: _ => action ≠ .DELETE

/-- With one operation for each name at most, each is done to the names as they were before. -/
theorem runOps_spec {ops : List (Zone × Action)} (names : Finset String)
    (hone : ∀ name, (ops.filter fun op => named name op.1).length ≤ 1)
    (hfound : ∀ op ∈ ops, op.2 = .UPDATE ∨ op.2 = .DELETE → op.1.name ∈ names)
    (haction : ∀ op ∈ ops, op.2 ≠ .NONE) :
    ∃ names', runOps names ops = some names' ∧
      ∀ name, name ∈ names' ↔ leaves (name ∈ names) (ops.filter fun op => named name op.1) := by
  induction ops generalizing names with
  | nil => exact ⟨names, rfl, fun name => Iff.rfl⟩
  | cons op ops ih =>
    obtain ⟨zone, action⟩ := op
    have hlater : ∀ name, (ops.filter fun op => named name op.1).length ≤ 1 := by
      intro name
      refine Nat.le_trans (List.Sublist.length_le ?_) (hone name)
      exact (List.sublist_cons_self _ _).filter _
    have hfresh : ops.filter (fun op => named zone.name op.1) = [] := by
      have hlength := hone zone.name
      rw [List.filter_cons_of_pos (by simp [named]), List.length_cons] at hlength
      exact List.eq_nil_of_length_eq_zero (by omega)
    have hother : ∀ op ∈ ops, op.1.name ≠ zone.name := by
      intro op hop hname
      have hnot := List.filter_eq_nil_iff.mp hfresh op hop
      simp [named, hname] at hnot
    -- the first operation is done, and the others are of other names
    obtain ⟨names₁, hfirst, hnames₁⟩ : ∃ names₁, onTarget names (zone, action) = some names₁ ∧
        ∀ name, name ∈ names₁ ↔
          if name = zone.name then action ≠ .DELETE else name ∈ names := by
      have hmem := hfound (zone, action) List.mem_cons_self
      cases action with
      | CREATE =>
        refine ⟨_, rfl, fun name => ?_⟩
        by_cases hname : name = zone.name <;> simp [hname]
      | UPDATE =>
        refine ⟨names, if_pos (hmem (.inl rfl)), fun name => ?_⟩
        by_cases hname : name = zone.name
        · simp [hname, hmem (.inl rfl)]
        · simp [hname]
      | DELETE =>
        refine ⟨_, if_pos (hmem (.inr rfl)), fun name => ?_⟩
        by_cases hname : name = zone.name <;> simp [hname]
      | NONE => exact absurd rfl (haction (zone, .NONE) List.mem_cons_self)
    obtain ⟨names', hrest, hnames'⟩ := ih names₁ hlater
      (by
        intro op hop hneeds
        rw [hnames₁, if_neg (hother op hop)]
        exact hfound op (List.mem_cons_of_mem _ hop) hneeds)
      fun op hop => haction op (List.mem_cons_of_mem _ hop)
    refine ⟨names', ?_, fun name => ?_⟩
    · unfold runOps at hrest ⊢
      rw [List.foldlM_cons, hfirst]
      exact hrest
    · rw [hnames', hnames₁]
      by_cases hname : name = zone.name
      · rw [if_pos hname, hname, hfresh, List.filter_cons_of_pos (by simp [named])]
        rfl
      · rw [if_neg hname, List.filter_cons_of_neg (by simpa [named] using Ne.symm hname)]

/-! ## Where it goes wrong -/

/-- The last row of a name, deleted, is of a zone created after the time when one was there. -/
def TakenBack (timestamp : Nat) (zones : List Zone) (name : String) : Prop :=
  name ∈ wasNames timestamp zones ∧
    ∃ zone, lastNamed (findZones timestamp zones) name = some zone ∧
      zone.status = .DELETED ∧ timestamp < zone.createdAt

/-- A zone of a name, created after the time, is not the last row that is listed of it. -/
def Overlooked (timestamp : Nat) (zones : List Zone) (name : String) : Prop :=
  ∃ zone ∈ zones, zone.live = true ∧ zone.name = name ∧ timestamp < zone.createdAt ∧
    lastNamed (findZones timestamp zones) name ≠ some zone

variable {name : String}

theorem lastNamed_none (h : lastNamed (findZones timestamp zones) name = none) {zone : Zone}
    (hzone : zone ∈ zones) (hname : zone.name = name) {updated : Nat}
    (hupdated : zone.updatedAt = some updated) : updated ≤ timestamp := by
  by_contra hlt
  have hlisted : zone ∈ findZones timestamp zones :=
    mem_findZones.mpr ⟨hzone, updated, hupdated, by omega⟩
  have hnil := List.filter_eq_nil_iff.mp (List.getLast?_eq_none_iff.mp h) zone hlisted
  exact hnil (decide_eq_true hname)

/-- If the last row listed of a name is deleted, a zone of the name is there if one is overlooked. -/
theorem live_iff_overlooked (hrows : Rows zones now) {zone : Zone}
    (hlast : lastNamed (findZones timestamp zones) name = some zone) (hdeleted : zone.live = false) :
    name ∈ liveNames zones ↔ Overlooked timestamp zones name := by
  obtain ⟨hlisted, hname⟩ := lastNamed_mem hlast
  rw [mem_liveNames]
  constructor
  · intro ⟨other, hother, hlive, hname'⟩
    have hne : zone ≠ other := by
      intro heq
      rw [heq, hlive] at hdeleted
      exact absurd hdeleted (by simp)
    refine ⟨other, hother, hlive, hname', ?_, fun h => hne (Option.some.inj (hlast.symm.trans h))⟩
    obtain h | h := succeeds_or hrows (mem_findZones.mp hlisted).1 hother hne
    · exact (created_after hlisted h (hname.trans hname'.symm)).2
    · have hnot := (h.2 (hname'.trans hname.symm)).1
      rw [hlive] at hnot
      exact absurd hnot (by simp)
  · intro ⟨other, hother, hlive, hname', _⟩
    exact ⟨other, hother, hlive, hname'⟩

/-- For one name, what is left is right exactly if none or both of these happen. -/
theorem leaves_iff (hrows : Rows zones now) (name : String) :
    (leaves (name ∈ wasNames timestamp zones)
        ((lastNamed (findZones timestamp zones) name).elim [] (opOf timestamp)) ↔
      name ∈ liveNames zones) ↔
    (TakenBack timestamp zones name ↔ Overlooked timestamp zones name) := by
  cases hlast : lastNamed (findZones timestamp zones) name with
  | none =>
    have hnot : ¬ TakenBack timestamp zones name := by
      intro ⟨_, zone, hzone, _⟩
      exact absurd (hlast.symm.trans hzone) (by simp)
    -- without an update since, a zone of the time is live today
    have hstays : ∀ zone ∈ zones, zone.wasLive timestamp = true → zone.name = name →
        zone.live = true ∧ zone.createdAt ≤ timestamp := by
      intro zone hzone hwas hname
      simp only [Zone.wasLive, Bool.and_eq_true, decide_eq_true_eq, Bool.or_eq_true] at hwas
      obtain ⟨hcreated, hlive | hupdated⟩ := hwas
      · exact ⟨hlive, hcreated⟩
      · cases hu : zone.updatedAt with
        | none =>
          rw [hu] at hupdated
          exact absurd hupdated (by simp)
        | some updated =>
          rw [hu, Option.any_some, decide_eq_true_eq] at hupdated
          have hle := lastNamed_none hlast hzone hname hu
          omega
    -- so the name is wrong only where a zone is new and has never been listed
    have hoverlooked : Overlooked timestamp zones name ↔
        name ∈ liveNames zones ∧ name ∉ wasNames timestamp zones := by
      rw [mem_liveNames, mem_wasNames]
      constructor
      · intro ⟨zone, hzone, hlive, hname, hcreated, _⟩
        refine ⟨⟨zone, hzone, hlive, hname⟩, ?_⟩
        intro ⟨other, hother, hwas, hname'⟩
        obtain ⟨hlive', hcreated'⟩ := hstays other hother hwas hname'
        rw [live_unique hrows hother hzone (hname'.trans hname.symm) hlive' hlive] at hcreated'
        omega
      · intro ⟨⟨zone, hzone, hlive, hname⟩, hnever⟩
        refine ⟨zone, hzone, hlive, hname, ?_, by rw [hlast]; simp⟩
        by_contra hcreated
        refine hnever ⟨zone, hzone, ?_, hname⟩
        simp [Zone.wasLive, hlive]
        omega
    have hkept : name ∈ wasNames timestamp zones → name ∈ liveNames zones := by
      intro hwas
      obtain ⟨zone, hzone, hwas, hname⟩ := mem_wasNames.mp hwas
      exact mem_liveNames.mpr ⟨zone, hzone, (hstays zone hzone hwas hname).1, hname⟩
    show (name ∈ wasNames timestamp zones ↔ _) ↔ _
    tauto
  | some zone =>
    obtain ⟨hlisted, hname⟩ := lastNamed_mem hlast
    have hzone := (mem_findZones.mp hlisted).1
    cases hlive : zone.live with
    | true =>
      have hstatus := live_iff.mp hlive
      have hnow : name ∈ liveNames zones := mem_liveNames.mpr ⟨zone, hzone, hlive, hname⟩
      have hnot : ¬ TakenBack timestamp zones name := by
        intro ⟨_, zone', hzone', hdeleted, _⟩
        obtain rfl := Option.some.inj (hlast.symm.trans hzone')
        exact hstatus hdeleted
      have hnot' : ¬ Overlooked timestamp zones name := by
        intro ⟨other, hother, hlive', hname', _, hne⟩
        rw [hlast, live_unique hrows hzone hother (hname.trans hname'.symm) hlive hlive'] at hne
        exact hne rfl
      have hleaves : leaves (name ∈ wasNames timestamp zones) (opOf timestamp zone) := by
        unfold opOf
        rw [if_neg hstatus]
        split <;> simp [leaves]
      simp [hleaves, hnow, hnot, hnot']
    | false =>
      have hstatus : zone.status = .DELETED := by simpa [Zone.live] using hlive
      have hop : opOf timestamp zone =
          if zone.createdAt ≤ timestamp then [(zone, .DELETE)] else [] := if_pos hstatus
      -- a deletion takes the name away, unless the zone is newer than the time
      have htaken : TakenBack timestamp zones name ↔
          name ∈ wasNames timestamp zones ∧ timestamp < zone.createdAt := by
        simp [TakenBack, hlast, hstatus]
      rw [live_iff_overlooked hrows hlast hlive, htaken]
      refine iff_congr ?_ Iff.rfl
      show leaves _ (opOf timestamp zone) ↔ _
      rw [hop]
      by_cases hcreated : zone.createdAt ≤ timestamp
      · rw [if_pos hcreated]
        have hnot : ¬ timestamp < zone.createdAt := by omega
        simp [leaves, hnot]
      · rw [if_neg hcreated]
        have hafter : timestamp < zone.createdAt := by omega
        simp [leaves, hafter]

/-- What is planned is found on a target that held the names of the time. -/
theorem planned_found (hrows : Rows zones now) {op : Zone × Action}
    (hop : op ∈ zoneOps timestamp (findZones timestamp zones)) :
    op.2 ≠ .NONE ∧ (op.2 = .UPDATE ∨ op.2 = .DELETE → op.1.name ∈ wasNames timestamp zones) := by
  have hmem : op ∈ (zoneOps timestamp (findZones timestamp zones)).filter
      fun op' => named op.1.name op'.1 := List.mem_filter.mpr ⟨hop, by simp [named]⟩
  rw [planned_zoneOps hrows op.1.name] at hmem
  cases hlast : lastNamed (findZones timestamp zones) op.1.name with
  | none =>
    rw [hlast] at hmem
    exact absurd hmem List.not_mem_nil
  | some zone =>
    rw [hlast] at hmem
    obtain ⟨hlisted, hname⟩ := lastNamed_mem hlast
    obtain ⟨hzone, updated, hupdated, hlt⟩ := mem_findZones.mp hlisted
    -- the last row of the name was changed after the time, so at the time it was live
    have hwas : zone.createdAt ≤ timestamp → op.1.name ∈ wasNames timestamp zones := by
      intro hcreated
      refine mem_wasNames.mpr ⟨zone, hzone, ?_, hname⟩
      simp [Zone.wasLive, hcreated, hupdated, hlt]
    change op ∈ opOf timestamp zone at hmem
    unfold opOf at hmem
    split at hmem
    · split at hmem
      · next hcreated =>
        obtain rfl := List.mem_singleton.mp hmem
        exact ⟨by simp, fun _ => hwas hcreated⟩
      · exact absurd hmem List.not_mem_nil
    · split at hmem
      · obtain rfl := List.mem_singleton.mp hmem
        exact ⟨by simp, by simp⟩
      · next hcreated =>
        obtain rfl := List.mem_singleton.mp hmem
        exact ⟨by simp, fun _ => hwas (by omega)⟩

/-- A zone of before that was updated since, and another one that has been created. -/
def updatedSince : List Event :=
  [⟨1, .create 0 "a."⟩, ⟨3, .update 0 .ACTIVE⟩, ⟨4, .create 1 "b."⟩, ⟨5, .update 1 .ACTIVE⟩]

/-- A zone of before that was deleted, created anew, and deleted again. -/
def deletedTwice : List Event :=
  [⟨1, .create 0 "a."⟩, ⟨3, .delete 0⟩, ⟨4, .create 1 "a."⟩, ⟨5, .update 1 .ACTIVE⟩,
    ⟨6, .delete 1⟩]

end TargetSync

end Designate
