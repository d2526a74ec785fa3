import Designate.Proof.Fate

/-!
# Whether the outcome of an update tells what happened

`do_update` reports by the number of entries that count. The turns of its loop are
followed here one by one, each with the state before and after it, so that the
report can be compared with which entries took effect.
-/

namespace Designate

open Exec

/--
One turn of the loop. It keeps the worlds before and behind, from which the fate of its entry is
read off.
-/
structure Turn where
  faults : Faults
  entry : Record × Entry
  before : World
  after : World

section

variable (ctx : Context) (conf : Conf) (zone : Zone) (recordset : RecordSet)
  (dealwithNochange : Bool)

/-- The turns of the loop; none follows one that raises. -/
def turns : (Nat → Faults) → List (Record × Entry) → World → List Turn
  | _, [], _ => []
  | plan, p :: entries, w =>
    match applyEntry ctx conf (plan 0) zone recordset dealwithNochange p.1 p.2 w with
    | (.ok _, w') => ⟨plan 0, p, w, w'⟩ :: turns (fun n => plan (n + 1)) entries w'
    | (.error _, w') => [⟨plan 0, p, w, w'⟩]

/-- The fate of a turn, from the state before it. -/
noncomputable def Turn.fate (t : Turn) : Fate :=
  Designate.fate ctx conf t.faults zone recordset dealwithNochange t.entry t.before

/-- The entry of the turn took effect. -/
def Turn.Took (t : Turn) : Prop :=
  Designate.Took ctx t.faults zone recordset dealwithNochange t.entry t.before t.after

/--
The outcome of `do_update` tells the truth: it returns only if every entry took
effect, raises `AllFailed` only if none did and `PartlyFailed` only if some did and
some did not, and anything else only when nothing has changed.
-/
def Honest (plan : Nat → Faults) (entries : List (Record × Entry)) (w : World) : Prop :=
  let ts := turns ctx conf zone recordset dealwithNochange plan entries w
  let took := Turn.Took ctx zone recordset dealwithNochange
  match doUpdate ctx conf plan zone recordset dealwithNochange w with
  | (.ok _, _) => ∀ t ∈ ts, took t
  | (.error .AllFailed, _) => ∀ t ∈ ts, ¬ took t
  | (.error .PartlyFailed, _) => (∃ t ∈ ts, took t) ∧ ∃ t ∈ ts, ¬ took t
  | (.error _, w') => World.Same w w'

end

section

variable {ctx : Context} {conf : Conf} {zone : Zone} {recordset : RecordSet}
  {dealwithNochange : Bool} {w w' : World}

theorem turns_entry {plan : Nat → Faults} {entries : List (Record × Entry)} {t : Turn}
    (ht : t ∈ turns ctx conf zone recordset dealwithNochange plan entries w) :
    t.entry ∈ entries := by
  induction entries generalizing plan w with
  | nil => exact absurd ht List.not_mem_nil
  | cons p entries ih =>
    unfold turns at ht
    split at ht
    · rcases List.mem_cons.mp ht with rfl | ht
      · exact List.mem_cons_self
      · exact List.mem_cons_of_mem _ (ih ht)
    · rw [List.mem_singleton.mp ht]
      exact List.mem_cons_self

/-- To raise anything else after a change is not honest. -/
theorem not_honest {plan : Nat → Faults} {entries : List (Record × Entry)} {e : Exc}
    (ht : ¬ e.Tally)
    (he : (doUpdate ctx conf plan zone recordset dealwithNochange w).1 = .error e)
    (hch : (doUpdate ctx conf plan zone recordset dealwithNochange w).2.device.changes ≠
      w.device.changes) :
    ¬ Honest ctx conf zone recordset dealwithNochange plan entries w := by
  unfold Honest
  generalize doUpdate ctx conf plan zone recordset dealwithNochange w = out at he hch ⊢
  obtain ⟨res, w'⟩ := out
  obtain rfl : res = .error e := he
  have hsame : ¬ World.Same w w' := fun h => hch h.changes
  cases e <;> simp_all [Exc.Tally]

/-! ## The loop -/

/--
How the loop ends, given the fates of its turns. What is counted and what has changed are two
numbers, and the answer is honest when they are the same.
-/
structure LoopEnd (entries : List (Record × Entry)) (w : World) (fates : List Fate)
    (res : Except Exc Nat) (w' : World) : Prop where
  changes : w'.device.changes = w.device.changes + fates.countP Fate.touched
  same : fates.countP Fate.touched = 0 → World.Same w w'
  raised : .raised ∈ fates → ∃ e, res = .error e ∧ ¬ e.Tally
  counted : .raised ∉ fates → res = .ok (fates.countP Fate.counted) ∧
    fates.length = entries.length

/-- **The loop, by the fates of its turns.** By induction on the entries. -/
theorem applyEntries_turns (ctx : Context) (conf : Conf) (zone : Zone) (recordset : RecordSet)
    (dealwithNochange : Bool) (plan : Nat → Faults) (entries : List (Record × Entry))
    (hplan : ∀ n, (plan n).OnlyDevice) (hnew : ∀ p ∈ entries, ∃ text, p.1 = Record.new text)
    (hfresh : w.Fresh) :
    let ts := turns ctx conf zone recordset dealwithNochange plan entries w
    let fates := ts.map (Turn.fate ctx conf zone recordset dealwithNochange)
    (∀ t ∈ ts, t.fate ctx conf zone recordset dealwithNochange ≠ .raised →
      (t.Took ctx zone recordset dealwithNochange ↔
        (t.fate ctx conf zone recordset dealwithNochange).worked = true)) ∧
    ∃ res w', applyEntries ctx conf zone recordset dealwithNochange plan entries w = (res, w') ∧
      LoopEnd entries w fates res w' := by
  induction entries generalizing plan w with
  | nil => exact ⟨by simp [turns], .ok 0, w, rfl, rfl, fun _ => .rfl, by simp [turns], by simp [turns]⟩
  | cons p entries ih =>
    obtain ⟨res, w₁, hrun, hfresh₁, hch, hsame, hres⟩ :=
      applyEntry_step ctx conf zone recordset dealwithNochange (hplan 0) hfresh (hnew p List.mem_cons_self)
    generalize hf : fate ctx conf (plan 0) zone recordset dealwithNochange p w = f at hch hsame hres
    cases hraised : decide (f = .raised) with
    | true =>
      -- an entry that raises ends the loop, and it is the last turn
      obtain rfl := of_decide_eq_true hraised
      obtain ⟨e, rfl, htally⟩ := hres
      have hts : turns ctx conf zone recordset dealwithNochange plan (p :: entries) w =
          [⟨plan 0, p, w, w₁⟩] := by rw [turns, hrun]
      intro ts fates
      have hfates : fates = [.raised] := by
        simp only [fates, ts, hts, List.map_cons, List.map_nil, Turn.fate, hf]
      refine ⟨fun t ht hne => ?_, .error e, w₁, bind_error hrun, ?_, ?_, ?_, ?_⟩
      · simp only [ts, hts, List.mem_singleton] at ht
        subst ht
        exact absurd hf hne
      · rw [hfates]; exact hch
      · rw [hfates]; exact fun _ => hsame rfl
      · exact fun _ => ⟨e, rfl, htally⟩
      · rw [hfates]; simp
    | false =>
      -- one that does not is counted, and the loop goes on
      have hne : f ≠ .raised := of_decide_eq_false hraised
      have hok : res = .ok f.counted ∧ (Took ctx (plan 0) zone recordset dealwithNochange p w w₁ ↔
          f.worked = true) := by
        cases f with
        | raised => exact absurd rfl hne
        | _ => exact hres
      obtain ⟨rfl, htook⟩ := hok
      obtain ⟨htooks, res, w', hrest, hend⟩ := ih (fun n => plan (n + 1))
        (fun n => hplan (n + 1)) (fun q hq => hnew q (List.mem_cons_of_mem _ hq)) hfresh₁
      have hts : turns ctx conf zone recordset dealwithNochange plan (p :: entries) w =
          ⟨plan 0, p, w, w₁⟩ :: turns ctx conf zone recordset dealwithNochange
            (fun n => plan (n + 1)) entries w₁ := by rw [turns, hrun]
      intro ts fates
      set rest := turns ctx conf zone recordset dealwithNochange (fun n => plan (n + 1)) entries w₁
      have hfates : fates = f :: rest.map (Turn.fate ctx conf zone recordset dealwithNochange) := by
        simp only [fates, ts, hts, List.map_cons, Turn.fate, hf]
      have hmem : Fate.raised ∈ fates ↔
          .raised ∈ rest.map (Turn.fate ctx conf zone recordset dealwithNochange) := by
        rw [hfates, List.mem_cons]
        exact ⟨fun h => h.resolve_left fun h => hne h.symm, Or.inr⟩
      have htouched : fates.countP Fate.touched = f.touched.toNat +
          (rest.map (Turn.fate ctx conf zone recordset dealwithNochange)).countP Fate.touched := by
        rw [hfates, List.countP_cons]
        cases f.touched <;> simp [Nat.add_comm]
      refine ⟨fun t ht hne => ?_, res.map (· + f.counted.toNat), w', ?_, ?_, ?_, ?_, ?_⟩
      · simp only [ts, hts, List.mem_cons] at ht
        rcases ht with rfl | ht
        · rw [Turn.fate, hf]; exact htook
        · exact htooks t ht hne
      · unfold applyEntries
        rw [bind_ok hrun]
        cases res with
        | ok n => rw [bind_ok hrest]; rfl
        | error e => rw [bind_error hrest]; rfl
      · rw [hend.changes, hch, htouched]; omega
      · intro h0
        refine World.Same.trans (hsame ?_) (hend.same (by omega))
        cases ht : f.touched with
        | false => rfl
        | true => rw [ht] at htouched; simp at htouched; omega
      · intro hr
        obtain ⟨e, rfl, he⟩ := hend.raised (hmem.mp hr)
        exact ⟨e, rfl, he⟩
      · intro hr
        obtain ⟨rfl, hlen⟩ := hend.counted fun h => hr (hmem.mpr h)
        refine ⟨?_, by rw [hfates]; simpa using hlen⟩
        rw [hfates, List.countP_cons]
        cases f.counted <;> simp [Except.map]

/-! ## After the loop -/

/-- The loop leaves the zones alone, and the recordsets where they are. -/
theorem applyEntries_places (ctx : Context) (conf : Conf) (zone : Zone) (recordset : RecordSet)
    (dealwithNochange : Bool) (plan : Nat → Faults) (entries : List (Record × Entry)) (w : World) :
    let w' := (applyEntries ctx conf zone recordset dealwithNochange plan entries w).2
    w'.db.zones = w.db.zones ∧
      w'.db.recordsets.map RecordSetRow.place = w.db.recordsets.map RecordSetRow.place := by
  let I : World → Prop := fun w' => w'.db.zones = w.db.zones ∧
    w'.db.recordsets.map RecordSetRow.place = w.db.recordsets.map RecordSetRow.place
  have hquiet : IgnoresQuiet I :=
    fun _ _ hq h => ⟨hq.zones.trans h.1, hq.recordsets.trans h.2⟩
  have hkept : ∀ action record, KeptBy ctx conf action record I :=
    fun action record => ⟨hquiet, fun h => h, fun _ h _ _ => h, fun h _ => h⟩
  exact applyEntries_keeps (I := I) (fun p _ => ⟨hquiet, fun _ _ _ h _ => ⟨h, hkept _ _⟩,
    fun _ _ _ => hkept _ _⟩) plan w ⟨rfl, rfl⟩

/-- A recordset is found where it was found before. -/
theorem centralGetRecordset_found (hwf : w.Wf) {stored : RecordSetRow} {ttlChanged : Bool}
    (h : Guarded ctx recordset w.db zone stored ttlChanged)
    (hplace : recordset.zoneId = stored.zoneId) (hz : w'.db.zones = w.db.zones)
    (hs : w'.db.recordsets.map RecordSetRow.place = w.db.recordsets.map RecordSetRow.place) :
    ∃ rs, centralGetRecordset ctx zone.id recordset.id w' = (.ok rs, w') := by
  obtain ⟨hmem, hid, hsees⟩ := Table.find_mem h.storedFound
  obtain ⟨-, hzid, -⟩ := findZone_mem h.zoneFound
  -- what a recordset is found by has not changed
  have hids : w'.db.recordsets.map RecordSetRow.id = w.db.recordsets.map RecordSetRow.id := by
    have := congrArg (List.map Prod.fst) hs
    simpa [List.map_map, Function.comp_def, RecordSetRow.place] using this
  obtain ⟨s, hs', hplace'⟩ := List.mem_map.mp (hs ▸ List.mem_map_of_mem hmem)
  obtain ⟨hsid, hszone, hsten⟩ : s.id = stored.id ∧ s.zoneId = stored.zoneId ∧
      s.tenantId = stored.tenantId := by
    simp only [RecordSetRow.place, Prod.mk.injEq] at hplace'
    exact ⟨hplace'.1, hplace'.2.1, hplace'.2.2.1⟩
  have hfound : findRecordsetRow ctx recordset.id w'.db = .ok s := by
    refine Table.find_of_mem (hids ▸ hwf.recordsetIds) hs' (hsid.trans hid) ?_
    rw [hsten, hszone, Db.liveZone, hz]
    exact hsees
  have hzone : findZone ctx zone.id w'.db = .ok zone := by
    unfold findZone
    rw [hz, hzid]
    exact h.zoneFound
  unfold centralGetRecordset getRecordset getZone
  rw [bind_ok (by rw [read_apply, hfound]; rfl), bind_ok (by rw [read_apply, hzone])]
  have hsame : decide (zone.id ≠ (RecordSet.ofRow s ((w'.db.records.filter fun r =>
      r.recordsetId == recordset.id && ctx.sees r.tenantId).map Record.ofRow)).zoneId) = false := by
    simp [RecordSet.ofRow, hszone, ← hplace, hzid]
  rw [hsame]
  exact ⟨_, rfl⟩

/-- How `do_update` ends once its loop has counted `n` entries. -/
theorem doUpdate_counted (hwf : w.Wf) {stored : RecordSetRow} {ttlChanged : Bool}
    {entries : List (Record × Entry)} {plan : Nat → Faults} {n : Nat} {w₁ : World}
    (h : Guarded ctx recordset w.db zone stored ttlChanged)
    (hplace : recordset.zoneId = stored.zoneId) (list : doUpdateGuard ctx recordset w = (.ok entries, w))
    (hrun : applyEntries ctx conf zone recordset dealwithNochange plan entries w = (.ok n, w₁)) :
    if n = entries.length then
      ∃ ext, doUpdate ctx conf plan zone recordset dealwithNochange w = (.ok ext, w₁)
    else if n = 0 then
      doUpdate ctx conf plan zone recordset dealwithNochange w = (.error .AllFailed, w₁)
    else doUpdate ctx conf plan zone recordset dealwithNochange w = (.error .PartlyFailed, w₁) := by
  have hlen : recordset.records.length = entries.length := by
    rw [← (formatValidate_spec (doUpdateGuard_ok list).2.2).1, List.length_map]
  unfold doUpdate
  rw [bind_ok list, bind_ok hrun, hlen]
  unfold raiseUnlessAll
  split
  · obtain ⟨hz, hs⟩ := applyEntries_places ctx conf zone recordset dealwithNochange plan entries w
    rw [hrun] at hz hs
    obtain ⟨rs, hget⟩ := centralGetRecordset_found hwf h hplace hz hs
    rw [bind_ok (pure_apply _ _), bind_ok hget]
    exact ⟨_, rfl⟩
  · split
    · exact bind_error rfl
    · exact bind_error rfl

/-! ## The report -/

/--
The report can be told from the fates: an entry raises only before the device has
changed, and when none does, an entry the tables do not show is made up for by one
that the device refused and one that is done.
-/
structure Tells (fates : List Fate) : Prop where
  raised : .raised ∈ fates → ∀ f ∈ fates, f.touched = false
  lost : .raised ∉ fates → .lost ∈ fates → .refused ∈ fates ∧ ∃ f ∈ fates, f.worked = true

/-- A count that is full or empty. -/
theorem countP_counted {fates : List Fate} :
    (fates.countP Fate.counted = fates.length ↔ ∀ f ∈ fates, f.counted = true) ∧
      (fates.countP Fate.counted = 0 ↔ ∀ f ∈ fates, f.counted = false) :=
  ⟨List.countP_eq_length, by simp [List.countP_eq_zero]⟩

/-- Among the entries that do not raise, the refused ones are those that do not count. -/
theorem Fate.counted_false {f : Fate} (h : f ≠ .raised) : f.counted = false ↔ f = .refused := by
  cases f <;> simp_all [Fate.counted]

/-- Among the entries that count, the lost ones are those that are not done. -/
theorem Fate.worked_false {f : Fate} (h : f.counted = true) : f.worked = false ↔ f = .lost := by
  cases f <;> simp_all [Fate.counted, Fate.worked]

/-- When no entry raises, the comparison of the count with the entries done. -/
theorem tells_iff {fates : List Fate} (h : .raised ∉ fates) :
    Tells fates ↔
      if fates.countP Fate.counted = fates.length then ∀ f ∈ fates, f.worked = true
      else if fates.countP Fate.counted = 0 then ∀ f ∈ fates, f.worked = false
      else (∃ f ∈ fates, f.worked = true) ∧ ∃ f ∈ fates, f.worked = false := by
  have hne : ∀ f ∈ fates, f ≠ .raised := fun f hf he => h (he ▸ hf)
  -- without a raise an entry is left out of the count only if it was refused
  have hrefused : ∀ f ∈ fates, f.counted = false → Fate.refused ∈ fates :=
    fun f hf hc => (Fate.counted_false (hne f hf)).mp hc ▸ hf
  split
  · rename_i hall
    rw [countP_counted.1] at hall
    constructor
    · intro ht f hf
      by_contra hw
      have hlost := (Fate.worked_false (hall f hf)).mp (by simpa using hw)
      obtain ⟨hr, -⟩ := ht.lost h (hlost ▸ hf)
      exact absurd (hall _ hr) (by simp [Fate.counted])
    · exact fun hw => ⟨fun hr => absurd hr h, fun _ hl => absurd (hw _ hl) (by simp [Fate.worked])⟩
  split
  · rename_i hnone
    rw [countP_counted.2] at hnone
    refine iff_of_true ⟨fun hr => absurd hr h, fun _ hl => ?_⟩ fun f hf => ?_
    · exact absurd (hnone _ hl) (by simp [Fate.counted])
    · rw [(Fate.counted_false (hne f hf)).mp (hnone f hf)]; rfl
  · rename_i hall hnone
    rw [countP_counted.1] at hall
    rw [countP_counted.2] at hnone
    push Not at hall hnone
    -- some are counted and some not, so there is a refused one, and one that was done or lost
    obtain ⟨f₀, hf₀, hc₀⟩ := hall
    obtain ⟨f₁, hf₁, hc₁⟩ := hnone
    have hr := hrefused f₀ hf₀ (by simpa using hc₀)
    constructor
    · intro ht
      refine ⟨?_, _, hr, rfl⟩
      cases hw : f₁.worked with
      | true => exact ⟨f₁, hf₁, hw⟩
      | false =>
        have hlost := (Fate.worked_false (by simpa using hc₁)).mp hw
        exact (ht.lost h (hlost ▸ hf₁)).2
    · exact fun hw => ⟨fun hr => absurd hr h, fun _ _ => ⟨hr, hw.1⟩⟩

end

/-! ## At the sample -/

/-- Change a record, then create data that another record of `www` holds. -/
def duplicateEntries : List (Record × Entry) :=
  [entryOf .update "00000000-0000-0000-0000-000000000005" "192.0.2.7",
   entryOf .nochange "00000000-0000-0000-0000-000000000006" "192.0.2.2",
   entryOf .create "" "192.0.2.2"]

theorem duplicateEntries_list : doUpdateGuard Sample.ctx
    (Sample.www (duplicateEntries.map Prod.fst)) Sample.world =
      (.ok duplicateEntries, Sample.world) :=
  sample_list (by decide +kernel) (by decide +kernel)

theorem duplicateEntries_new :
    ∀ record ∈ duplicateEntries.map Prod.fst, ∃ text, record = Record.new text := by
  intro record hr
  simp only [duplicateEntries, List.map_cons, List.map_nil, List.mem_cons, List.not_mem_nil,
    or_false] at hr
  rcases hr with rfl | rfl | rfl <;> exact ⟨_, rfl⟩

theorem duplicateEntries_raises :
    (doUpdate Sample.ctx Sample.conf (fun _ => Faults.none) Sample.zone
      (Sample.www (duplicateEntries.map Prod.fst)) false Sample.world).1 =
        .error .DuplicateRecord := by decide +kernel

theorem duplicateEntries_changes :
    (doUpdate Sample.ctx Sample.conf (fun _ => Faults.none) Sample.zone
      (Sample.www (duplicateEntries.map Prod.fst)) false Sample.world).2.device.changes = 1 := by
  decide +kernel

end Designate
