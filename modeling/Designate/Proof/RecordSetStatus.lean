import Designate.Objects.RecordSet
import Mathlib.Data.List.Induction

/-!
# The status of a recordset

It is meant to be the worst one of its records. The turn that takes a record up unless the
recordset is pending takes one up after a failure as well, so the failure is lost unless it
comes last.
-/

namespace Designate

/-- How bad a status is: `ERROR`, then `PENDING`, then `ACTIVE`. -/
def severity : Option Status → Nat
  | some .ERROR => 2
  | some .PENDING => 1
  | _ => 0

/-- The worst one among some statuses. -/
def IsWorst (statuses : List (Option Status)) (status : Option Status) : Prop :=
  status ∈ statuses ∧ ∀ s ∈ statuses, severity s ≤ severity status

/-- One of the three a record in use can have. -/
def InUse (status : Option Status) : Prop :=
  status = some .ERROR ∨ status = some .PENDING ∨ status = some .ACTIVE

theorem severity_le_error (s : Option Status) : severity s ≤ severity (some .ERROR) := by
  unfold severity
  split <;> omega

theorem severity_lt_error {s : Option Status} (h : s ≠ some .ERROR) :
    severity s < severity (some .ERROR) := by
  unfold severity
  split
  · contradiction
  · omega
  · omega

/-- The loop over statuses. -/
def statusOf (statuses : List (Option Status)) : Option Status :=
  statuses.foldl statusAfter (some .ACTIVE)

theorem RecordSet.status_eq (recordset : RecordSet) :
    recordset.status = statusOf (recordset.records.map fun r => r.status.value) := by
  unfold RecordSet.status statusOf
  rw [List.foldl_map]

variable {statuses : List (Option Status)} {s next : Option Status}

theorem statusOf_snoc (statuses : List (Option Status)) (next : Option Status) :
    statusOf (statuses ++ [next]) = statusAfter (statusOf statuses) next := by
  unfold statusOf
  rw [List.foldl_concat]

theorem statusAfter_error : statusAfter s (some .ERROR) = some .ERROR := if_pos (Or.inl rfl)

/-- A record that has not failed makes a failed recordset what it is itself. -/
theorem statusAfter_ne_error (h : next ≠ some .ERROR) : statusAfter s next ≠ some .ERROR := by
  unfold statusAfter
  split
  · exact h
  · rename_i hstay
    rw [not_or, not_or, not_not] at hstay
    rw [hstay.2.2]
    exact nofun

/-- Without a failure the turn takes the worse of the two. -/
theorem statusAfter_worse (hs : s = some .PENDING ∨ s = some .ACTIVE)
    (hnext : next = some .PENDING ∨ next = some .ACTIVE) :
    statusAfter s next = if severity s < severity next then next else s := by
  rcases hs with rfl | rfl <;> rcases hnext with rfl | rfl <;> rfl

/-- **The recordset is in `ERROR` when its last record is.** -/
theorem statusOf_eq_error :
    statusOf statuses = some .ERROR ↔ statuses.getLast? = some (some .ERROR) := by
  induction statuses using List.reverseRecOn with
  | nil => exact ⟨nofun, nofun⟩
  | append_singleton statuses next _ =>
    rw [statusOf_snoc, List.getLast?_concat]
    by_cases hnext : next = some .ERROR
    · rw [hnext, statusAfter_error]
      exact ⟨fun _ => rfl, fun _ => rfl⟩
    · refine ⟨fun h => absurd h (statusAfter_ne_error hnext), fun h => ?_⟩
      exact absurd (Option.some.inj h) hnext

/-- Without a failure the loop ends with the worst status, or with the one it begins with. -/
theorem statusOf_worst (h : ∀ s ∈ statuses, s = some .PENDING ∨ s = some .ACTIVE) :
    IsWorst (some .ACTIVE :: statuses) (statusOf statuses) := by
  induction statuses using List.reverseRecOn with
  | nil =>
    refine ⟨List.mem_cons_self, fun s hs => ?_⟩
    rw [List.mem_singleton.mp hs]
    exact Nat.le_refl _
  | append_singleton statuses next ih =>
    have hnext := h next (List.mem_append_right _ (List.mem_singleton_self _))
    obtain ⟨hmem, hall⟩ := ih fun s hs => h s (List.mem_append_left _ hs)
    have hstatus : statusOf statuses = some .PENDING ∨ statusOf statuses = some .ACTIVE := by
      rcases List.mem_cons.mp hmem with hactive | hin
      · exact Or.inr hactive
      · exact h _ (List.mem_append_left _ hin)
    rw [statusOf_snoc, statusAfter_worse hstatus hnext]
    -- what was worst so far, against the record that comes now
    split
    · rename_i hlt
      refine ⟨List.mem_cons_of_mem _ (List.mem_append_right _ (List.mem_singleton_self _)), ?_⟩
      intro s hs
      rw [← List.cons_append, List.mem_append, List.mem_singleton] at hs
      rcases hs with hs | rfl
      · have hle := hall s hs
        omega
      · exact Nat.le_refl _
    · rename_i hge
      rw [← List.cons_append]
      refine ⟨List.mem_append_left _ hmem, ?_⟩
      intro s hs
      rw [List.mem_append, List.mem_singleton] at hs
      rcases hs with hs | rfl
      · exact hall s hs
      · omega

/--
**The status of a recordset is the worst of its records' exactly where no record has failed,
or the last one has.**
-/
theorem RecordSet.status_worst_iff (recordset : RecordSet) (hne : recordset.records ≠ [])
    (huse : ∀ r ∈ recordset.records, InUse r.status.value) :
    IsWorst (recordset.records.map fun r => r.status.value) recordset.status ↔
      (∀ r ∈ recordset.records, r.status.value ≠ some .ERROR) ∨
        ∃ r, recordset.records.getLast? = some r ∧ r.status.value = some .ERROR := by
  have hlast : statusOf (recordset.records.map fun r => r.status.value) = some .ERROR ↔
      ∃ r, recordset.records.getLast? = some r ∧ r.status.value = some .ERROR := by
    rw [statusOf_eq_error, List.getLast?_map, Option.map_eq_some_iff]
  rw [RecordSet.status_eq, ← hlast]
  constructor
  · rintro ⟨-, hall⟩
    by_cases herror : statusOf (recordset.records.map fun r => r.status.value) = some .ERROR
    · exact Or.inr herror
    · -- a failed record would be worse than what the loop ends with
      refine Or.inl fun r hr hfailed => ?_
      have hle := hall _ (List.mem_map_of_mem hr)
      have hlt := severity_lt_error herror
      rw [hfailed] at hle
      omega
  · rintro (hnone | herror)
    · have hrest : ∀ s ∈ recordset.records.map fun r => r.status.value,
          s = some .PENDING ∨ s = some .ACTIVE := by
        intro s hs
        obtain ⟨r, hr, rfl⟩ := List.mem_map.mp hs
        rcases huse r hr with h | h
        · exact absurd h (hnone r hr)
        · exact h
      obtain ⟨hmem, hall⟩ := statusOf_worst hrest
      refine ⟨?_, fun s hs => hall s (List.mem_cons_of_mem _ hs)⟩
      rcases List.mem_cons.mp hmem with hactive | hin
      · -- nothing is worse than `ACTIVE`, and there is a record
        obtain ⟨r, rs, hrs⟩ := List.exists_cons_of_ne_nil hne
        have hr : r.status.value ∈ recordset.records.map fun r => r.status.value :=
          List.mem_map_of_mem (hrs ▸ List.mem_cons_self)
        have hle := hall _ (List.mem_cons_of_mem _ hr)
        rw [hactive] at hle ⊢
        rcases hrest _ hr with hpending | hact
        · rw [hpending] at hle
          exact absurd hle (by decide)
        · exact hact ▸ hr
      · exact hin
    · rw [herror]
      have hgot := statusOf_eq_error.mp herror
      exact ⟨List.mem_of_getLast? hgot, fun s _ => severity_le_error s⟩

/-! ## At the sample -/

namespace Sample

/-- A recordset with records of these statuses. -/
def withStatuses (statuses : List Status) : RecordSet :=
  RecordSet.ofRow { id := 1, zoneId := 1, tenantId := none, name := "www.example.org.", type := .A,
                    ttl := none, description := none }
    (statuses.map fun s => { Record.new "192.0.2.1" with status := .loaded s })

end Sample

/-- A pending record and a failed one after it. -/
theorem RecordSet.status_worst_sample :
    IsWorst [some .PENDING, some .ERROR] (Sample.withStatuses [.PENDING, .ERROR]).status :=
  (RecordSet.status_worst_iff (Sample.withStatuses [.PENDING, .ERROR]) (by decide)
    (by unfold InUse; decide)).mpr (Or.inr ⟨_, rfl, rfl⟩)

/-- A failed record and a pending one after it, which hides that it failed. -/
theorem RecordSet.status_hidden :
    ¬ ∀ recordset : RecordSet, recordset.records ≠ [] →
      (∀ r ∈ recordset.records, InUse r.status.value) →
        IsWorst (recordset.records.map fun r => r.status.value) recordset.status := by
  intro h
  have hworst := h (Sample.withStatuses [.ERROR, .PENDING]) (by decide)
    (by unfold InUse; decide)
  have hle : severity (some .ERROR) ≤ severity (some .PENDING) := hworst.2 _ List.mem_cons_self
  exact absurd hle (by decide)

end Designate
