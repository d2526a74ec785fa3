import Mathlib.Data.List.Sort

/-!
# Going through a list by what comes behind a marker

A list is put in order, and what comes strictly behind an element of it is asked for by
comparison alone. In an order that tells the elements apart, that is the rest of the list
behind the element.
-/

namespace Designate

namespace Keyset

variable {α : Type} {le : α → α → Bool}

/-- `x` comes strictly behind `m`. -/
def after (le : α → α → Bool) (m x : α) : Bool := le m x && !le x m

/-- The list in order. -/
def arranged (le : α → α → Bool) (l : List α) : List α := l.mergeSort le

/-- Any two elements can be compared, and comparisons can be chained. -/
structure IsOrder (le : α → α → Bool) : Prop where
  trans : ∀ a b c, le a b = true → le b c = true → le a c = true
  total : ∀ a b, le a b = true ∨ le b a = true

/-- The order tells the elements of the list apart. -/
def Distinct (le : α → α → Bool) (l : List α) : Prop :=
  ∀ a ∈ l, ∀ b ∈ l, le a b = true → le b a = true → a = b

theorem IsOrder.refl (h : IsOrder le) (a : α) : le a a = true := by
  rcases h.total a a with h | h <;> exact h

theorem arranged_perm (l : List α) : (arranged le l).Perm l := List.mergeSort_perm l le

theorem mem_arranged {l : List α} {a : α} : a ∈ arranged le l ↔ a ∈ l :=
  (arranged_perm l).mem_iff

theorem arranged_sorted (h : IsOrder le) (l : List α) :
    (arranged le l).Pairwise fun a b => le a b = true := by
  refine List.pairwise_mergeSort h.trans ?_ l
  intro a b
  rw [Bool.or_eq_true]
  exact h.total a b

theorem Distinct.subset {l l' : List α} (h : Distinct le l) (hs : ∀ a ∈ l', a ∈ l) :
    Distinct le l' := fun a ha b hb => h a (hs a ha) b (hs b hb)

/-- There is one way only to put a list in an order that tells its elements apart. -/
theorem eq_arranged (h : IsOrder le) {l s : List α} (hd : Distinct le l) (hp : s.Perm l)
    (hs : s.Pairwise fun a b => le a b = true) : s = arranged le l := by
  refine List.Perm.eq_of_pairwise ?_ hs (arranged_sorted h l) (hp.trans (arranged_perm l).symm)
  intro a b ha hb
  exact hd a (hp.mem_iff.mp ha) b (mem_arranged.mp hb)

/-- Picking out and putting in order can be done in either order. -/
theorem arranged_filter (h : IsOrder le) {l : List α} (hd : Distinct le l) (p : α → Bool) :
    arranged le (l.filter p) = (arranged le l).filter p := by
  refine (eq_arranged h (hd.subset fun a ha => List.mem_of_mem_filter ha) ?_ ?_).symm
  · exact (arranged_perm l).filter p
  · exact (arranged_sorted h l).sublist List.filter_sublist

/-- **What comes behind an element by comparison is what comes behind it in the list.** -/
theorem filter_after (h : IsOrder le) {pre post : List α} {m : α}
    (hd : Distinct le (pre ++ m :: post)) (hn : (pre ++ m :: post).Nodup)
    (hs : (pre ++ m :: post).Pairwise fun a b => le a b = true) :
    (pre ++ m :: post).filter (after le m) = post := by
  rw [List.pairwise_append, List.pairwise_cons] at hs
  rw [List.nodup_append, List.nodup_cons] at hn
  have hpre : pre.filter (after le m) = [] := by
    rw [List.filter_eq_nil_iff]
    intro x hx
    have hle := hs.2.2 x hx m List.mem_cons_self
    simp [after, hle]
  have hself : after le m m = false := by simp [after, h.refl m]
  have hpost : post.filter (after le m) = post := by
    rw [List.filter_eq_self]
    intro x hx
    have hle := hs.2.1.1 x hx
    have hback : le x m = false := by
      by_contra hcon
      have heq := hd m (by simp) x (by simp [hx]) hle (by simpa using hcon)
      exact hn.2.1.1 (heq ▸ hx)
    simp [after, hle, hback]
  rw [List.filter_append, List.filter_cons_of_neg (by simp [hself]), hpre, hpost, List.nil_append]

/-! ## Rows in the order of a key -/

section Blocks

variable {β : Type} [DecidableEq α] {key : β → α}

/-- In order of the key, the rows of the least key come first. -/
theorem filter_append_filter {rows : List β} {k : α}
    (hs : rows.Pairwise fun a b => le (key a) (key b) = true)
    (hleast : ∀ row ∈ rows, le (key row) k = true → key row = k) :
    rows = rows.filter (fun row => decide (key row = k)) ++
      rows.filter fun row => decide (key row ≠ k) := by
  induction rows with
  | nil => rfl
  | cons row rows ih =>
    rw [List.pairwise_cons] at hs
    have ih := ih hs.2 fun row h => hleast row (List.mem_cons_of_mem _ h)
    by_cases hk : key row = k
    · rw [List.filter_cons_of_pos (by simpa using hk), List.filter_cons_of_neg (by simpa using hk),
        List.cons_append, ← ih]
    · -- behind a row of another key there is none of the least key
      have hnone : rows.filter (fun row => decide (key row = k)) = [] := by
        rw [List.filter_eq_nil_iff]
        intro row' hrow' h
        have hle := hs.1 row' hrow'
        rw [of_decide_eq_true h] at hle
        exact hk (hleast row List.mem_cons_self hle)
      have hall : rows.filter (fun row => decide (key row ≠ k)) = rows := by
        rw [hnone, List.nil_append] at ih
        exact ih.symm
      rw [List.filter_cons_of_neg (by simpa using hk), List.filter_cons_of_pos (by simpa using hk),
        hnone, hall, List.nil_append]

/-- **Rows in the order of a key are the rows of its values, one value after the other.** -/
theorem eq_flatMap_blocks (keys : List α) :
    ∀ {rows : List β}, (rows.Pairwise fun a b => le (key a) (key b) = true) →
      (keys.Pairwise fun a b => le a b = true) → keys.Nodup → Distinct le keys →
      (∀ row ∈ rows, key row ∈ keys) →
      rows = keys.flatMap fun k => rows.filter fun row => decide (key row = k) := by
  induction keys with
  | nil =>
    intro rows _ _ _ _ hcover
    cases rows with
    | nil => rfl
    | cons row rows => exact absurd (hcover row List.mem_cons_self) (by simp)
  | cons k keys ih =>
    intro rows hs hkeys hnodup hd hcover
    rw [List.pairwise_cons] at hkeys
    rw [List.nodup_cons] at hnodup
    -- `k` is the least of the keys, so what is not above it has it
    have hleast : ∀ row ∈ rows, le (key row) k = true → key row = k := by
      intro row hrow hle
      rcases List.mem_cons.mp (hcover row hrow) with h | h
      · exact h
      · exact hd _ (List.mem_cons_of_mem _ h) k List.mem_cons_self hle (hkeys.1 _ h)
    have hrest := ih (hs.sublist List.filter_sublist) hkeys.2 hnodup.2
      (hd.subset fun a ha => List.mem_cons_of_mem _ ha) (by
        intro row hrow
        obtain ⟨hrow, hne⟩ := List.mem_filter.mp hrow
        exact (List.mem_cons.mp (hcover row hrow)).resolve_left (of_decide_eq_true hne))
    -- without the rows of `k`, the blocks of the other keys are the same
    have hblocks : keys.flatMap (fun k' => (rows.filter fun row => decide (key row ≠ k)).filter
          fun row => decide (key row = k')) =
        keys.flatMap fun k' => rows.filter fun row => decide (key row = k') := by
      refine List.flatMap_congr ?_
      intro k' hk'
      rw [List.filter_filter]
      refine List.filter_congr ?_
      intro row _
      by_cases h : key row = k'
      · have hne : k' ≠ k := fun he => hnodup.1 (he ▸ hk')
        simp [h, hne]
      · simp [h]
    rw [List.flatMap_cons, ← hblocks, ← hrest]
    exact filter_append_filter hs hleast

/-- Among rows made for each value of a list, those of one value are the ones made for it. -/
theorem filter_flatMap_key {l : List α} (hl : l.Nodup) {f : α → List β}
    (hf : ∀ a, ∀ row ∈ f a, key row = a) {k : α} (hk : k ∈ l) :
    (l.flatMap f).filter (fun row => decide (key row = k)) = f k := by
  have hself : ∀ a, a = k → (f a).filter (fun row => decide (key row = k)) = f a := by
    intro a ha
    rw [List.filter_eq_self]
    intro row hrow
    exact decide_eq_true ((hf a row hrow).trans ha)
  have hother : ∀ a, a ≠ k → (f a).filter (fun row => decide (key row = k)) = [] := by
    intro a ha
    rw [List.filter_eq_nil_iff]
    intro row hrow h
    exact ha ((hf a row hrow).symm.trans (of_decide_eq_true h))
  induction l with
  | nil => exact absurd hk (by simp)
  | cons a l ih =>
    rw [List.nodup_cons] at hl
    rw [List.flatMap_cons, List.filter_append]
    rcases List.mem_cons.mp hk with rfl | hk
    · -- the keys are distinct, so no later block has rows of this one
      have hrest : (l.flatMap f).filter (fun row => decide (key row = k)) = [] := by
        rw [List.filter_eq_nil_iff]
        intro row hrow h
        obtain ⟨a, ha, hrow⟩ := List.mem_flatMap.mp hrow
        exact hl.1 (((hf a row hrow).symm.trans (of_decide_eq_true h)) ▸ ha)
      rw [hself k rfl, hrest, List.append_nil]
    · have hne : a ≠ k := fun he => hl.1 (he ▸ hk)
      rw [hother a hne, ih hl.2 hk, List.nil_append]

end Blocks

end Keyset

end Designate
