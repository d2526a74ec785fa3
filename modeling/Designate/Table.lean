import Mathlib.Data.List.Nodup
import Mathlib.Data.List.Perm.Basic

/-!
# Tables: lists of rows under a key

A table is a list of rows and a key function. Keyed access asks for exactly one
row, an update rewrites the rows under a key in place, a removal drops them.
The facts below say what each does to membership and to the uniqueness of keys.
-/

namespace Designate

namespace Table

variable {α κ ε : Type}

/-- The only element of a list; any other number of elements is an error. -/
def one (l : List α) (e : ε) : Except ε α :=
  match l with
  | [a] => .ok a
  | _ => .error e

variable [DecidableEq κ]

/-- The one row under the key `k` that satisfies `p`. -/
def find (key : α → κ) (k : κ) (p : α → Bool) (e : ε) (l : List α) : Except ε α :=
  one (l.filter fun a => decide (key a = k) && p a) e

/-- Rewrite the rows under the key `k`. -/
def update (key : α → κ) (k : κ) (f : α → α) (l : List α) : List α :=
  l.map fun a => if key a = k then f a else a

/-- Drop the rows under the key `k`. -/
def remove (key : α → κ) (k : κ) (l : List α) : List α :=
  l.filter fun a => key a ≠ k

omit [DecidableEq κ] in
/--
Up the references of the rows, from `current` to the first that leads to no row of `row`. Only so
many rows are passed, as the references may go around in a circle: `e` says that there were more.
-/
def walkUp (row : κ → Option α) (parent : α → κ) (e : ε) : Nat → α → Except ε κ
  | 0, _ => .error e
  | steps + 1, current =>
    match row (parent current) with
    | none => .ok (parent current)
    | some above => walkUp row parent e steps above

variable {key : α → κ}

theorem one_eq_ok {l : List α} {e : ε} {a : α} : one l e = .ok a ↔ l = [a] := by
  unfold one
  split
  · simp
  · rename_i h
    constructor
    · intro h'; exact absurd h' (by simp)
    · intro h'; exact absurd h' (h a)

theorem one_eq_error {l : List α} {e e' : ε} (h : one l e = .error e') : e' = e := by
  unfold one at h
  split at h
  · exact absurd h (by simp)
  · simpa using h.symm

/-! ## Access -/

omit [DecidableEq κ] in
/-- One row satisfies a condition when it does and no other row does. -/
theorem one_filter_iff {l : List α} (hl : l.Nodup) {p : α → Bool} {e : ε} {a : α} :
    one (l.filter p) e = .ok a ↔ a ∈ l ∧ p a = true ∧ ∀ b ∈ l, p b = true → b = a := by
  rw [one_eq_ok]
  constructor
  · intro h
    have hmem : a ∈ l.filter p := h ▸ List.mem_singleton_self a
    obtain ⟨ha, hp⟩ := List.mem_filter.mp hmem
    refine ⟨ha, hp, ?_⟩
    intro b hb hpb
    have hb' : b ∈ l.filter p := List.mem_filter.mpr ⟨hb, hpb⟩
    rw [h] at hb'
    exact List.mem_singleton.mp hb'
  · intro h
    obtain ⟨ha, hp, hunique⟩ := h
    -- without duplicates, a list with the same members is the same up to order
    refine List.perm_singleton.mp ?_
    rw [List.perm_ext_iff_of_nodup (hl.filter p) (List.nodup_singleton a)]
    intro b
    rw [List.mem_filter, List.mem_singleton]
    constructor
    · intro hb
      exact hunique b hb.1 hb.2
    · intro hb
      exact hb ▸ ⟨ha, hp⟩

/-- Under unique keys, the rows of a key are the one row that has it. -/
theorem filter_key {l : List α} (hl : (l.map key).Nodup) {a : α} (ha : a ∈ l) :
    l.filter (fun b => decide (key b = key a)) = [a] := by
  induction l with
  | nil => exact absurd ha (by simp)
  | cons b l ih =>
    rw [List.map_cons, List.nodup_cons] at hl
    rcases List.mem_cons.mp ha with rfl | ha'
    · have hrest : l.filter (fun b => decide (key b = key a)) = [] := by
        rw [List.filter_eq_nil_iff]
        intro c hc h
        exact hl.1 (of_decide_eq_true h ▸ List.mem_map_of_mem hc)
      simp [hrest]
    · have hne : key b ≠ key a := fun h => hl.1 (h ▸ List.mem_map_of_mem ha')
      rw [List.filter_cons_of_neg (by simpa using hne)]
      exact ih hl.2 ha'

theorem find_mem {k : κ} {p : α → Bool} {e : ε} {l : List α} {a : α}
    (h : find key k p e l = .ok a) : a ∈ l ∧ key a = k ∧ p a = true := by
  have hmem : a ∈ l.filter fun a => decide (key a = k) && p a := by
    rw [one_eq_ok.mp h]; exact List.mem_singleton.mpr rfl
  rw [List.mem_filter] at hmem
  simpa using hmem

/-- What is found is the only row the access could have found. -/
theorem find_unique {k : κ} {p : α → Bool} {e : ε} {l : List α} {a b : α}
    (h : find key k p e l = .ok a) (hb : b ∈ l) (hk : key b = k) (hp : p b = true) : b = a := by
  have hmem : b ∈ l.filter fun a => decide (key a = k) && p a :=
    List.mem_filter.mpr ⟨hb, by simp [hk, hp]⟩
  rw [one_eq_ok.mp h] at hmem
  exact List.mem_singleton.mp hmem

/-- Keyed access finds every row whose key is unique, if the condition lets it through. -/
theorem find_of_mem {k : κ} {p : α → Bool} {e : ε} {l : List α} {a : α}
    (hl : (l.map key).Nodup) (ha : a ∈ l) (hk : key a = k) (hp : p a = true) :
    find key k p e l = .ok a := by
  subst hk
  unfold find
  rw [one_eq_ok]
  have h : (l.filter fun b => decide (key b = key a)).filter p = [a] := by
    rw [filter_key hl ha]; simp [hp]
  rw [← h, List.filter_filter]
  exact List.filter_congr fun b _ => Bool.and_comm _ _

theorem find_error {k : κ} {p : α → Bool} {e e' : ε} {l : List α}
    (h : find key k p e l = .error e') : e' = e := one_eq_error h

/-- A row appended under a new key is found. -/
theorem find_append_new (key : α → κ) {p : α → Bool} {e : ε} {l : List α} {a : α}
    (h : ∀ b ∈ l, key b ≠ key a) (hp : p a = true) : find key (key a) p e (l ++ [a]) = .ok a := by
  unfold find
  rw [one_eq_ok, List.filter_append]
  have hnone : l.filter (fun b => decide (key b = key a) && p b) = [] := by
    rw [List.filter_eq_nil_iff]
    intro b hb
    simp [h b hb]
  rw [hnone]
  simp [hp]

/-- Under unique keys two rows with one key are one row. -/
theorem eq_of_key {l : List α} (hl : (l.map key).Nodup) {a b : α} (ha : a ∈ l) (hb : b ∈ l)
    (h : key a = key b) : a = b := by
  have h₁ := filter_key hl ha
  have h₂ := filter_key hl hb
  rw [h] at h₁
  exact (List.cons.inj (h₁.symm.trans h₂)).1

/-! ## Removal -/

@[simp] theorem mem_remove {k : κ} {l : List α} {a : α} :
    a ∈ remove key k l ↔ a ∈ l ∧ key a ≠ k := by
  simp [remove]

theorem mem_map_remove {k k' : κ} {l : List α} :
    k' ∈ (remove key k l).map key ↔ k' ∈ l.map key ∧ k' ≠ k := by
  simp only [List.mem_map, mem_remove]
  constructor
  · rintro ⟨a, ⟨ha, hne⟩, rfl⟩
    exact ⟨⟨a, ha, rfl⟩, hne⟩
  · rintro ⟨⟨a, ha, rfl⟩, hne⟩
    exact ⟨a, ⟨ha, hne⟩, rfl⟩

theorem remove_nodup {k : κ} {l : List α} (h : (l.map key).Nodup) :
    ((remove key k l).map key).Nodup :=
  h.sublist (List.Sublist.map _ List.filter_sublist)

theorem remove_of_not_mem {k : κ} {l : List α} (h : ∀ a ∈ l, key a ≠ k) : remove key k l = l := by
  unfold remove
  rw [List.filter_eq_self]
  intro a ha
  simpa using h a ha

/-- Removal by one key after the other. -/
theorem foldl_remove {ι : Type} (f : ι → κ) (gone : List ι) (l : List α) :
    gone.foldl (fun l i => remove key (f i) l) l = l.filter fun a => key a ∉ gone.map f := by
  induction gone generalizing l with
  | nil => simp
  | cons i gone ih =>
    rw [List.foldl_cons, ih, remove, List.filter_filter]
    refine List.filter_congr fun a _ => ?_
    by_cases h : key a = f i <;> simp [h]

/-- Keyed access does not see that the rows of another key go. -/
theorem find_remove {k k' : κ} {p : α → Bool} {e : ε} {l : List α} (h : k ≠ k') :
    find key k p e (remove key k' l) = find key k p e l := by
  unfold find remove
  rw [List.filter_filter]
  congr 1
  refine List.filter_congr fun a _ => ?_
  by_cases hk : key a = k
  · simp [hk, h]
  · simp [hk]

/-- Dropping a row that was just appended. -/
theorem remove_append_self {l : List α} {a : α} (h : ∀ b ∈ l, key b ≠ key a) :
    remove key (key a) (l ++ [a]) = l := by
  have := remove_of_not_mem h
  unfold remove at this ⊢
  rw [List.filter_append, this]
  simp

/-- Under unique keys a row goes from the middle of the others. -/
theorem remove_middle {l₁ l₂ : List α} {a : α} (h : ((l₁ ++ a :: l₂).map key).Nodup) :
    remove key (key a) (l₁ ++ a :: l₂) = l₁ ++ l₂ := by
  rw [List.map_append, List.map_cons, List.nodup_middle, List.nodup_cons] at h
  have hne : ∀ b ∈ l₁ ++ l₂, key b ≠ key a := by
    intro b hb he
    refine h.1 ?_
    rw [← he, ← List.map_append]
    exact List.mem_map_of_mem hb
  have hfront := remove_of_not_mem fun b hb => hne b (List.mem_append_left l₂ hb)
  have hback := remove_of_not_mem fun b hb => hne b (List.mem_append_right l₁ hb)
  unfold remove at hfront hback ⊢
  rw [List.filter_append, List.filter_cons_of_neg (by simp), hfront, hback]

/-- Under unique keys the first row under the key of a row is the row. -/
theorem find?_of_mem {l : List α} {a : α} (hl : (l.map key).Nodup) (ha : a ∈ l) :
    l.find? (fun b => key b == key a) = some a := by
  cases hfind : l.find? fun b => key b == key a with
  | none => exact absurd (beq_self_eq_true _) (List.find?_eq_none.mp hfind a ha)
  | some b =>
    have hkey : key b = key a := by simpa using List.find?_some hfind
    rw [eq_of_key hl (List.mem_of_find?_eq_some hfind) ha hkey]

/-! ## Update -/

theorem mem_update {k : κ} {f : α → α} {l : List α} {b : α} :
    b ∈ update key k f l ↔ (b ∈ l ∧ key b ≠ k) ∨ ∃ a ∈ l, key a = k ∧ b = f a := by
  unfold update
  rw [List.mem_map]
  constructor
  · rintro ⟨a, ha, rfl⟩
    by_cases h : key a = k
    · rw [if_pos h]; exact Or.inr ⟨a, ha, h, rfl⟩
    · rw [if_neg h]; exact Or.inl ⟨ha, h⟩
  · rintro (⟨hb, h⟩ | ⟨a, ha, h, rfl⟩)
    · exact ⟨b, hb, if_neg h⟩
    · exact ⟨a, ha, if_pos h⟩

/-- An update that keeps the keys keeps the list of keys. -/
theorem map_update {β : Type} {g : α → β} {k : κ} {f : α → α} {l : List α}
    (h : ∀ a ∈ l, key a = k → g (f a) = g a) : (update key k f l).map g = l.map g := by
  unfold update
  rw [List.map_map]
  refine List.map_congr_left fun a ha => ?_
  simp only [Function.comp_apply]
  by_cases hk : key a = k
  · rw [if_pos hk, h a ha hk]
  · rw [if_neg hk]

theorem update_id {k : κ} {f : α → α} {l : List α} (h : ∀ a ∈ l, key a = k → f a = a) :
    update key k f l = l := by
  unfold update
  conv_rhs => rw [← List.map_id l]
  refine List.map_congr_left fun a ha => ?_
  by_cases hk : key a = k
  · rw [if_pos hk, h a ha hk]; rfl
  · rw [if_neg hk]; rfl

theorem update_append {k : κ} {f : α → α} {l₁ l₂ : List α} :
    update key k f (l₁ ++ l₂) = update key k f l₁ ++ update key k f l₂ := by
  simp [update]

/-- Two updates under one key, the first of which keeps it. -/
theorem update_update {k : κ} {f g : α → α} {l : List α}
    (h : ∀ a, key a = k → key (g a) = k) :
    update key k f (update key k g l) = update key k (fun a => f (g a)) l := by
  unfold update
  rw [List.map_map]
  refine List.map_congr_left fun a _ => ?_
  simp only [Function.comp_apply]
  by_cases hk : key a = k
  · rw [if_pos hk, if_pos hk, if_pos (h a hk)]
  · rw [if_neg hk, if_neg hk, if_neg hk]

/-- The one row under a key, rewritten to `b` under the same key, is `b`. -/
theorem find_update_self {k : κ} {e : ε} {l : List α} {a b : α}
    (h : find key k (fun _ => true) e l = .ok a) (hb : key b = k) :
    find key k (fun _ => true) e (update key k (fun _ => b) l) = .ok b := by
  unfold find at *
  rw [one_eq_ok] at *
  simp only [Bool.and_true] at *
  -- whichever rows have the key are all rewritten, and there is one
  have hmap : (update key k (fun _ => b) l).filter (fun c => decide (key c = k)) =
      (l.filter fun c => decide (key c = k)).map fun _ => b := by
    clear h
    induction l with
    | nil => rfl
    | cons c l ih =>
      simp only [update, List.map_cons] at ih ⊢
      by_cases hc : key c = k
      · rw [if_pos hc, List.filter_cons_of_pos (by simpa using hb),
          List.filter_cons_of_pos (by simpa using hc), List.map_cons, ih]
      · rw [if_neg hc, List.filter_cons_of_neg (by simpa using hc),
          List.filter_cons_of_neg (by simpa using hc), ih]
  rw [hmap, h]
  rfl

/-! ## What a selection sees of a change elsewhere -/

theorem filter_update {q : α → Bool} {k : κ} {f : α → α} {l : List α}
    (h : ∀ a ∈ l, key a = k → q a = false ∧ q (f a) = false) :
    (update key k f l).filter q = l.filter q := by
  induction l with
  | nil => rfl
  | cons a l ih =>
    have ih' := ih fun b hb => h b (List.mem_cons_of_mem a hb)
    simp only [update, List.map_cons] at ih' ⊢
    by_cases hk : key a = k
    · obtain ⟨h₁, h₂⟩ := h a List.mem_cons_self hk
      rw [if_pos hk, List.filter_cons_of_neg (by simp [h₂]), List.filter_cons_of_neg (by simp [h₁]),
        ih']
    · rw [if_neg hk, List.filter_cons, List.filter_cons, ih']

theorem filter_remove {q : α → Bool} {k : κ} {l : List α}
    (h : ∀ a ∈ l, key a = k → q a = false) : (remove key k l).filter q = l.filter q := by
  unfold remove
  rw [List.filter_filter]
  refine List.filter_congr fun a ha => ?_
  by_cases hk : key a = k
  · simp [h a ha hk]
  · simp [hk]

/-! ## Appending a row under a new key -/

omit [DecidableEq κ] in
theorem append_nodup {l : List α} {a : α} (hl : (l.map key).Nodup) (h : ∀ b ∈ l, key b ≠ key a) :
    ((l ++ [a]).map key).Nodup := by
  rw [List.map_append, List.nodup_append]
  refine ⟨hl, by simp, ?_⟩
  intro x hx y hy hxy
  obtain ⟨b, hb, rfl⟩ := List.mem_map.mp hx
  simp only [List.map_cons, List.map_nil, List.mem_singleton] at hy
  exact h b hb (hxy.trans hy)

/-- Other keys stay unique when one row is replaced by one whose key nobody else has. -/
theorem update_nodup {β : Type} {g : α → β} {l : List α} {a b : α} (hl : (l.map key).Nodup)
    (hg : (l.map g).Nodup) (ha : a ∈ l) (h : ∀ c ∈ l, key c ≠ key a → g c ≠ g b) :
    ((update key (key a) (fun _ => b) l).map g).Nodup := by
  induction l with
  | nil => exact List.nodup_nil
  | cons c l ih =>
    rw [List.map_cons, List.nodup_cons] at hl hg
    have hrest : ∀ d ∈ l, key d ≠ key a → g d ≠ g b := fun d hd => h d (List.mem_cons_of_mem c hd)
    simp only [update, List.map_cons] at ih ⊢
    rw [List.nodup_cons]
    by_cases hc : key c = key a
    · -- no row of the rest has the key
      have hne : ∀ d ∈ l, key d ≠ key a := fun d hd he =>
        hl.1 (hc.symm ▸ he ▸ List.mem_map_of_mem hd)
      have hid : l.map (fun d => if key d = key a then b else d) = l :=
        update_id (f := fun _ => b) fun d hd he => absurd he (hne d hd)
      rw [if_pos hc, hid]
      refine ⟨fun hm => ?_, hg.2⟩
      obtain ⟨d, hd, he⟩ := List.mem_map.mp hm
      exact hrest d hd (hne d hd) he
    · have ha' : a ∈ l := (List.mem_cons.mp ha).resolve_left fun e => hc (e ▸ rfl)
      rw [if_neg hc]
      refine ⟨fun hm => ?_, ih hl.2 hg.2 ha' hrest⟩
      obtain ⟨d, hd, he⟩ := List.mem_map.mp hm
      obtain ⟨e, hel, rfl⟩ := List.mem_map.mp hd
      by_cases hek : key e = key a
      · rw [if_pos hek] at he
        exact h c List.mem_cons_self hc he.symm
      · rw [if_neg hek] at he
        exact hg.1 (he ▸ List.mem_map_of_mem hel)

/-! ## Rewriting row after row -/

/-- Each of some rows rewrites the row under its key. -/
theorem foldl_update {f : α → α → α} (hf : ∀ i r, key (f i r) = key r) {rows : List α}
    (hrows : (rows.map key).Nodup) (l : List α) :
    rows.foldl (fun l i => update key (key i) (f i) l) l =
      l.map fun r => ((rows.find? fun i => decide (key i = key r)).elim r fun i => f i r) := by
  induction rows generalizing l with
  | nil => simp
  | cons i rows ih =>
    rw [List.map_cons, List.nodup_cons] at hrows
    rw [List.foldl_cons, ih hrows.2]
    unfold update
    rw [List.map_map]
    refine List.map_congr_left fun r _ => ?_
    simp only [Function.comp_apply]
    by_cases hk : key r = key i
    · -- no later row has the key
      have hnone : rows.find? (fun j => decide (key j = key (f i r))) = none := by
        rw [List.find?_eq_none]
        intro j hj hkey
        refine hrows.1 (List.mem_map.mpr ⟨j, hj, ?_⟩)
        rw [of_decide_eq_true hkey, hf, hk]
      rw [if_pos hk, hnone, List.find?_cons_of_pos (by simpa using hk.symm)]
      rfl
    · rw [if_neg hk, List.find?_cons_of_neg (by simpa using fun h => hk h.symm)]

/-- All rows, read in any order, each rewrite themselves. -/
theorem foldl_update_perm {f : α → α → α} (hf : ∀ i r, key (f i r) = key r) {rows l : List α}
    (hperm : rows.Perm l) (hl : (l.map key).Nodup) :
    rows.foldl (fun l i => update key (key i) (f i) l) l = l.map fun r => f r r := by
  have hrows : (rows.map key).Nodup := (hperm.map key).nodup_iff.mpr hl
  rw [foldl_update hf hrows]
  refine List.map_congr_left fun r hr => ?_
  have hmem : r ∈ rows := hperm.mem_iff.mpr hr
  cases hfind : rows.find? fun i => decide (key i = key r) with
  | none =>
    have := List.find?_eq_none.mp hfind r hmem
    exact absurd (decide_eq_true rfl) this
  | some i =>
    have hkey : key i = key r := by simpa using List.find?_some hfind
    rw [eq_of_key hrows (List.mem_of_find?_eq_some hfind) hmem hkey]
    rfl

/-- A sort by a key leaves the elements under one key in their order. -/
theorem filter_mergeSort_key (l : List α) (rank : α → Nat) (k : Nat) :
    (l.mergeSort fun a b => decide (rank a ≤ rank b)).filter (fun a => rank a == k) =
      l.filter fun a => rank a == k := by
  have hperm := List.mergeSort_perm l fun a b => decide (rank a ≤ rank b)
  -- those of one key are in order among themselves, so a stable sort keeps them as a sublist
  have hsame : (l.filter fun a => rank a == k).Pairwise fun a b =>
      decide (rank a ≤ rank b) = true := by
    refine List.pairwise_of_forall_mem_list ?_
    intro a ha b hb
    have ha := (List.mem_filter.mp ha).2
    have hb := (List.mem_filter.mp hb).2
    simp only [beq_iff_eq] at ha hb
    simp [ha, hb]
  have hsub : (l.filter fun a => rank a == k).Sublist
      (l.mergeSort fun a b => decide (rank a ≤ rank b)) := by
    refine List.sublist_mergeSort ?_ ?_ hsame List.filter_sublist
    · intro a b c hab hbc
      simp only [decide_eq_true_eq] at *
      omega
    · intro a b
      simp only [Bool.or_eq_true, decide_eq_true_eq]
      omega
  have hfiltered := hsub.filter fun a => rank a == k
  rw [List.filter_filter] at hfiltered
  simp only [Bool.and_self] at hfiltered
  -- and a permutation has no more of them
  exact (hfiltered.eq_of_length (hperm.filter _).length_eq.symm).symm

end Table

end Designate
