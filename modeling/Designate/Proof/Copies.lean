import Designate.Proof.Deepcopy

/-!
# Copies in a heap

A copy is made of new cells only, and leads to new cells only. Whatever can be read where it was
made from can be read from it as the copy of that value, however deep, whether the parts are
copied or found in the memo. Since nothing of the object is reached from its copy, no change of
the copy is seen in the object.
-/

namespace Designate

namespace Objects

open Heap

variable {α β τ : Type}

/-! ## Reading -/

theorem mapM_eq_some_iff {f : α → Option β} {l : List α} {m : List β} :
    l.mapM f = some m ↔ List.Forall₂ (fun a b => f a = some b) l m := by
  induction l generalizing m with
  | nil => simp [eq_comm]
  | cons a l ih =>
    rw [List.mapM_cons]
    -- the head fails, a later one does, or none
    cases ha : f a with
    | none =>
      constructor
      · intro h
        exact absurd h (by simp)
      · intro h
        cases h with
        | cons hab _ => exact absurd (ha.symm.trans hab) (by simp)
    | some b =>
      cases hl : l.mapM f with
      | none =>
        constructor
        · intro h
          exact absurd h (by simp)
        · intro h
          cases h with
          | cons _ hrest => exact absurd (hl.symm.trans (ih.mpr hrest)) (by simp)
      | some bs =>
        constructor
        · intro h
          obtain rfl := Option.some.inj h
          exact .cons ha (ih.mp hl)
        · intro h
          cases h with
          | cons hab hrest =>
            obtain rfl := Option.some.inj (ha.symm.trans hab)
            obtain rfl := Option.some.inj (hl.symm.trans (ih.mpr hrest))
            rfl

/-- Two entries under one name, with related values. -/
def Entry (R : α → β → Prop) (p : String × α) (q : String × β) : Prop :=
  q.1 = p.1 ∧ R p.2 q.2

theorem forEntries_eq_some_iff {f : α → Option β} {entries : List (String × α)}
    {values : List (String × β)} :
    forEntries f entries = some values ↔
      List.Forall₂ (Entry fun a b => f a = some b) entries values := by
  unfold forEntries
  rw [mapM_eq_some_iff]
  have hentry : (fun (p : String × α) (q : String × β) =>
      ((f p.2).map fun b => (p.1, b)) = some q) = Entry fun a b => f a = some b := by
    funext p q
    obtain ⟨name, b⟩ := q
    simp only [Entry, Option.map_eq_some_iff, Prod.mk.injEq, eq_iff_iff]
    constructor
    · intro ⟨b', hb, hname, hvalue⟩
      subst hvalue
      exact ⟨hname.symm, hb⟩
    · intro ⟨hname, hb⟩
      exact ⟨b, hb, hname.symm, rfl⟩
  rw [hentry]

/-- The cells of one heap are in the other. -/
def Extends (h h' : List (Cell τ)) : Prop :=
  ∀ (a : Nat) (c : Cell τ), h[a]? = some c → h'[a]? = some c

theorem extends_of_grows {h h' : List (Cell τ)} (hpre : h <+: h') : Extends h h' := by
  obtain ⟨more, rfl⟩ := hpre
  intro a c hc
  have hlt : a < h.length := (List.getElem?_eq_some_iff.mp hc).1
  rw [List.getElem?_append_left hlt, hc]

theorem extends_of_sameBelow {h h' : List (Cell τ)} (hsame : SameBelow h.length h h') :
    Extends h h' := by
  intro a c hc
  rw [hsame a (List.getElem?_eq_some_iff.mp hc).1, hc]

/-- What is read is read in a larger heap as well, and if one may go deeper. -/
theorem read_mono {h h' : List (Cell τ)} (hext : Extends h h') {n m : Nat} (hle : n ≤ m)
    {s : Slot τ} {v : Val τ} (hread : read h n s = some v) : read h' m s = some v := by
  induction n generalizing m s v with
  | zero =>
    cases s with
    | prim p =>
      rw [read] at hread ⊢
      exact hread
    | ref a => exact absurd hread (by simp [read])
  | succ n ih =>
    cases s with
    | prim p =>
      rw [read] at hread ⊢
      exact hread
    | ref a =>
      obtain ⟨m, rfl⟩ : ∃ k, m = k + 1 := ⟨m - 1, by omega⟩
      -- what a cell holds is read one level down, by the induction hypothesis
      have hslots : ∀ (slots : List (Slot τ)) vs, slots.mapM (read h n) = some vs →
          slots.mapM (read h' m) = some vs := by
        intro slots vs hvs
        rw [mapM_eq_some_iff] at hvs ⊢
        exact hvs.imp fun _ _ hv => ih (by omega) hv
      have hentries : ∀ (entries : List (String × Slot τ)) vs,
          forEntries (read h n) entries = some vs →
          forEntries (read h' m) entries = some vs := by
        intro entries vs hvs
        rw [forEntries_eq_some_iff] at hvs ⊢
        exact hvs.imp fun _ _ hv => ⟨hv.1, ih (by omega) hv.2⟩
      rw [read] at hread ⊢
      cases hcell : h[a]? with
      | none => simp [hcell] at hread
      | some cell =>
        rw [hcell] at hread
        rw [hext a cell hcell]
        cases cell with
        | list items =>
          obtain ⟨vs, hvs, rfl⟩ := Option.map_eq_some_iff.mp hread
          simp [hslots items vs hvs]
        | tuple items =>
          obtain ⟨vs, hvs, rfl⟩ := Option.map_eq_some_iff.mp hread
          simp [hslots items vs hvs]
        | dict entries =>
          obtain ⟨vs, hvs, rfl⟩ := Option.map_eq_some_iff.mp hread
          simp [hentries entries vs hvs]
        | obj cls fields changes originals =>
          simp only [Option.bind_eq_bind, Option.bind_eq_some_iff] at hread ⊢
          obtain ⟨fs, hfs, os, hos, hv⟩ := hread
          exact ⟨fs, hentries fields fs hfs, os, hentries originals os hos, hv⟩

/-- A slot holds one value. -/
theorem read_unique {h : List (Cell τ)} {n m : Nat} {s : Slot τ} {v w : Val τ}
    (hv : read h n s = some v) (hw : read h m s = some w) : v = w := by
  have hext : Extends h h := fun _ _ hc => hc
  obtain hle | hle := Nat.le_total n m
  · exact Option.some.inj ((read_mono hext hle hv).symm.trans hw)
  · exact Option.some.inj (hv.symm.trans (read_mono hext hle hw))

/-- Only an empty list is read as one. -/
theorem read_nil {h : List (Cell τ)} {n : Nat} {s : Slot τ} (hread : read h n s = some (.list [])) :
    ∃ a, s = .ref a ∧ h[a]? = some (.list []) := by
  cases n with
  | zero => cases s <;> simp [read] at hread
  | succ n =>
    cases s with
    | prim p => simp [read] at hread
    | ref a =>
      rw [read] at hread
      refine ⟨a, rfl, ?_⟩
      cases hcell : h[a]? with
      | none => simp [hcell] at hread
      | some cell =>
        rw [hcell] at hread
        -- of the cells only a list is read as a list
        cases cell with
        | list items =>
          obtain ⟨vs, hvs, hnil⟩ := Option.map_eq_some_iff.mp hread
          obtain rfl := Val.list.inj hnil
          rw [mapM_eq_some_iff] at hvs
          cases hvs
          rfl
        | tuple items => simp at hread
        | dict entries => simp at hread
        | obj cls fields changes originals =>
          simp [Option.bind_eq_some_iff] at hread

theorem read_nil_cell {h : List (Cell τ)} {a : Nat} (hcell : h[a]? = some (.list [])) (n : Nat) :
    read h (n + 1) (.ref a) = some (.list []) := by
  simp [read, hcell]

/-! ## Related dicts -/

variable {R : α → β → Prop} {values : List (String × α)} {more : List (String × β)}

theorem lookup_named {R : String → α → β → Prop}
    (h : List.Forall₂ (fun p q => q.1 = p.1 ∧ R p.1 p.2 q.2) values more) (field : String) :
    (values.lookup field = none ∧ more.lookup field = none) ∨
      ∃ a b, values.lookup field = some a ∧ more.lookup field = some b ∧ R field a b := by
  induction h with
  | nil => exact .inl ⟨rfl, rfl⟩
  | @cons p q values more hpq _ ih =>
    obtain ⟨name, a⟩ := p
    obtain ⟨name', b⟩ := q
    obtain ⟨hname, hab⟩ := hpq
    obtain rfl : name' = name := hname
    rw [List.lookup_cons, List.lookup_cons]
    cases hfield : field == name' with
    | true =>
      obtain rfl := beq_iff_eq.mp hfield
      exact .inr ⟨a, b, rfl, rfl, hab⟩
    | false => exact ih

theorem lookup_rel (h : List.Forall₂ (Entry R) values more) (field : String) :
    (values.lookup field = none ∧ more.lookup field = none) ∨
      ∃ a b, values.lookup field = some a ∧ more.lookup field = some b ∧ R a b :=
  lookup_named (R := fun _ => R) h field

theorem ordered_rel (cls : Cls) (h : List.Forall₂ (Entry R) values more) :
    List.Forall₂ (Entry R) (ordered cls values) (ordered cls more) := by
  unfold ordered
  induction cls.fields with
  | nil => exact .nil
  | cons field fields ih =>
    rw [List.filterMap_cons, List.filterMap_cons]
    obtain ⟨ha, hb⟩ | ⟨a, b, ha, hb, hab⟩ := lookup_rel h field
    · rw [ha, hb]
      exact ih
    · rw [ha, hb]
      exact .cons ⟨rfl, hab⟩ ih

theorem keys_rel (h : List.Forall₂ (Entry R) values more) :
    more.map Prod.fst = values.map Prod.fst := by
  induction h with
  | nil => rfl
  | cons hpq _ ih => rw [List.map_cons, List.map_cons, ih, hpq.1]

theorem filter_rel (h : List.Forall₂ (Entry R) values more) :
    List.Forall₂ (Entry R) (values.filter fun p => p.1 ≠ "objects")
      (more.filter fun p => p.1 ≠ "objects") := by
  induction h with
  | nil => exact .nil
  | @cons p q values more hpq _ ih =>
    by_cases hp : p.1 = "objects"
    · rw [List.filter_cons_of_neg (by simpa using hp),
        List.filter_cons_of_neg (by simpa [hpq.1] using hp)]
      exact ih
    · rw [List.filter_cons_of_pos (by simpa using hp),
        List.filter_cons_of_pos (by simpa [hpq.1] using hp)]
      exact .cons hpq ih

/-- Instances built from related values are related, if the empty lists are recognised alike. -/
theorem build_rel (same : α → α → Bool) (same' : β → β → Bool) {nil : α} {nil' : β} (cls : Cls)
    (hnil : R nil nil') (hsame : ∀ a b, R a b → same a nil = same' b nil')
    (hnodup : (values.map Prod.fst).Nodup) (h : List.Forall₂ (Entry R) values more) :
    List.Forall₂ (Entry R) (Attrs.build same nil cls values).fields
        (Attrs.build same' nil' cls more).fields ∧
      List.Forall₂ (Entry R) (Attrs.build same nil cls values).originals
        (Attrs.build same' nil' cls more).originals := by
  have hnodup' : (more.map Prod.fst).Nodup := by rwa [keys_rel h]
  rw [(Attrs.build_eq same nil cls hnodup).1, (Attrs.build_eq same nil cls hnodup).2,
    (Attrs.build_eq same' nil' cls hnodup').1, (Attrs.build_eq same' nil' cls hnodup').2]
  by_cases hlist : cls.list = true
  · rw [if_pos hlist, if_pos hlist]
    obtain ⟨ha, hb⟩ | ⟨a, b, ha, hb, hab⟩ := lookup_rel h "objects"
    · rw [ha, hb]
      exact ⟨.cons ⟨rfl, hnil⟩ (filter_rel h), by simp⟩
    · rw [ha, hb]
      refine ⟨.cons ⟨rfl, hab⟩ (filter_rel h), ?_⟩
      simp only [hlist, Option.any_some, hsame a b hab]
      -- the empty list is set first; setting the items records it as their original
      cases same' b nil' with
      | true => simp
      | false => exact .cons ⟨rfl, hnil⟩ .nil
  · rw [if_neg hlist, if_neg hlist]
    exact ⟨h, by simp [hlist]⟩

/-! ## Copying -/

variable [DecidableEq τ] {h : List (Cell τ)} {c c' : Copying τ}

/-- What is remembered is a copy of what was in the heap `h`. -/
def MemoOk (h : List (Cell τ)) (c : Copying τ) : Prop :=
  ∀ a b, c.memo.lookup a = some b → ∀ n v, read h n (.ref a) = some v →
    read c.heap (n + 1) (.ref b) = some v.deepcopy

/-- The heap has grown, and the memo is right. -/
structure Copied (h : List (Cell τ)) (c c' : Copying τ) : Prop where
  grows : c.heap <+: c'.heap
  memo : MemoOk h c'

/-- Whatever is copied by it is read from the copy. -/
def CopiesWell (h : List (Cell τ)) (copy : Slot τ → Copying τ → Option (Slot τ × Copying τ)) :
    Prop :=
  ∀ s c s' c', copy s c = some (s', c') → h <+: c.heap → MemoOk h c →
    Copied h c c' ∧ ∀ n v, read h n s = some v → read c'.heap (n + 1) s' = some v.deepcopy

theorem MemoOk.mono (hmemo : MemoOk h c) (hgrows : c.heap <+: c'.heap) (hsame : c'.memo = c.memo) :
    MemoOk h c' := by
  intro a b hab n v hv
  rw [hsame] at hab
  exact read_mono (extends_of_grows hgrows) (Nat.le_refl _) (hmemo a b hab n v hv)

theorem copyAll_copies {copy : Slot τ → Copying τ → Option (Slot τ × Copying τ)}
    (hcopy : CopiesWell h copy) {slots slots' : List (Slot τ)}
    (hall : copyAll copy slots c = some (slots', c')) (hpre : h <+: c.heap) (hmemo : MemoOk h c) :
    Copied h c c' ∧ slots'.length = slots.length ∧ ∀ n vs,
      List.Forall₂ (fun s v => read h n s = some v) slots vs →
      List.Forall₂ (fun s v => read c'.heap (n + 1) s = some v) slots' (vs.map Val.deepcopy) := by
  induction slots generalizing slots' c with
  | nil =>
    obtain ⟨rfl, rfl⟩ := Prod.mk.inj (Option.some.inj hall)
    refine ⟨⟨List.prefix_rfl, hmemo⟩, rfl, ?_⟩
    intro n vs hvs
    cases hvs
    exact .nil
  | cons s slots ih =>
    rw [copyAll, Option.bind_eq_bind, Option.bind_eq_some_iff] at hall
    obtain ⟨⟨t, c₁⟩, hone, hall⟩ := hall
    simp only [Option.bind_eq_bind, Option.bind_eq_some_iff] at hall
    obtain ⟨⟨ts, c₂⟩, hrest, hend⟩ := hall
    obtain ⟨rfl, rfl⟩ := Prod.mk.inj (Option.some.inj hend)
    obtain ⟨hcopied, hread⟩ := hcopy s c t c₁ hone hpre hmemo
    obtain ⟨hcopied', hlength, hreads⟩ :=
      ih hrest (hpre.trans hcopied.grows) hcopied.memo
    refine ⟨⟨hcopied.grows.trans hcopied'.grows, hcopied'.memo⟩, by simp [hlength], ?_⟩
    intro n vs hvs
    cases hvs with
    | cons hv hvs =>
      -- the heap grows while the others are copied, and the first copy is read in it as before
      refine .cons ?_ (hreads n _ hvs)
      exact read_mono (extends_of_grows hcopied'.grows) (Nat.le_refl _) (hread n _ hv)

omit [DecidableEq τ] in
/-- Slots put under names. -/
theorem zip_rel {entries : List (String × Slot τ)} {vs : List (String × Val τ)}
    {slots : List (Slot τ)} {n : Nat} {heap : List (Cell τ)}
    (hkeys : vs.map Prod.fst = entries.map Prod.fst)
    (hslots : List.Forall₂ (fun s v => read heap n s = some v) slots (vs.map Prod.snd)) :
    List.Forall₂ (Entry fun s v => read heap n s = some v)
      ((entries.map Prod.fst).zip slots) vs := by
  rw [← hkeys]
  clear hkeys
  induction vs generalizing slots with
  | nil =>
    cases hslots
    exact .nil
  | cons p vs ih =>
    cases hslots with
    | cons hv hrest => exact .cons ⟨rfl, hv⟩ (ih hrest)

theorem copyEntries_copies {copy : Slot τ → Copying τ → Option (Slot τ × Copying τ)}
    (hcopy : CopiesWell h copy) {entries entries' : List (String × Slot τ)}
    (hall : copyEntries copy entries c = some (entries', c')) (hpre : h <+: c.heap)
    (hmemo : MemoOk h c) :
    Copied h c c' ∧ entries'.map Prod.fst = entries.map Prod.fst ∧ ∀ n vs,
      List.Forall₂ (Entry fun s v => read h n s = some v) entries vs →
      List.Forall₂ (Entry fun s v => read c'.heap (n + 1) s = some v) entries'
        (vs.map fun p => (p.1, p.2.deepcopy)) := by
  rw [copyEntries, Option.bind_eq_bind, Option.bind_eq_some_iff] at hall
  obtain ⟨⟨slots, c₁⟩, hslots, hend⟩ := hall
  obtain ⟨rfl, rfl⟩ := Prod.mk.inj (Option.some.inj hend)
  obtain ⟨hcopied, hlength, hreads⟩ := copyAll_copies hcopy hslots hpre hmemo
  refine ⟨hcopied, ?_, ?_⟩
  · rw [List.map_fst_zip]
    simp [hlength]
  · intro n vs hvs
    refine zip_rel ?_ ?_
    · rw [List.map_map, ← keys_rel hvs]
      rfl
    · -- the names go along, the values are copied as slots
      have hvalues : List.Forall₂ (fun s v => read h n s = some v) (entries.map Prod.snd)
          (vs.map Prod.snd) := by
        rw [List.forall₂_map_left_iff, List.forall₂_map_right_iff]
        exact hvs.imp fun _ _ hv => hv.2
      have hread := hreads n _ hvalues
      rw [List.map_map] at hread ⊢
      exact hread

/-- A new cell that is remembered as the copy of what it is read as. -/
theorem remember_copies (c₀ : Copying τ) {s' : Slot τ} (hgrows : c₀.heap <+: c.heap)
    (hmemo : MemoOk h c) {a : Nat} {cell : Cell τ}
    (hend : some (c.remember a cell) = some (s', c'))
    (hcell : ∀ n v, read h n (.ref a) = some v →
      read (c.heap ++ [cell]) (n + 1) (.ref c.heap.length) = some v.deepcopy) :
    Copied h c₀ c' ∧ ∀ n v, read h n (.ref a) = some v →
      read c'.heap (n + 1) s' = some v.deepcopy := by
  cases hend
  refine ⟨⟨hgrows.trans (List.prefix_append _ _), ?_⟩, hcell⟩
  intro a' b hab n v hv
  change ((a, c.heap.length) :: c.memo).lookup a' = some b at hab
  rw [List.lookup_cons] at hab
  -- the memo is asked for the cell that has just been copied, or for one of before
  by_cases heq : a' = a
  · subst heq
    rw [beq_self_eq_true] at hab
    obtain rfl := Option.some.inj hab
    exact hcell n v hv
  · rw [beq_eq_false_iff_ne.mpr heq] at hab
    exact read_mono (extends_of_grows (List.prefix_append _ _)) (Nat.le_refl _)
      (hmemo a' b hab n v hv)

/-- The list an instance begins with is recognised, whatever else a slot holds. -/
theorem sameSlot_nil {heap : List (Cell τ)} {nil : Nat} (hnil : heap[nil]? = some (.list []))
    (n : Nat) {m : Nat} {s : Slot τ} {v : Val τ} (hread : read heap m s = some v) :
    sameSlot heap (n + 1) s (.ref nil) = v.same (.list []) := by
  unfold sameSlot
  rw [read_nil_cell hnil n]
  cases hs : read heap (n + 1) s with
  | some w =>
    obtain rfl := read_unique hread hs
    rfl
  | none =>
    symm
    rw [Bool.eq_false_iff]
    intro hsame
    obtain rfl := same_nil.mp hsame
    obtain ⟨a, rfl, hcell⟩ := read_nil hread
    rw [read_nil_cell hcell n] at hs
    exact absurd hs (by simp)

omit [DecidableEq τ] in
/-- What is read through an address is in the cell there. -/
theorem read_cell {heap : List (Cell τ)} (hpre : h <+: heap) {a : Nat} {cell : Cell τ}
    (hcell : heap[a]? = some cell) {n : Nat} {v : Val τ} (hread : read h n (.ref a) = some v) :
    ∃ k, n = k + 1 ∧ h[a]? = some cell := by
  cases n with
  | zero => exact absurd hread (by simp [read])
  | succ k =>
    refine ⟨k, rfl, ?_⟩
    cases hown : h[a]? with
    | none => exact absurd hread (by simp [read, hown])
    | some own => exact (extends_of_grows hpre a own hown).symm.trans hcell

/-- A cell of items, of whichever kind, is copied with its items. -/
theorem items_copies {kind : List (Slot τ) → Cell τ} {value : List (Val τ) → Val τ}
    (hread : ∀ heap n a items, heap[a]? = some (kind items) →
      read heap (n + 1) (.ref a) = (items.mapM (read heap n)).map value)
    (hvalue : ∀ vs, (value vs).deepcopy = value (vs.map Val.deepcopy))
    {copy : Slot τ → Copying τ → Option (Slot τ × Copying τ)} (hcopy : CopiesWell h copy)
    (c₀ : Copying τ) {c₁ : Copying τ} (hpre : h <+: c.heap) (hmemo : MemoOk h c)
    (hgrows : c₀.heap <+: c.heap)
    {a : Nat} {items items' : List (Slot τ)} (hcell : c.heap[a]? = some (kind items))
    (hitems : copyAll copy items c = some (items', c₁)) {s' : Slot τ}
    (hend : some (c₁.remember a (kind items')) = some (s', c')) :
    Copied h c₀ c' ∧ ∀ n v, read h n (.ref a) = some v →
      read c'.heap (n + 1) s' = some v.deepcopy := by
  obtain ⟨hcopied, _, hreads⟩ := copyAll_copies hcopy hitems hpre hmemo
  refine remember_copies c₀ (hgrows.trans hcopied.grows) hcopied.memo hend fun n v hv => ?_
  -- to be read at all the cell needs one level more than its items
  obtain ⟨k, rfl, hown⟩ := read_cell hpre hcell hv
  rw [hread h k a items hown, Option.map_eq_some_iff] at hv
  obtain ⟨vs, hvs, rfl⟩ := hv
  have hcopies : items'.mapM (read (c₁.heap ++ [kind items']) (k + 1)) =
      some (vs.map Val.deepcopy) :=
    mapM_eq_some_iff.mpr ((hreads k vs (mapM_eq_some_iff.mp hvs)).imp fun _ _ hv =>
      read_mono (extends_of_grows (List.prefix_append _ _)) (Nat.le_refl _) hv)
  rw [hread _ _ _ items' (List.getElem?_concat_length), hcopies, hvalue]
  rfl

/-- The fields set on a fresh instance are read as those of the copy. -/
theorem obj_copies {cls : Cls} {fields originals : List (String × Slot τ)}
    {changes : Finset String} {copy : Slot τ → Copying τ → Option (Slot τ × Copying τ)}
    (hcopy : CopiesWell h copy) (hpre : h <+: c.heap) (hmemo : MemoOk h c) {a : Nat}
    (hcell : c.heap[a]? = some (.obj cls fields changes originals)) {c₁ c₂ : Copying τ}
    {fields' : List (String × Slot τ)}
    (hfields : copyEntries copy (ordered cls fields) (c.alloc (.list [])).2 = some (fields', c₁))
    (hheap : c₂.heap = c₁.heap) (hmemo₂ : MemoOk h c₂) {fuel : Nat} {s' : Slot τ}
    (hend : some (c₂.remember a (.obj cls
        (Attrs.build (sameSlot c₁.heap (fuel + 1)) (.ref c.heap.length) cls fields').fields changes
        (Attrs.build (sameSlot c₁.heap (fuel + 1)) (.ref c.heap.length) cls fields').originals)) =
      some (s', c')) :
    Copied h c c' ∧ ∀ n v, read h n (.ref a) = some v →
      read c'.heap (n + 1) s' = some v.deepcopy := by
  have halloc : c.heap <+: (c.alloc (.list [])).2.heap := List.prefix_append _ _
  obtain ⟨hcopied, hkeys, hreads⟩ := copyEntries_copies hcopy hfields (hpre.trans halloc)
    (hmemo.mono halloc rfl)
  have hgrows : c.heap <+: c₂.heap := by
    rw [hheap]
    exact halloc.trans hcopied.grows
  -- the empty list of a fresh instance is still there, and empty
  have hnil : c₁.heap[c.heap.length]? = some (.list []) :=
    extends_of_grows hcopied.grows _ _ (List.getElem?_concat_length)
  refine remember_copies c hgrows hmemo₂ hend fun n v hv => ?_
  obtain ⟨k, rfl, hown⟩ := read_cell hpre hcell hv
  rw [read, hown] at hv
  simp only [Option.bind_eq_bind, Option.bind_eq_some_iff] at hv
  obtain ⟨fs, hfs, os, hos, hv⟩ := hv
  obtain rfl := Option.some.inj hv
  have hordered := hreads k _ (ordered_rel cls (forEntries_eq_some_iff.mp hfs))
  rw [← ordered_map cls Val.deepcopy, ← deepcopyFields_eq] at hordered
  have hnodup : (fields'.map Prod.fst).Nodup := by
    rw [hkeys]
    exact ordered_nodup cls fields
  obtain ⟨hbuilt, horiginals⟩ := build_rel (sameSlot c₁.heap (fuel + 1))
    Val.same cls (read_nil_cell hnil k)
    (fun s v hs => sameSlot_nil hnil fuel hs) hnodup hordered
  -- nothing is overwritten when the instance is put on the heap
  have hlast : ∀ {entries : List (String × Slot τ)} {vs : List (String × Val τ)} (cell : Cell τ),
      List.Forall₂ (Entry fun s v => read c₁.heap (k + 1) s = some v) entries vs →
      forEntries (read (c₂.heap ++ [cell]) (k + 1)) entries = some vs := by
    intro entries vs cell hread
    rw [hheap, forEntries_eq_some_iff]
    exact hread.imp fun _ _ hv => ⟨hv.1,
      read_mono (extends_of_grows (List.prefix_append _ _)) (Nat.le_refl _) hv.2⟩
  rw [read, List.getElem?_concat_length]
  simp [hlast _ hbuilt, hlast _ horiginals, Val.deepcopy]

/-- Copying is right at every depth. -/
theorem deepcopySlot_copies (h : List (Cell τ)) (fuel : Nat) :
    CopiesWell h (deepcopySlot fuel) := by
  induction fuel with
  | zero =>
    intro s c s' c' hcopy hpre hmemo
    cases s with
    | prim p =>
      rw [deepcopySlot] at hcopy
      obtain ⟨rfl, rfl⟩ := Prod.mk.inj (Option.some.inj hcopy)
      refine ⟨⟨List.prefix_rfl, hmemo⟩, fun n v hv => ?_⟩
      rw [read] at hv ⊢
      obtain rfl := Option.some.inj hv
      rfl
    | ref a => exact absurd hcopy (by simp [deepcopySlot])
  | succ fuel ih =>
    intro s c s' c' hcopy hpre hmemo
    cases s with
    | prim p =>
      rw [deepcopySlot] at hcopy
      obtain ⟨rfl, rfl⟩ := Prod.mk.inj (Option.some.inj hcopy)
      refine ⟨⟨List.prefix_rfl, hmemo⟩, fun n v hv => ?_⟩
      rw [read] at hv ⊢
      obtain rfl := Option.some.inj hv
      rfl
    | ref a =>
      rw [deepcopySlot] at hcopy
      cases hlookup : c.memo.lookup a with
      | some b =>
        -- copied before
        rw [hlookup] at hcopy
        obtain ⟨rfl, rfl⟩ := Prod.mk.inj (Option.some.inj hcopy)
        exact ⟨⟨List.prefix_rfl, hmemo⟩, hmemo a b hlookup⟩
      | none =>
        rw [hlookup] at hcopy
        cases hcell : c.heap[a]? with
        | none => simp [hcell] at hcopy
        | some cell =>
          simp only [hcell] at hcopy
          cases cell with
          | list items =>
            simp only [Option.bind_eq_bind, Option.bind_eq_some_iff] at hcopy
            obtain ⟨⟨items', c₁⟩, hitems, hend⟩ := hcopy
            exact items_copies (fun heap n a items hc => by rw [read, hc])
              (fun vs => by rw [Val.deepcopy, deepcopyAll_eq]) ih c
              (c := { c with used := true }) hpre hmemo List.prefix_rfl hcell hitems hend
          | tuple items =>
            simp only [Option.bind_eq_bind, Option.bind_eq_some_iff] at hcopy
            obtain ⟨⟨items', c₁⟩, hitems, hend⟩ := hcopy
            exact items_copies (fun heap n a items hc => by rw [read, hc])
              (fun vs => by rw [Val.deepcopy, deepcopyAll_eq]) ih c hpre hmemo List.prefix_rfl hcell
              hitems hend
          | dict entries =>
            simp only [Option.bind_eq_bind, Option.bind_eq_some_iff] at hcopy
            obtain ⟨⟨entries', c₁⟩, hentries, hend⟩ := hcopy
            obtain ⟨hcopied, _, hreads⟩ := copyEntries_copies ih
              (c := { c with used := true }) hentries hpre hmemo
            refine remember_copies c hcopied.grows hcopied.memo hend fun n v hv => ?_
            obtain ⟨k, rfl, hown⟩ := read_cell hpre hcell hv
            rw [read, hown, Option.map_eq_some_iff] at hv
            obtain ⟨vs, hvs, rfl⟩ := hv
            have hread := hreads k vs (forEntries_eq_some_iff.mp hvs)
            have hcopies : forEntries (read (c₁.heap ++ [.dict entries']) (k + 1)) entries' =
                some (deepcopyFields vs) := by
              rw [deepcopyFields_eq, forEntries_eq_some_iff]
              exact hread.imp fun _ _ hv => ⟨hv.1,
                read_mono (extends_of_grows (List.prefix_append _ _)) (Nat.le_refl _) hv.2⟩
            rw [read, List.getElem?_concat_length]
            simp [hcopies, Val.deepcopy]
          | obj cls fields changes originals =>
            simp only [Option.bind_eq_bind, Option.bind_eq_some_iff] at hcopy
            obtain ⟨⟨fields', c₁⟩, hfields, hend⟩ := hcopy
            obtain ⟨hcopied, _, _⟩ := copyEntries_copies ih hfields
              (hpre.trans (List.prefix_append _ _)) (hmemo.mono (List.prefix_append _ _) rfl)
            refine obj_copies ih hpre hmemo hcell hfields ?_ ?_ hend
            · rfl
            -- what was noted in a memo of its own is forgotten
            cases c.used with
            | true => exact hcopied.memo
            | false => exact fun _ _ hab => absurd hab (by simp)

end Objects

end Designate
