import Designate.Proof.Copies
import Designate.Storage.Retry

/-!
# A copy and what it was made from

Copying comes to an end, and the copy is new altogether: whoever has only the copy cannot reach
what it was made from, and what they do to the copy is not seen there. The copy has the same
fields, set and changed, but what the fields were before is not copied, so it shows the same only
if nothing was to be told.
-/

namespace Designate

namespace Objects

open Heap

variable {α β τ : Type} [DecidableEq τ] {h : List (Cell τ)} {c c' : Copying τ}

/-! ## Apart from what was there -/

/-- The slot leads to nothing before `base`. -/
def SlotAbove (base : Nat) (s : Slot τ) : Prop :=
  ∀ a, s = .ref a → base ≤ a

/-- All that was made is from `base` on, and leads to nothing before it. -/
structure FreshFrom (base : Nat) (c : Copying τ) : Prop where
  size : base ≤ c.heap.length
  closed : Sealed Cell.refs base c.heap
  memo : ∀ p ∈ c.memo, base ≤ p.2

/-- Copies made by it are fresh. -/
def CopiesFresh (base : Nat) (copy : Slot τ → Copying τ → Option (Slot τ × Copying τ)) : Prop :=
  ∀ s c s' c', copy s c = some (s', c') → FreshFrom base c → FreshFrom base c' ∧ SlotAbove base s'

variable {base : Nat}

omit [DecidableEq τ] in
theorem slotAbove_prim (p : Prim τ) : SlotAbove base (.prim p) := by
  intro a ha
  cases ha

omit [DecidableEq τ] in
theorem addresses_above {slots : List (Slot τ)} (h : ∀ s ∈ slots, SlotAbove base s) :
    ∀ a ∈ addresses slots, base ≤ a := by
  intro a ha
  obtain ⟨s, hs, hsa⟩ := List.mem_filterMap.mp ha
  cases s with
  | prim p => simp at hsa
  | ref b =>
    obtain rfl := Option.some.inj hsa
    exact h _ hs b rfl

omit [DecidableEq τ] in
theorem entries_above {entries : List (String × Slot τ)}
    (h : ∀ p ∈ entries, SlotAbove base p.2) :
    ∀ a ∈ addresses (entries.map Prod.snd), base ≤ a := by
  refine addresses_above ?_
  intro s hs
  obtain ⟨p, hp, rfl⟩ := List.mem_map.mp hs
  exact h p hp

omit [DecidableEq τ] in
theorem FreshFrom.alloc (hc : FreshFrom base c) {cell : Cell τ}
    (hcell : ∀ a ∈ cell.refs, base ≤ a) : FreshFrom base (c.alloc cell).2 :=
  ⟨Nat.le_trans hc.size (by simp [Copying.alloc]), hc.closed.append hcell, hc.memo⟩

omit [DecidableEq τ] in
theorem FreshFrom.remember (hc : FreshFrom base c) {a : Nat} {cell : Cell τ} {s' : Slot τ}
    (hend : some (c.remember a cell) = some (s', c')) (hcell : ∀ b ∈ cell.refs, base ≤ b) :
    FreshFrom base c' ∧ SlotAbove base s' := by
  cases hend
  refine ⟨⟨(hc.alloc hcell).size, (hc.alloc hcell).closed, ?_⟩, ?_⟩
  · intro p hp
    obtain rfl | hp := List.mem_cons.mp hp
    · exact hc.size
    · exact hc.memo p hp
  · intro b hb
    cases hb
    exact hc.size

omit [DecidableEq τ] in
theorem copyAll_fresh {copy : Slot τ → Copying τ → Option (Slot τ × Copying τ)}
    (hcopy : CopiesFresh base copy) {slots slots' : List (Slot τ)}
    (hall : copyAll copy slots c = some (slots', c')) (hc : FreshFrom base c) :
    FreshFrom base c' ∧ slots'.length = slots.length ∧ ∀ s ∈ slots', SlotAbove base s := by
  induction slots generalizing slots' c with
  | nil =>
    obtain ⟨rfl, rfl⟩ := Prod.mk.inj (Option.some.inj hall)
    exact ⟨hc, rfl, fun _ hs => absurd hs List.not_mem_nil⟩
  | cons s slots ih =>
    rw [copyAll, Option.bind_eq_bind, Option.bind_eq_some_iff] at hall
    obtain ⟨⟨t, c₁⟩, hone, hall⟩ := hall
    simp only [Option.bind_eq_bind, Option.bind_eq_some_iff] at hall
    obtain ⟨⟨ts, c₂⟩, hrest, hend⟩ := hall
    obtain ⟨rfl, rfl⟩ := Prod.mk.inj (Option.some.inj hend)
    obtain ⟨hc₁, ht⟩ := hcopy s c t c₁ hone hc
    obtain ⟨hc₂, hlength, hts⟩ := ih hrest hc₁
    refine ⟨hc₂, by simp [hlength], ?_⟩
    intro u hu
    obtain rfl | hu := List.mem_cons.mp hu
    · exact ht
    · exact hts u hu

omit [DecidableEq τ] in
theorem copyEntries_fresh {copy : Slot τ → Copying τ → Option (Slot τ × Copying τ)}
    (hcopy : CopiesFresh base copy) {entries entries' : List (String × Slot τ)}
    (hall : copyEntries copy entries c = some (entries', c')) (hc : FreshFrom base c) :
    FreshFrom base c' ∧ entries'.map Prod.fst = entries.map Prod.fst ∧
      ∀ p ∈ entries', SlotAbove base p.2 := by
  rw [copyEntries, Option.bind_eq_bind, Option.bind_eq_some_iff] at hall
  obtain ⟨⟨slots, c₁⟩, hslots, hend⟩ := hall
  obtain ⟨rfl, rfl⟩ := Prod.mk.inj (Option.some.inj hend)
  obtain ⟨hc₁, hlength, habove⟩ := copyAll_fresh hcopy hslots hc
  refine ⟨hc₁, ?_, fun p hp => habove _ (List.of_mem_zip hp).2⟩
  rw [List.map_fst_zip]
  simp [hlength]

omit [DecidableEq τ] in
/-- Setting fields on a fresh instance brings in nothing else. -/
theorem build_above (same : Slot τ → Slot τ → Bool) (cls : Cls) {nil : Slot τ}
    {fields : List (String × Slot τ)} (hnodup : (fields.map Prod.fst).Nodup)
    (hnil : SlotAbove base nil) (hfields : ∀ p ∈ fields, SlotAbove base p.2) :
    (∀ p ∈ (Attrs.build same nil cls fields).fields, SlotAbove base p.2) ∧
      ∀ p ∈ (Attrs.build same nil cls fields).originals, SlotAbove base p.2 := by
  rw [(Attrs.build_eq same nil cls hnodup).1, (Attrs.build_eq same nil cls hnodup).2]
  constructor
  · intro p hp
    by_cases hlist : cls.list = true
    · rw [if_pos hlist] at hp
      obtain rfl | hp := List.mem_cons.mp hp
      · cases hobjects : fields.lookup "objects" with
        | none => exact hnil
        | some s => exact hfields _ (mem_of_lookup hobjects)
      · exact hfields p (List.mem_filter.mp hp).1
    · rw [if_neg hlist] at hp
      exact hfields p hp
  · intro p hp
    split at hp
    · obtain rfl := List.mem_singleton.mp hp
      exact hnil
    · exact absurd hp List.not_mem_nil

/-- A copy is fresh at every depth. -/
theorem deepcopySlot_fresh (fuel : Nat) : CopiesFresh base (deepcopySlot (τ := τ) fuel) := by
  induction fuel with
  | zero =>
    intro s c s' c' hcopy hc
    cases s with
    | prim p =>
      rw [deepcopySlot] at hcopy
      obtain ⟨rfl, rfl⟩ := Prod.mk.inj (Option.some.inj hcopy)
      exact ⟨⟨hc.size, hc.closed, hc.memo⟩, slotAbove_prim p⟩
    | ref a => exact absurd hcopy (by simp [deepcopySlot])
  | succ fuel ih =>
    intro s c s' c' hcopy hc
    cases s with
    | prim p =>
      rw [deepcopySlot] at hcopy
      obtain ⟨rfl, rfl⟩ := Prod.mk.inj (Option.some.inj hcopy)
      exact ⟨⟨hc.size, hc.closed, hc.memo⟩, slotAbove_prim p⟩
    | ref a =>
      have hused : FreshFrom base { c with used := true } := ⟨hc.size, hc.closed, hc.memo⟩
      rw [deepcopySlot] at hcopy
      -- a cell that was met before is taken from the memo, all other cells are copied to new
      -- addresses
      cases hlookup : c.memo.lookup a with
      | some b =>
        rw [hlookup] at hcopy
        obtain ⟨rfl, rfl⟩ := Prod.mk.inj (Option.some.inj hcopy)
        refine ⟨hc, fun a' ha => ?_⟩
        cases ha
        obtain ⟨before, after, hmemo, -⟩ := List.lookup_eq_some_iff.mp hlookup
        exact hc.memo (a, b) (by rw [hmemo]; simp)
      | none =>
        rw [hlookup] at hcopy
        cases hcell : c.heap[a]? with
        | none => simp [hcell] at hcopy
        | some cell =>
          simp only [hcell] at hcopy
          cases cell with
          | list items =>
            simp only [Option.bind_eq_bind, Option.bind_eq_some_iff] at hcopy
            obtain ⟨⟨items', c₁⟩, hitems, hend⟩ := hcopy
            obtain ⟨hc₁, _, habove⟩ := copyAll_fresh ih hitems hused
            exact hc₁.remember hend (addresses_above habove)
          | tuple items =>
            simp only [Option.bind_eq_bind, Option.bind_eq_some_iff] at hcopy
            obtain ⟨⟨items', c₁⟩, hitems, hend⟩ := hcopy
            obtain ⟨hc₁, _, habove⟩ := copyAll_fresh ih hitems hc
            exact hc₁.remember hend (addresses_above habove)
          | dict entries =>
            simp only [Option.bind_eq_bind, Option.bind_eq_some_iff] at hcopy
            obtain ⟨⟨entries', c₁⟩, hentries, hend⟩ := hcopy
            obtain ⟨hc₁, _, habove⟩ := copyEntries_fresh ih hentries hused
            exact hc₁.remember hend (entries_above habove)
          | obj cls fields changes originals =>
            simp only [Option.bind_eq_bind, Option.bind_eq_some_iff] at hcopy
            obtain ⟨⟨fields', c₁⟩, hfields, hend⟩ := hcopy
            -- a list object allocates its empty list before its fields are copied
            have hinit : FreshFrom base (c.alloc (.list [])).2 :=
              hc.alloc fun a ha => absurd ha List.not_mem_nil
            obtain ⟨hc₁, hkeys, habove⟩ := copyEntries_fresh ih hfields hinit
            have hnodup : (fields'.map Prod.fst).Nodup := by
              rw [hkeys]
              exact ordered_nodup cls fields
            have hnil : SlotAbove base (.ref c.heap.length : Slot τ) := by
              intro b hb
              cases hb
              exact hc.size
            obtain ⟨hbuilt, horiginals⟩ := build_above
              (sameSlot c₁.heap (fuel + 1)) cls hnodup hnil habove
            -- `build` keeps the heap; it may start a memo of its own
            have hc₂ : FreshFrom base
                { c₁ with memo := if c.used then c₁.memo else [], used := true } := by
              refine ⟨hc₁.size, hc₁.closed, ?_⟩
              cases c.used with
              | true => exact hc₁.memo
              | false => exact fun _ hp => absurd hp List.not_mem_nil
            refine hc₂.remember hend ?_
            intro b hb
            obtain hb | hb := List.mem_append.mp hb
            · exact entries_above hbuilt b hb
            · exact entries_above horiginals b hb

/-! ## Coming to an end -/

/-- Whatever is not nested deeper than this is copied by it. -/
def CopiesAll (h : List (Cell τ)) (n : Nat)
    (copy : Slot τ → Copying τ → Option (Slot τ × Copying τ)) : Prop :=
  ∀ s v c, read h n s = some v → h <+: c.heap → MemoOk h c → ∃ s' c', copy s c = some (s', c')

theorem copyAll_total {n : Nat} {copy : Slot τ → Copying τ → Option (Slot τ × Copying τ)}
    (hcopy : CopiesWell h copy) (htotal : CopiesAll h n copy) {slots : List (Slot τ)}
    {vs : List (Val τ)} (hread : List.Forall₂ (fun s v => read h n s = some v) slots vs)
    (hpre : h <+: c.heap) (hmemo : MemoOk h c) :
    ∃ slots' c', copyAll copy slots c = some (slots', c') := by
  induction hread generalizing c with
  | nil => exact ⟨[], c, rfl⟩
  | @cons s v slots vs hv _ ih =>
    obtain ⟨t, c₁, hone⟩ := htotal s v c hv hpre hmemo
    obtain ⟨hcopied, _⟩ := hcopy s c t c₁ hone hpre hmemo
    obtain ⟨ts, c₂, hrest⟩ := ih (hpre.trans hcopied.grows) hcopied.memo
    exact ⟨t :: ts, c₂, by simp [copyAll, hone, hrest]⟩

theorem copyEntries_total {n : Nat} {copy : Slot τ → Copying τ → Option (Slot τ × Copying τ)}
    (hcopy : CopiesWell h copy) (htotal : CopiesAll h n copy) {entries : List (String × Slot τ)}
    {vs : List (String × Val τ)}
    (hread : List.Forall₂ (Entry fun s v => read h n s = some v) entries vs)
    (hpre : h <+: c.heap) (hmemo : MemoOk h c) :
    ∃ entries' c', copyEntries copy entries c = some (entries', c') := by
  have hslots : List.Forall₂ (fun s v => read h n s = some v) (entries.map Prod.snd)
      (vs.map Prod.snd) := by
    rw [List.forall₂_map_left_iff, List.forall₂_map_right_iff]
    exact hread.imp fun _ _ hv => hv.2
  obtain ⟨slots, c₁, hall⟩ := copyAll_total hcopy htotal hslots hpre hmemo
  exact ⟨_, c₁, by simp [copyEntries, hall]; rfl⟩

/-- With as much fuel as a value is deep, it is copied. -/
theorem deepcopySlot_total (h : List (Cell τ)) (n : Nat) {fuel : Nat} (hfuel : n ≤ fuel) :
    CopiesAll h n (deepcopySlot fuel) := by
  induction n generalizing fuel with
  | zero =>
    intro s v c hv hpre hmemo
    cases s with
    | prim p => exact ⟨_, _, by rw [deepcopySlot]⟩
    | ref a => exact absurd hv (by simp [read])
  | succ n ih =>
    intro s v c hv hpre hmemo
    obtain ⟨fuel, rfl⟩ : ∃ k, fuel = k + 1 := ⟨fuel - 1, by omega⟩
    -- one level of depth costs one of fuel, so the parts are copied by the induction
    have htotal := ih (show n ≤ fuel by omega)
    have hcopy := deepcopySlot_copies h fuel
    cases s with
    | prim p => exact ⟨_, _, by rw [deepcopySlot]⟩
    | ref a =>
      rw [deepcopySlot]
      cases hlookup : c.memo.lookup a with
      -- a cell that is in the memo needs no fuel
      | some b => exact ⟨_, _, rfl⟩
      | none =>
        rw [read] at hv
        cases hcell : h[a]? with
        | none => simp [hcell] at hv
        | some cell =>
          rw [hcell] at hv
          simp only [extends_of_grows hpre a cell hcell]
          cases cell with
          | list items =>
            obtain ⟨vs, hvs, _⟩ := Option.map_eq_some_iff.mp hv
            obtain ⟨items', c₁, hall⟩ := copyAll_total (c := { c with used := true }) hcopy htotal
              (mapM_eq_some_iff.mp hvs) hpre hmemo
            exact ⟨_, _, by simp only [hall]; rfl⟩
          | tuple items =>
            obtain ⟨vs, hvs, _⟩ := Option.map_eq_some_iff.mp hv
            obtain ⟨items', c₁, hall⟩ := copyAll_total hcopy htotal
              (mapM_eq_some_iff.mp hvs) hpre hmemo
            exact ⟨_, _, by simp only [hall]; rfl⟩
          | dict entries =>
            obtain ⟨vs, hvs, _⟩ := Option.map_eq_some_iff.mp hv
            obtain ⟨entries', c₁, hall⟩ := copyEntries_total (c := { c with used := true }) hcopy
              htotal (forEntries_eq_some_iff.mp hvs) hpre hmemo
            exact ⟨_, _, by simp only [hall]; rfl⟩
          | obj cls fields changes originals =>
            simp only [Option.bind_eq_bind, Option.bind_eq_some_iff] at hv
            obtain ⟨fs, hfs, _⟩ := hv
            have halloc : c.heap <+: (c.alloc (.list [])).2.heap := List.prefix_append _ _
            obtain ⟨fields', c₁, hall⟩ := copyEntries_total hcopy htotal
              (ordered_rel cls (forEntries_eq_some_iff.mp hfs)) (hpre.trans halloc)
              (hmemo.mono halloc rfl)
            exact ⟨_, _, by simp only [hall]; rfl⟩

/-! ## The copy of an object -/

/--
An object that can be read is copied, and the copy is read as the copy of its value. Whoever then
has the copy, and nothing else, does nothing that changes what the object is read as.
-/
theorem deepcopy_apart {n fuel : Nat} {s : Slot τ} {v : Val τ} (hread : read h n s = some v)
    (hfuel : n ≤ fuel) :
    ∃ s' c', deepcopySlot fuel s { heap := h } = some (s', c') ∧
      read c'.heap (n + 1) s' = some v.deepcopy ∧
      ∀ later, Evolves Cell.refs (c'.heap, addresses [s']) later → read later.1 n s = some v := by
  have hmemo : MemoOk h { heap := h } := fun _ _ hab => absurd hab (by simp)
  have hnew : FreshFrom h.length { heap := h } :=
    ⟨Nat.le_refl _, sealed_length _ _, fun _ hp => absurd hp List.not_mem_nil⟩
  obtain ⟨s', c', hcopy⟩ := deepcopySlot_total h n hfuel s v _ hread List.prefix_rfl hmemo
  obtain ⟨hcopied, hcopies⟩ := deepcopySlot_copies h fuel s _ s' c' hcopy List.prefix_rfl hmemo
  obtain ⟨hfresh, habove⟩ := deepcopySlot_fresh fuel s _ s' c' hcopy hnew
  refine ⟨s', c', hcopy, hcopies n v hread, ?_⟩
  intro later hsteps
  -- whoever holds the copy alone reaches only addresses that were free before it
  have hheld : Above Cell.refs h.length (c'.heap, addresses [s']) := by
    refine ⟨hfresh.closed, addresses_above ?_, hfresh.size⟩
    intro t ht
    obtain rfl := List.mem_singleton.mp ht
    exact habove
  have hsame : SameBelow h.length h later.1 := by
    obtain ⟨more, hmore⟩ := hcopied.grows
    have hbelow : SameBelow h.length h c'.heap := by
      rw [← hmore]
      exact SameBelow.append (Nat.le_refl _) more
    exact hbelow.trans (above_evolves hheld hsteps).2
  exact read_mono (extends_of_sameBelow hsame) (Nat.le_refl _) hread

/--
The copy of an object is made, and nothing done to it is seen in the object; and it has the same
fields, changes and original values, at every depth, exactly if every original value in the
object is what the field is, but that of the items of a list object, which is no items.
-/
theorem deepcopy_same_iff {n fuel : Nat} {s : Slot τ} {v : Val τ} (hread : read h n s = some v)
    (hfuel : n ≤ fuel) :
    ∃ s' c', deepcopySlot fuel s { heap := h } = some (s', c') ∧
      ((∃ m w, read c'.heap m s' = some w ∧ w.view = v.view) ↔ v.OriginalsKept) ∧
      ∀ later, Evolves Cell.refs (c'.heap, addresses [s']) later → read later.1 n s = some v := by
  obtain ⟨s', c', hcopy, hcopied, hapart⟩ := deepcopy_apart hread hfuel
  refine ⟨s', c', hcopy, ?_, hapart⟩
  rw [← view_deepcopy_iff]
  constructor
  · intro ⟨m, w, hw, hview⟩
    rwa [read_unique hw hcopied] at hview
  · intro hview
    exact ⟨n + 1, v.deepcopy, hcopied, hview⟩

/-- A quota of zones, in the heap. -/
def quotaCell (limit : Int) (changes : Finset String) (originals : List (String × Slot Nat)) :
    Cell Nat :=
  .obj quotaCls [("resource", .prim (.str "zones")), ("hard_limit", .prim (.int limit))] changes
    originals

/-- The same, as a value. -/
def quota (limit : Int) (changes : Finset String) (originals : List (String × Val Nat)) : Val Nat :=
  .obj quotaCls [("resource", .prim (.str "zones")), ("hard_limit", .prim (.int limit))] changes
    originals

theorem deepcopy_same_iff_stored :
    ∃ s' c', deepcopySlot 1 (.ref 0) { heap := [quotaCell 10 ∅ []] } = some (s', c') ∧
      ((∃ m w, read c'.heap m s' = some w ∧ w.view = (quota 10 ∅ []).view) ↔
        (quota 10 ∅ []).OriginalsKept) ∧
      ∀ later, Evolves Cell.refs (c'.heap, addresses [s']) later →
        read later.1 1 (.ref 0) = some (quota 10 ∅ []) :=
  deepcopy_same_iff rfl (by decide)

/-- Of the copy of a quota that was raised from ten to twenty nobody can tell that it was ten. -/
theorem deepcopy_forgets_raise :
    ¬ ∃ s' c' m w,
      deepcopySlot 1 (.ref 0) { heap := [quotaCell 20 {"hard_limit"}
        [("hard_limit", .prim (.int 10))]] } = some (s', c') ∧
      read c'.heap m s' = some w ∧
      w.view = (quota 20 {"hard_limit"} [("hard_limit", .prim (.int 10))]).view := by
  intro ⟨s', c', m, w, hcopy, hread, hview⟩
  have hraised : read [quotaCell 20 {"hard_limit"} [("hard_limit", .prim (.int 10))]] 1 (.ref 0) =
      some (quota 20 {"hard_limit"} [("hard_limit", .prim (.int 10))]) := rfl
  obtain ⟨s'', c'', hcopy', hread', _⟩ := deepcopy_apart hraised (Nat.le_refl 1)
  obtain ⟨rfl, rfl⟩ := Prod.mk.inj (Option.some.inj (hcopy.symm.trans hcopy'))
  rw [read_unique hread hread', view_deepcopy_iff] at hview
  obtain ⟨-, -, horiginal⟩ := hview
  have hlimit := horiginal "hard_limit" (by decide)
  simp [getOriginalValue, quotaCls, Val.view, List.lookup_cons] at hlimit

/-! ## The arguments of a wrapped function -/

/-- Copies of some objects are in new cells, which lead to no others. -/
theorem deepcopyObjects_apart {fuel : Nat} {args given : List Nat} {h' : List (Cell τ)}
    (hcopy : deepcopyObjects fuel h args = some (h', given)) :
    h <+: h' ∧ (∀ a ∈ given, h.length ≤ a) ∧ Sealed Cell.refs h.length h' := by
  rw [deepcopyObjects, Option.bind_eq_bind, Option.bind_eq_some_iff] at hcopy
  obtain ⟨⟨slots, c⟩, hall, hend⟩ := hcopy
  obtain ⟨rfl, rfl⟩ := Prod.mk.inj (Option.some.inj hend)
  have hmemo : MemoOk h { heap := h } := fun _ _ hab => absurd hab (by simp)
  have hnew : FreshFrom h.length { heap := h } :=
    ⟨Nat.le_refl _, sealed_length _ _, fun _ hp => absurd hp List.not_mem_nil⟩
  obtain ⟨hcopied, _⟩ :=
    copyAll_copies (deepcopySlot_copies h fuel) hall List.prefix_rfl hmemo
  obtain ⟨hfresh, _, habove⟩ := copyAll_fresh (deepcopySlot_fresh fuel) hall hnew
  exact ⟨hcopied.grows, addresses_above habove, hfresh.closed⟩

/-- How a wrapped function has its arguments copied, which fails if they are nested too deep. -/
def copier (τ : Type) [DecidableEq τ] {ε : Type} (fuel : Nat) (tooDeep : ε) :
    Retry.Copier (Cell τ) ε where
  refs := Cell.refs
  deepcopy h args :=
    match deepcopyObjects fuel h args with
    | none => .error tooDeep
    | some copies => .ok copies
  grows := by
    intro h args h' given hcopy
    split at hcopy
    · cases hcopy
    · next hsome =>
      cases hcopy
      exact (deepcopyObjects_apart hsome).1
  fresh := by
    intro h args h' given hcopy
    split at hcopy
    · cases hcopy
    · next hsome =>
      cases hcopy
      exact (deepcopyObjects_apart hsome).2.1
  closed := by
    intro h args h' given hcopy
    split at hcopy
    · cases hcopy
    · next hsome =>
      cases hcopy
      exact (deepcopyObjects_apart hsome).2.2

end Objects

end Designate
