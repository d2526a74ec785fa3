import Mathlib.Data.List.Nodup
import Mathlib.Data.List.Perm.Basic

/-!
# Scripts of edits over a keyed table

A script adds cells to a table, and rewrites, keeps or drops the cells under the
keys it names. Its edits are applied one by one; where no key is named twice the
table they leave is what each of them leaves by itself, and the cells nobody names.
New cells have no key, so that no edit of the same script can name them.
-/

namespace Designate

namespace Script

variable {κ δ : Type}

/-- An edit of a table with keys in `κ` and data in `δ`. -/
inductive Edit (κ δ : Type) where
  | add (d : δ)
  | put (k : κ) (d : δ)
  | keep (k : κ)
  | drop (k : κ)

/-- The key an edit names. -/
def Edit.key : Edit κ δ → Option κ
  | add _ => none
  | put k _ => some k
  | keep k => some k
  | drop k => some k

variable [DecidableEq κ]

/-- The table after an edit. -/
def Edit.apply (l : List (Option κ × δ)) : Edit κ δ → List (Option κ × δ)
  | add d => l ++ [(none, d)]
  | put k d => l.map fun c => if c.1 = some k then (c.1, d) else c
  | keep _ => l
  | drop k => l.filter fun c => c.1 ≠ some k

/-- The cells an edit is meant to leave, of a table `l`. -/
def Edit.leaves (l : List (Option κ × δ)) : Edit κ δ → List (Option κ × δ)
  | add d => [(none, d)]
  | put k d => [(some k, d)]
  | keep k => l.filter fun c => c.1 = some k
  | drop _ => []

/-- The table after a script. -/
def run (es : List (Edit κ δ)) (l : List (Option κ × δ)) : List (Option κ × δ) :=
  es.foldl Edit.apply l

/-- The keys a script names. -/
def keys (es : List (Edit κ δ)) : List κ := es.filterMap Edit.key

/-- No edit names the cell. -/
def unnamed (es : List (Edit κ δ)) (c : Option κ × δ) : Bool :=
  decide (∀ k ∈ keys es, c.1 ≠ some k)

omit [DecidableEq κ] in
theorem keys_cons_of_none {e : Edit κ δ} {es : List (Edit κ δ)} (h : e.key = none) :
    keys (e :: es) = keys es := List.filterMap_cons_none h

omit [DecidableEq κ] in
theorem keys_cons_of_some {e : Edit κ δ} {es : List (Edit κ δ)} {k : κ} (h : e.key = some k) :
    keys (e :: es) = k :: keys es := List.filterMap_cons_some h

/-! ## One edit -/

theorem Edit.apply_put {k : κ} {d : δ} {l : List (Option κ × δ)} :
    (Edit.put k d).apply l = l.map fun c => if c.1 = some k then (c.1, d) else c := rfl

theorem Edit.apply_drop {k : κ} {l : List (Option κ × δ)} :
    (Edit.drop k).apply l = l.filter fun c => c.1 ≠ some k := rfl

/-- An edit passes by a cell it does not name. -/
theorem Edit.apply_cons_of_ne {e : Edit κ δ} {c : Option κ × δ} {l : List (Option κ × δ)} {k : κ}
    (he : e.key = some k) (hne : c.1 ≠ some k) : e.apply (c :: l) = c :: e.apply l := by
  cases e with
  | add d => exact absurd he (by simp [Edit.key])
  | put k' d =>
    obtain rfl : k' = k := Option.some.inj he
    rw [apply_put, apply_put, List.map_cons, if_neg hne]
  | keep k' => rfl
  | drop k' =>
    obtain rfl : k' = k := Option.some.inj he
    rw [apply_drop, apply_drop, List.filter_cons_of_pos (by simpa using hne)]

/-- An edit changes no key, and takes away the keys it names only. -/
theorem Edit.apply_keys (e : Edit κ δ) (l : List (Option κ × δ)) :
    ((e.apply l).filterMap Prod.fst).Sublist (l.filterMap Prod.fst) ∧
      ∀ k, e.key ≠ some k → some k ∈ l.map Prod.fst → some k ∈ (e.apply l).map Prod.fst := by
  cases e with
  | add d =>
    refine ⟨by simp [Edit.apply], fun k _ hk => ?_⟩
    rw [Edit.apply, List.map_append]
    exact List.mem_append_left _ hk
  | put k' d =>
    -- a value is replaced where it stands
    have hfst : (Edit.apply l (Edit.put k' d)).map Prod.fst = l.map Prod.fst := by
      rw [Edit.apply, List.map_map]
      refine List.map_congr_left fun c _ => ?_
      show (if c.1 = some k' then (c.1, d) else c).1 = c.1
      split <;> rfl
    refine ⟨?_, fun k _ hk => hfst ▸ hk⟩
    have := congrArg (List.filterMap id) hfst
    rw [List.filterMap_map, List.filterMap_map] at this
    exact this ▸ List.Sublist.refl _
  | keep k' => exact ⟨List.Sublist.refl _, fun k _ hk => hk⟩
  | drop k' =>
    refine ⟨List.Sublist.filterMap _ List.filter_sublist, fun k hne hk => ?_⟩
    obtain ⟨c, hc, he⟩ := List.mem_map.mp hk
    refine List.mem_map.mpr ⟨c, List.mem_filter.mpr ⟨hc, ?_⟩, he⟩
    rw [decide_eq_true_iff, he]
    exact fun h => hne (congrArg some (Option.some.inj h).symm)

/-- The cells under a key that an edit does not name stay. -/
theorem Edit.apply_filter (e : Edit κ δ) (l : List (Option κ × δ)) {k : κ} (h : e.key ≠ some k) :
    (e.apply l).filter (fun c => decide (c.1 = some k)) =
      l.filter fun c => decide (c.1 = some k) := by
  cases e with
  | add d => simp [Edit.apply]
  | put k' d =>
    have hne : k' ≠ k := fun he => h (congrArg some he)
    rw [Edit.apply, List.filter_map]
    -- another key is written, so what stands under this one is not touched
    have hsame : ((fun c : Option κ × δ => decide (c.1 = some k)) ∘
        fun c => if c.1 = some k' then (c.1, d) else c) = fun c => decide (c.1 = some k) := by
      funext c
      simp only [Function.comp_apply]
      split <;> rfl
    rw [hsame]
    refine (List.map_congr_left fun c hc => ?_).trans (List.map_id _)
    have hk : c.1 = some k := of_decide_eq_true (List.mem_filter.mp hc).2
    rw [if_neg (by rw [hk]; exact fun he => hne (Option.some.inj he).symm)]
    rfl
  | keep k' => rfl
  | drop k' =>
    have hne : k' ≠ k := fun he => h (congrArg some he)
    rw [Edit.apply, List.filter_filter]
    refine List.filter_congr fun c _ => ?_
    by_cases hk : c.1 = some k
    · simp [hk, Ne.symm hne]
    · simp [hk]

/-- So an edit leaves the same of the table before and after another one. -/
theorem Edit.leaves_apply (e e' : Edit κ δ) (l : List (Option κ × δ))
    (h : ∀ k, e'.key = some k → e.key ≠ some k) : e'.leaves (e.apply l) = e'.leaves l := by
  cases e' with
  | add d => rfl
  | put k d => rfl
  | keep k => exact e.apply_filter l (h k rfl)
  | drop k => rfl

/-- The cells under `k` apart, the cells that a script does not name are those of the longer one. -/
theorem filter_unnamed {e : Edit κ δ} {es : List (Edit κ δ)} {k : κ} (hk : e.key = some k)
    (hnot : k ∉ keys es) (l : List (Option κ × δ)) :
    (l.filter (unnamed es)).Perm
      (l.filter (fun c => decide (c.1 = some k)) ++ l.filter (unnamed (e :: es))) := by
  have hfirst : (l.filter (unnamed es)).filter (fun c => decide (c.1 = some k)) =
      l.filter fun c => decide (c.1 = some k) := by
    rw [List.filter_filter]
    refine List.filter_congr fun c _ => ?_
    by_cases hc : c.1 = some k
    · have : unnamed es c = true :=
        decide_eq_true fun k' hk' he => hnot (Option.some.inj (hc.symm.trans he) ▸ hk')
      simp [hc, this]
    · simp [hc]
  have hsecond : (l.filter (unnamed es)).filter (fun c => !decide (c.1 = some k)) =
      l.filter (unnamed (e :: es)) := by
    rw [List.filter_filter]
    refine List.filter_congr fun c _ => ?_
    unfold unnamed
    rw [keys_cons_of_some hk]
    by_cases hc : c.1 = some k <;> simp [hc]
  have hsplit := List.filter_append_perm (fun c => decide (c.1 = some k)) (l.filter (unnamed es))
  rw [hfirst, hsecond] at hsplit
  exact hsplit.symm

/-- There is one cell under a key of the table. -/
theorem filter_key {l : List (Option κ × δ)} {k : κ} (hl : (l.filterMap Prod.fst).Nodup)
    (hk : some k ∈ l.map Prod.fst) :
    ∃ d, l.filter (fun c => decide (c.1 = some k)) = [(some k, d)] := by
  induction l with
  | nil => exact absurd hk List.not_mem_nil
  | cons c l ih =>
    obtain ⟨k', d⟩ := c
    by_cases hc : k' = some k
    · subst hc
      rw [List.filterMap_cons_some (f := Prod.fst) (a := (some k, d)) rfl, List.nodup_cons] at hl
      have hrest : l.filter (fun c => decide (c.1 = some k)) = [] := by
        refine List.filter_eq_nil_iff.mpr fun c hm he => hl.1 ?_
        exact List.mem_filterMap.mpr ⟨c, hm, of_decide_eq_true he⟩
      exact ⟨d, by rw [List.filter_cons_of_pos (by simp), hrest]⟩
    · have hl' : (l.filterMap Prod.fst).Nodup :=
        hl.sublist (List.Sublist.filterMap _ (List.sublist_cons_self _ _))
      have hk' : some k ∈ l.map Prod.fst := by
        rcases List.mem_cons.mp hk with he | hk
        · exact absurd he.symm hc
        · exact hk
      rw [List.filter_cons_of_neg (by simpa using hc)]
      exact ih hl' hk'

/-- An edit leaves what it is meant to, and what it does not name. -/
theorem Edit.apply_perm (e : Edit κ δ) (es : List (Edit κ δ)) (l : List (Option κ × δ))
    (hl : (l.filterMap Prod.fst).Nodup) (hnot : ∀ k, e.key = some k → k ∉ keys es)
    (hmem : ∀ k, e.key = some k → some k ∈ l.map Prod.fst) :
    ((e.apply l).filter (unnamed es)).Perm (e.leaves l ++ l.filter (unnamed (e :: es))) := by
  cases e with
  | add d =>
    have hkeys : unnamed (Edit.add d :: es) = unnamed es := by
      funext c
      unfold unnamed
      rw [keys_cons_of_none rfl]
    -- what is added has no key, so no later edit names it
    have hnew : unnamed es ((none, d) : Option κ × δ) = true :=
      decide_eq_true fun k _ he => absurd he (by simp)
    rw [hkeys, Edit.apply, List.filter_append, List.filter_cons_of_pos hnew]
    exact List.perm_append_comm
  | put k d =>
    let f : Option κ × δ → Option κ × δ := fun c => if c.1 = some k then (c.1, d) else c
    have hfst : unnamed es ∘ f = unnamed es := by
      funext c
      show unnamed es (if c.1 = some k then (c.1, d) else c) = unnamed es c
      split <;> rfl
    obtain ⟨d₀, hone⟩ := filter_key hl (hmem k rfl)
    -- the rest has other keys, so writing leaves it
    have hrest : (l.filter (unnamed (Edit.put k d :: es))).map f =
        l.filter (unnamed (Edit.put k d :: es)) := by
      refine (List.map_congr_left fun c hc => if_neg fun he => ?_).trans (List.map_id _)
      have hall := of_decide_eq_true (List.mem_filter.mp hc).2
      rw [keys_cons_of_some (e := Edit.put k d) rfl] at hall
      exact hall k List.mem_cons_self he
    have hperm := (filter_unnamed (e := Edit.put k d) rfl (hnot k rfl) l).map f
    rw [hone, List.map_append, hrest] at hperm
    rw [Edit.apply, List.filter_map]
    show ((l.filter (unnamed es ∘ f)).map f).Perm _
    rw [hfst]
    refine hperm.trans (List.Perm.of_eq ?_)
    show (if some k = some k then _ else _) :: _ = _
    rw [if_pos rfl]
    rfl
  | keep k => exact filter_unnamed rfl (hnot k rfl) l
  | drop k =>
    rw [Edit.apply, List.filter_filter, Edit.leaves, List.nil_append]
    refine List.Perm.of_eq (List.filter_congr fun c _ => ?_)
    unfold unnamed
    rw [keys_cons_of_some (e := Edit.drop k) rfl]
    by_cases hc : c.1 = some k <;> simp [hc]

/-! ## Whole scripts -/

/--
**A script that names no key twice leaves what its edits leave, and the cells it
does not name.** By induction on the script, over all tables that hold its keys.
-/
theorem run_perm {es : List (Edit κ δ)} {l : List (Option κ × δ)}
    (hl : (l.filterMap Prod.fst).Nodup) (hes : (keys es).Nodup)
    (hmem : ∀ k ∈ keys es, some k ∈ l.map Prod.fst) :
    (run es l).Perm (es.flatMap (Edit.leaves l) ++ l.filter (unnamed es)) := by
  induction es generalizing l with
  | nil =>
    have hall : l.filter (unnamed []) = l :=
      List.filter_eq_self.mpr fun c _ => decide_eq_true fun k hk => absurd hk List.not_mem_nil
    rw [hall]
    exact List.Perm.refl l
  | cons e es ih =>
    obtain ⟨hsub, hkept⟩ := e.apply_keys l
    have hfirst : ∀ k, e.key = some k → k ∉ keys es ∧ (keys es).Nodup := by
      intro k hk
      rw [keys_cons_of_some hk, List.nodup_cons] at hes
      exact hes
    have hes' : (keys es).Nodup := by
      cases hk : e.key with
      | none => rwa [keys_cons_of_none hk] at hes
      | some k => exact (hfirst k hk).2
    have hsubset : ∀ k ∈ keys es, k ∈ keys (e :: es) := by
      intro k hk
      cases hke : e.key with
      | none => rwa [keys_cons_of_none hke]
      | some k' => rw [keys_cons_of_some hke]; exact List.mem_cons_of_mem _ hk
    have hother : ∀ k ∈ keys es, e.key ≠ some k := fun k hk he => (hfirst k he).1 hk
    -- what is left of the table by the first edit is the table of the rest
    have hih := ih (l := e.apply l) (hl.sublist hsub) hes' fun k hk =>
      hkept k (hother k hk) (hmem k (hsubset k hk))
    have hleaves : es.flatMap (Edit.leaves (e.apply l)) = es.flatMap (Edit.leaves l) := by
      refine List.flatMap_congr fun e' he' => e.leaves_apply e' l fun k hk => hother k ?_
      exact List.mem_filterMap.mpr ⟨e', he', hk⟩
    have hstep := e.apply_perm es l hl (fun k hk => (hfirst k hk).1) fun k hk =>
      hmem k (by rw [keys_cons_of_some hk]; exact List.mem_cons_self)
    rw [hleaves] at hih
    refine hih.trans ?_
    rw [List.flatMap_cons, List.append_assoc]
    refine (hstep.append_left _).trans ?_
    exact List.perm_append_comm_assoc _ _ _

/-- A script that names every cell leaves what its edits leave. -/
theorem run_perm_of_each {es : List (Edit κ δ)} {l : List (Option κ × δ)}
    (hes : (keys es).Nodup) (hall : ((keys es).map some).Perm (l.map Prod.fst)) :
    (run es l).Perm (es.flatMap (Edit.leaves l)) := by
  have hl : (l.filterMap Prod.fst).Nodup := by
    have hperm := hall.filterMap id
    rw [List.filterMap_map, List.filterMap_map] at hperm
    refine hperm.nodup_iff.mp ?_
    have : (keys es).filterMap (id ∘ some) = keys es := List.filterMap_some
    rwa [this]
  have hnone : l.filter (unnamed es) = [] := by
    refine List.filter_eq_nil_iff.mpr fun c hc hun => ?_
    obtain ⟨k, hk, he⟩ := List.mem_map.mp (hall.mem_iff.mpr (List.mem_map_of_mem hc))
    exact of_decide_eq_true hun k hk he.symm
  have hrun := run_perm hl hes fun k hk => hall.mem_iff.mp (List.mem_map_of_mem hk)
  rwa [hnone, List.append_nil] at hrun

/-! ## Comparing scripts -/

/-- All an edit leaves is under the key it names. -/
theorem Edit.leaves_key {e : Edit κ δ} {l : List (Option κ × δ)} {c : Option κ × δ}
    (hc : c ∈ e.leaves l) : c.1 = e.key := by
  cases e with
  | add d => rw [List.mem_singleton.mp hc]; rfl
  | put k d => rw [List.mem_singleton.mp hc]; rfl
  | keep k => exact of_decide_eq_true (List.mem_filter.mp hc).2
  | drop k => exact absurd hc List.not_mem_nil

/-- Under a key a script leaves what the edit leaves that names it. -/
theorem filter_flatMap {π : Type} {f : π → Edit κ δ} {ps : List π} {l : List (Option κ × δ)}
    {p : π} {k : κ} (hps : (keys (ps.map f)).Nodup) (hp : p ∈ ps) (hk : (f p).key = some k) :
    ((ps.map f).flatMap (Edit.leaves l)).filter (fun c => decide (c.1 = some k)) =
      (f p).leaves l := by
  have hown : ((f p).leaves l).filter (fun c => decide (c.1 = some k)) = (f p).leaves l :=
    List.filter_eq_self.mpr fun c hc => decide_eq_true ((Edit.leaves_key hc).trans hk)
  -- an edit of another key leaves nothing under this one
  have hother : ∀ {qs : List π}, k ∉ keys (qs.map f) →
      ((qs.map f).flatMap (Edit.leaves l)).filter (fun c => decide (c.1 = some k)) = [] := by
    intro qs hnot
    refine List.filter_eq_nil_iff.mpr fun c hc he => hnot ?_
    obtain ⟨e, he', hc⟩ := List.mem_flatMap.mp hc
    exact List.mem_filterMap.mpr ⟨e, he', (Edit.leaves_key hc).symm.trans (of_decide_eq_true he)⟩
  induction ps with
  | nil => exact absurd hp List.not_mem_nil
  | cons q ps ih =>
    rw [List.map_cons] at hps ⊢
    rw [List.flatMap_cons, List.filter_append]
    rcases List.mem_cons.mp hp with rfl | hp
    · rw [keys_cons_of_some hk, List.nodup_cons] at hps
      rw [hown, hother hps.1, List.append_nil]
    · have hkeys : k ∈ keys (ps.map f) :=
        List.mem_filterMap.mpr ⟨f p, List.mem_map_of_mem hp, hk⟩
      have hne : (f q).key ≠ some k := by
        intro he
        rw [keys_cons_of_some he, List.nodup_cons] at hps
        exact hps.1 hkeys
      have hhead : ((f q).leaves l).filter (fun c => decide (c.1 = some k)) = [] := by
        refine List.filter_eq_nil_iff.mpr fun c hc he => hne ?_
        exact (Edit.leaves_key hc).symm.trans (of_decide_eq_true he)
      have hps' : (keys (ps.map f)).Nodup := by
        cases hq : (f q).key with
        | none => rwa [keys_cons_of_none hq] at hps
        | some k' => rw [keys_cons_of_some hq, List.nodup_cons] at hps; exact hps.2
      rw [hhead, List.nil_append]
      exact ih hps' hp

/--
**Two scripts over the same keys, each named once, leave the same exactly if each
pair of their edits does.** They add the same cells.
-/
theorem leaves_perm_iff {π : Type} {f g : π → Edit κ δ} {ps : List π} {l : List (Option κ × δ)}
    (hkeys : ∀ p ∈ ps, (f p).key = (g p).key) (hadds : ∀ p ∈ ps, (f p).key = none → f p = g p)
    (hps : (keys (ps.map f)).Nodup) :
    ((ps.map f).flatMap (Edit.leaves l)).Perm ((ps.map g).flatMap (Edit.leaves l)) ↔
      ∀ p ∈ ps, ((f p).leaves l).Perm ((g p).leaves l) := by
  have hsame : keys (ps.map f) = keys (ps.map g) := by
    unfold keys
    rw [List.filterMap_map, List.filterMap_map]
    exact List.filterMap_congr fun p hp => hkeys p hp
  constructor
  · intro hperm p hp
    cases hk : (f p).key with
    | none => rw [hadds p hp hk]
    | some k =>
      have hfilter := hperm.filter fun c => decide (c.1 = some k)
      rw [filter_flatMap hps hp hk,
        filter_flatMap (hsame ▸ hps) hp ((hkeys p hp).symm.trans hk)] at hfilter
      exact hfilter
  · intro h
    rw [List.flatMap_map, List.flatMap_map]
    exact List.Perm.flatMap_left _ h

end Script

end Designate
