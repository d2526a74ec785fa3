import Designate.Glob
import Mathlib.Data.List.Chain

/-!
# Patterns that accept the same texts

Read back to front, a pattern accepts the texts read back to front. Next to each other, two gaps
are one, and a gap and a blank may change places: a pattern is settled when a gap stands only
behind a letter or at the beginning. Where there are three letters, two settled patterns that
accept the same texts are one pattern. For their shortest texts show all parts but the gaps, and
where one of them has a gap and the other has none, a text that is longer by one letter tells them
apart, as long as the letter is not the one before the gap nor the next one behind it.
-/

namespace Designate

namespace Glob

variable {α : Type} [DecidableEq α] {p q : List (Part α)} {s t : List α}

/-! ## Patterns in two parts -/

theorem accepts_letter {a : α} : accepts [.letter a] s = true ↔ s = [a] := accepts_letters [a] s

theorem accepts_blank : accepts [.blank] s = true ↔ ∃ b, s = [b] := by
  match s with
  | [] => simp [accepts]
  | [b] => simp [accepts]
  | b :: c :: s => simp [accepts]

theorem accepts_gap (s : List α) : accepts [.gap] s = true :=
  List.any_eq_true.mpr ⟨[], (List.mem_tails _ _).mpr List.nil_suffix, rfl⟩

/-- A text is cut where the first part of the pattern ends. -/
theorem accepts_cons {x : Part α} :
    accepts (x :: p) s = true ↔ ∃ u v, s = u ++ v ∧ accepts [x] u = true ∧ accepts p v = true := by
  -- a letter or a blank takes the first character, a gap whatever it likes
  cases x with
  | letter a =>
    constructor
    · intro h
      cases s with
      | nil => exact absurd h (by simp [accepts])
      | cons b s =>
        rw [accepts, Bool.and_eq_true, decide_eq_true_eq] at h
        exact ⟨[b], s, rfl, accepts_letter.mpr (h.1 ▸ rfl), h.2⟩
    · rintro ⟨u, v, rfl, hu, hv⟩
      rw [accepts_letter.mp hu]
      simpa [accepts] using hv
  | blank =>
    constructor
    · intro h
      cases s with
      | nil => exact absurd h (by simp [accepts])
      | cons b s => exact ⟨[b], s, rfl, accepts_blank.mpr ⟨b, rfl⟩, h⟩
    · rintro ⟨u, v, rfl, hu, hv⟩
      obtain ⟨b, rfl⟩ := accepts_blank.mp hu
      exact hv
  | gap =>
    rw [accepts, List.any_eq_true]
    constructor
    · rintro ⟨v, hv, h⟩
      obtain ⟨u, rfl⟩ := (List.mem_tails _ _).mp hv
      exact ⟨u, v, rfl, accepts_gap u, h⟩
    · rintro ⟨u, v, rfl, -, hv⟩
      exact ⟨v, (List.mem_tails _ _).mpr (List.suffix_append u v), hv⟩

theorem accepts_append :
    accepts (p ++ q) s = true ↔ ∃ u v, s = u ++ v ∧ accepts p u = true ∧ accepts q v = true := by
  induction p generalizing s with
  | nil =>
    constructor
    · exact fun h => ⟨[], s, rfl, rfl, h⟩
    · rintro ⟨u, v, rfl, hu, hv⟩
      rw [List.isEmpty_iff.mp hu]
      exact hv
  | cons x p ih =>
    rw [List.cons_append, accepts_cons]
    constructor
    · rintro ⟨u, w, rfl, hu, hw⟩
      obtain ⟨v, w, rfl, hv, hw⟩ := ih.mp hw
      exact ⟨u ++ v, w, (List.append_assoc ..).symm, accepts_cons.mpr ⟨u, v, rfl, hu, hv⟩, hw⟩
    · rintro ⟨w, v, rfl, hw, hv⟩
      obtain ⟨u, w, rfl, hu, hw⟩ := accepts_cons.mp hw
      exact ⟨u, w ++ v, List.append_assoc .., hu, ih.mpr ⟨w, v, rfl, hw, hv⟩⟩

/-- One part accepts a text in either direction. -/
theorem accepts_one_reverse (x : Part α) (s : List α) : accepts [x] s.reverse = accepts [x] s := by
  rw [Bool.eq_iff_iff]
  cases x with
  | letter a => rw [accepts_letter, accepts_letter, List.reverse_eq_iff, List.reverse_singleton]
  | blank =>
    rw [accepts_blank, accepts_blank]
    refine exists_congr fun b => ?_
    rw [List.reverse_eq_iff, List.reverse_singleton]
  | gap => exact iff_of_true (accepts_gap _) (accepts_gap _)

/-- **Back to front, a pattern accepts the texts back to front.** By induction on the pattern. -/
theorem accepts_reverse (p : List (Part α)) (s : List α) :
    accepts p.reverse s.reverse = accepts p s := by
  induction p generalizing s with
  | nil => cases s <;> simp [accepts]
  | cons x p ih =>
    rw [Bool.eq_iff_iff, List.reverse_cons, accepts_append, accepts_cons]
    constructor
    · rintro ⟨v, u, hs, hv, hu⟩
      refine ⟨u.reverse, v.reverse, ?_, ?_, ?_⟩
      · rw [← List.reverse_append, ← hs, List.reverse_reverse]
      · rwa [accepts_one_reverse]
      · rwa [← ih, List.reverse_reverse]
    · rintro ⟨u, v, rfl, hu, hv⟩
      exact ⟨v.reverse, u.reverse, List.reverse_append, (ih v).trans hv,
        (accepts_one_reverse x u).trans hu⟩

/-! ## Settled patterns -/

/-- A gap stands only behind a letter or at the beginning. -/
def Settled (p : List (Part α)) : Prop := p.IsChain fun x y => y = .gap → ∃ a, x = .letter a

/-- A part put in front of a settled pattern. -/
def push (x : Part α) : List (Part α) → List (Part α)
  | .gap :: p =>
    match x with
    | .letter a => .letter a :: .gap :: p
    | .blank => .gap :: .blank :: p
    | .gap => .gap :: p
  | p => x :: p

def settle (p : List (Part α)) : List (Part α) := p.foldr push []

theorem accepts_blank_gap : accepts [.blank, .gap] s = true ↔ s ≠ [] := by
  cases s with
  | nil => simp [accepts]
  | cons b s => exact iff_of_true (accepts_gap s) (List.cons_ne_nil b s)

/-- The first parts of a pattern may be changed for others that accept the same. -/
theorem accepts_front {a b : List (Part α)} (h : ∀ u, accepts a u = accepts b u) (p : List (Part α))
    (s : List α) : accepts (a ++ p) s = accepts (b ++ p) s := by
  rw [Bool.eq_iff_iff, accepts_append, accepts_append]
  simp only [h]

theorem accepts_push (x : Part α) (p : List (Part α)) (s : List α) :
    accepts (push x p) s = accepts (x :: p) s := by
  match p with
  | [] => rfl
  | .letter a :: p => rfl
  | .blank :: p => rfl
  | .gap :: p =>
    cases x with
    | letter a => rfl
    | blank =>
      have hswap : ∀ u : List α, accepts [.gap, .blank] u = accepts [.blank, .gap] u := by
        intro u
        rw [← accepts_reverse, Bool.eq_iff_iff]
        refine accepts_blank_gap.trans (Iff.trans ?_ accepts_blank_gap.symm)
        rw [Ne, List.reverse_eq_nil_iff]
      exact accepts_front hswap p s
    | gap =>
      have hone : ∀ u : List α, accepts [.gap] u = accepts [.gap, .gap] u := by
        intro u
        rw [accepts_gap, eq_comm, accepts_cons]
        exact ⟨[], u, rfl, accepts_gap _, accepts_gap _⟩
      exact accepts_front hone p s

theorem accepts_settle (p : List (Part α)) (s : List α) : accepts (settle p) s = accepts p s := by
  induction p generalizing s with
  | nil => rfl
  | cons x p ih =>
    change accepts (push x (settle p)) s = _
    rw [accepts_push, Bool.eq_iff_iff, accepts_cons, accepts_cons]
    simp only [ih]

section

omit [DecidableEq α]

/-- Anything may stand before what is no gap. -/
theorem settled_cons {x : Part α} (hhead : p.head? ≠ some .gap) (h : Settled p) :
    Settled (x :: p) := by
  refine List.isChain_cons.mpr ⟨?_, h⟩
  intro y hy he
  exact absurd (he ▸ hy) hhead

theorem Settled.head_of_gap (h : Settled (.gap :: p)) : p.head? ≠ some .gap := by
  intro hhead
  obtain ⟨a, ha⟩ := (List.isChain_cons.mp h).1 .gap hhead rfl
  cases ha

theorem settled_push (x : Part α) (h : Settled p) : Settled (push x p) := by
  match p with
  | [] => exact List.isChain_singleton _
  | .letter a :: p => exact settled_cons (by simp) h
  | .blank :: p => exact settled_cons (by simp) h
  | .gap :: p =>
    cases x with
    | letter a => exact List.isChain_cons_cons.mpr ⟨fun _ => ⟨a, rfl⟩, h⟩
    | blank => exact settled_cons (by simp) (settled_cons h.head_of_gap h.tail)
    | gap => exact h

theorem settled_settle (p : List (Part α)) : Settled (settle p) := by
  induction p with
  | nil => exact List.isChain_nil
  | cons x p ih => exact settled_push x ih

end

/-! ## What the shortest texts show -/

/-- The parts but the gaps. -/
def solid (p : List (Part α)) : List (Part α) := p.filter (· ≠ .gap)

theorem filled_solid (d : α) (p : List (Part α)) : filled d (solid p) = filled d p := by
  induction p with
  | nil => rfl
  | cons x p ih => cases x <;> simpa [solid, filled] using ih

theorem length_filled (d : α) (p : List (Part α)) : (filled d p).length = (solid p).length := by
  induction p with
  | nil => rfl
  | cons x p ih => cases x <;> simpa [solid, filled] using ih

/-- A text is no shorter than the pattern, and one that is as short leaves nothing to the gaps. -/
theorem accepts_solid (h : accepts p s = true) :
    (solid p).length ≤ s.length ∧ ((solid p).length = s.length → accepts (solid p) s = true) := by
  induction p generalizing s with
  | nil => exact ⟨Nat.zero_le _, fun _ => h⟩
  | cons x p ih =>
    obtain ⟨u, v, rfl, hu, hv⟩ := accepts_cons.mp h
    obtain ⟨hle, heq⟩ := ih hv
    rw [List.length_append]
    cases x with
    | letter a =>
      rw [accepts_letter.mp hu]
      have hsolid : solid (.letter a :: p) = .letter a :: solid p := rfl
      rw [hsolid, List.length_cons, List.length_singleton]
      refine ⟨by omega, fun hlen => accepts_cons.mpr ⟨[a], v, rfl, accepts_letter.mpr rfl, ?_⟩⟩
      exact heq (by omega)
    | blank =>
      obtain ⟨b, rfl⟩ := accepts_blank.mp hu
      have hsolid : solid (.blank :: p) = .blank :: solid p := rfl
      rw [hsolid, List.length_cons, List.length_singleton]
      refine ⟨by omega, fun hlen => heq (by omega)⟩
    | gap =>
      have hsolid : solid (.gap :: p) = solid p := rfl
      rw [hsolid]
      refine ⟨by omega, fun hlen => ?_⟩
      -- the text has no character to spare for the gap
      have hnil : u = [] := List.length_eq_zero_iff.mp (by omega)
      rw [hnil, List.nil_append]
      exact heq (by omega)

/-- Patterns without gaps that accept each other filled are one pattern. By induction on both. -/
theorem eq_of_accepts_filled [Nontrivial α] (hp : .gap ∉ p) (hq : .gap ∉ q)
    (hpq : ∀ d, accepts q (filled d p) = true) (hqp : ∀ d, accepts p (filled d q) = true) : p = q := by
  obtain ⟨e, f, hne⟩ := exists_pair_ne α
  induction p generalizing q with
  | nil =>
    cases q with
    | nil => rfl
    | cons y q =>
      cases y with
      | letter b => exact absurd (hqp e) (by simp [accepts, filled])
      | blank => exact absurd (hqp e) (by simp [accepts, filled])
      | gap => exact absurd List.mem_cons_self hq
  | cons x p ih =>
    rw [List.mem_cons, not_or] at hp
    cases q with
    | nil =>
      cases x with
      | letter a => exact absurd (hpq e) (by simp [accepts, filled])
      | blank => exact absurd (hpq e) (by simp [accepts, filled])
      | gap => exact absurd rfl hp.1
    | cons y q =>
      rw [List.mem_cons, not_or] at hq
      cases x with
      | letter a =>
        cases y with
        | letter b =>
          simp only [filled, accepts, Bool.and_eq_true, decide_eq_true_eq] at hpq hqp
          rw [(hqp e).1, ih hp.2 hq.2 (fun d => (hpq d).2) fun d => (hqp d).2]
        | blank =>
          -- whatever fills the blank is the letter
          simp only [filled, accepts, Bool.and_eq_true, decide_eq_true_eq] at hqp
          exact absurd ((hqp e).1.symm.trans (hqp f).1) hne
        | gap => exact absurd rfl hq.1
      | blank =>
        cases y with
        | letter b =>
          simp only [filled, accepts, Bool.and_eq_true, decide_eq_true_eq] at hpq
          exact absurd ((hpq e).1.symm.trans (hpq f).1) hne
        | blank =>
          simp only [filled, accepts] at hpq hqp
          rw [ih hp.2 hq.2 hpq hqp]
        | gap => exact absurd rfl hq.1
      | gap => exact absurd rfl hp.1

theorem gap_not_mem_solid (p : List (Part α)) : .gap ∉ solid p := by
  simp [solid]

/-- Patterns that accept the same texts differ in gaps only. -/
theorem solid_eq_of_accepts [Nontrivial α] (h : ∀ s, accepts p s = accepts q s) :
    solid p = solid q := by
  have hpq : ∀ d, accepts q (filled d p) = true := fun d => (h _).symm.trans (accepts_filled d p)
  have hqp : ∀ d, accepts p (filled d q) = true := fun d => (h _).trans (accepts_filled d q)
  obtain ⟨e, -, -⟩ := exists_pair_ne α
  have hlen : (solid p).length = (solid q).length := by
    have hle := (accepts_solid (hpq e)).1
    have hge := (accepts_solid (hqp e)).1
    rw [length_filled] at hle hge
    exact Nat.le_antisymm hge hle
  refine eq_of_accepts_filled (gap_not_mem_solid p) (gap_not_mem_solid q) (fun d => ?_) fun d => ?_
  · rw [filled_solid]
    exact (accepts_solid (hpq d)).2 (by rw [length_filled, hlen])
  · rw [filled_solid]
    exact (accepts_solid (hqp d)).2 (by rw [length_filled, hlen])

/-! ## What one letter more shows -/

/-- The letter behind the blanks at the beginning. -/
def nextLetter : List (Part α) → Option α
  | .letter a :: _ => some a
  | .blank :: p => nextLetter p
  | _ => none

/-- Where patterns that differ in gaps only come apart, one has a gap and the other has none. -/
theorem exists_difference (h : solid p = solid q) (hne : p ≠ q) :
    ∃ c p' q', (p = c ++ .gap :: p' ∧ q = c ++ q' ∨ q = c ++ .gap :: p' ∧ p = c ++ q') ∧
      q'.head? ≠ some .gap ∧ solid p' = solid q' := by
  induction p generalizing q with
  | nil =>
    cases q with
    | nil => exact absurd rfl hne
    | cons y q =>
      cases y with
      | letter b => exact absurd h (by simp [solid])
      | blank => exact absurd h (by simp [solid])
      | gap => exact ⟨[], q, [], Or.inr ⟨rfl, rfl⟩, by simp, h.symm⟩
  | cons x p ih =>
    cases q with
    | nil =>
      cases x with
      | letter b => exact absurd h (by simp [solid])
      | blank => exact absurd h (by simp [solid])
      | gap => exact ⟨[], p, [], Or.inl ⟨rfl, rfl⟩, by simp, h⟩
    | cons y q =>
      by_cases hxy : x = y
      · subst hxy
        -- a common part in front is kept, and the difference lies behind it
        have hsolid : solid p = solid q := by
          cases x with
          | letter a => exact (List.cons.inj h).2
          | blank => exact (List.cons.inj h).2
          | gap => exact h
        obtain ⟨c, p', q', heq, hrest⟩ := ih hsolid fun he => hne (congrArg _ he)
        refine ⟨x :: c, p', q', ?_, hrest⟩
        rcases heq with ⟨rfl, rfl⟩ | ⟨rfl, rfl⟩
        · exact Or.inl ⟨rfl, rfl⟩
        · exact Or.inr ⟨rfl, rfl⟩
      · by_cases hx : x = .gap
        · subst hx
          exact ⟨[], p, y :: q, Or.inl ⟨rfl, rfl⟩, by simpa using Ne.symm hxy, h⟩
        · by_cases hy : y = .gap
          · subst hy
            exact ⟨[], q, x :: p, Or.inr ⟨rfl, rfl⟩, by simpa using hx, h.symm⟩
          · -- neither is a gap, and then the solid parts would differ already here
            have hboth : x :: solid p = y :: solid q := by simpa [solid, hx, hy] using h
            exact absurd (List.cons.inj hboth).1 hxy

/-- A pattern without a gap at the beginning has no room for one letter more there. -/
theorem not_accepts_more {d : α} (hp : Settled p) (hhead : p.head? ≠ some .gap)
    (hnext : nextLetter p ≠ some d) : accepts p (d :: filled d p) = false := by
  induction p with
  | nil => rfl
  | cons x p ih =>
    cases x with
    | letter a =>
      have hne : a ≠ d := fun he => hnext (congrArg some he)
      simp [accepts, hne]
    | blank =>
      have hrest : p.head? ≠ some .gap := by
        intro hgap
        obtain ⟨a, ha⟩ := (List.isChain_cons.mp hp).1 .gap hgap rfl
        cases ha
      exact ih hp.tail hrest hnext
    | gap => exact absurd rfl hhead

/-- A pattern that ends in a letter accepts no text that ends in another one. -/
theorem last_of_accepts {a d : α} {c : List (Part α)} {u : List α}
    (h : accepts (c ++ [.letter a]) (u ++ [d]) = true) : a = d := by
  obtain ⟨v, w, hs, -, hw⟩ := accepts_append.mp h
  rw [accepts_letter.mp hw] at hs
  exact (List.singleton_inj.mp (List.append_inj_right' hs rfl)).symm

/-- **A gap that the other pattern does not have.** -/
theorem told_apart {c p' q' : List (Part α)} {d : α} (hp : Settled (c ++ .gap :: p'))
    (hq : Settled (c ++ q')) (hhead : q'.head? ≠ some .gap) (hsolid : solid p' = solid q')
    (hlast : c.getLast? ≠ some (.letter d)) (hnext : nextLetter q' ≠ some d) :
    accepts (c ++ .gap :: p') (filled d c ++ d :: filled d p') = true ∧
      accepts (c ++ q') (filled d c ++ d :: filled d p') = false := by
  have hfilled : filled d p' = filled d q' := by
    rw [← filled_solid, hsolid, filled_solid]
  constructor
  · refine accepts_append.mpr ⟨_, _, rfl, accepts_filled d c, ?_⟩
    exact accepts_cons.mpr ⟨[d], _, rfl, accepts_gap _, accepts_filled d p'⟩
  · rw [Bool.eq_false_iff]
    intro h
    obtain ⟨u, v, hs, hu, hv⟩ := accepts_append.mp h
    -- the letter more goes to one of the two halves
    have hlen := congrArg List.length hs
    have hule := (accepts_solid hu).1
    have hvle := (accepts_solid hv).1
    rw [List.length_append, List.length_append, List.length_cons, hfilled, length_filled,
      length_filled] at hlen
    rcases Nat.lt_or_ge (solid c).length u.length with hlt | hge
    · have hrest : v.length = (filled d p').length := by
        rw [hfilled, length_filled]
        omega
      rw [List.append_cons] at hs
      obtain ⟨hu', -⟩ := List.append_inj' hs hrest.symm
      rw [← hu'] at hu
      rcases List.eq_nil_or_concat c with rfl | ⟨c', x, rfl⟩
      · exact absurd hu (by simp [accepts, filled])
      · rw [List.concat_eq_append] at hp hu hlast
        rw [List.append_assoc, List.singleton_append] at hp
        obtain ⟨a, rfl⟩ := (List.isChain_append_cons_cons.mp hp).2.1 rfl
        have had := last_of_accepts hu
        rw [List.getLast?_concat, had] at hlast
        exact hlast rfl
    · have hfirst : (filled d c).length = u.length := by
        rw [length_filled]
        omega
      obtain ⟨-, hv'⟩ := List.append_inj hs hfirst
      rw [← hv', hfilled, not_accepts_more (List.isChain_append.mp hq).2.1 hhead hnext] at hv
      cases hv

omit [DecidableEq α] in
/-- Among three letters one is neither the last of one pattern nor the next of another one. -/
theorem exists_letter [Nontrivial α] (hthree : ∀ a b : α, ∃ d, d ≠ a ∧ d ≠ b) (c q : List (Part α)) :
    ∃ d, c.getLast? ≠ some (.letter d) ∧ nextLetter q ≠ some d := by
  obtain ⟨e, -, -⟩ := exists_pair_ne α
  have hlast : ∃ a, ∀ d, d ≠ a → c.getLast? ≠ some (.letter d) := by
    rcases hc : c.getLast? with _ | ⟨a | _ | _⟩
    · exact ⟨e, by simp⟩
    · exact ⟨a, fun d hd => by simpa using Ne.symm hd⟩
    · exact ⟨e, by simp⟩
    · exact ⟨e, by simp⟩
  have hnext : ∃ b, ∀ d, d ≠ b → nextLetter q ≠ some d := by
    rcases nextLetter q with _ | b
    · exact ⟨e, by simp⟩
    · exact ⟨b, fun d hd => by simpa using Ne.symm hd⟩
  obtain ⟨a, ha⟩ := hlast
  obtain ⟨b, hb⟩ := hnext
  obtain ⟨d, hda, hdb⟩ := hthree a b
  exact ⟨d, ha d hda, hb d hdb⟩

/-- **Settled patterns that accept the same texts are one pattern.** -/
theorem eq_of_accepts [Nontrivial α] (hthree : ∀ a b : α, ∃ d, d ≠ a ∧ d ≠ b) (hp : Settled p)
    (hq : Settled q) (h : ∀ s, accepts p s = accepts q s) : p = q := by
  by_contra hne
  obtain ⟨c, p', q', heq, hhead, hsolid⟩ := exists_difference (solid_eq_of_accepts h) hne
  obtain ⟨d, hlast, hnext⟩ := exists_letter hthree c q'
  rcases heq with ⟨rfl, rfl⟩ | ⟨rfl, rfl⟩
  · obtain ⟨hyes, hno⟩ := told_apart hp hq hhead hsolid hlast hnext
    rw [h, hno] at hyes
    cases hyes
  · obtain ⟨hyes, hno⟩ := told_apart hq hp hhead hsolid hlast hnext
    rw [← h, hno] at hyes
    cases hyes

/-- Patterns accept the same texts exactly when they are settled alike. -/
theorem accepts_eq_iff [Nontrivial α] (hthree : ∀ a b : α, ∃ d, d ≠ a ∧ d ≠ b) :
    (∀ s, accepts p s = accepts q s) ↔ settle p = settle q := by
  constructor
  · intro h
    refine eq_of_accepts hthree (settled_settle p) (settled_settle q) fun s => ?_
    rw [accepts_settle, accepts_settle, h]
  · intro h s
    rw [← accepts_settle p, h, accepts_settle]

end Glob

end Designate
