import Mathlib.Data.List.Basic
import Mathlib.Data.List.Flatten

/-!
# Regular expressions that look around

An expression is matched at a place in a text: some letters lie behind it, the others before
it. Anchors and looks around ask about the place and take nothing. An expression that takes
one of some words, wherever it stands, can be told by these words, and put together with others
by what holds of words; a look at the next letter or at the last one is then a condition on the
word that is taken after it or before it.
-/

namespace Designate

/-- An expression over letters of a type. -/
inductive Regex (α : Type) where
  /-- One letter of a class. -/
  | one (p : α → Bool)
  /-- The beginning of the text. -/
  | start
  /-- The end of the text. -/
  | stop
  | seq (r s : Regex α)
  | alt (r s : Regex α)
  /-- So many times at least, and at most if there is a bound. -/
  | rep (r : Regex α) (min : Nat) (max : Option Nat)
  /-- What does not come next. -/
  | notAhead (r : Regex α)
  /-- The letter that has not just come. -/
  | notBehind (p : α → Bool)

namespace Regex

variable {α : Type}

instance : Append (Regex α) := ⟨seq⟩

/-- A place in a text: the letters behind it, the nearest one first, and those before it. -/
structure Place (α : Type) where
  behind : List α
  ahead : List α

/-- A relation, so many times in a row. -/
def Times {β : Type} (R : β → β → Prop) : Nat → β → β → Prop
  | 0, i, j => j = i
  | n + 1, i, j => ∃ k, R i k ∧ Times R n k j

/-- The expression can be matched from one place to another. -/
def Matches : Regex α → Place α → Place α → Prop
  | one p, i, j => ∃ a s, i.ahead = a :: s ∧ p a = true ∧ j = ⟨a :: i.behind, s⟩
  | start, i, j => i.behind = [] ∧ j = i
  | stop, i, j => i.ahead = [] ∧ j = i
  | seq r s, i, j => ∃ k, r.Matches i k ∧ s.Matches k j
  | alt r s, i, j => r.Matches i j ∨ s.Matches i j
  | rep r min max, i, j =>
    ∃ n, min ≤ n ∧ (∀ m, max = some m → n ≤ m) ∧ Times r.Matches n i j
  | notAhead r, i, j => (∀ k, ¬ r.Matches i k) ∧ j = i
  | notBehind p, i, j => (∀ a, i.behind.head? = some a → p a = false) ∧ j = i

/-- `re.match`: the expression matches from the beginning of a text. -/
def Accepts (r : Regex α) (text : List α) : Prop := ∃ j, r.Matches ⟨[], text⟩ j

/-! ## Words -/

/-- The place after a word. -/
def Place.after (i : Place α) (w s : List α) : Place α := ⟨w.reverse ++ i.behind, s⟩

/--
Where the letters behind satisfy `P`, the expression takes one of the words of `L`, and any of
them that comes next.
-/
def Reads (P : List α → Prop) (r : Regex α) (L : List α → Prop) : Prop :=
  ∀ i j : Place α, P i.behind →
    (r.Matches i j ↔ ∃ w s, L w ∧ i.ahead = w ++ s ∧ j = i.after w s)

/-- Anywhere. -/
def Anywhere : List α → Prop := fun _ => True

variable {P Q : List α → Prop} {r s : Regex α} {L M : List α → Prop} {p : α → Bool}

theorem Reads.mono (h : Reads Q r L) (hPQ : ∀ b, P b → Q b) : Reads P r L :=
  fun i j hi => h i j (hPQ _ hi)

theorem Reads.congr (h : Reads P r L) (hLM : ∀ w, L w ↔ M w) : Reads P r M := by
  intro i j hi
  rw [h i j hi]
  simp only [hLM]

theorem reads_one (p : α → Bool) :
    Reads P (one p) fun w => ∃ a, w = [a] ∧ p a = true := by
  intro i j _
  constructor
  · rintro ⟨a, s, hahead, ha, rfl⟩
    exact ⟨[a], s, ⟨a, rfl, ha⟩, hahead, rfl⟩
  · rintro ⟨w, s, ⟨a, rfl, ha⟩, hahead, rfl⟩
    exact ⟨a, s, hahead, ha, rfl⟩

theorem Place.after_after (i : Place α) (w v s t : List α) :
    (i.after w s).after v t = i.after (w ++ v) t := by
  unfold Place.after
  rw [List.reverse_append, List.append_assoc]

/-- One after the other. -/
theorem Reads.seq (hr : Reads P r L) (hs : Reads Q s M)
    (hPQ : ∀ b w, P b → L w → Q (w.reverse ++ b)) :
    Reads P (r ++ s) fun w => ∃ u v, w = u ++ v ∧ L u ∧ M v := by
  intro i j hi
  constructor
  · rintro ⟨k, hk, hj⟩
    obtain ⟨u, t, hu, hahead, rfl⟩ := (hr i k hi).mp hk
    obtain ⟨v, t', hv, hahead', rfl⟩ := (hs _ j (hPQ _ _ hi hu)).mp hj
    have ht : t = v ++ t' := hahead'
    refine ⟨u ++ v, t', ⟨u, v, rfl, hu, hv⟩, ?_, i.after_after u v t t'⟩
    rw [hahead, ht, List.append_assoc]
  · rintro ⟨w, t, ⟨u, v, rfl, hu, hv⟩, hahead, rfl⟩
    refine ⟨i.after u (v ++ t), (hr i _ hi).mpr ⟨u, v ++ t, hu, ?_, rfl⟩, ?_⟩
    · rw [hahead, List.append_assoc]
    · exact (hs _ _ (hPQ _ _ hi hu)).mpr ⟨v, t, hv, rfl, (i.after_after u v (v ++ t) t).symm⟩

theorem Reads.alt (hr : Reads P r L) (hs : Reads P s M) :
    Reads P (alt r s) fun w => L w ∨ M w := by
  intro i j hi
  constructor
  · rintro (h | h)
    · obtain ⟨w, t, hw, hahead, hj⟩ := (hr i j hi).mp h
      exact ⟨w, t, Or.inl hw, hahead, hj⟩
    · obtain ⟨w, t, hw, hahead, hj⟩ := (hs i j hi).mp h
      exact ⟨w, t, Or.inr hw, hahead, hj⟩
  · rintro ⟨w, t, hw | hw, hahead, hj⟩
    · exact Or.inl ((hr i j hi).mpr ⟨w, t, hw, hahead, hj⟩)
    · exact Or.inr ((hs i j hi).mpr ⟨w, t, hw, hahead, hj⟩)

/-- So many words in a row. By induction on how many. -/
theorem Reads.times (hr : Reads P r L) (hP : ∀ b w, P b → L w → P (w.reverse ++ b)) (n : Nat)
    (i j : Place α) (hi : P i.behind) :
    Times r.Matches n i j ↔
      ∃ (ws : List (List α)) (s : List α), ws.length = n ∧ (∀ w ∈ ws, L w) ∧
        i.ahead = ws.flatten ++ s ∧ j = i.after ws.flatten s := by
  induction n generalizing i with
  | zero =>
    constructor
    · rintro rfl
      exact ⟨[], j.ahead, rfl, fun w hw => absurd hw List.not_mem_nil, rfl, rfl⟩
    · rintro ⟨ws, s, hlen, -, hahead, rfl⟩
      obtain rfl := List.length_eq_zero_iff.mp hlen
      have hs : i.ahead = s := hahead
      rw [← hs]
      rfl
  | succ n ih =>
    constructor
    · rintro ⟨k, hk, hrest⟩
      obtain ⟨w, t, hw, hahead, rfl⟩ := (hr i k hi).mp hk
      obtain ⟨ws, s, hlen, hall, hahead', rfl⟩ := (ih _ (hP _ _ hi hw)).mp hrest
      -- the rest is read from behind the first word
      have ht : t = ws.flatten ++ s := hahead'
      refine ⟨w :: ws, s, by rw [List.length_cons, hlen], ?_, ?_, ?_⟩
      · intro v hv
        rcases List.mem_cons.mp hv with rfl | hv
        · exact hw
        · exact hall v hv
      · rw [hahead, ht, List.flatten_cons, List.append_assoc]
      · rw [List.flatten_cons]
        exact i.after_after w ws.flatten t s
    · rintro ⟨ws, s, hlen, hall, hahead, rfl⟩
      cases ws with
      | nil => exact absurd hlen (by simp)
      | cons w ws =>
        have hw : L w := hall w List.mem_cons_self
        rw [List.flatten_cons, List.append_assoc] at hahead
        refine ⟨i.after w (ws.flatten ++ s), (hr i _ hi).mpr ⟨w, _, hw, hahead, rfl⟩, ?_⟩
        refine (ih _ (hP _ _ hi hw)).mpr
          ⟨ws, s, by simpa using hlen, fun v hv => hall v (List.mem_cons_of_mem _ hv), rfl, ?_⟩
        rw [List.flatten_cons]
        exact (i.after_after w ws.flatten _ s).symm

/-- As many words as the bounds allow. -/
theorem Reads.rep (hr : Reads P r L) (hP : ∀ b w, P b → L w → P (w.reverse ++ b)) (min : Nat)
    (max : Option Nat) :
    Reads P (rep r min max) fun w =>
      ∃ ws : List (List α), w = ws.flatten ∧ (∀ v ∈ ws, L v) ∧ min ≤ ws.length ∧
        ∀ m, max = some m → ws.length ≤ m := by
  intro i j hi
  constructor
  · rintro ⟨n, hmin, hmax, htimes⟩
    obtain ⟨ws, s, rfl, hall, hahead, hj⟩ := (hr.times hP n i j hi).mp htimes
    exact ⟨ws.flatten, s, ⟨ws, rfl, hall, hmin, hmax⟩, hahead, hj⟩
  · rintro ⟨w, s, ⟨ws, rfl, hall, hmin, hmax⟩, hahead, hj⟩
    exact ⟨ws.length, hmin, hmax, (hr.times hP _ i j hi).mpr ⟨ws, s, rfl, hall, hahead, hj⟩⟩

/-- One word first, which may be one that comes at the beginning only, and others after it. -/
theorem Reads.rep_head (hr : Reads P r L) (hs : Reads Q r M)
    (hPQ : ∀ b w, P b → L w → Q (w.reverse ++ b)) (hQ : ∀ b w, Q b → M w → Q (w.reverse ++ b)) :
    Reads P (Regex.rep r 1 none) fun w =>
      ∃ (u : List α) (ws : List (List α)), w = u ++ ws.flatten ∧ L u ∧ ∀ v ∈ ws, M v := by
  intro i j hi
  constructor
  · rintro ⟨n, hmin, -, htimes⟩
    cases n with
    | zero => exact absurd hmin (by omega)
    | succ n =>
      obtain ⟨k, hk, hrest⟩ := htimes
      obtain ⟨u, t, hu, hahead, rfl⟩ := (hr i k hi).mp hk
      obtain ⟨ws, s, -, hall, hahead', rfl⟩ := (hs.times hQ n _ j (hPQ _ _ hi hu)).mp hrest
      have ht : t = ws.flatten ++ s := hahead'
      refine ⟨u ++ ws.flatten, s, ⟨u, ws, rfl, hu, hall⟩, ?_, i.after_after u ws.flatten t s⟩
      rw [hahead, ht, List.append_assoc]
  · rintro ⟨w, s, ⟨u, ws, rfl, hu, hall⟩, hahead, rfl⟩
    rw [List.append_assoc] at hahead
    refine ⟨ws.length + 1, by omega, nofun, i.after u (ws.flatten ++ s), ?_, ?_⟩
    · exact (hr i _ hi).mpr ⟨u, _, hu, hahead, rfl⟩
    · exact (hs.times hQ _ _ _ (hPQ _ _ hi hu)).mpr
        ⟨ws, s, rfl, hall, rfl, (i.after_after u ws.flatten _ s).symm⟩

/-- Letters of a class, one after the other. -/
theorem reads_class (p : α → Bool) (min : Nat) (max : Option Nat) :
    Reads P (rep (one p) min max) fun w =>
      w.all p = true ∧ min ≤ w.length ∧ ∀ m, max = some m → w.length ≤ m := by
  refine Reads.mono (Q := Anywhere) (Reads.congr (Reads.rep (reads_one p) (fun _ _ _ _ => trivial)
    min max) fun w => ?_) fun _ _ => trivial
  constructor
  · rintro ⟨ws, rfl, hall, hmin, hmax⟩
    -- each word is one letter, so counting words is counting letters
    have hone : ∀ v ∈ ws, v.length = 1 := by
      intro v hv
      obtain ⟨a, rfl, -⟩ := hall v hv
      rfl
    have hlen : ws.flatten.length = ws.length := by
      rw [List.length_flatten, List.map_congr_left hone]
      simp
    refine ⟨List.all_eq_true.mpr fun a ha => ?_, by rwa [hlen], by rwa [hlen]⟩
    obtain ⟨v, hv, hav⟩ := List.mem_flatten.mp ha
    obtain ⟨b, rfl, hb⟩ := hall v hv
    rw [List.mem_singleton.mp hav]
    exact hb
  · rintro ⟨hall, hmin, hmax⟩
    refine ⟨w.map fun a => [a], ?_, ?_, by simpa using hmin, by simpa using hmax⟩
    · rw [← List.flatMap_def, List.flatMap_singleton']
    · intro v hv
      obtain ⟨a, ha, rfl⟩ := List.mem_map.mp hv
      exact ⟨a, rfl, List.all_eq_true.mp hall a ha⟩

/-! ## Looks around -/

/-- The anchor takes nothing at the beginning of a text. -/
theorem Reads.start (hr : Reads P r L) (hP : ∀ b, P b → b = []) : Reads P (Regex.start ++ r) L := by
  intro i j hi
  rw [← hr i j hi]
  constructor
  · rintro ⟨k, ⟨-, rfl⟩, hj⟩
    exact hj
  · intro hj
    exact ⟨i, ⟨hP _ hi, rfl⟩, hj⟩

/-- And nothing comes after it elsewhere. -/
theorem reads_start_none (hP : ∀ b, P b → b ≠ []) : Reads P (Regex.start ++ r) fun _ => False := by
  intro i j hi
  constructor
  · rintro ⟨k, ⟨hstart, -⟩, -⟩
    exact absurd hstart (hP _ hi)
  · rintro ⟨w, s, hw, -⟩
    exact hw.elim

/-- The letter that comes next is the first one of the word taken. -/
theorem Reads.notAhead (hr : Reads P r L) (hne : ∀ w, L w → w ≠ []) (p : α → Bool) :
    Reads P (notAhead (one p) ++ r) fun w => L w ∧ ∀ a, w.head? = some a → p a = false := by
  intro i j hi
  constructor
  · rintro ⟨k, ⟨hnot, rfl⟩, hj⟩
    obtain ⟨w, s, hw, hahead, rfl⟩ := (hr k j hi).mp hj
    refine ⟨w, s, ⟨hw, fun a ha => ?_⟩, hahead, rfl⟩
    cases w with
    | nil => exact absurd rfl (hne _ hw)
    | cons b w =>
      obtain rfl : b = a := Option.some.inj ha
      by_contra hp
      exact hnot ⟨b :: k.behind, w ++ s⟩ ⟨b, w ++ s, hahead, by simpa using hp, rfl⟩
  · rintro ⟨w, s, ⟨hw, hhead⟩, hahead, rfl⟩
    refine ⟨i, ⟨fun k hk => ?_, rfl⟩, (hr i _ hi).mpr ⟨w, s, hw, hahead, rfl⟩⟩
    obtain ⟨a, t, ha, hp, -⟩ := hk
    cases w with
    | nil => exact absurd rfl (hne _ hw)
    | cons b w =>
      rw [hahead] at ha
      obtain ⟨rfl, -⟩ := List.cons.inj ha
      rw [hhead b rfl] at hp
      exact absurd hp Bool.false_ne_true

/-- The letter that has just come is the last one of the word taken. -/
theorem Reads.notBehind (hr : Reads P r L) (hne : ∀ w, L w → w ≠ []) (p : α → Bool) :
    Reads P (r ++ notBehind p) fun w => L w ∧ ∀ a, w.getLast? = some a → p a = false := by
  have hlast : ∀ (i : Place α) (w s : List α), L w →
      (i.after w s).behind.head? = w.getLast? := by
    intro i w s hw
    unfold Place.after
    rw [List.head?_append, List.head?_reverse, Option.or_of_isSome]
    rw [List.getLast?_isSome]
    exact hne w hw
  intro i j hi
  constructor
  · rintro ⟨k, hk, hnot, rfl⟩
    obtain ⟨w, s, hw, hahead, rfl⟩ := (hr i j hi).mp hk
    rw [hlast i w s hw] at hnot
    exact ⟨w, s, ⟨hw, hnot⟩, hahead, rfl⟩
  · rintro ⟨w, s, ⟨hw, hnot⟩, hahead, rfl⟩
    refine ⟨i.after w s, (hr i _ hi).mpr ⟨w, s, hw, hahead, rfl⟩, ?_, rfl⟩
    rw [hlast i w s hw]
    exact hnot

/-- What is left behind a look for many letters of a class, if all that are left are of it. -/
theorem notAhead_class {n : Nat} {i : Place α} (hall : i.ahead.all p = true) :
    (∀ k, ¬ (Regex.rep (one p) n none).Matches i k) ↔ i.ahead.length < n := by
  have hread := fun k => reads_class (P := Anywhere) p n none i k trivial
  constructor
  · intro h
    by_contra hge
    refine h (i.after i.ahead []) ((hread _).mpr ⟨i.ahead, [], ⟨hall, ?_, nofun⟩, ?_, rfl⟩)
    · exact Nat.le_of_not_lt hge
    · rw [List.append_nil]
  · intro hlt k hk
    obtain ⟨w, s, ⟨-, hmin, -⟩, hahead, -⟩ := (hread k).mp hk
    rw [hahead, List.length_append] at hlt
    omega

/-- The rest of a text, to its end. -/
theorem Reads.stop (hr : Reads P r L) {i : Place α} (hi : P i.behind) :
    (∃ j, (r ++ Regex.stop).Matches i j) ↔ L i.ahead := by
  constructor
  · rintro ⟨j, k, hk, hend, -⟩
    obtain ⟨w, s, hw, hahead, rfl⟩ := (hr _ k hi).mp hk
    have hs : s = [] := hend
    rw [hs, List.append_nil] at hahead
    rwa [hahead]
  · intro hw
    refine ⟨i.after i.ahead [], i.after i.ahead [], ?_, rfl, rfl⟩
    exact (hr _ _ hi).mpr ⟨i.ahead, [], hw, (List.append_nil _).symm, rfl⟩

end Regex

end Designate
