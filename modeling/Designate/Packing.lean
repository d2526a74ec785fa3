import Mathlib.Data.List.Basic

/-!
# Packing a list in order

Items go one after another into packets. A packet takes an item or is too full for it, and is
then closed and a fresh one begun; an item that a fresh packet refuses as well ends the packing.
What is in the packets, one after another, is always what has been taken of the list, and no
packet is empty.

Whether an item fits may depend on what the packet holds already, in either direction: an item
that a fresh packet refuses may fit one that has something in it.
-/

namespace Designate

namespace Packing

/-- Packets that are filled item by item: `none` says that an item does not fit. -/
structure Packer (σ α : Type) where
  fresh : σ
  add : σ → α → Option σ

/-- The packets that are closed, and the one at hand. -/
structure Packed (σ α : Type) where
  closed : List (List α)
  atHand : List α
  state : σ

variable {σ α : Type}

/-- Nothing packed yet. -/
def Packer.empty (P : Packer σ α) : Packed σ α :=
  ⟨[], [], P.fresh⟩

/-- One item, in the packet at hand or else in a fresh one. -/
def Packer.next (P : Packer σ α) (s : Packed σ α) (x : α) : Option (Packed σ α) :=
  match P.add s.state x with
  | some t => some ⟨s.closed, s.atHand ++ [x], t⟩
  | none => (P.add P.fresh x).map fun t => ⟨s.closed ++ [s.atHand], [x], t⟩

/-- One item after another, and the items left when one does not fit. -/
def Packer.packFrom (P : Packer σ α) (s : Packed σ α) : List α → Packed σ α × List α
  | [] => (s, [])
  | x :: rest =>
    match P.next s x with
    | some t => P.packFrom t rest
    | none => (s, x :: rest)

/-- The packet at hand is closed, and a fresh one begun. -/
def Packer.close (P : Packer σ α) (s : Packed σ α) : Packed σ α :=
  ⟨s.closed ++ [s.atHand], [], P.fresh⟩

/-- A list, from nothing packed. -/
def Packer.pack (P : Packer σ α) (items : List α) : Packed σ α × List α :=
  P.packFrom P.empty items

/-- The packets, with the one at hand unless nothing is in it. -/
def Packed.packets (s : Packed σ α) : List (List α) :=
  if s.atHand = [] then s.closed else s.closed ++ [s.atHand]

/-- No closed packet is empty, and the one at hand holds what its state says. -/
structure Packer.Sound (P : Packer σ α) (s : Packed σ α) : Prop where
  closed_ne : ∀ packet ∈ s.closed, packet ≠ []
  filled : s.atHand.foldlM P.add P.fresh = some s.state

variable {P : Packer σ α} {s t : Packed σ α} {x : α} {items : List α}

theorem sound_empty (P : Packer σ α) : P.Sound P.empty :=
  ⟨fun _ h => absurd h List.not_mem_nil, rfl⟩

theorem next_flatten (h : P.next s x = some t) :
    t.closed.flatten ++ t.atHand = s.closed.flatten ++ s.atHand ++ [x] := by
  unfold Packer.next at h
  cases hadd : P.add s.state x with
  | some state =>
    rw [hadd] at h
    cases h
    simp
  | none =>
    rw [hadd] at h
    obtain ⟨state, -, rfl⟩ := Option.map_eq_some_iff.mp h
    simp

theorem sound_next (hs : P.Sound s) (h : P.next s x = some t) : P.Sound t := by
  refine ⟨?_, ?_⟩
  · unfold Packer.next at h
    cases hadd : P.add s.state x with
    | some state =>
      rw [hadd] at h
      cases h
      exact hs.closed_ne
    | none =>
      rw [hadd] at h
      obtain ⟨state, hfresh, rfl⟩ := Option.map_eq_some_iff.mp h
      intro packet hp
      rw [List.mem_append, List.mem_singleton] at hp
      obtain hp | rfl := hp
      · exact hs.closed_ne packet hp
      · -- an empty packet would be a fresh one, and a fresh one takes the item
        intro hnil
        have hfilled := hs.filled
        rw [hnil] at hfilled
        have hstate : s.state = P.fresh := (Option.some.inj hfilled).symm
        rw [hstate, hfresh] at hadd
        exact absurd hadd (by simp)
  · unfold Packer.next at h
    cases hadd : P.add s.state x with
    | some state =>
      rw [hadd] at h
      cases h
      simp [List.foldlM_append, hs.filled, hadd]
    | none =>
      rw [hadd] at h
      obtain ⟨state, hfresh, rfl⟩ := Option.map_eq_some_iff.mp h
      simp [hfresh]

/-- What is packed and what is left make up the list. -/
theorem packFrom_flatten (s : Packed σ α) (items : List α) :
    (P.packFrom s items).1.closed.flatten ++ (P.packFrom s items).1.atHand ++
      (P.packFrom s items).2 = s.closed.flatten ++ s.atHand ++ items := by
  induction items generalizing s with
  | nil => rfl
  | cons x rest ih =>
    rw [Packer.packFrom]
    cases h : P.next s x with
    | none => rfl
    | some t =>
      simp only
      rw [ih t, next_flatten h, List.append_assoc, List.singleton_append]

theorem packFrom_sound (hs : P.Sound s) (items : List α) : P.Sound (P.packFrom s items).1 := by
  induction items generalizing s with
  | nil => exact hs
  | cons x rest ih =>
    rw [Packer.packFrom]
    cases h : P.next s x with
    | none => exact hs
    | some t => exact ih (sound_next hs h)

/-- The first item left fits neither the packet at hand nor a fresh one. -/
theorem packFrom_left (s : Packed σ α) {rest : List α} (h : (P.packFrom s items).2 = x :: rest) :
    P.add (P.packFrom s items).1.state x = none ∧ P.add P.fresh x = none := by
  induction items generalizing s with
  | nil => exact absurd h (by simp [Packer.packFrom])
  | cons y ys ih =>
    rw [Packer.packFrom] at h ⊢
    cases hnext : P.next s y with
    | some t =>
      simp only [hnext] at h ⊢
      exact ih t h
    | none =>
      simp only [hnext] at h ⊢
      obtain ⟨rfl, rfl⟩ := List.cons.inj h
      unfold Packer.next at hnext
      cases hadd : P.add s.state y with
      | some state => simp [hadd] at hnext
      | none => simpa [hadd] using hnext

theorem sound_close (hs : P.Sound s) (hhand : s.atHand ≠ []) : P.Sound (P.close s) := by
  refine ⟨?_, rfl⟩
  intro packet hp
  rw [Packer.close, List.mem_append, List.mem_singleton] at hp
  obtain hp | rfl := hp
  · exact hs.closed_ne packet hp
  · exact hhand

/-- A packet may be closed before the first item it does not take. -/
theorem packFrom_close (hhand : s.atHand ≠ []) (hadd : P.add s.state x = none) (rest : List α) :
    ((P.packFrom (P.close s) (x :: rest)).1.packets, (P.packFrom (P.close s) (x :: rest)).2) =
      ((P.packFrom s (x :: rest)).1.packets, (P.packFrom s (x :: rest)).2) := by
  rw [Packer.packFrom, Packer.packFrom]
  cases hfresh : P.add P.fresh x with
  | none => simp [Packer.next, Packer.close, Packed.packets, hadd, hfresh, hhand]
  | some t => simp [Packer.next, Packer.close, hadd, hfresh]

/-- A list packed up to an item that is taken. -/
theorem packFrom_append (s : Packed σ α) {sent : List α} (h : (P.packFrom s sent).2 = [])
    (rest : List α) : P.packFrom s (sent ++ rest) = P.packFrom (P.packFrom s sent).1 rest := by
  induction sent generalizing s with
  | nil => rfl
  | cons y ys ih =>
    rw [List.cons_append, Packer.packFrom]
    rw [Packer.packFrom] at h ⊢
    cases hnext : P.next s y with
    | some t =>
      simp only [hnext] at h ⊢
      exact ih t h
    | none => simp [hnext] at h

namespace Packed

theorem packets_flatten (s : Packed σ α) : s.packets.flatten = s.closed.flatten ++ s.atHand := by
  unfold packets
  by_cases h : s.atHand = [] <;> simp [h]

end Packed

theorem Packer.Sound.packets_ne (hs : P.Sound s) : ∀ packet ∈ s.packets, packet ≠ [] := by
  intro packet hp
  unfold Packed.packets at hp
  by_cases h : s.atHand = []
  · rw [if_pos h] at hp
    exact hs.closed_ne packet hp
  · rw [if_neg h, List.mem_append, List.mem_singleton] at hp
    obtain hp | rfl := hp
    · exact hs.closed_ne packet hp
    · exact h

/-- The packets are what was taken of the list. -/
theorem pack_flatten (P : Packer σ α) (items : List α) :
    (P.pack items).1.packets.flatten ++ (P.pack items).2 = items := by
  rw [Packed.packets_flatten]
  exact packFrom_flatten P.empty items

theorem pack_packets_ne (P : Packer σ α) (items : List α) :
    ∀ packet ∈ (P.pack items).1.packets, packet ≠ [] :=
  (packFrom_sound (sound_empty P) items).packets_ne

/-- An item is refused where it fits neither the packet filled so far nor a fresh one. -/
def Packer.Refuses (P : Packer σ α) (items : List α) : Prop :=
  ∃ sent x rest, items = sent ++ x :: rest ∧ (P.pack sent).2 = [] ∧
    P.add (P.pack sent).1.state x = none ∧ P.add P.fresh x = none

/-- Something is left exactly when an item is refused. -/
theorem pack_left_iff (P : Packer σ α) (items : List α) :
    (P.pack items).2 ≠ [] ↔ P.Refuses items := by
  constructor
  · intro h
    -- what was taken, packed anew, leaves nothing and ends where the packing ended
    have htaken : ∀ (s : Packed σ α) (items : List α), ∃ sent,
        items = sent ++ (P.packFrom s items).2 ∧
          P.packFrom s sent = ((P.packFrom s items).1, []) := by
      intro s items
      induction items generalizing s with
      | nil => exact ⟨[], rfl, rfl⟩
      | cons y ys ih =>
        rw [Packer.packFrom]
        cases hnext : P.next s y with
        | none => exact ⟨[], rfl, rfl⟩
        | some t =>
          obtain ⟨sent, hsplit, hsent⟩ := ih t
          refine ⟨y :: sent, by rw [List.cons_append, ← hsplit], ?_⟩
          rw [Packer.packFrom, hnext]
          exact hsent
    obtain ⟨sent, hsplit, hsent⟩ := htaken P.empty items
    obtain ⟨x, rest, hleft⟩ := List.exists_cons_of_ne_nil h
    have hrefused := packFrom_left P.empty hleft
    have hleft' : (P.packFrom P.empty items).2 = x :: rest := hleft
    rw [hleft'] at hsplit
    refine ⟨sent, x, rest, hsplit, ?_, ?_, hrefused.2⟩
    · exact congrArg Prod.snd hsent
    · unfold Packer.pack
      rw [hsent]
      exact hrefused.1
  · intro h
    obtain ⟨sent, x, rest, rfl, hsent, hadd, hfresh⟩ := h
    unfold Packer.pack at hsent hadd ⊢
    rw [packFrom_append P.empty hsent, Packer.packFrom]
    simp [Packer.next, hadd, hfresh]

/-- An item that is refused does not fit a fresh packet. -/
theorem Packer.Refuses.exists_mem (h : P.Refuses items) : ∃ x ∈ items, P.add P.fresh x = none := by
  obtain ⟨sent, x, rest, rfl, -, -, hfresh⟩ := h
  exact ⟨x, by simp, hfresh⟩

/-- What fits a packet that has something in it fits a fresh one. -/
def Packer.FitsFresh (P : Packer σ α) : Prop :=
  ∀ (items : List α) (s : σ) (x : α), items.foldlM P.add P.fresh = some s → (P.add s x).isSome →
    (P.add P.fresh x).isSome

/-- Then an item is refused exactly when some item does not fit a fresh packet. -/
theorem refuses_iff_exists_mem (hfits : P.FitsFresh) :
    P.Refuses items ↔ ∃ x ∈ items, P.add P.fresh x = none := by
  refine ⟨Packer.Refuses.exists_mem, ?_⟩
  intro ⟨x, hx, hfresh⟩
  rw [← pack_left_iff]
  intro hdone
  obtain ⟨sent, rest, rfl⟩ := List.append_of_mem hx
  -- all before it is taken, and then it is not
  by_cases hsent : (P.pack sent).2 = []
  · unfold Packer.pack at hsent hdone
    rw [packFrom_append P.empty hsent, Packer.packFrom] at hdone
    have hadd : P.add (P.packFrom P.empty sent).1.state x = none := by
      by_contra h
      have hsome := hfits _ _ x (packFrom_sound (sound_empty P) sent).filled
        (Option.isSome_iff_ne_none.mpr h)
      rw [hfresh] at hsome
      exact absurd hsome (by simp)
    simp [Packer.next, hadd, hfresh] at hdone
  · obtain ⟨sent', y, rest', rfl, hs', hadd, hy⟩ := (pack_left_iff P sent).mp hsent
    refine (pack_left_iff P _).mpr ⟨sent', y, rest' ++ x :: rest, by simp, hs', hadd, hy⟩ hdone

end Packing

end Designate
