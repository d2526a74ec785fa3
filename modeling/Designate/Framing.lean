import Mathlib.Data.List.Basic

/-!
# Length-prefixed frames

A frame begins with two elements that tell the length of its payload. Any stream falls into
complete frames and a tail, at which no complete frame begins.
-/

namespace Designate

namespace Framing

structure Frame (α : Type) where
  first : α
  second : α
  payload : List α
  deriving DecidableEq, Repr

variable {α : Type} (size : α → α → Nat)

/-- The complete frame that a stream begins with, and what follows it. -/
def next : List α → Option (Frame α × List α)
  | a :: b :: rest =>
    if size a b ≤ rest.length then
      some (⟨a, b, rest.take (size a b)⟩, rest.drop (size a b))
    else none
  | _ => none

theorem eq_of_next {l rest : List α} {frame : Frame α} (h : next size l = some (frame, rest)) :
    l = frame.first :: frame.second :: (frame.payload ++ rest) := by
  unfold next at h
  split at h
  · split at h
    · cases h
      rw [List.take_append_drop]
    · cases h
  · cases h

theorem length_of_next {l rest : List α} {frame : Frame α} (h : next size l = some (frame, rest)) :
    rest.length < l.length := by
  rw [eq_of_next size h]
  simp only [List.length_cons, List.length_append]
  omega

/-- The complete frames of a stream and its tail. -/
def decode (l : List α) : List (Frame α) × List α :=
  match _ : next size l with
  | some (frame, rest) => (frame :: (decode rest).1, (decode rest).2)
  | none => ([], l)
termination_by l.length
decreasing_by
  all_goals exact length_of_next size (by assumption)

def frames (l : List α) : List (Frame α) := (decode size l).1

def tail (l : List α) : List α := (decode size l).2

variable {size} {l rest : List α} {frame : Frame α}

theorem frames_of_next (h : next size l = some (frame, rest)) :
    frames size l = frame :: frames size rest := by
  unfold frames
  rw [decode]
  split
  · next h' => rw [h] at h'; cases h'; rfl
  · next h' => rw [h] at h'; cases h'

theorem tail_of_next (h : next size l = some (frame, rest)) : tail size l = tail size rest := by
  unfold tail
  rw [decode]
  split
  · next h' => rw [h] at h'; cases h'; rfl
  · next h' => rw [h] at h'; cases h'

theorem frames_of_none (h : next size l = none) : frames size l = [] := by
  unfold frames
  rw [decode]
  split
  · next h' => rw [h] at h'; cases h'
  · rfl

theorem tail_of_none (h : next size l = none) : tail size l = l := by
  unfold tail
  rw [decode]
  split
  · next h' => rw [h] at h'; cases h'
  · rfl

/-- The induction along the frames of a stream. -/
@[elab_as_elim]
theorem frames_induction {motive : List α → Prop} (size : α → α → Nat)
    (none : ∀ l, next size l = none → motive l)
    (next : ∀ l frame rest, next size l = some (frame, rest) → motive rest → motive l) :
    ∀ l, motive l := by
  intro l
  cases h : Framing.next size l with
  | none => exact none l h
  | some found =>
    have := length_of_next size h
    exact next l found.1 found.2 h (frames_induction size none next found.2)
termination_by l => l.length

/-- Frames of what a stream is mapped to, if its elements tell the lengths through that. -/
theorem frames_map {β : Type} {size' : β → β → Nat} {f : α → β}
    (hsize : ∀ a b, size' (f a) (f b) = size a b) (l : List α) :
    frames size' (l.map f) =
      (frames size l).map fun frame => ⟨f frame.first, f frame.second, frame.payload.map f⟩ := by
  have hnext : ∀ l, next size' (l.map f) = (next size l).map fun (frame, rest) =>
      (⟨f frame.first, f frame.second, frame.payload.map f⟩, rest.map f) := by
    intro l
    match l with
    | [] => rfl
    | [_] => rfl
    | a :: b :: rest =>
      simp only [next, List.map_cons, hsize, List.length_map]
      split
      · simp [List.map_take, List.map_drop]
      · rfl
  induction l using frames_induction size with
  | none l h =>
    rw [frames_of_none h, frames_of_none (by rw [hnext, h]; rfl)]
    rfl
  | next l frame rest h ih =>
    rw [frames_of_next h, frames_of_next (by rw [hnext, h]; rfl), ih]
    rfl

end Framing

end Designate
