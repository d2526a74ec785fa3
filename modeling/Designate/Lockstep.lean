import Mathlib.Logic.Basic

/-!
# Two machines in step

Two machines that take the same calls are in step as long as they answer alike and show the same
from outside. A relation between their states that decides this for one step, and is kept by the
steps where it is so, decides it for a run.
-/

namespace Designate

namespace Lockstep

/-- A machine that answers calls, and what it shows. -/
structure Machine (ι ω ο σ : Type) where
  step : σ → ι → ω × σ
  seen : σ → ο

variable {ι ω ο σ τ : Type} (M : Machine ι ω ο σ) (N : Machine ι ω ο τ)

/-- One call is answered alike, and the machines show the same after it. -/
def Alike (s : σ) (t : τ) (call : ι) : Prop :=
  (M.step s call).1 = (N.step t call).1 ∧
    M.seen (M.step s call).2 = N.seen (N.step t call).2

/-- So it is with each of some calls. -/
def AllAlike : σ → τ → List ι → Prop
  | _, _, [] => True
  | s, t, call :: calls =>
    Alike M N s t call ∧ AllAlike (M.step s call).2 (N.step t call).2 calls

/-- Each of some calls meets a condition on the states before it. -/
def AllMeet (C : σ → τ → ι → Prop) : σ → τ → List ι → Prop
  | _, _, [] => True
  | s, t, call :: calls => C s t call ∧ AllMeet C (M.step s call).2 (N.step t call).2 calls

variable {M N} {R : σ → τ → Prop} {C : σ → τ → ι → Prop}

theorem allAlike_iff (hdecides : ∀ s t call, R s t → (Alike M N s t call ↔ C s t call))
    (hkeeps : ∀ s t call, R s t → C s t call → R (M.step s call).2 (N.step t call).2)
    {s : σ} {t : τ} (hrelated : R s t) (calls : List ι) :
    AllAlike M N s t calls ↔ AllMeet M N C s t calls := by
  induction calls generalizing s t with
  | nil => exact Iff.rfl
  | cons call calls ih =>
    rw [AllAlike, AllMeet, hdecides s t call hrelated]
    exact and_congr_right fun hmeets => ih (hkeeps s t call hrelated hmeets)

end Lockstep

end Designate
