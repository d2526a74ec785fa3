import Mathlib.Data.List.Basic

/-!
# Programs whose effects survive an exception

A service call is a chain of steps, each of which may change the state and may
raise. Raising does not undo anything: what the earlier steps did stays done,
unless the caller asked for a roll-back. `Exec σ ε α` is that: it always gives
back a state, next to a result or an exception.

Two combinators carry the weight of a service. `rollback` is a transaction over
the part of the state that can be restored. `saga` is a `try` block around one
call to an outside party: the call comes first, the book-keeping follows, and a
single handler answers for a failure of either, so that the caller only sees
whether the outside call had returned.

The rules at the end prove an invariant of a program from its steps.
-/

namespace Designate

/-- A program over the state `σ` that returns an `α` or raises an `ε`. -/
def Exec (σ ε α : Type) : Type := σ → Except ε α × σ

namespace Exec

variable {σ ε α β ρ γ : Type}

instance : Monad (Exec σ ε) where
  pure a := fun s => (.ok a, s)
  bind m f := fun s =>
    match m s with
    | (.ok a, s') => f a s'
    | (.error e, s') => (.error e, s')

/-- Raise, leaving the state as it stands. -/
def raise (e : ε) : Exec σ ε α := fun s => (.error e, s)

/-- Look something up: the state does not change, whatever comes back. -/
def read (f : σ → Except ε α) : Exec σ ε α := fun s => (f s, s)

/-- Change the state. -/
def modify (f : σ → σ) : Exec σ ε Unit := fun s => (.ok (), f s)

/-- Change the state or raise without changing it. -/
def write (f : σ → Except ε (α × σ)) : Exec σ ε α := fun s =>
  match f s with
  | .ok (a, s') => (.ok a, s')
  | .error e => (.error e, s)

/-- Raise `e` when `b` holds. -/
def raiseIf (b : Bool) (e : ε) : Exec σ ε Unit := fun s => (if b then .error e else .ok (), s)

/-- Run `m`; when it raises, put back the part of the state that `restore` knows. -/
def rollback (restore : σ → σ → σ) (m : Exec σ ε α) : Exec σ ε α := fun s =>
  match m s with
  | (.ok a, s') => (.ok a, s')
  | (.error e, s') => (.error e, restore s s')

/-- Run `m`; when it raises, run `h` and raise the same exception again. -/
def onError (m : Exec σ ε α) (h : Exec σ ε Unit) : Exec σ ε α := fun s =>
  match m s with
  | (.ok a, s') => (.ok a, s')
  | (.error e, s') =>
    match h s' with
    | (.ok _, s'') => (.error e, s'')
    | (.error e', s'') => (.error e', s'')

/-- Run `m`, and then `f` on the state, whether it returned or raised. -/
def ensuring (m : Exec σ ε α) (f : σ → σ) : Exec σ ε α := fun s => ((m s).1, f (m s).2)

/-- Run `m`; when it raises what `p` picks out, go on with `h` from where it stopped. -/
def catching (p : ε → Bool) (m h : Exec σ ε α) : Exec σ ε α := fun s =>
  match m s with
  | (.ok a, s') => (.ok a, s')
  | (.error e, s') => if p e then h s' else (.error e, s')

/--
The `try` block around one outside call. `first` makes the call and hands on its
response with what the rest needs; `rest` is the book-keeping; `handler` runs
when either raises. The response is returned whenever the call itself returned.
-/
def saga (first : Exec σ ε (ρ × γ)) (rest : ρ → γ → Exec σ ε Unit)
    (handler : Exec σ ε Unit) : Exec σ ε (Option ρ) := fun s =>
  match first s with
  | (.error _, s₁) =>
    match handler s₁ with
    | (.ok _, s₂) => (.ok none, s₂)
    | (.error e, s₂) => (.error e, s₂)
  | (.ok (r, g), s₁) =>
    match rest r g s₁ with
    | (.ok _, s₂) => (.ok (some r), s₂)
    | (.error _, s₂) =>
      match handler s₂ with
      | (.ok _, s₃) => (.ok (some r), s₃)
      | (.error e, s₃) => (.error e, s₃)

/-- Run `f` on every element in turn, stopping at the first that raises. -/
def forEach (f : α → Exec σ ε Unit) : List α → Exec σ ε Unit
  | [] => pure ()
  | a :: as => do f a; forEach f as

/-! ## Running one step -/

@[simp] theorem pure_apply (a : α) (s : σ) : (pure a : Exec σ ε α) s = (.ok a, s) := rfl

theorem bind_apply (m : Exec σ ε α) (f : α → Exec σ ε β) (s : σ) :
    (m >>= f) s = match m s with
      | (.ok a, s') => f a s'
      | (.error e, s') => (.error e, s') := rfl

@[simp] theorem raise_apply (e : ε) (s : σ) : (raise e : Exec σ ε α) s = (.error e, s) := rfl

@[simp] theorem read_apply (f : σ → Except ε α) (s : σ) : read f s = (f s, s) := rfl

@[simp] theorem modify_apply (f : σ → σ) (s : σ) :
    (modify f : Exec σ ε Unit) s = (.ok (), f s) := rfl

@[simp] theorem raiseIf_true (e : ε) (s : σ) :
    (raiseIf true e : Exec σ ε Unit) s = (.error e, s) := rfl

@[simp] theorem raiseIf_false (e : ε) (s : σ) :
    (raiseIf false e : Exec σ ε Unit) s = (.ok (), s) := rfl

theorem raiseIf_of {b : Bool} (h : b = true) (e : ε) (s : σ) :
    (raiseIf b e : Exec σ ε Unit) s = (.error e, s) := by
  subst h
  exact raiseIf_true e s

theorem raiseIf_of_not {b : Bool} (h : b = false) (e : ε) (s : σ) :
    (raiseIf b e : Exec σ ε Unit) s = (.ok (), s) := by
  subst h
  exact raiseIf_false e s

/-- A bind whose first program is known to return. -/
theorem bind_ok {m : Exec σ ε α} {f : α → Exec σ ε β} {s s' : σ} {a : α}
    (h : m s = (.ok a, s')) : (m >>= f) s = f a s' := by
  rw [bind_apply, h]

/-- A step whose result nobody reads, followed by `k`. -/
theorem seq_ok {m : Exec σ ε α} {k : Exec σ ε β} {s s' : σ} {a : α} (h : m s = (.ok a, s')) :
    (m >>= fun _ => k) s = k s' := bind_ok h

/-- A bind whose first program is known to raise. -/
theorem bind_error {m : Exec σ ε α} {f : α → Exec σ ε β} {s s' : σ} {e : ε}
    (h : m s = (.error e, s')) : (m >>= f) s = (.error e, s') := by
  rw [bind_apply, h]

/-- A handler that is not needed. -/
theorem onError_returned {m : Exec σ ε α} {h : Exec σ ε Unit} {s s' : σ} {a : α}
    (hm : m s = (.ok a, s')) : onError m h s = (.ok a, s') := by
  unfold onError
  rw [hm]

/-- A handler that returns. -/
theorem onError_handled {m : Exec σ ε α} {h : Exec σ ε Unit} {s s' s'' : σ} {e : ε}
    (hm : m s = (.error e, s')) (hh : h s' = (.ok (), s'')) : onError m h s = (.error e, s'') := by
  unfold onError
  rw [hm]
  dsimp only
  rw [hh]

theorem write_eq_ok {f : σ → Except ε (α × σ)} {s s' : σ} {a : α} :
    write f s = (.ok a, s') ↔ f s = .ok (a, s') := by
  unfold write
  cases f s with
  | error e => simp
  | ok p => simp [Prod.ext_iff]

/-- What a bind that returned has gone through. -/
theorem bind_eq_ok {m : Exec σ ε α} {f : α → Exec σ ε β} {s s' : σ} {b : β} :
    (m >>= f) s = (.ok b, s') ↔ ∃ a s₁, m s = (.ok a, s₁) ∧ f a s₁ = (.ok b, s') := by
  rw [bind_apply]
  constructor
  · intro h
    split at h
    · rename_i a s₁ hm; exact ⟨a, s₁, hm, h⟩
    · exact absurd h (by simp)
  · rintro ⟨a, s₁, hm, hf⟩
    rw [hm]; exact hf

/-- What a bind that raised has gone through. -/
theorem bind_eq_error {m : Exec σ ε α} {f : α → Exec σ ε β} {s s' : σ} {e : ε} :
    (m >>= f) s = (.error e, s') ↔
      m s = (.error e, s') ∨ ∃ a s₁, m s = (.ok a, s₁) ∧ f a s₁ = (.error e, s') := by
  rw [bind_apply]
  constructor
  · intro h
    split at h
    · rename_i a s₁ hm; exact Or.inr ⟨a, s₁, hm, h⟩
    · rename_i e' s₁ hm
      refine Or.inl ?_
      rw [hm]; simpa using h
  · rintro (hm | ⟨a, s₁, hm, hf⟩)
    · rw [hm]
    · rw [hm]; exact hf

theorem bind_assoc (m : Exec σ ε α) (f : α → Exec σ ε β) (g : β → Exec σ ε γ) :
    (m >>= f) >>= g = m >>= fun a => f a >>= g := by
  funext s
  simp only [bind_apply]
  cases m s with
  | mk r s' => cases r <;> rfl

theorem pure_bind (a : α) (f : α → Exec σ ε β) : (pure a >>= f : Exec σ ε β) = f a := rfl

theorem bind_pure (m : Exec σ ε α) : (m >>= fun a => pure a) = m := by
  funext s
  rw [bind_apply]
  cases m s with
  | mk r s' => cases r <;> rfl

/-- Computing with the result changes no state. -/
theorem bind_pure_snd {m : Exec σ ε α} {f : α → β} {s : σ} :
    ((m >>= fun a => pure (f a)) s).2 = (m s).2 := by
  rw [bind_apply]
  cases m s with
  | mk r s' => cases r <;> rfl

/-! ## Peeling a program that returned -/

/-- A look-up followed by `f` returned: the look-up answered, and left the state alone. -/
theorem of_read_bind {g : σ → Except ε α} {f : α → Exec σ ε β} {s s' : σ} {b : β}
    (h : (read g >>= f) s = (.ok b, s')) : ∃ a, g s = .ok a ∧ f a s = (.ok b, s') := by
  obtain ⟨a, s₁, h₁, h₂⟩ := bind_eq_ok.mp h
  obtain ⟨ha, rfl⟩ := Prod.mk.inj h₁
  exact ⟨a, ha, h₂⟩

/-- A guard followed by `f` returned: the guard let it through. -/
theorem of_raiseIf_bind {b : Bool} {e : ε} {f : Unit → Exec σ ε β} {s s' : σ} {c : β}
    (h : (raiseIf b e >>= f) s = (.ok c, s')) : b = false ∧ f () s = (.ok c, s') := by
  cases b with
  | true => exact absurd h (by simp [bind_apply])
  | false => exact ⟨rfl, h⟩

/-! ## Errors that are never raised -/

/-- `m` never raises `e`. -/
def Avoids (e : ε) (m : Exec σ ε α) : Prop := ∀ s, (m s).1 ≠ .error e

theorem Avoids.pure (e : ε) (a : α) : Avoids e (Pure.pure a : Exec σ ε α) := fun _ => nofun

theorem Avoids.raise {e e' : ε} (h : e' ≠ e) : Avoids e (Exec.raise e' : Exec σ ε α) :=
  fun _ he => h (Except.error.inj he)

theorem Avoids.read {e : ε} {f : σ → Except ε α} (h : ∀ s, f s ≠ .error e) :
    Avoids e (Exec.read f) := h

theorem Avoids.raiseIf {e e' : ε} (b : Bool) (h : e' ≠ e) :
    Avoids e (Exec.raiseIf b e' : Exec σ ε Unit) := by
  intro s
  cases b with
  | true => exact fun he => h (Except.error.inj he)
  | false => exact nofun

theorem Avoids.bind {e : ε} {m : Exec σ ε α} {f : α → Exec σ ε β} (hm : Avoids e m)
    (hf : ∀ a, Avoids e (f a)) : Avoids e (m >>= f) := by
  intro s he
  rcases bind_eq_error.mp (Prod.ext he rfl) with h | ⟨a, s₁, -, h⟩
  · exact hm s (congrArg Prod.fst h)
  · exact hf a s₁ (congrArg Prod.fst h)

/-- What always returns raises nothing. -/
theorem Avoids.of_returns {e : ε} {m : Exec σ ε α} (h : ∀ s, ∃ a s', m s = (.ok a, s')) :
    Avoids e m := by
  intro s he
  obtain ⟨a, s', hrun⟩ := h s
  rw [hrun] at he
  exact absurd he nofun

theorem Avoids.forEach {e : ε} {f : α → Exec σ ε Unit} (h : ∀ a, Avoids e (f a)) (l : List α) :
    Avoids e (Exec.forEach f l) := by
  induction l with
  | nil => exact Avoids.pure e ()
  | cons a l ih => exact Avoids.bind (h a) fun _ => ih

/-! ## Programs that never return -/

/-- `m` raises, whatever it starts from. -/
def Raises (m : Exec σ ε α) : Prop := ∀ s a s', m s ≠ (.ok a, s')

theorem Raises.raise (e : ε) : Raises (Exec.raise e : Exec σ ε α) := by
  intro s a s' h
  exact absurd h (by simp)

theorem Raises.first {m : Exec σ ε α} {f : α → Exec σ ε β} (h : Raises m) : Raises (m >>= f) := by
  intro s b s' hb
  obtain ⟨a, s₁, hm, -⟩ := bind_eq_ok.mp hb
  exact h s a s₁ hm

theorem Raises.rest {m : Exec σ ε α} {f : α → Exec σ ε β} (h : ∀ a, Raises (f a)) :
    Raises (m >>= f) := by
  intro s b s' hb
  obtain ⟨a, s₁, -, hf⟩ := bind_eq_ok.mp hb
  exact h a s₁ b s' hf

theorem Raises.rollback {restore : σ → σ → σ} {m : Exec σ ε α} (h : Raises m) :
    Raises (Exec.rollback restore m) := by
  intro s a s' hr
  unfold Exec.rollback at hr
  split at hr
  · rename_i hm
    exact h s _ _ hm
  · exact absurd hr (by simp)

/-! ## How a `try` block ends -/

section Saga

variable {first : Exec σ ε (ρ × γ)} {rest : ρ → γ → Exec σ ε Unit} {handler : Exec σ ε Unit}
  {s s₁ s₂ s₃ : σ} {r : ρ} {g : γ} {e : ε} {u : Unit}

/-- The call raised and the handler got through: there is no response. -/
theorem saga_call_raises (h₁ : first s = (.error e, s₁)) (h₂ : handler s₁ = (.ok u, s₂)) :
    saga first rest handler s = (.ok none, s₂) := by
  simp only [saga, h₁, h₂]

/-- Both the call and the handler raised: nothing is returned. -/
theorem saga_handler_raises {e' : ε} (h₁ : first s = (.error e, s₁))
    (h₂ : handler s₁ = (.error e', s₂)) : saga first rest handler s = (.error e', s₂) := by
  simp only [saga, h₁, h₂]

/-- The book-keeping raised, and so did the handler: nothing is returned. -/
theorem saga_rest_handler_raises {e' : ε} (h₁ : first s = (.ok (r, g), s₁))
    (h₂ : rest r g s₁ = (.error e, s₂)) (h₃ : handler s₂ = (.error e', s₃)) :
    saga first rest handler s = (.error e', s₃) := by
  simp only [saga, h₁, h₂, h₃]

/-- Everything got through. -/
theorem saga_returns (h₁ : first s = (.ok (r, g), s₁)) (h₂ : rest r g s₁ = (.ok u, s₂)) :
    saga first rest handler s = (.ok (some r), s₂) := by
  simp only [saga, h₁, h₂]

/-- The book-keeping raised and the handler got through: the response is still returned. -/
theorem saga_rest_raises (h₁ : first s = (.ok (r, g), s₁)) (h₂ : rest r g s₁ = (.error e, s₂))
    (h₃ : handler s₂ = (.ok u, s₃)) : saga first rest handler s = (.ok (some r), s₃) := by
  simp only [saga, h₁, h₂, h₃]

/-- A saga whose handler always gets through always returns. -/
theorem saga_always (h : ∀ s, ∃ u s', handler s = (.ok u, s')) (s : σ) :
    ∃ answer s', saga first rest handler s = (.ok answer, s') := by
  rcases hfirst : first s with ⟨e | ⟨r, g⟩, s₁⟩
  · obtain ⟨u, s₂, hhandler⟩ := h s₁
    exact ⟨none, s₂, saga_call_raises hfirst hhandler⟩
  · rcases hrest : rest r g s₁ with ⟨e | u, s₂⟩
    · obtain ⟨u, s₃, hhandler⟩ := h s₂
      exact ⟨some r, s₃, saga_rest_raises hfirst hrest hhandler⟩
    · exact ⟨some r, s₂, saga_returns hfirst hrest⟩

end Saga

/-! ## Invariants -/

/-- `m` keeps `I`, whether it returns or raises. -/
def Keeps (I : σ → Prop) (m : Exec σ ε α) : Prop := ∀ s, I s → I (m s).2

/-- Started in `P`, `m` returns into `Q` or raises into `E`. -/
def Triple (P : σ → Prop) (m : Exec σ ε α) (Q : α → σ → Prop) (E : σ → Prop) : Prop :=
  ∀ s, P s →
    match m s with
    | (.ok a, s') => Q a s'
    | (.error _, s') => E s'

/-- Where `m` ends, if it ends in `I` either way. -/
theorem Triple.ends {P I : σ → Prop} {m : Exec σ ε α} (h : Triple P m (fun _ => I) I) {s : σ}
    (hs : P s) : I (m s).2 := by
  have := h s hs
  cases hm : m s with
  | mk r s' =>
    rw [hm] at this
    cases r <;> exact this

theorem Triple.keeps {I : σ → Prop} {m : Exec σ ε α} (h : Triple I m (fun _ => I) I) :
    Keeps I m := fun _ hs => h.ends hs

theorem Triple.of_ends {P I : σ → Prop} {m : Exec σ ε α} (h : ∀ s, P s → I (m s).2) :
    Triple P m (fun _ => I) I := by
  intro s hs
  have := h s hs
  cases hm : m s with
  | mk r s' =>
    rw [hm] at this
    cases r <;> exact this

theorem Keeps.triple {I : σ → Prop} {m : Exec σ ε α} (h : Keeps I m) :
    Triple I m (fun _ => I) I := Triple.of_ends h

/-- The state that a run of the program ends in. -/
theorem Keeps.run {I : σ → Prop} {m : Exec σ ε α} (h : Keeps I m) {s s' : σ} {r : Except ε α}
    (hs : I s) (hm : m s = (r, s')) : I s' := by
  have hend := h s hs
  rw [hm] at hend
  exact hend

theorem Triple.pure {P : σ → Prop} {Q : α → σ → Prop} {E : σ → Prop} {a : α}
    (h : ∀ s, P s → Q a s) : Triple P (Pure.pure a : Exec σ ε α) Q E :=
  fun s hs => h s hs

theorem Triple.bind {P : σ → Prop} {m : Exec σ ε α} {Q : α → σ → Prop} {E : σ → Prop}
    {f : α → Exec σ ε β} {R : β → σ → Prop}
    (hm : Triple P m Q E) (hf : ∀ a, Triple (Q a) (f a) R E) : Triple P (m >>= f) R E := by
  intro s hs
  have h := hm s hs
  rw [bind_apply]
  cases hr : m s with
  | mk r s' =>
    rw [hr] at h
    cases r with
    | error e => exact h
    | ok a => exact hf a s' h

theorem Triple.weaken {P P' : σ → Prop} {m : Exec σ ε α} {Q Q' : α → σ → Prop}
    {E E' : σ → Prop} (h : Triple P m Q E) (hP : ∀ s, P' s → P s)
    (hQ : ∀ a s, Q a s → Q' a s) (hE : ∀ s, E s → E' s) : Triple P' m Q' E' := by
  intro s hs
  have h' := h s (hP s hs)
  cases hr : m s with
  | mk r s' =>
    rw [hr] at h'
    cases r with
    | error e => exact hE _ h'
    | ok a => exact hQ _ _ h'

theorem Triple.read {P : σ → Prop} {f : σ → Except ε α} {Q : α → σ → Prop} {E : σ → Prop}
    (hok : ∀ s a, P s → f s = .ok a → Q a s) (herr : ∀ s, P s → E s) :
    Triple P (Exec.read f) Q E := by
  intro s hs
  rw [read_apply]
  cases hf : f s with
  | ok a => exact hok s a hs hf
  | error e => exact herr s hs

theorem Triple.modify {P : σ → Prop} {f : σ → σ} {Q : Unit → σ → Prop} {E : σ → Prop}
    (h : ∀ s, P s → Q () (f s)) : Triple P (Exec.modify f : Exec σ ε Unit) Q E :=
  fun s hs => h s hs

theorem Triple.write {P : σ → Prop} {f : σ → Except ε (α × σ)} {Q : α → σ → Prop} {E : σ → Prop}
    (hok : ∀ s a s', P s → f s = .ok (a, s') → Q a s') (herr : ∀ s, P s → E s) :
    Triple P (Exec.write f) Q E := by
  intro s hs
  unfold Exec.write
  cases hf : f s with
  | ok p => exact hok s p.1 p.2 hs hf
  | error e => exact herr s hs

theorem Triple.raiseIf {P : σ → Prop} {b : Bool} {e : ε} {Q : Unit → σ → Prop} {E : σ → Prop}
    (hok : ∀ s, P s → b = false → Q () s) (herr : ∀ s, P s → b = true → E s) :
    Triple P (Exec.raiseIf b e) Q E := by
  intro s hs
  cases b with
  | true => exact herr s hs rfl
  | false => exact hok s hs rfl

/--
The rule of the `try` block: the handler has to repair what a raise of the call
leaves (`E₁`) as well as what a raise of the book-keeping leaves (`E₂`).
-/
theorem Triple.saga {P : σ → Prop} {first : Exec σ ε (ρ × γ)} {rest : ρ → γ → Exec σ ε Unit}
    {handler : Exec σ ε Unit} {G : ρ → γ → σ → Prop} {E₁ E₂ E : σ → Prop}
    {Q : Option ρ → σ → Prop}
    (hfirst : Triple P first (fun p => G p.1 p.2) E₁)
    (hrest : ∀ r g, Triple (G r g) (rest r g) (fun _ => Q (some r)) E₂)
    (hhandler₁ : Triple E₁ handler (fun _ => Q none) E)
    (hhandler₂ : ∀ r, Triple E₂ handler (fun _ => Q (some r)) E) :
    Triple P (Exec.saga first rest handler) Q E := by
  intro s hs
  have h₁ := hfirst s hs
  unfold Exec.saga
  cases hf : first s with
  | mk r s₁ =>
    rw [hf] at h₁
    cases r with
    | error e =>
      have h₂ := hhandler₁ s₁ h₁
      dsimp only
      cases hh : handler s₁ with
      | mk r s₂ => rw [hh] at h₂; cases r <;> exact h₂
    | ok p =>
      have h₂ := hrest p.1 p.2 s₁ h₁
      dsimp only
      cases hr : rest p.1 p.2 s₁ with
      | mk r s₂ =>
        rw [hr] at h₂
        cases r with
        | ok u => exact h₂
        | error e =>
          have h₃ := hhandler₂ p.1 s₂ h₂
          dsimp only
          cases hh : handler s₂ with
          | mk r s₃ => rw [hh] at h₃; cases r <;> exact h₃

theorem Triple.onError {P : σ → Prop} {m : Exec σ ε α} {h : Exec σ ε Unit} {Q : α → σ → Prop}
    {E₁ E : σ → Prop} (hm : Triple P m Q E₁) (hh : Triple E₁ h (fun _ => E) E) :
    Triple P (Exec.onError m h) Q E := by
  intro s hs
  have h₁ := hm s hs
  unfold Exec.onError
  cases hr : m s with
  | mk r s₁ =>
    rw [hr] at h₁
    cases r with
    | ok a => exact h₁
    | error e =>
      have h₂ := hh s₁ h₁
      dsimp only
      cases hr' : h s₁ with
      | mk r s₂ => rw [hr'] at h₂; cases r <;> exact h₂

theorem Keeps.pure {I : σ → Prop} (a : α) : Keeps I (Pure.pure a : Exec σ ε α) :=
  fun _ hs => hs

theorem Keeps.bind {I : σ → Prop} {m : Exec σ ε α} {f : α → Exec σ ε β}
    (hm : Keeps I m) (hf : ∀ a, Keeps I (f a)) : Keeps I (m >>= f) :=
  (Triple.bind hm.triple fun a => (hf a).triple).keeps

/-- What holds after the first program holds after the second that keeps it. -/
theorem Keeps.after {I : σ → Prop} {m : Exec σ ε α} {f : α → Exec σ ε β} {s : σ}
    (hm : I (m s).2) (hf : ∀ a, Keeps I (f a)) : I ((m >>= f) s).2 := by
  rw [bind_apply]
  cases hr : m s with
  | mk r s' =>
    rw [hr] at hm
    cases r with
    | ok a => exact hf a s' hm
    | error e => exact hm

theorem Keeps.raise {I : σ → Prop} (e : ε) : Keeps I (Exec.raise e : Exec σ ε α) :=
  fun _ hs => hs

theorem Keeps.read {I : σ → Prop} (f : σ → Except ε α) : Keeps I (Exec.read f) :=
  fun _ hs => hs

/-- After a program that leaves the state alone, what it returned can be told. -/
theorem Keeps.told {I : σ → Prop} {m : Exec σ ε α} {f : α → Exec σ ε β} {s : σ} (hs : I s)
    (hm : (m s).2 = s) (hf : ∀ a, m s = (.ok a, s) → I (f a s).2) : I ((m >>= f) s).2 := by
  rw [bind_apply]
  cases hr : m s with
  | mk r s' =>
    obtain rfl : s' = s := by rw [hr] at hm; exact hm
    cases r with
    | ok a => exact hf a hr
    | error e => exact hs

/-- After a look-up, what was found can be told. -/
theorem Keeps.look {I : σ → Prop} {g : σ → Except ε α} {f : α → Exec σ ε β} {s : σ} (hs : I s)
    (hf : ∀ a, g s = .ok a → I (f a s).2) : I ((Exec.read g >>= f) s).2 :=
  Keeps.told hs rfl fun a ha => hf a (congrArg Prod.fst ha)

theorem Keeps.raiseIf {I : σ → Prop} (b : Bool) (e : ε) : Keeps I (Exec.raiseIf (σ := σ) b e) :=
  fun _ hs => hs

theorem Keeps.modify {I : σ → Prop} {f : σ → σ} (h : ∀ s, I s → I (f s)) :
    Keeps I (Exec.modify f : Exec σ ε Unit) := h

theorem Keeps.write {I : σ → Prop} {f : σ → Except ε (α × σ)}
    (h : ∀ s a s', I s → f s = .ok (a, s') → I s') : Keeps I (Exec.write f) :=
  (Triple.write (E := I) (Q := fun _ => I) h fun _ hs => hs).keeps

theorem Keeps.saga {I : σ → Prop} {first : Exec σ ε (ρ × γ)} {rest : ρ → γ → Exec σ ε Unit}
    {handler : Exec σ ε Unit} (hfirst : Keeps I first) (hrest : ∀ r g, Keeps I (rest r g))
    (hhandler : Keeps I handler) : Keeps I (Exec.saga first rest handler) :=
  (Triple.saga (G := fun _ _ => I) hfirst.triple (fun r g => (hrest r g).triple)
    hhandler.triple fun _ => hhandler.triple).keeps

/-- Where a `try` block ends, from where its call ends. -/
theorem saga_ends {I : σ → Prop} {first : Exec σ ε (ρ × γ)} {rest : ρ → γ → Exec σ ε Unit}
    {handler : Exec σ ε Unit} {s : σ} (hraise : ∀ e s₁, first s = (.error e, s₁) → I s₁)
    (hreturn : ∀ r g s₁, first s = (.ok (r, g), s₁) → I (rest r g s₁).2)
    (hhandler : Keeps I handler) : I (Exec.saga first rest handler s).2 := by
  have h : Triple (· = s) (Exec.saga first rest handler) (fun _ => I) I := by
    refine Triple.saga (G := fun r g s₁ => first s = (.ok (r, g), s₁))
      ?_ (fun r g => ?_) hhandler.triple fun _ => hhandler.triple
    · rintro _ rfl
      split
      · assumption
      · rename_i e s₁ h; exact hraise e s₁ h
    · intro s₁ h
      have := hreturn r g s₁ h
      cases hr : rest r g s₁ with
      | mk res s₂ => rw [hr] at this; cases res <;> exact this
  exact h.ends rfl

theorem Keeps.onError {I : σ → Prop} {m : Exec σ ε α} {h : Exec σ ε Unit}
    (hm : Keeps I m) (hh : Keeps I h) : Keeps I (Exec.onError m h) :=
  (Triple.onError hm.triple hh.triple).keeps

theorem Keeps.catching {I : σ → Prop} {p : ε → Bool} {m h : Exec σ ε α} (hm : Keeps I m)
    (hh : Keeps I h) : Keeps I (Exec.catching p m h) := by
  intro s hs
  have hstop := hm s hs
  unfold Exec.catching
  cases hr : m s with
  | mk r s' =>
    rw [hr] at hstop
    cases r with
    | ok a => exact hstop
    | error e =>
      dsimp only
      split
      · exact hh s' hstop
      · exact hstop

/-- A roll-back keeps what its body keeps, if putting back the old part does. -/
theorem Keeps.rollback {I : σ → Prop} {restore : σ → σ → σ} {m : Exec σ ε α}
    (hm : Keeps I m) (hr : ∀ s s', I s → I s' → I (restore s s')) :
    Keeps I (Exec.rollback restore m) := by
  intro s hs
  have h := hm s hs
  unfold Exec.rollback
  cases hm' : m s with
  | mk r s' =>
    rw [hm'] at h
    cases r with
    | ok a => exact h
    | error e => exact hr _ _ hs h

theorem Keeps.forEach {I : σ → Prop} {f : α → Exec σ ε Unit} :
    ∀ {l : List α}, (∀ a ∈ l, Keeps I (f a)) → Keeps I (Exec.forEach f l)
  | [], _ => Keeps.pure ()
  | _ :: _, h =>
    Keeps.bind (h _ List.mem_cons_self) fun _ =>
      Keeps.forEach fun a ha => h a (List.mem_cons_of_mem _ ha)

theorem Keeps.ite {I : σ → Prop} {c : Prop} [Decidable c] {m m' : Exec σ ε α}
    (hm : c → Keeps I m) (hm' : ¬ c → Keeps I m') : Keeps I (if c then m else m') := by
  by_cases hc : c
  · rw [if_pos hc]; exact hm hc
  · rw [if_neg hc]; exact hm' hc

/-- An invariant that needs a second one to be kept. -/
theorem Keeps.and {I J : σ → Prop} {m : Exec σ ε α} (hI : Keeps I m) (hJ : Keeps J m) :
    Keeps (fun s => I s ∧ J s) m := fun s hs => ⟨hI s hs.1, hJ s hs.2⟩

end Exec

end Designate
