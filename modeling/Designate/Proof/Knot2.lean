import Designate.Agent.Knot2

/-!
# Transactions of the knot2 agent

A call that begins a transaction aborts it when the change fails. When `conf-commit` fails nobody
does, and the next call cannot begin one.
-/

namespace Designate

namespace Knot2

variable {k : Knot} {call : Call} {conf : List String}

/-! ## One command -/

/-- A command that fails makes `_execute_knotc` raise. -/
theorem executeKnotc_fails {expectedError : Option String} (f : Failure expectedError)
    (command : Command) (k : Knot) :
    executeKnotc (some f) command k = (.error ⟨f.reply.stdout⟩, (knotc (some f) command k).2) := by
  have hreply : (knotc (some f) command k).1 = f.reply := by
    cases command <;> rfl
  unfold executeKnotc
  dsimp only
  rw [hreply, f.unexpected, if_neg Bool.false_ne_true]

theorem expected_ok (expectedError : Option String) :
    Reply.expected expectedError (.prints "OK\n") = true := by
  have hok : (rstrip "OK\n" == "OK") = true := by decide
  change (rstrip "OK\n" == "OK" || expectedError == some (rstrip "OK\n")) = true
  rw [hok, Bool.true_or]

theorem begin_closed :
    executeKnotc (none : Option (Failure none)) .confBegin ⟨conf, none⟩ =
      (.ok (), ⟨conf, some conf⟩) := by
  unfold executeKnotc knotc Knot.run
  simp only [expected_ok, if_true]

theorem abort_open (changed : List String) :
    executeKnotc (none : Option (Failure none)) .confAbort ⟨conf, some changed⟩ =
      (.ok (), ⟨conf, none⟩) := by
  unfold executeKnotc knotc Knot.run
  simp only [expected_ok, if_true]

theorem commit_open (changed : List String) :
    executeKnotc (none : Option (Failure none)) .confCommit ⟨conf, some changed⟩ =
      (.ok (), ⟨changed, none⟩) := by
  unfold executeKnotc knotc Knot.run
  simp only [expected_ok, if_true]

/-- The change, in an open transaction. That it has been made already is the error expected. -/
theorem change_open (change : Change) (changed : List String) :
    executeKnotc (none : Option (Failure change.expectedError)) change.command
      ⟨conf, some changed⟩ = (.ok (), ⟨conf, some (change.apply changed)⟩) := by
  have hset : Reply.expected (some "duplicate identifier") (.prints "duplicate identifier\n") =
    true := by decide
  have hunset : Reply.expected (some "invalid identifier") (.prints "invalid identifier\n") =
    true := by decide
  cases change with
  | set zone =>
    unfold executeKnotc knotc Change.command Knot.run Change.apply Change.expectedError
    by_cases hzone : zone ∈ changed
    · simp only [hzone, if_true, hset]
    · simp only [hzone, if_false, expected_ok, if_true]
  | unset zone =>
    unfold executeKnotc knotc Change.command Knot.run Change.apply Change.expectedError
    by_cases hzone : zone ∈ changed
    · simp only [hzone, if_true, expected_ok]
    · simp only [hzone, if_false, hunset, if_true]

/-- A change that fails leaves the configuration, and the transaction open. -/
theorem change_fails (change : Change) (f : Failure change.expectedError) (changed : List String) :
    (knotc (some f) change.command ⟨conf, some changed⟩).2 = ⟨conf, some (f.left changed)⟩ := by
  cases change <;> rfl

/-! ## One call -/

/-- **The call raises at once.** -/
theorem modifyZone_begins (conf : List String) {f : Failure none} (hbegins : call.begins = some f) :
    modifyZone call ⟨conf, none⟩ = (.error ⟨f.reply.stdout⟩, ⟨conf, none⟩) := by
  unfold modifyZone
  rw [hbegins]
  exact Exec.bind_error (executeKnotc_fails f .confBegin _)

/-- **The change fails**: the transaction is aborted. -/
theorem modifyZone_changes (conf : List String) {f : Failure call.change.expectedError} (hbegins : call.begins = none)
    (hchanges : call.changes = some f) :
    modifyZone call ⟨conf, none⟩ = (.error ⟨f.reply.stdout⟩, ⟨conf, none⟩) := by
  have hchange : executeKnotc (some f) call.change.command ⟨conf, some conf⟩ =
      (.error ⟨f.reply.stdout⟩, ⟨conf, some (f.left conf)⟩) := by
    rw [executeKnotc_fails, change_fails]
  unfold modifyZone
  rw [hbegins, hchanges, Exec.seq_ok begin_closed]
  exact Exec.bind_error (Exec.onError_handled hchange (abort_open _))

/-- **The change is committed.** -/
theorem modifyZone_commits (conf : List String) (hbegins : call.begins = none) (hchanges : call.changes = none)
    (hcommits : call.commits = none) :
    modifyZone call ⟨conf, none⟩ = (.ok (), ⟨call.change.apply conf, none⟩) := by
  unfold modifyZone
  rw [hbegins, hchanges, hcommits, Exec.seq_ok begin_closed,
    Exec.seq_ok (Exec.onError_returned (change_open call.change conf))]
  exact commit_open _

/-- **The commit fails**: the call raises, and the transaction stays. -/
theorem modifyZone_open (conf : List String) (h : call.CommitFails) :
    ∃ e, modifyZone call ⟨conf, none⟩ = (.error e, ⟨conf, some (call.change.apply conf)⟩) := by
  obtain ⟨hbegins, hchanges, hcommits⟩ := h
  obtain ⟨f, hf⟩ := Option.ne_none_iff_exists'.mp hcommits
  refine ⟨⟨f.reply.stdout⟩, ?_⟩
  unfold modifyZone
  rw [hbegins, hchanges, hf, Exec.seq_ok begin_closed,
    Exec.seq_ok (Exec.onError_returned (change_open call.change conf))]
  exact executeKnotc_fails f .confCommit _

theorem not_right (h : call.CommitFails) : ¬ call.Right ⟨conf, none⟩ := by
  intro hright
  obtain ⟨e, hopen⟩ := modifyZone_open conf h
  have hclosed := hright.closed
  rw [hopen] at hclosed
  exact Option.some_ne_none _ hclosed

/-- A call that raises after a command has failed, and leaves everything as it was. -/
theorem right_of_raised {e : Backend} (hraised : modifyZone call ⟨conf, none⟩ = (.error e, ⟨conf, none⟩))
    (hfails : call.begins ≠ none ∨ call.changes ≠ none) : call.Right ⟨conf, none⟩ where
  closed := by rw [hraised]
  returned := by
    rw [hraised]
    intro hok
    cases hok
  raised := by
    rw [hraised]
    exact fun _ => rfl
  unblocked := by
    intro hbegins hchanges _
    rcases hfails with hne | hne
    · exact absurd hbegins hne
    · exact absurd hchanges hne

theorem right_of_returned
    (hreturned : modifyZone call ⟨conf, none⟩ = (.ok (), ⟨call.change.apply conf, none⟩)) :
    call.Right ⟨conf, none⟩ where
  closed := by rw [hreturned]
  returned := by
    rw [hreturned]
    exact fun _ => rfl
  raised := by
    rw [hreturned]
    exact fun hne => absurd rfl hne
  unblocked := by
    rw [hreturned]
    exact fun _ _ _ => rfl

/-- Every other call is right, and the next one finds no transaction open. -/
theorem right_of_not (conf : List String) (h : ¬ call.CommitFails) :
    call.Right ⟨conf, none⟩ ∧ ∃ conf', step call ⟨conf, none⟩ = ⟨conf', none⟩ := by
  cases hbegins : call.begins with
  | some f =>
    have hcall := modifyZone_begins conf hbegins
    have hfails : call.begins ≠ none := hbegins ▸ Option.some_ne_none f
    exact ⟨right_of_raised hcall (.inl hfails), conf, congrArg Prod.snd hcall⟩
  | none =>
    cases hchanges : call.changes with
    | some f =>
      have hcall := modifyZone_changes conf hbegins hchanges
      have hfails : call.changes ≠ none := hchanges ▸ Option.some_ne_none f
      exact ⟨right_of_raised hcall (.inr hfails), conf, congrArg Prod.snd hcall⟩
    | none =>
      have hcommits : call.commits = none := by
        by_contra hne
        exact h ⟨hbegins, hchanges, hne⟩
      have hcall := modifyZone_commits conf hbegins hchanges hcommits
      exact ⟨right_of_returned hcall, _, congrArg Prod.snd hcall⟩

/-- `create_zone` leaves the configuration to `_modify_zone`. -/
theorem createZone_knot (zoneName : String) (begins : Option (Failure none))
    (changes : Option (Failure (some "duplicate identifier"))) (commits refreshes : Option (Failure none))
    (k : Knot) : (createZone zoneName begins changes commits refreshes k).2 =
      step ⟨.set zoneName, begins, changes, commits⟩ k := by
  have hrefresh : ∀ k : Knot, (executeKnotc refreshes (.zoneRefresh zoneName) k).2 = k := by
    intro k
    unfold executeKnotc
    cases refreshes with
    | none => rfl
    | some f =>
      dsimp only
      split <;> rfl
  unfold createZone step
  rw [Exec.bind_apply]
  split
  · rename_i hcall
    rw [hrefresh, hcall]
  · rename_i hcall
    rw [hcall]

/-! ## Every sequence of calls -/

/-- **No transaction is left open, and every call does what it should, in exactly those sequences of
calls in which no `conf-commit` fails.** By induction on the calls: up to the first that fails, each
call finds the transaction closed. -/
theorem transactions_closed_iff (conf : List String) (calls : List Call) :
    (∀ tr ∈ Run.transitions step calls ⟨conf, none⟩, tr.input.Right tr.before) ↔
      ∀ call ∈ calls, ¬ call.CommitFails := by
  induction calls generalizing conf with
  | nil => simp [Run.transitions]
  | cons call calls ih =>
    unfold Run.transitions
    rw [List.forall_mem_cons, List.forall_mem_cons]
    by_cases hfails : call.CommitFails
    · constructor
      · intro h
        exact absurd h.1 (not_right hfails)
      · intro h
        exact absurd hfails h.1
    · obtain ⟨hright, conf', hstep⟩ := right_of_not conf hfails
      rw [hstep, ih conf']
      constructor
      · intro h
        exact ⟨hfails, h.2⟩
      · intro h
        exact ⟨hright, h.2⟩

/-- After a `conf-commit` that fails, a call of which no command fails raises. -/
theorem next_blocked :
    ¬ ∀ (conf : List String) (calls : List Call),
      ∀ tr ∈ Run.transitions step calls ⟨conf, none⟩, tr.input.Right tr.before := by
  intro h
  have hcalls := h [] [{ change := .set "a", commits := some ⟨.prints "error", id, by decide⟩ },
    { change := .set "b" }]
  unfold Run.transitions at hcalls
  have hsecond := (List.forall_mem_cons.mp hcalls).2 _ List.mem_cons_self
  have hreturned := hsecond.unblocked rfl rfl rfl
  cases hreturned

end Knot2

end Designate
