import Designate.Central.Acls

/-!
# What is left of an ACL change that raises

A call that raises has to leave the three tables as they were. Central takes its own row
back; it takes back neither what the worker's calls have written before the one that
failed, nor a row it has rewritten without having been asked to.
-/

namespace Designate

namespace Acls

open Exec

variable {ctx : Context} {failing : Option AclSite} {s s' : Estate}

/-- The three tables of ACLs are the same. -/
structure SameAcls (s s' : Estate) : Prop where
  acls : s'.acls = s.acls
  zdnsAcls : s'.zdnsAcls = s.zdnsAcls
  aclAssociations : s'.aclAssociations = s.aclAssociations

theorem SameAcls.refl (s : Estate) : SameAcls s s := ⟨rfl, rfl, rfl⟩

/--
What the keys, the unique columns and the generator of identifiers give. The compensation finds
the row by its identifier, and takes back no other because of these.
-/
structure WfAcls (s : Estate) : Prop where
  ids : (s.acls.map AclRow.id).Nodup
  networks : (s.acls.map AclRow.networks).Nodup
  fresh : ∀ acl ∈ s.acls, acl.id < s.world.nextId

/-- A call about an ACL. An update carries what the API makes of a row and of a request. -/
inductive AclRequest where
  | create (acl : NewAcl) (response : AclResponse)
  | update (row : AclRow) (poolId : Option (Option String)) (networks : Option Networks)
    (response : AclResponse)
  | delete (id : Nat)

/-- Central answers the call, in which `failing` does not get through. -/
def AclRequest.run (ctx : Context) (failing : Option AclSite) : AclRequest → AclCall Unit
  | .create acl response => do
    let _ ← createAcl ctx failing acl response
  | .update row poolId networks response => do
    let _ ← updateAcl ctx failing (AclObject.parse row poolId networks) response
  | .delete id => do
    let _ ← deleteAcl ctx failing id

/-- If the call raises, the tables are as before. -/
def AtomicOnError (ctx : Context) (failing : Option AclSite) (request : AclRequest) (s : Estate) :
    Prop :=
  ∀ e s', request.run ctx failing s = (.error e, s') → SameAcls s s'

/-! ## Steps -/

theorem step_other {site : AclSite} (h : failing ≠ some site) :
    step failing site s = (.ok (), s) := raiseIf_of_not (decide_eq_false h) _ s

theorem step_failing {site : AclSite} (h : failing = some site) :
    step failing site s = (.error .StepFailed, s) := raiseIf_of (decide_eq_true h) _ s

theorem generateUuid_apply (s : Estate) :
    generateUuid s =
      (.ok s.world.nextId, { s with world := { s.world with nextId := s.world.nextId + 1 } }) := rfl

theorem checkNetworks_ok {networks : Networks}
    (h : (networks.items.isEmpty || networks.items.any fun item => item.isEmpty) = false) :
    checkNetworks networks s = (.ok (), s) := raiseIf_of_not h _ s

/-- The networks of a request are not empty, and none of them is. -/
def Networks.Valid (networks : Networks) : Prop :=
  (networks.items.isEmpty || networks.items.any fun item => item.isEmpty) = false

theorem checkNetworks_error {networks : Networks} (h : ¬ networks.Valid) :
    checkNetworks networks s = (.error .NoneIpAddress, s) :=
  raiseIf_of (Bool.of_not_eq_false h) _ s

/-- A call raises if what is left of it without its result does. -/
theorem raised_of_discard {α : Type} {m : AclCall α} {e : AclExc}
    (h : (m >>= fun _ => pure ()) s = (.error e, s')) : m s = (.error e, s') := by
  rcases bind_eq_error.mp h with hm | ⟨a, s₁, -, hpure⟩
  · exact hm
  · exact absurd hpure (by simp)

theorem getAcl_apply (id : Nat) : getAcl ctx id s = (findAcl ctx id s, s) := rfl

/-! ## Creation -/

section Create

variable {name networks : String} {poolId : Option String} {acl : NewAcl} {response : AclResponse}

/-- Another ACL has the name or the networks. -/
def Taken (name networks : String) (s : Estate) : Prop :=
  (s.acls.any fun acl => acl.name == name || acl.networks == networks) = true

/-- The row of a new ACL. -/
def newRow (ctx : Context) (acl : NewAcl) (s : Estate) : AclRow :=
  ⟨s.world.nextId, acl.poolId, some ctx.tenant, acl.networks.joined, acl.name⟩

/-- The state with a new ACL stored. -/
def withAcl (s : Estate) (row : AclRow) : Estate :=
  { s with world := { s.world with nextId := s.world.nextId + 1 }, acls := s.acls ++ [row] }

theorem createAclInStorage_ok (hf : failing ≠ some .aclWrite)
    (ht : ¬ Taken acl.name acl.networks.joined s) :
    createAclInStorage ctx failing acl.name acl.poolId acl.networks.joined s =
      (.ok (newRow ctx acl s), withAcl s (newRow ctx acl s)) := by
  have htaken : (s.acls.any fun other => other.name == acl.name ||
      other.networks == acl.networks.joined) = false := by simpa [Taken] using ht
  unfold createAclInStorage transaction Exec.rollback
  rw [bind_ok (generateUuid_apply s), bind_ok (step_other hf)]
  simp only [Exec.write, htaken, Bool.false_eq_true, if_false]
  rfl

theorem createAclInStorage_error
    (h : failing = some .aclWrite ∨ Taken acl.name acl.networks.joined s) :
    ∃ e s', createAclInStorage ctx failing acl.name acl.poolId acl.networks.joined s =
      (.error e, s') ∧ SameAcls s s' := by
  by_cases hf : failing = some .aclWrite
  · refine ⟨.StepFailed, { s with world := { s.world with nextId := s.world.nextId + 1 } }, ?_,
      ⟨rfl, rfl, rfl⟩⟩
    unfold createAclInStorage transaction Exec.rollback
    rw [bind_ok (generateUuid_apply s), bind_error (step_failing hf)]
  · have htaken : (s.acls.any fun other => other.name == acl.name ||
        other.networks == acl.networks.joined) = true := h.resolve_left hf
    refine ⟨.DuplicateAcl, { s with world := { s.world with nextId := s.world.nextId + 1 } }, ?_,
      ⟨rfl, rfl, rfl⟩⟩
    unfold createAclInStorage transaction Exec.rollback
    rw [bind_ok (generateUuid_apply s), bind_ok (step_other hf)]
    simp only [Exec.write, htaken, if_true]

/-- The new row is found and taken out again. -/
theorem deleteAclInStorage_new (hw : WfAcls s) {s₁ : Estate}
    (h : s₁.acls = s.acls ++ [newRow ctx acl s]) :
    deleteAclInStorage ctx (newRow ctx acl s).id s₁ =
      (.ok (newRow ctx acl s), { s₁ with acls := s.acls }) := by
  have hne : ∀ other ∈ s.acls, other.id ≠ (newRow ctx acl s).id := by
    intro other hother
    have := hw.fresh other hother
    change other.id ≠ s.world.nextId
    omega
  have hfind : findAcl ctx (newRow ctx acl s).id s₁ = .ok (newRow ctx acl s) := by
    unfold findAcl
    rw [h]
    exact Table.find_append_new AclRow.id hne (by simp [newRow, Context.sees])
  unfold deleteAclInStorage transaction Exec.rollback deleteAclRow
  rw [bind_ok (by rw [getAcl_apply, hfind])]
  simp only [bind_apply, modify_apply, pure_apply, h]
  rw [Table.remove_append_self hne]

/-- What central is told about a new ACL fails before its first write. -/
theorem bookkeeping_before {s₁ : Estate}
    (h : failing = some .device ∨ failing = some .zdnsAclWrite) :
    ∃ s₂, aclAction failing (createZdnsAcl failing (newRow ctx acl s).id response) s₁ =
      (.error .StepFailed, s₂) ∧ SameAcls s₁ s₂ := by
  rcases h with h | h
  · exact ⟨s₁, bind_error (step_failing h), SameAcls.refl _⟩
  · refine ⟨{ s₁ with world := { s₁.world with nextId := s₁.world.nextId + 1 } }, ?_,
      ⟨rfl, rfl, rfl⟩⟩
    unfold aclAction createZdnsAcl
    rw [bind_ok (step_other (by simp [h])), bind_ok (generateUuid_apply s₁),
      bind_error (step_failing h)]

variable (ctx acl s response) in
/-- What central is told about a new ACL fails between its two writes. -/
theorem bookkeeping_between (s₁ : Estate) (h : failing = some .associationWrite) :
    aclAction failing (createZdnsAcl failing (newRow ctx acl s).id response) s₁ =
      (.error .StepFailed,
        { s₁ with world := { s₁.world with nextId := s₁.world.nextId + 1 }
                  zdnsAcls := s₁.zdnsAcls ++ [response.row s₁.world.nextId] }) := by
  unfold aclAction createZdnsAcl
  rw [bind_ok (step_other (by simp [h])), bind_ok (generateUuid_apply s₁),
    bind_ok (step_other (by simp [h])), bind_ok (modify_apply _ _), bind_error (step_failing h)]

theorem bookkeeping_ok {s₁ : Estate} (hd : failing ≠ some .device)
    (hz : failing ≠ some .zdnsAclWrite) (ha : failing ≠ some .associationWrite) :
    ∃ s₂, aclAction failing (createZdnsAcl failing (newRow ctx acl s).id response) s₁ =
      (.ok (), s₂) := by
  unfold aclAction createZdnsAcl
  rw [bind_ok (step_other hd), bind_ok (generateUuid_apply s₁), bind_ok (step_other hz),
    bind_ok (modify_apply _ _), bind_ok (step_other ha)]
  exact ⟨_, rfl⟩

/-- A creation whose association is not written, though the ACL and its mirror are. -/
structure CreateSpoils (failing : Option AclSite) (acl : NewAcl) (s : Estate) : Prop where
  valid : acl.networks.Valid
  free : ¬ Taken acl.name acl.networks.joined s
  stops : failing = some .associationWrite

/-- Where the book-keeping of a new ACL raises, the row of `acl` goes and the rest stays. -/
theorem createAcl_compensated (hw : WfAcls s) (hv : acl.networks.Valid)
    (hfree : ¬ Taken acl.name acl.networks.joined s) (hf : failing ≠ some .aclWrite) {s₂ : Estate}
    (hbook : aclAction failing (createZdnsAcl failing (newRow ctx acl s).id response)
      (withAcl s (newRow ctx acl s)) = (.error .StepFailed, s₂))
    (hacls : s₂.acls = s.acls ++ [newRow ctx acl s]) :
    createAcl ctx failing acl response s = (.error .StepFailed, { s₂ with acls := s.acls }) := by
  unfold createAcl
  rw [bind_ok (checkNetworks_ok hv), bind_ok (createAclInStorage_ok hf hfree)]
  refine bind_error ?_
  exact onError_handled hbook (seq_ok (deleteAclInStorage_new hw hacls))

/-- A creation whose association is written returns, or has its own row taken back. -/
theorem createAcl_atomic (hw : WfAcls s) (h : ¬ CreateSpoils failing acl s) {e : AclExc}
    (hrun : createAcl ctx failing acl response s = (.error e, s')) : SameAcls s s' := by
  by_cases hv : acl.networks.Valid
  · -- nothing is stored yet: the call raises without having to undo anything
    by_cases hstored : failing = some .aclWrite ∨ Taken acl.name acl.networks.joined s
    · obtain ⟨e', s₁, herror, hsame⟩ := createAclInStorage_error hstored
      have hraise : createAcl ctx failing acl response s = (.error e', s₁) := by
        unfold createAcl
        rw [bind_ok (checkNetworks_ok hv), bind_error herror]
      rw [hraise] at hrun
      cases hrun
      exact hsame
    · obtain ⟨hf, hfree⟩ := not_or.mp hstored
      -- the row is stored and the device or its row fails: the handler takes the row back
      by_cases hbefore : failing = some .device ∨ failing = some .zdnsAclWrite
      · obtain ⟨s₂, hbook, hsame⟩ := bookkeeping_before (s := s) hbefore
        rw [createAcl_compensated hw hv hfree hf hbook hsame.acls] at hrun
        cases hrun
        exact ⟨rfl, hsame.zdnsAcls, hsame.aclAssociations⟩
      · obtain ⟨hd, hz⟩ := not_or.mp hbefore
        -- the last write is the one that the handler does not cover, and it does not fail here
        have ha : failing ≠ some .associationWrite := fun ha => h ⟨hv, hfree, ha⟩
        obtain ⟨s₂, hbook⟩ := bookkeeping_ok (s := s) hd hz ha
        have hreturn : createAcl ctx failing acl response s =
            (.ok (AclObject.ofRow (newRow ctx acl s)).splitting, s₂) := by
          unfold createAcl
          rw [bind_ok (checkNetworks_ok hv), bind_ok (createAclInStorage_ok hf hfree)]
          exact bind_ok (onError_returned hbook)
        rw [hreturn] at hrun
        exact absurd hrun (by simp)
  · have hraise : createAcl ctx failing acl response s = (.error .NoneIpAddress, s) := by
      unfold createAcl
      rw [bind_error (checkNetworks_error hv)]
    rw [hraise] at hrun
    cases hrun
    exact SameAcls.refl s

/-- The mirror of an ACL that was not created stays. -/
theorem createAcl_spoiled (hw : WfAcls s) (h : CreateSpoils failing acl s) :
    ∃ e s', createAcl ctx failing acl response s = (.error e, s') ∧ ¬ SameAcls s s' := by
  have hbook := bookkeeping_between ctx s acl response (withAcl s (newRow ctx acl s)) h.stops
  refine ⟨_, _, createAcl_compensated hw h.valid h.free (by simp [h.stops]) hbook rfl, ?_⟩
  intro hsame
  have hlen := congrArg List.length hsame.zdnsAcls
  simp [withAcl] at hlen

end Create

/-! ## Update -/

section Update

variable {acl : AclObject} {response : AclResponse} {stored new : AclRow}

/-- What lets the write of an object through, from the row it finds to the row it leaves. -/
structure Writes (ctx : Context) (failing : Option AclSite) (acl : AclObject)
    (stored new : AclRow) (s : Estate) : Prop where
  gets : failing ≠ some .aclWrite
  found : findAcl ctx acl.id s = .ok stored
  row : acl.updateRow stored = .ok new
  free : ∀ other ∈ s.acls, other.id ≠ stored.id → other.networks ≠ new.networks

/-- The state with `new` in the place of the row that had its identifier. -/
def withRow (s : Estate) (new : AclRow) : Estate :=
  { s with acls := Table.update AclRow.id new.id (fun _ => new) s.acls }

/-- A write of an object leaves the identifier, the tenant and the name alone. -/
theorem updateRow_keeps (h : acl.updateRow stored = .ok new) :
    new.id = stored.id ∧ new.tenantId = stored.tenantId ∧ new.name = stored.name := by
  unfold AclObject.updateRow at h
  split at h
  · split at h
    · cases h
      exact ⟨rfl, rfl, rfl⟩
    · exact absurd h (by simp)
  · cases h
    exact ⟨rfl, rfl, rfl⟩

theorem Writes.id (h : Writes ctx failing acl stored new s) : acl.id = new.id :=
  ((updateRow_keeps h.row).1.trans (Table.find_mem h.found).2.1).symm

theorem updateAclInStorage_ok (h : Writes ctx failing acl stored new s) :
    updateAclInStorage ctx failing acl s = (.ok (AclObject.ofRow new), withRow s new) := by
  have hid := (updateRow_keeps h.row).1
  have hfree : (s.acls.any fun other =>
      other.id != stored.id && other.networks == new.networks) = false := by
    rw [List.any_eq_false]
    intro other hother
    have := h.free other hother
    simpa using this
  unfold updateAclInStorage transaction Exec.rollback
  rw [bind_ok (step_other h.gets), bind_ok (by rw [getAcl_apply, h.found]),
    bind_ok (by rw [read_apply, h.row])]
  simp only [bind_apply, Exec.write, hfree, Bool.false_eq_true, if_false, pure_apply, withRow, hid]

/-- A write of an object that raises leaves everything as it was. -/
theorem updateAclInStorage_error (h : ∀ stored new, ¬ Writes ctx failing acl stored new s) :
    ∃ e, updateAclInStorage ctx failing acl s = (.error e, s) := by
  unfold updateAclInStorage transaction Exec.rollback
  by_cases hgets : failing = some .aclWrite
  · exact ⟨_, by rw [bind_error (step_failing hgets)]⟩
  · rw [bind_ok (step_other hgets)]
    cases hfound : findAcl ctx acl.id s with
    | error e => exact ⟨e, by rw [bind_error (by rw [getAcl_apply, hfound])]⟩
    | ok stored =>
      rw [bind_ok (by rw [getAcl_apply, hfound])]
      cases hrow : acl.updateRow stored with
      | error e => exact ⟨e, by rw [bind_error (read_apply (fun _ => .error e) s)]⟩
      | ok new =>
        rw [bind_ok (read_apply (fun _ => .ok new) s)]
        have htaken : (s.acls.any fun other =>
            other.id != stored.id && other.networks == new.networks) = true := by
          by_contra hfree
          refine h stored new ⟨hgets, hfound, hrow, ?_⟩
          intro other hother
          have := List.any_eq_false.mp (Bool.not_eq_true _ ▸ hfree) other hother
          simpa using this
        exact ⟨.DuplicateAcl, by simp only [bind_apply, Exec.write, htaken, if_true]⟩

/-- What is behind the write of the ACL does not get through. -/
def Stops (failing : Option AclSite) (aclId : Nat) (s : Estate) : Prop :=
  failing = some .device ∨ failing = some .zdnsAclWrite ∨
    ∀ association ∈ s.aclAssociations, association.aclId ≠ aclId

theorem getAclAsso_ok {aclId : Nat} {association : AclAssociation}
    (hmem : association ∈ s.aclAssociations) (hid : association.aclId = aclId) :
    ∃ found ∈ s.aclAssociations, found.aclId = aclId ∧ getAclAsso aclId s = (.ok found, s) := by
  unfold getAclAsso
  cases hfind : s.aclAssociations.find? fun a => a.aclId == aclId with
  | none =>
    have := List.find?_eq_none.mp hfind association hmem
    exact absurd hid (by simpa using this)
  | some found =>
    refine ⟨found, List.mem_of_find?_eq_some hfind, ?_, by rw [read_apply, hfind]⟩
    simpa using List.find?_some hfind

theorem getAclAsso_error {aclId : Nat}
    (h : ∀ association ∈ s.aclAssociations, association.aclId ≠ aclId) :
    getAclAsso aclId s = (.error .TypeError, s) := by
  have hfind : (s.aclAssociations.find? fun a => a.aclId == aclId) = none := by
    rw [List.find?_eq_none]
    intro association hmem
    simpa using h association hmem
  unfold getAclAsso
  rw [read_apply, hfind]

/-- The book-keeping of an update has one write, so that it writes all of it or nothing. -/
theorem updateBookkeeping_stops {aclId : Nat} (h : Stops failing aclId s) :
    ∃ e, aclAction failing (updateZdnsAcl failing aclId response) s = (.error e, s) := by
  unfold aclAction
  by_cases hd : failing = some .device
  · exact ⟨_, bind_error (step_failing hd)⟩
  · rw [bind_ok (step_other hd)]
    unfold updateZdnsAcl
    by_cases hasso : ∀ association ∈ s.aclAssociations, association.aclId ≠ aclId
    · exact ⟨_, bind_error (getAclAsso_error hasso)⟩
    · have hz : failing = some .zdnsAclWrite := (h.resolve_left hd).resolve_right hasso
      push Not at hasso
      obtain ⟨association, hmem, hid⟩ := hasso
      obtain ⟨found, -, -, hfound⟩ := getAclAsso_ok hmem hid
      exact ⟨.StepFailed, by rw [bind_ok hfound, bind_error (step_failing hz)]⟩

theorem updateBookkeeping_goes {aclId : Nat} (h : ¬ Stops failing aclId s) :
    ∃ s', aclAction failing (updateZdnsAcl failing aclId response) s = (.ok (), s') := by
  obtain ⟨hd, h⟩ := not_or.mp h
  obtain ⟨hz, hasso⟩ := not_or.mp h
  push Not at hasso
  obtain ⟨association, hmem, hid⟩ := hasso
  obtain ⟨found, -, -, hfound⟩ := getAclAsso_ok hmem hid
  unfold aclAction updateZdnsAcl
  rw [bind_ok (step_other hd), bind_ok hfound, bind_ok (step_other hz)]
  exact ⟨_, rfl⟩

/-- The object that is written has its networks as one text. -/
theorem joining_updateRow (acl : AclObject) (stored : AclRow) :
    acl.joining.updateRow stored = .ok { stored with
      poolId := acl.poolId.write stored.poolId
      networks := if acl.joining.networks.changed then acl.given.joined else stored.networks } := by
  unfold AclObject.updateRow
  cases h : acl.joining.networks.changed with
  | false => simp [AclObject.joining]
  | true => simp [AclObject.joining, AclObject.given]

/-- The row the compensation leaves, over what the update has left. -/
theorem asStored_updateRow (h : acl.joining.updateRow stored = .ok new) :
    (acl.asStored stored).updateRow new = .ok { stored with
      networks := if acl.networks.changed then stored.networks else new.networks } := by
  rw [joining_updateRow] at h
  cases h
  unfold AclObject.updateRow
  cases hn : acl.networks.changed <;> cases hp : acl.poolId.changed <;>
    simp [AclObject.asStored, AclObject.given, hn, hp, Tracked.set, Tracked.write]

theorem mem_withRow (hfound : findAcl ctx acl.id s = .ok stored) (hid : new.id = stored.id) :
    new ∈ (withRow s new).acls := by
  have hmem := (Table.find_mem hfound).1
  exact Table.mem_update.mpr (Or.inr ⟨stored, hmem, hid.symm, rfl⟩)

theorem withRow_ids (s : Estate) (new : AclRow) :
    (withRow s new).acls.map AclRow.id = s.acls.map AclRow.id :=
  Table.map_update fun _ _ h => h.symm

theorem other_of_mem_withRow {other : AclRow} (h : other ∈ (withRow s new).acls)
    (hne : other.id ≠ new.id) : other ∈ s.acls := by
  rcases Table.mem_update.mp h with ⟨hmem, -⟩ | ⟨-, -, -, rfl⟩
  · exact hmem
  · exact absurd rfl hne

/-- After the update the compensation always gets through. -/
theorem compensation_writes (hw : WfAcls s) (h : Writes ctx failing acl.joining stored new s) :
    Writes ctx none (acl.asStored stored) new
      { stored with networks := if acl.networks.changed then stored.networks else new.networks }
      (withRow s new) := by
  obtain ⟨hid, htenant, -⟩ := updateRow_keeps h.row
  obtain ⟨hmem, hkey, hsees⟩ := Table.find_mem h.found
  refine ⟨by simp, ?_, asStored_updateRow h.row, ?_⟩
  · have hids : ((withRow s new).acls.map AclRow.id).Nodup := by
      rw [withRow_ids]
      exact hw.ids
    exact Table.find_of_mem hids (mem_withRow h.found hid) (hid.trans hkey)
      (by rw [htenant]; exact hsees)
  · intro other hother hne
    have hold := other_of_mem_withRow hother hne
    rw [hid] at hne
    split
    · -- the networks of the row before the update are no other row's
      intro heq
      exact hne (congrArg AclRow.id (Table.eq_of_key hw.networks hold hmem heq))
    · exact h.free other hold hne

/-- Both writes together leave the row of the compensation. -/
theorem withRow_withRow {old : AclRow} (hid : old.id = new.id) :
    withRow (withRow s new) old = withRow s old := by
  unfold withRow
  simp only [hid]
  rw [Table.update_update fun _ _ => rfl]

/--
An update that stops behind its write, of an object whose networks nobody assigned: the
text they are written back as is neither what the request had read nor what the row has.
-/
structure UpdateSpoils (ctx : Context) (failing : Option AclSite) (acl : AclObject) (s : Estate) :
    Prop where
  valid : acl.given.Valid
  unassigned : acl.networks.changed = false
  rejoined : acl.joining.networks.changed = true
  writes : ∃ stored new, Writes ctx failing acl.joining stored new s ∧
    new.networks ≠ stored.networks
  stops : Stops failing acl.id s

variable (acl) in
theorem getOriginAcl_ok (h : findAcl ctx acl.id s = .ok stored) :
    getOriginAcl ctx acl s = (.ok (acl.asStored stored), s) := by
  unfold getOriginAcl
  rw [bind_ok (by rw [getAcl_apply, h])]
  rfl

/-- An update whose book-keeping raises leaves the row of the compensation. -/
theorem updateAcl_compensated (hw : WfAcls s) (hv : acl.given.Valid)
    (h : Writes ctx failing acl.joining stored new s) (hstops : Stops failing acl.id s) :
    ∃ e, updateAcl ctx failing acl response s = (.error e, withRow s { stored with
      networks := if acl.networks.changed then stored.networks else new.networks }) := by
  obtain ⟨e, hbook⟩ := updateBookkeeping_stops (s := withRow s new) (h.id ▸ hstops)
  refine ⟨e, ?_⟩
  unfold updateAcl
  rw [bind_ok (checkNetworks_ok hv), bind_ok (getOriginAcl_ok acl h.found),
    bind_ok (updateAclInStorage_ok h)]
  refine bind_error ?_
  have hback := updateAclInStorage_ok (compensation_writes hw h)
  have htwice := withRow_withRow (s := s) (updateRow_keeps (asStored_updateRow h.row)).1
  rw [htwice] at hback
  exact onError_handled hbook (seq_ok hback)

/-- An update that is refused, or whose write is, has written nothing. -/
theorem updateAcl_refused
    (h : ¬ acl.given.Valid ∨ ∀ stored new, ¬ Writes ctx failing acl.joining stored new s) :
    ∃ e, updateAcl ctx failing acl response s = (.error e, s) := by
  unfold updateAcl
  by_cases hv : acl.given.Valid
  · rw [bind_ok (checkNetworks_ok hv)]
    cases hfound : findAcl ctx acl.id s with
    | error e =>
      unfold getOriginAcl
      exact ⟨e, bind_error (bind_error (by rw [getAcl_apply, hfound]))⟩
    | ok stored =>
      obtain ⟨e, herror⟩ := updateAclInStorage_error (h.resolve_left (not_not_intro hv))
      exact ⟨e, by rw [bind_ok (getOriginAcl_ok acl hfound), bind_error herror]⟩
  · exact ⟨_, bind_error (checkNetworks_error hv)⟩

theorem updateAcl_returns (hv : acl.given.Valid)
    (h : Writes ctx failing acl.joining stored new s) (hgoes : ¬ Stops failing acl.id s) :
    ∃ s', updateAcl ctx failing acl response s = (.ok (AclObject.ofRow new).splitting, s') := by
  obtain ⟨s', hbook⟩ := updateBookkeeping_goes (s := withRow s new) (h.id ▸ hgoes)
  refine ⟨s', ?_⟩
  unfold updateAcl
  rw [bind_ok (checkNetworks_ok hv), bind_ok (getOriginAcl_ok acl h.found),
    bind_ok (updateAclInStorage_ok h)]
  exact bind_ok (onError_returned hbook)

/-- Where the update does not spoil them, the networks are those of the row it found. -/
theorem compensation_networks (hv : acl.given.Valid)
    (hwrites : Writes ctx failing acl.joining stored new s) (hstops : Stops failing acl.id s)
    (h : ¬ UpdateSpoils ctx failing acl s) :
    (if acl.networks.changed then stored.networks else new.networks) = stored.networks := by
  cases hchanged : acl.networks.changed with
  | true => rfl
  | false =>
    rw [if_neg (by simp)]
    by_contra hne
    refine h ⟨hv, hchanged, ?_, ⟨stored, new, hwrites, hne⟩, hstops⟩
    -- had joining them changed nothing, the write would have left them alone
    by_contra hjoined
    have hrow := (joining_updateRow acl stored).symm.trans hwrites.row
    rw [if_neg hjoined] at hrow
    cases hrow
    exact hne rfl

/-- An update that does not stop behind its write returns, or has written nothing. -/
theorem updateAcl_atomic (hw : WfAcls s) (h : ¬ UpdateSpoils ctx failing acl s) {e : AclExc}
    (hrun : updateAcl ctx failing acl response s = (.error e, s')) : SameAcls s s' := by
  by_cases hrefused : ¬ acl.given.Valid ∨ ∀ stored new, ¬ Writes ctx failing acl.joining stored new s
  · obtain ⟨e', hraise⟩ := updateAcl_refused hrefused
    rw [hraise] at hrun
    cases hrun
    exact SameAcls.refl s
  · push Not at hrefused
    obtain ⟨hv, stored, new, hwrites⟩ := hrefused
    by_cases hstops : Stops failing acl.id s
    · obtain ⟨e', hraise⟩ := updateAcl_compensated hw hv hwrites hstops
      rw [hraise, compensation_networks hv hwrites hstops h] at hrun
      cases hrun
      refine ⟨Table.update_id fun other hother hid => ?_, rfl, rfl⟩
      exact (Table.eq_of_key hw.ids hother (Table.find_mem hwrites.found).1 hid).symm
    · obtain ⟨s₂, hreturn⟩ := updateAcl_returns hv hwrites hstops
      rw [hreturn] at hrun
      exact absurd hrun (by simp)

/-- The compensation leaves the networks as the update has written them. -/
theorem updateAcl_spoiled (hw : WfAcls s) (h : UpdateSpoils ctx failing acl s) :
    ∃ e s', updateAcl ctx failing acl response s = (.error e, s') ∧ ¬ SameAcls s s' := by
  obtain ⟨stored, new, hwrites, hne⟩ := h.writes
  obtain ⟨e, hraise⟩ := updateAcl_compensated hw h.valid hwrites h.stops
  refine ⟨e, _, hraise, fun hsame => ?_⟩
  rw [h.unassigned, if_neg (by simp)] at hsame
  have hmem : { stored with networks := new.networks } ∈
      (withRow s { stored with networks := new.networks }).acls := mem_withRow hwrites.found rfl
  rw [hsame.acls] at hmem
  have hrow := Table.eq_of_key hw.ids hmem (Table.find_mem hwrites.found).1 rfl
  have hnetworks := congrArg AclRow.networks hrow
  exact hne hnetworks

end Update

/-! ## Deletion -/

section Delete

variable {id : Nat} {row : AclRow}

theorem getAclViewAsso_apply (id : Nat) (s : Estate) :
    getAclViewAsso id s = (.ok (s.world.db.viewAcls.filter fun a => a.aclId == id), s) := rfl

theorem transaction_ok {α : Type} {m : AclCall α} {a : α} (h : m s = (.ok a, s')) :
    transaction m s = (.ok a, s') := by
  unfold transaction Exec.rollback
  rw [h]

theorem transaction_error {α : Type} {m : AclCall α} {e : AclExc} (h : m s = (.error e, s')) :
    transaction m s = (.error e, { s' with acls := s.acls }) := by
  unfold transaction Exec.rollback
  rw [h]

/-- A view uses the ACL. -/
def UsedByView (id : Nat) (s : Estate) : Prop :=
  ∃ a ∈ s.world.db.viewAcls, a.aclId = id

theorem usedByView_iff :
    (!(s.world.db.viewAcls.filter fun a => a.aclId == id).isEmpty) = true ↔ UsedByView id s := by
  simp [UsedByView]

/-- The device or the first write of central fails, or there is nothing to write. -/
theorem deleteBookkeeping_before (h : failing = some .device ∨ failing = some .associationWrite ∨
    ∀ association ∈ s.aclAssociations, association.aclId ≠ id) :
    ∃ e, aclAction failing (deleteZdnsAcl failing id) s = (.error e, s) := by
  unfold aclAction
  by_cases hd : failing = some .device
  · exact ⟨_, bind_error (step_failing hd)⟩
  · rw [bind_ok (step_other hd)]
    unfold deleteZdnsAcl
    by_cases hasso : ∀ association ∈ s.aclAssociations, association.aclId ≠ id
    · exact ⟨_, bind_error (getAclAsso_error hasso)⟩
    · have ha := (h.resolve_left hd).resolve_right hasso
      push Not at hasso
      obtain ⟨association, hmem, hid⟩ := hasso
      obtain ⟨found, -, -, hget⟩ := getAclAsso_ok hmem hid
      exact ⟨.StepFailed, by rw [bind_ok hget, bind_error (step_failing ha)]⟩

/-- The association goes first; the row it led to may be left. -/
theorem deleteBookkeeping_behind (hd : failing ≠ some .device) (ha : failing ≠ some .associationWrite)
    (hasso : ∃ association ∈ s.aclAssociations, association.aclId = id) :
    ∃ s', aclAction failing (deleteZdnsAcl failing id) s =
        (if failing = some .zdnsAclWrite then .error .StepFailed else .ok (), s') ∧
      s'.acls = s.acls ∧
      s'.aclAssociations = Table.remove AclAssociation.aclId id s.aclAssociations := by
  obtain ⟨association, hmem, hid⟩ := hasso
  obtain ⟨found, -, -, hget⟩ := getAclAsso_ok hmem hid
  unfold aclAction deleteZdnsAcl
  rw [bind_ok (step_other hd), bind_ok hget, bind_ok (step_other ha), bind_ok (modify_apply _ _)]
  by_cases hz : failing = some .zdnsAclWrite
  · rw [bind_error (step_failing hz), if_pos hz]
    exact ⟨_, rfl, rfl, rfl⟩
  · rw [bind_ok (step_other hz), if_neg hz]
    exact ⟨_, rfl, rfl, rfl⟩

/-- The device has deleted the ACL, and the association with what it was there is gone. -/
structure DeleteSpoils (ctx : Context) (failing : Option AclSite) (id : Nat) (s : Estate) :
    Prop where
  found : ∃ row, findAcl ctx id s = .ok row
  unused : ¬ UsedByView id s
  associated : ∃ association ∈ s.aclAssociations, association.aclId = id
  stops : failing = some .zdnsAclWrite ∨ failing = some .aclWrite

/-- A deletion that is refused has written nothing. -/
theorem deleteAcl_refused (h : (∀ row, findAcl ctx id s ≠ .ok row) ∨ UsedByView id s) :
    ∃ e, deleteAcl ctx failing id s = (.error e, s) := by
  unfold deleteAcl
  cases hfound : findAcl ctx id s with
  | error e => exact ⟨e, transaction_error (bind_error (by rw [getAcl_apply, hfound]))⟩
  | ok row =>
    have hused := h.resolve_left fun hnone => hnone row hfound
    refine ⟨.AclUsedByView, transaction_error ?_⟩
    rw [bind_ok (by rw [getAcl_apply, hfound]), bind_ok (getAclViewAsso_apply id s)]
    exact bind_error (raiseIf_of (usedByView_iff.mpr hused) _ s)

/-- Behind its checks a deletion is the book-keeping and the removal of the row. -/
theorem deleteAcl_checked (hfound : findAcl ctx id s = .ok row) (hunused : ¬ UsedByView id s) :
    deleteAcl ctx failing id s = transaction (do
      aclAction failing (deleteZdnsAcl failing id)
      step failing .aclWrite
      deleteAclRow ctx id) s := by
  have hid := (Table.find_mem hfound).2.1
  unfold deleteAcl transaction Exec.rollback
  rw [bind_ok (by rw [getAcl_apply, hfound]), bind_ok (getAclViewAsso_apply id s),
    bind_ok (raiseIf_of_not (Bool.eq_false_iff.mpr (hunused ∘ usedByView_iff.mp)) _ s), hid]

/-- Where the row is as it was found, the removal gets through. -/
theorem deleteAclRow_ok (hfound : findAcl ctx id s = .ok row) (hacls : s'.acls = s.acls) :
    ∃ s'', deleteAclRow ctx id s' = (.ok row, s'') := by
  have hfound' : findAcl ctx id s' = .ok row := by
    unfold findAcl
    rw [hacls]
    exact hfound
  unfold deleteAclRow
  rw [bind_ok (by rw [getAcl_apply, hfound'])]
  exact ⟨_, rfl⟩

/-- A deletion that is not stopped between its writes returns, or has written nothing. -/
theorem deleteAcl_atomic (h : ¬ DeleteSpoils ctx failing id s) {e : AclExc}
    (hrun : deleteAcl ctx failing id s = (.error e, s')) : SameAcls s s' := by
  -- the look-up and the check of the views come first and write nothing
  by_cases hrefused : (∀ row, findAcl ctx id s ≠ .ok row) ∨ UsedByView id s
  · obtain ⟨e', hraise⟩ := deleteAcl_refused hrefused
    rw [hraise] at hrun
    cases hrun
    exact SameAcls.refl s
  · obtain ⟨hfound, hunused⟩ := not_or.mp hrefused
    push Not at hfound
    obtain ⟨row, hfound⟩ := hfound
    rw [deleteAcl_checked hfound hunused] at hrun
    -- the tables of the device are written outside the transaction, and only after these three
    by_cases hbefore : failing = some .device ∨ failing = some .associationWrite ∨
        ∀ association ∈ s.aclAssociations, association.aclId ≠ id
    · obtain ⟨e', hbook⟩ := deleteBookkeeping_before hbefore
      rw [transaction_error (bind_error hbook)] at hrun
      cases hrun
      exact SameAcls.refl s
    · push Not at hbefore
      obtain ⟨hd, ha, hasso⟩ := hbefore
      obtain ⟨s₁, hbook, hacls, -⟩ := deleteBookkeeping_behind hd ha hasso
      -- what is left to fail stands behind the first write, which is what `DeleteSpoils` says
      have hz : failing ≠ some .zdnsAclWrite := fun hz =>
        h ⟨⟨row, hfound⟩, hunused, hasso, Or.inl hz⟩
      have hw : failing ≠ some .aclWrite := fun hw =>
        h ⟨⟨row, hfound⟩, hunused, hasso, Or.inr hw⟩
      rw [if_neg hz] at hbook
      obtain ⟨s₂, hremove⟩ := deleteAclRow_ok hfound hacls
      rw [transaction_ok ((bind_ok hbook).trans ((bind_ok (step_other hw)).trans hremove))] at hrun
      exact absurd hrun (by simp)

/-- The row of the ACL is still there, and its association is not. -/
theorem deleteAcl_spoiled (h : DeleteSpoils ctx failing id s) :
    ∃ e s', deleteAcl ctx failing id s = (.error e, s') ∧ ¬ SameAcls s s' := by
  obtain ⟨row, hfound⟩ := h.found
  have hd : failing ≠ some .device := by rcases h.stops with hf | hf <;> simp [hf]
  have ha : failing ≠ some .associationWrite := by rcases h.stops with hf | hf <;> simp [hf]
  obtain ⟨s₁, hbook, -, hremoved⟩ := deleteBookkeeping_behind hd ha h.associated
  have hlost : ¬ SameAcls s { s₁ with acls := s.acls } := by
    intro hsame
    obtain ⟨association, hmem, hid⟩ := h.associated
    rw [← hsame.aclAssociations] at hmem
    rw [show ({ s₁ with acls := s.acls } : Estate).aclAssociations = _ from hremoved] at hmem
    exact (Table.mem_remove.mp hmem).2 hid
  rw [deleteAcl_checked hfound h.unused]
  rcases h.stops with hf | hf
  · rw [if_pos hf] at hbook
    exact ⟨_, _, transaction_error (bind_error hbook), hlost⟩
  · rw [if_neg (by simp [hf])] at hbook
    exact ⟨_, _, transaction_error ((bind_ok hbook).trans (bind_error (step_failing hf))), hlost⟩

end Delete

/-! ## All three -/

/-- The calls that raise with something changed. -/
def Spoils (ctx : Context) (failing : Option AclSite) (s : Estate) : AclRequest → Prop
  | .create acl _ => CreateSpoils failing acl s
  | .update row poolId networks _ =>
    UpdateSpoils ctx failing (AclObject.parse row poolId networks) s
  | .delete id => DeleteSpoils ctx failing id s

/-- **A call about an ACL that raises leaves the tables as they were, unless it is stopped behind
a write that nothing takes back.** -/
theorem acl_atomic_iff (ctx : Context) (failing : Option AclSite) (request : AclRequest)
    (s : Estate) (hw : WfAcls s) :
    AtomicOnError ctx failing request s ↔ ¬ Spoils ctx failing s request := by
  -- one request at a time: a spoiled one is a counterexample, and no other raises over a change
  cases request with
  | create acl response =>
    constructor
    · intro hatomic h
      obtain ⟨e, s', hraise, hchanged⟩ := createAcl_spoiled hw h
      exact hchanged (hatomic e s' (bind_error hraise))
    · intro h e s' hrun
      exact createAcl_atomic hw h (raised_of_discard hrun)
  | update row poolId networks response =>
    constructor
    · intro hatomic h
      obtain ⟨e, s', hraise, hchanged⟩ := updateAcl_spoiled hw h
      exact hchanged (hatomic e s' (bind_error hraise))
    · intro h e s' hrun
      exact updateAcl_atomic hw h (raised_of_discard hrun)
  | delete id =>
    constructor
    · intro hatomic h
      obtain ⟨e, s', hraise, hchanged⟩ := deleteAcl_spoiled h
      exact hchanged (hatomic e s' (bind_error hraise))
    · intro h e s' hrun
      exact deleteAcl_atomic h (raised_of_discard hrun)

section Sample

/-- One ACL, with its mirror. -/
def sampleEstate : Estate where
  world := { nextId := 3 }
  acls := [⟨1, none, some "a", "10.0.0.0/8", "lan"⟩]
  zdnsAcls := [⟨2, "10.0.0.0/8", "lan", "cms", "/acls/lan", none⟩]
  aclAssociations := [⟨1, 2⟩]

/-- What the device answers about the ACL `dmz`. -/
def sampleResponse : AclResponse := ⟨["10.1.0.0/16"], "dmz", "cms", "/acls/dmz", none⟩

/-- The device refuses a second ACL, and the row that was there already is taken back. -/
theorem acl_atomic_sample :
    AtomicOnError { tenant := "a" } (some .device)
      (.create ⟨none, "dmz", .list ["10.1.0.0/16"]⟩ sampleResponse) sampleEstate :=
  (acl_atomic_iff _ _ _ _ ⟨by decide, by decide, by decide⟩).mpr fun h => absurd h.stops (by decide)

/-- A second ACL is not created, and its mirror is there. -/
theorem acl_mirror_left_behind :
    ¬ AtomicOnError { tenant := "a" } (some .associationWrite)
      (.create ⟨none, "dmz", .list ["10.1.0.0/16"]⟩ sampleResponse) sampleEstate := by
  intro hatomic
  have hsame := hatomic .StepFailed _ rfl
  exact absurd hsame.zdnsAcls (by decide)

end Sample

end Acls

end Designate
