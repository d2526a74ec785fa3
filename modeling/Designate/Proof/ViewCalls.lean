import Designate.Central.ViewCalls
import Designate.Proof.AclAtomic
import Designate.Proof.ViewPriorities

/-!
# What one step of a call does to the references

The references are from zones to views, from `view_acl` to views and ACLs, and from views
by `view_zdns_view` to `zdns_view_info_t`. Most steps are calm: they add no reference and
take away nothing that one may lead to. The others are told here one by one, together with
what is asked of the state before them.
-/

namespace Designate

namespace Views

open Exec

/-! ## Calm steps -/

/-- No reference is added, and nothing goes that one may lead to. -/
structure Calm (e e' : Estate) : Prop where
  views : e'.world.db.views = e.world.db.views
  associations : e'.world.db.viewZdnsViews = e.world.db.viewZdnsViews
  infoIds : e'.world.db.zdnsViewInfos.map ZdnsViewInfo.id =
    e.world.db.zdnsViewInfos.map ZdnsViewInfo.id
  viewAcls : ∀ a ∈ e'.world.db.viewAcls, a ∈ e.world.db.viewAcls
  acls : ∀ acl ∈ e.acls, acl ∈ e'.acls
  newAcls : ∀ acl ∈ e'.acls, acl ∈ e.acls ∨ acl.id < e'.world.nextId
  zones : ∀ z ∈ e'.world.db.zones, z.deleted = false →
    ∃ z₀ ∈ e.world.db.zones, z₀.deleted = false ∧ z₀.id = z.id ∧ z₀.viewId = z.viewId
  nextId : e.world.nextId ≤ e'.world.nextId

section

variable {e₀ e e' : Estate} {w' : World}

theorem Calm.refl (e : Estate) : Calm e e :=
  ⟨rfl, rfl, rfl, fun _ h => h, fun _ h => h, fun _ h => Or.inl h,
    fun z h hlive => ⟨z, h, hlive, rfl, rfl⟩, Nat.le_refl _⟩

/-- What spares the views is calm. -/
theorem Calm.of_spares (h : e.world.Spares w') : Calm e { e with world := w' } := by
  have ht := h.tables
  simp only [Db.viewTables, Prod.mk.injEq] at ht
  obtain ⟨hviews, hviewAcls, hassociations, hinfos⟩ := ht
  refine ⟨hviews, hassociations, congrArg _ hinfos, ?_, fun _ h => h, fun _ h => Or.inl h,
    h.zones, h.nextId⟩
  intro a ha
  exact hviewAcls ▸ ha

/-- A step that only gives away identifiers, as far as views, ACLs and zones can tell. -/
theorem Calm.of_world (hdb : w'.db = e.world.db) (hn : e.world.nextId ≤ w'.nextId) :
    Calm e { e with world := w' } :=
  Calm.of_spares (World.Spares.still (congrArg _ hdb) (congrArg _ hdb) hn)

/-! ## Outcomes -/

variable {α : Type} {t : Task}

/-- A task that goes on with what its step returns, and ends where it raises. -/
theorem outcome_bind {m : AclCall α} {f : α → Task} (hrun : t.run = m >>= fun a => pure (f a))
    (e : Estate) :
    (∃ a e', m e = (.ok a, e') ∧ t.outcome e = (f a, e')) ∨
      ∃ x e', m e = (.error x, e') ∧ t.outcome e = (.done, e') := by
  unfold Task.outcome
  rw [hrun]
  cases hm : m e with
  | mk r e' =>
    cases r with
    | ok a => exact Or.inl ⟨a, e', rfl, by rw [bind_ok hm]; rfl⟩
    | error x => exact Or.inr ⟨x, e', rfl, by rw [bind_error hm]⟩

theorem outcome_onWorld {m : Call α} {f : α → Task}
    (hrun : t.run = onWorld m >>= fun a => pure (f a)) (e : Estate) :
    (∃ a w', m e.world = (.ok a, w') ∧ t.outcome e = (f a, { e with world := w' })) ∨
      ∃ x w', m e.world = (.error x, w') ∧ t.outcome e = (.done, { e with world := w' }) := by
  -- what the call does is done within the world, so the ACLs are the ones of before
  rcases outcome_bind hrun e with ⟨a, e', hm, ht⟩ | ⟨x, e', hm, ht⟩
  · unfold onWorld at hm
    obtain ⟨hresult, rfl⟩ := Prod.mk.inj hm
    cases hw : m e.world with
    | mk r w' =>
      rw [hw] at hresult ht
      cases r with
      | ok b =>
        obtain rfl := Except.ok.inj hresult
        exact Or.inl ⟨b, w', rfl, ht⟩
      | error y => exact absurd hresult (by simp)
  · unfold onWorld at hm
    obtain ⟨hresult, rfl⟩ := Prod.mk.inj hm
    cases hw : m e.world with
    | mk r w' =>
      rw [hw] at hresult ht
      cases r with
      | ok b => exact absurd hresult (by simp)
      | error y => exact Or.inr ⟨y, w', rfl, ht⟩

end

/-! ## Roles -/

/-- What a call is about to do to the rows that make up a view. -/
inductive Role where
  | plain
  /-- The row of `zdns_view_info_t`, the view, and what leads from it to the row are to come. -/
  | unwritten (viewId infoId : Nat)
  | unborn (viewId infoId : Nat)
  | unlinked (viewId infoId : Nat)
  /-- A deletion that has seen the view. -/
  | deleting (d : ViewDeletion)
  /-- One that has seen which row the view leads to. -/
  | holding (d : ViewDeletion) (infoId : Nat)
  /-- One that has deleted that row. -/
  | finishing (d : ViewDeletion)

/-- The role of a call. -/
def Task.role : Task → Role
  | .storeInfo view info _ => .unwritten view.id info.id
  | .storeView view info _ => .unborn view.id info.id
  | .storeAssociation view info _ => .unlinked view.id info.id
  | .findViewAcls _ next => next.role
  | .dropViewAcls _ next => next.role
  | .findAssociation d => .deleting d
  | .dropAssociations d infoId => .holding d infoId
  | .getInfo d infoId => .holding d infoId
  | .dropInfo d info => .holding d info.id
  | .raiseOthers d _ => .finishing d
  | .removeView d => .finishing d
  | _ => .plain

/-- The zones a call is about to delete with a view that has gone. -/
def Task.clears : Task → Zone → Prop
  | .findZones d, z => z.viewId = some d.viewId
  | .deleteZones _ _ zones, z => ∃ z₀ ∈ zones, z₀.id = z.id
  | _, _ => False

/-- A role that may end anywhere. -/
def Role.Idle : Role → Prop
  | .plain => True
  | .deleting _ => True
  | _ => False

/-- What a step needs of the state before it. -/
def Task.Ready (e : Estate) : Task → Prop
  | .storeViewAcls viewId (aclId :: _) _ =>
    (∃ view ∈ e.world.db.views, view.id = viewId) ∧ ∃ acl ∈ e.acls, acl.id = aclId
  | .removeView d => ∀ a ∈ e.world.db.viewAcls, a.viewId ≠ d.viewId
  | .findZones d => ∀ z ∈ e.world.db.zones, z.deleted = false → z.viewId = some d.viewId →
    d.ctx.sees z.tenantId
  | .deleteZones d plan (zone :: _) =>
    (deleteZoneOfView d.ctx d.conf (plan 0) zone e.world).1 = .ok ()
  | .takeBackAcl _ aclId => ∀ a ∈ e.world.db.viewAcls, a.aclId ≠ aclId
  | .removeAcl _ _ aclId => ∀ a ∈ e.world.db.viewAcls, a.aclId ≠ aclId
  | .storeZone c => ∃ view ∈ e.world.db.views, view.id = c.viewId
  | _ => True

/-- The ACL a step deletes. -/
def Task.removesAcl : Task → Option Nat
  | .takeBackAcl _ aclId => some aclId
  | .removeAcl _ _ aclId => some aclId
  | _ => none

/-- The change of the tables of a view. -/
def withDb (e : Estate) (db : Db) : Estate := { e with world := { e.world with db := db } }

/-- What a step from `t` to `t'` does. -/
inductive Effect (e : Estate) (t t' : Task) : Estate → Prop
  | calm {e' : Estate} (h : Calm e e')
    (hrole : t'.role = t.role ∨ t'.role = .plain ∧ t.role.Idle)
    (hclears : ∀ z ∈ e'.world.db.zones, z.deleted = false → t.clears z → t'.clears z) : Effect e t t' e'
  | asked {e' : Estate} (h : Calm e e') (hplain : t.role = .plain)
    (hrole : t'.role = .unwritten (e.world.nextId + 1) e.world.nextId)
    (hn : e.world.nextId + 2 ≤ e'.world.nextId) (hclears : ∀ z, ¬ t.clears z) : Effect e t t' e'
  | infoStored {viewId : Nat} {info : ZdnsViewInfo} (hrole : t.role = .unwritten viewId info.id)
    (hrole' : t'.role = .unborn viewId info.id) :
    Effect e t t' (withDb e { e.world.db with
      zdnsViewInfos := e.world.db.zdnsViewInfos ++ [info] })
  | viewStored {view : View} {infoId : Nat} (hrole : t.role = .unborn view.id infoId)
    (hrole' : t'.role = .unlinked view.id infoId) :
    Effect e t t' (withDb e { e.world.db with views := e.world.db.views ++ [view] })
  | linked {viewId infoId : Nat} (hrole : t.role = .unlinked viewId infoId)
    (hrole' : t'.role = .plain) :
    Effect e t t' (withDb e { e.world.db with
      viewZdnsViews := e.world.db.viewZdnsViews ++ [⟨viewId, infoId⟩] })
  | viewAclStored {a : ViewAcl} (hview : ∃ view ∈ e.world.db.views, view.id = a.viewId)
    (hacl : ∃ acl ∈ e.acls, acl.id = a.aclId) (hrole : t.role = .plain) (hrole' : t'.role = .plain)
    (hclears : ∀ z, ¬ t.clears z)
    (hnames : ∃ aclIds name, t = .storeViewAcls a.viewId (a.aclId :: aclIds) name) :
    Effect e t t' { e with world := { e.world with
      nextId := e.world.nextId + 1
      db := { e.world.db with viewAcls := e.world.db.viewAcls ++ [a] } } }
  | chosen {e' : Estate} {d : ViewDeletion} {view : View} (h : Calm e e') (hplain : t.role = .plain)
    (hrole : t'.role = .deleting d) (hview : view ∈ e.world.db.views) (hid : view.id = d.viewId)
    (hsees : d.ctx.sees view.tenantId) (hclears : ∀ z, ¬ t.clears z) : Effect e t t' e'
  | found {d : ViewDeletion} {association : ViewZdnsView} (hrole : t.role = .deleting d)
    (hrole' : t'.role = .holding d association.zdnsViewId)
    (hmem : association ∈ e.world.db.viewZdnsViews) (hid : association.viewId = d.viewId) :
    Effect e t t' e
  | cut {d : ViewDeletion} {infoId : Nat} (hrole : t.role = .holding d infoId)
    (hrole' : t'.role = .holding d infoId) :
    Effect e t t' (withDb e { e.world.db with
      viewZdnsViews := Table.remove ViewZdnsView.viewId d.viewId e.world.db.viewZdnsViews })
  | infoMissing {d : ViewDeletion} {infoId : Nat} (hrole : t.role = .holding d infoId)
    (hrole' : t'.role = .plain) (hmissing : ∀ info ∈ e.world.db.zdnsViewInfos, info.id ≠ infoId) :
    Effect e t t' e
  | infoDropped {d : ViewDeletion} {infoId : Nat} (hrole : t.role = .holding d infoId)
    (hrole' : t'.role = .finishing d) :
    Effect e t t' (withDb e { e.world.db with
      zdnsViewInfos := Table.remove ZdnsViewInfo.id infoId e.world.db.zdnsViewInfos })
  | viewRemoved {d : ViewDeletion} (hrole : t.role = .finishing d) (hrole' : t'.role = .plain)
    (hviewAcls : ∀ a ∈ e.world.db.viewAcls, a.viewId ≠ d.viewId)
    (hclears : ∀ z : Zone, z.viewId = some d.viewId → t'.clears z)
    (hremoves : t = .removeView d) :
    Effect e t t' (withDb e { e.world.db with
      views := Table.remove View.id d.viewId e.world.db.views })
  | viewMissing {d : ViewDeletion} {x : Exc} (hrole : t.role = .finishing d)
    (hrole' : t'.role = .plain) (hmissing : findView d.ctx (some d.viewId) e.world.db = .error x) :
    Effect e t t' e
  | aclRemoved {aclId : Nat} (hunused : ∀ a ∈ e.world.db.viewAcls, a.aclId ≠ aclId)
    (hrole : t.role = .plain) (hrole' : t'.role = .plain) (hclears : ∀ z, ¬ t.clears z)
    (hremoves : t.removesAcl = some aclId) :
    Effect e t t' { e with acls := Table.remove AclRow.id aclId e.acls }
  | zoneStored {zone : Zone} (hview : ∃ view ∈ e.world.db.views, zone.viewId = some view.id)
    (hrole : t.role = .plain) (hrole' : t'.role = .plain) (hclears : ∀ z, ¬ t.clears z) :
    Effect e t t' { e with world := { e.world with
      nextId := e.world.nextId + 1
      db := { e.world.db with zones := e.world.db.zones ++ [zone] } } }

/-! ## The effect of every step -/

section

variable {e : Estate} {t : Task}

/-- A calm step of a call that makes no promise. -/
theorem Effect.quiet {t' : Task} {e' : Estate} (h : Calm e e') (hidle : t.role.Idle)
    (hplain : t'.role = .plain) (hclears : ∀ z, ¬ t.clears z) : Effect e t t' e' :=
  .calm h (Or.inr ⟨hplain, hidle⟩) fun z _ _ hz => absurd hz (hclears z)

/-- A calm step of a call that may end there. -/
theorem effect_run (hcalm : Calm e (t.run e).2) (hidle : t.role.Idle)
    (hplain : ∀ t' e', t.run e = (.ok t', e') → t'.role = .plain) (hclears : ∀ z, ¬ t.clears z) :
    Effect e t (t.outcome e).1 (t.outcome e).2 := by
  unfold Task.outcome
  cases hr : t.run e with
  | mk r e' =>
    rw [hr] at hcalm
    cases r with
    | ok t' => exact .quiet hcalm hidle (hplain t' e' hr) hclears
    | error x => exact .quiet hcalm hidle rfl hclears

/-- A look, after which the call goes on or has raised. -/
theorem effect_look {α : Type} {m : AclCall α} {f : α → Task}
    (hrun : t.run = m >>= fun a => pure (f a)) (hcalm : Calm e (m e).2) (hidle : t.role.Idle)
    (hplain : ∀ a, (f a).role = .plain) (hclears : ∀ z, ¬ t.clears z) :
    Effect e t (t.outcome e).1 (t.outcome e).2 := by
  rcases outcome_bind hrun e with ⟨a, e', hr, ht⟩ | ⟨x, e', hr, ht⟩
  · rw [hr] at hcalm
    rw [ht]
    exact .quiet hcalm hidle (hplain a) hclears
  · rw [hr] at hcalm
    rw [ht]
    exact .quiet hcalm hidle rfl hclears

/-- What spares the views, whether it returns or not. -/
theorem effect_spares {α : Type} {m : Call α} {f : α → Task}
    (hrun : t.run = onWorld m >>= fun a => pure (f a)) (hm : ∀ w : World, Keeps w.Spares m)
    (hidle : t.role.Idle) (hplain : ∀ a, (f a).role = .plain) (hclears : ∀ z, ¬ t.clears z)
    (e : Estate) : Effect e t (t.outcome e).1 (t.outcome e).2 :=
  effect_look hrun (Calm.of_spares (hm e.world e.world (World.Spares.refl _))) hidle hplain hclears

/-! ### Views -/

/-- A world in which at most the priorities have changed, and what is calm anyway. -/
abbrev CalmAt (e : Estate) (w : World) : Prop := Calm e { e with world := w }

theorem calm_updateZdnsViewInfo (id priority : Nat) :
    Keeps (CalmAt e) (updateZdnsViewInfo id priority) := by
  refine Keeps.modify fun w hw => ?_
  have hids : (Table.update ZdnsViewInfo.id id (fun i => { i with priority := priority })
      w.db.zdnsViewInfos).map ZdnsViewInfo.id = w.db.zdnsViewInfos.map ZdnsViewInfo.id :=
    Table.map_update fun _ _ _ => rfl
  exact ⟨hw.views, hw.associations, hids.trans hw.infoIds, hw.viewAcls, hw.acls, hw.newAcls,
    hw.zones, hw.nextId⟩

theorem calm_lowerOthers (name : String) : Keeps (CalmAt e) (Views.lowerOthers name) :=
  Keeps.bind (Keeps.read _) fun _ => Keeps.forEach fun _ _ =>
    Keeps.ite (fun _ => Keeps.pure _) fun _ => calm_updateZdnsViewInfo _ _

theorem calm_raiseOthers (priority : Nat) : Keeps (CalmAt e) (Views.raiseOthers priority) :=
  Keeps.bind (Keeps.read _) fun _ => Keeps.forEach fun _ _ =>
    Keeps.ite (fun _ => calm_updateZdnsViewInfo _ _) fun _ => Keeps.pure _

theorem effect_createView (ctx : Context) (device : ViewDevice) (name : String)
    (aclIds : List Nat) (e : Estate) :
    Effect e (.createView ctx device name aclIds)
      ((Task.createView ctx device name aclIds).outcome e).1
      ((Task.createView ctx device name aclIds).outcome e).2 := by
  -- asking the device leaves everything in Designate as it is
  have hstate : (askNewView ctx device name aclIds e).2 = e := by
    have hnames := aclNames_state ctx aclIds e
    unfold askNewView
    cases hrun : aclNames ctx aclIds e with
    | mk r s =>
      rw [hrun] at hnames
      cases r with
      | error x => rw [bind_error hrun]; exact hnames
      | ok acls => rw [bind_ok hrun]; exact hnames
  have hrun' : (Task.createView ctx device name aclIds).run =
      askNewView ctx device name aclIds >>= fun r => onWorld (beginView ctx name aclIds r) := rfl
  unfold Task.outcome
  rw [hrun']
  cases hrun : askNewView ctx device name aclIds e with
  | mk r s =>
    rw [hrun] at hstate
    obtain rfl : s = e := hstate
    cases r with
    | error x =>
      rw [bind_error hrun]
      exact .quiet (Calm.refl s) trivial rfl fun _ h => h
    | ok response =>
      rw [bind_ok hrun]
      exact .asked (Calm.of_world rfl (Nat.le_add_right _ 2)) rfl rfl (Nat.le_refl _) fun _ h => h

theorem effect_storeViewAcls (viewId : Nat) (aclIds : List Nat) (name : Option String) (e : Estate)
    (hready : (Task.storeViewAcls viewId aclIds name).Ready e) :
    Effect e (.storeViewAcls viewId aclIds name)
      ((Task.storeViewAcls viewId aclIds name).outcome e).1
      ((Task.storeViewAcls viewId aclIds name).outcome e).2 := by
  cases aclIds with
  | nil =>
    cases name with
    | none => exact .quiet (Calm.refl e) trivial rfl fun _ h => h
    | some name => exact .quiet (Calm.refl e) trivial rfl fun _ h => h
  | cons aclId aclIds =>
    exact .viewAclStored (a := ⟨e.world.nextId, viewId, aclId⟩) hready.1 hready.2 rfl rfl
      (fun _ h => h) ⟨aclIds, name, rfl⟩

theorem askUpdatedView_state (ctx : Context) (refused : Bool) (viewId : Nat) (aclIds : List Nat)
    (e : Estate) : (askUpdatedView ctx refused viewId aclIds e).2 = e := by
  have h : Keeps (· = e) (askUpdatedView ctx refused viewId aclIds) := by
    refine Keeps.bind ?_ fun _ => Keeps.bind ?_ fun _ => Keeps.raiseIf _ _
    · rintro s rfl
      rfl
    · rintro s rfl
      exact aclNames_state _ aclIds s
  exact h e rfl

theorem effect_deleteView (refused : Bool) (d : ViewDeletion) (e : Estate) :
    Effect e (.deleteView refused d) ((Task.deleteView refused d).outcome e).1
      ((Task.deleteView refused d).outcome e).2 := by
  have hspares : ∀ w : World, Keeps w.Spares (askDeletedView refused d) := fun w =>
    Keeps.bind (Keeps.read _) fun _ => Keeps.bind (Keeps.raiseIf _ _) fun _ =>
      Keeps.modify fun _ hw => hw.trans (World.Spares.still rfl rfl (Nat.le_refl _))
  rcases outcome_onWorld (t := .deleteView refused d) rfl e with ⟨_, w', hr, ht⟩ | ⟨x, w', hr, ht⟩
  · have hcalm := Calm.of_spares (World.Spares.of_run (hspares _) hr)
    obtain ⟨view, w₁, hget, -⟩ := bind_eq_ok.mp hr
    obtain ⟨hmem, hid, hsees⟩ := Table.find_mem (Prod.mk.inj hget).1
    rw [ht]
    exact .chosen (d := d) hcalm rfl rfl hmem hid hsees fun _ h => h
  · rw [ht]
    exact .quiet (Calm.of_spares (World.Spares.of_run (hspares _) hr)) trivial rfl fun _ h => h

theorem effect_dropViewAcls (ids : List Nat) (next : Task) (e : Estate) :
    Effect e (.dropViewAcls ids next) ((Task.dropViewAcls ids next).outcome e).1
      ((Task.dropViewAcls ids next).outcome e).2 := by
  cases ids with
  | nil => exact .calm (Calm.refl e) (Or.inl rfl) fun _ _ _ h => absurd h id
  | cons aclId ids =>
    refine .calm ⟨rfl, rfl, rfl, ?_, fun _ h => h, fun _ h => Or.inl h, ?_, Nat.le_refl _⟩
      (Or.inl rfl) fun _ _ _ h => absurd h id
    · intro a ha
      exact (Table.mem_remove.mp ha).1
    · intro z hz hlive
      exact ⟨z, hz, hlive, rfl, rfl⟩

theorem effect_findAssociation (d : ViewDeletion) (e : Estate) :
    Effect e (.findAssociation d) ((Task.findAssociation d).outcome e).1
      ((Task.findAssociation d).outcome e).2 := by
  rcases outcome_onWorld (t := .findAssociation d) rfl e with ⟨a, w', hr, ht⟩ | ⟨x, w', hr, ht⟩
  · rw [ht]
    unfold findViewZdnsView at hr
    obtain ⟨hfound, rfl⟩ := Prod.mk.inj hr
    dsimp only at hfound
    split at hfound
    · rename_i association hfind
      obtain rfl := Except.ok.inj hfound
      have hid : association.viewId = d.viewId := by simpa using List.find?_some hfind
      exact .found rfl rfl (List.mem_of_find?_eq_some hfind) hid
    · exact absurd hfound (by simp)
  · rw [ht]
    obtain ⟨-, rfl⟩ := Prod.mk.inj hr
    exact .quiet (Calm.refl e) trivial rfl fun _ h => h

theorem effect_getInfo (d : ViewDeletion) (infoId : Nat) (e : Estate) :
    Effect e (.getInfo d infoId) ((Task.getInfo d infoId).outcome e).1
      ((Task.getInfo d infoId).outcome e).2 := by
  rcases outcome_onWorld (t := .getInfo d infoId) rfl e with ⟨i, w', hr, ht⟩ | ⟨x, w', hr, ht⟩
  · rw [ht]
    obtain ⟨hfound, rfl⟩ := Prod.mk.inj hr
    dsimp only at hfound
    split at hfound
    · rename_i info hfind
      obtain rfl := Except.ok.inj hfound
      -- the row is the one that the deletion has cut the link of
      have hid : info.id = infoId := by simpa using List.find?_some hfind
      refine .calm (Calm.refl e) (Or.inl ?_) fun _ _ _ h => absurd h id
      change Role.holding d info.id = Role.holding d infoId
      rw [hid]
    · exact absurd hfound (by simp)
  · rw [ht]
    obtain ⟨hmissing, rfl⟩ := Prod.mk.inj hr
    refine .infoMissing rfl rfl ?_
    dsimp only at hmissing
    split at hmissing
    · exact absurd hmissing (by simp)
    · rename_i hfind
      intro info hinfo
      simpa using List.find?_eq_none.mp hfind info hinfo

theorem effect_removeView (d : ViewDeletion) (e : Estate) (hready : (Task.removeView d).Ready e) :
    Effect e (.removeView d) ((Task.removeView d).outcome e).1
      ((Task.removeView d).outcome e).2 := by
  have hview : ∀ r, findView d.ctx (some d.viewId) e.world.db = r →
      getView d.ctx (some d.viewId) e.world = (r, e.world) := by
    rintro r rfl
    rfl
  rcases outcome_onWorld (t := .removeView d) rfl e with ⟨_, w', hr, ht⟩ | ⟨x, w', hr, ht⟩
  · obtain ⟨view, w₁, hget, hr⟩ := bind_eq_ok.mp hr
    obtain ⟨hfind, rfl⟩ := Prod.mk.inj hget
    have hid := (Table.find_mem hfind).2.1
    rw [hid, updateDb_apply] at hr
    obtain ⟨-, rfl⟩ := Prod.mk.inj hr
    rw [ht]
    exact .viewRemoved rfl rfl hready (fun _ h => h) rfl
  · rw [ht]
    cases hfind : findView d.ctx (some d.viewId) e.world.db with
    | error y =>
      -- the view has gone in the meantime, or is hidden from the caller
      unfold deleteViewInStorage at hr
      rw [bind_error (hview _ hfind)] at hr
      obtain ⟨-, rfl⟩ := Prod.mk.inj hr
      exact .viewMissing rfl rfl hfind
    | ok view =>
      unfold deleteViewInStorage at hr
      rw [bind_ok (hview _ hfind), updateDb_apply] at hr
      exact absurd (Prod.mk.inj hr).1 (by simp)

theorem effect_findZones (d : ViewDeletion) (e : Estate) (hready : (Task.findZones d).Ready e) :
    Effect e (.findZones d) ((Task.findZones d).outcome e).1 ((Task.findZones d).outcome e).2 := by
  refine .calm (Calm.refl e) (Or.inl rfl) fun z hz hlive hview => ?_
  refine ⟨z, List.mem_filter.mpr ⟨hz, ?_⟩, rfl⟩
  have hsees := hready z hz hlive hview
  have hview : z.viewId = some d.viewId := hview
  simp [hview, hsees, hlive]

theorem effect_lowerOthers (name : String) (e : Estate) :
    Effect e (.lowerOthers name) ((Task.lowerOthers name).outcome e).1
      ((Task.lowerOthers name).outcome e).2 :=
  effect_look (t := .lowerOthers name) (f := fun _ => .done) rfl
    (calm_lowerOthers name e.world (Calm.refl e)) trivial (fun _ => rfl) fun _ h => h

theorem effect_updateView (ctx : Context) (refused : Bool) (viewId : Nat) (aclIds : List Nat)
    (e : Estate) : Effect e (.updateView ctx refused viewId aclIds)
      ((Task.updateView ctx refused viewId aclIds).outcome e).1
      ((Task.updateView ctx refused viewId aclIds).outcome e).2 := by
  refine effect_look (t := .updateView ctx refused viewId aclIds)
    (f := fun _ => .findViewAcls viewId (.storeViewAcls viewId aclIds none)) rfl
    ?_ trivial (fun _ => rfl) fun _ h => h
  rw [askUpdatedView_state]
  exact Calm.refl e

theorem effect_raiseOthers (d : ViewDeletion) (info : ZdnsViewInfo) (e : Estate) :
    Effect e (.raiseOthers d info) ((Task.raiseOthers d info).outcome e).1
      ((Task.raiseOthers d info).outcome e).2 := by
  have hcalm := calm_raiseOthers info.priority e.world (Calm.refl e)
  have hread : findZdnsViewInfos e.world =
    (.ok (e.world.db.zdnsViewInfos.insertionSort ZdnsViewInfo.Before), e.world) := rfl
  rcases outcome_onWorld (t := .raiseOthers d info) rfl e with ⟨_, w', hr, ht⟩ | ⟨x, w', hr, ht⟩
  · rw [hr] at hcalm
    rw [ht]
    exact .calm hcalm (Or.inl rfl) fun _ _ _ h => absurd h id
  · -- the loop only writes
    unfold Views.raiseOthers at hr
    rw [bind_ok hread, rewriteAll_apply] at hr
    exact absurd (Prod.mk.inj hr).1 (by simp)

/-- A deletion that gets through has its zone deleted. -/
theorem deleteZoneOfView_deletes {ctx : Context} {conf : Conf} {faults : ZoneFaults} {zone : Zone}
    {w w' : World} (h : deleteZoneOfView ctx conf faults zone w = (.ok (), w')) :
    ∀ z ∈ w'.db.zones, z.id = zone.id → z.deleted = true := by
  obtain ⟨_, w₁, -, hstatus⟩ := bind_eq_ok.mp h
  have hends := updateZoneStatus_ends ctx conf faults.success zone.id .DELETE w₁
    (zonesAt_self w₁)
  rw [hstatus] at hends
  intro z hz hid
  rw [hends.zones] at hz
  obtain ⟨-, hne⟩ | ⟨z₀, -, -, rfl⟩ := Table.mem_update.mp hz
  · exact absurd hid hne
  · rfl

theorem effect_deleteZones (d : ViewDeletion) (plan : Nat → ZoneFaults) (zones : List Zone)
    (e : Estate) (hready : (Task.deleteZones d plan zones).Ready e) :
    Effect e (.deleteZones d plan zones) ((Task.deleteZones d plan zones).outcome e).1
      ((Task.deleteZones d plan zones).outcome e).2 := by
  cases zones with
  | nil => exact .quiet (Calm.refl e) trivial rfl fun z ⟨_, h, _⟩ => absurd h (by simp)
  | cons zone zones =>
    rcases outcome_onWorld (t := .deleteZones d plan (zone :: zones)) rfl e with
      ⟨_, w', hr, ht⟩ | ⟨x, w', hr, -⟩
    · have hspares := World.Spares.of_run (World.Spares.deleteZoneOfView (plan 0) zone) hr
      rw [ht]
      refine .calm (Calm.of_spares hspares) (Or.inl rfl) fun z hz hlive ⟨z₀, hmem, hid⟩ => ?_
      rcases List.mem_cons.mp hmem with rfl | hmem
      · exact absurd (deleteZoneOfView_deletes hr z hz hid.symm) (by simp [hlive])
      · exact ⟨z₀, hmem, hid⟩
    · have hok : (deleteZoneOfView d.ctx d.conf (plan 0) zone e.world).1 = .ok () := hready
      rw [hr] at hok
      exact absurd hok (by simp)

/-! ### ACLs -/

/-- ACLs only come, and so do identifiers. -/
structure Grows (e e' : Estate) : Prop where
  db : e'.world.db = e.world.db
  nextId : e.world.nextId ≤ e'.world.nextId
  acls : ∀ acl ∈ e.acls, acl ∈ e'.acls
  newAcls : ∀ acl ∈ e'.acls, acl ∈ e.acls ∨ acl.id < e'.world.nextId

/-- An ACL is stored under a new identifier, or the ACLs stay as they are. -/
theorem storeAcl_cases (ctx : Context) (failing : Option Acls.AclSite) (acl : Acls.NewAcl)
    (e : Estate) :
    (∃ x e', storeAcl ctx failing acl e = (.error x, e') ∧ e'.world.db = e.world.db ∧
      e.world.nextId ≤ e'.world.nextId ∧ e'.acls = e.acls) ∨
    storeAcl ctx failing acl e =
      (.ok (Acls.newRow ctx acl e), Acls.withAcl e (Acls.newRow ctx acl e)) := by
  unfold storeAcl
  by_cases hvalid : acl.networks.Valid
  · rw [bind_ok (Acls.checkNetworks_ok hvalid)]
    -- it may fail at the write, or at the unique name and networks; the identifier is spent in
    -- both cases
    by_cases hf : failing = some .aclWrite
    · refine Or.inl ⟨.StepFailed,
      { e with world := { e.world with nextId := e.world.nextId + 1 } }, ?_, rfl, Nat.le_succ _, rfl⟩
      unfold Acls.createAclInStorage Acls.transaction Exec.rollback
      rw [bind_ok (Acls.generateUuid_apply e), bind_error (Acls.step_failing hf)]
    · by_cases htaken : Acls.Taken acl.name acl.networks.joined e
      · refine Or.inl ⟨.DuplicateAcl,
        { e with world := { e.world with nextId := e.world.nextId + 1 } }, ?_, rfl, Nat.le_succ _, rfl⟩
        have hany : (e.acls.any fun other => other.name == acl.name ||
            other.networks == acl.networks.joined) = true := htaken
        unfold Acls.createAclInStorage Acls.transaction Exec.rollback
        rw [bind_ok (Acls.generateUuid_apply e), bind_ok (Acls.step_other hf)]
        simp only [Exec.write, hany, if_true]
      · exact Or.inr (Acls.createAclInStorage_ok hf htaken)
  · rw [bind_error (Acls.checkNetworks_error hvalid)]
    exact Or.inl ⟨_, e, rfl, rfl, Nat.le_refl _, rfl⟩

namespace Grows

theorem refl (e : Estate) : Grows e e := ⟨rfl, Nat.le_refl _, fun _ h => h, fun _ h => Or.inl h⟩

theorem calm {e' : Estate} (h : Grows e e') : Calm e e' := by
  refine ⟨by rw [h.db], by rw [h.db], by rw [h.db], ?_, h.acls, h.newAcls, ?_, h.nextId⟩
  · intro a ha
    exact h.db ▸ ha
  · intro z hz hlive
    exact ⟨z, h.db ▸ hz, hlive, rfl, rfl⟩

theorem generateUuid : Keeps (Grows e) Acls.generateUuid := fun _ hs =>
  ⟨hs.db, Nat.le_succ_of_le hs.nextId, hs.acls,
    fun acl hacl => (hs.newAcls acl hacl).imp_right Nat.lt_succ_of_lt⟩

theorem storeAcl (ctx : Context) (failing : Option Acls.AclSite) (acl : Acls.NewAcl) :
    Grows e (storeAcl ctx failing acl e).2 := by
  rcases storeAcl_cases ctx failing acl e with ⟨x, e', hr, hdb, hn, hacls⟩ | hr
  · rw [hr]
    exact ⟨hdb, hn, fun _ h => hacls.symm ▸ h, fun _ h => Or.inl (hacls ▸ h)⟩
  · rw [hr]
    refine ⟨rfl, Nat.le_succ _, fun _ h => List.mem_append_left _ h, fun row hrow => ?_⟩
    rcases List.mem_append.mp hrow with hrow | hrow
    · exact Or.inl hrow
    · obtain rfl := List.mem_singleton.mp hrow
      exact Or.inr (Nat.lt_succ_self _)

theorem createZdnsAcl (failing : Option Acls.AclSite) (aclId : Nat) (response : Acls.AclResponse) :
    Keeps (Grows e) (Acls.createZdnsAcl failing aclId response) :=
  Keeps.bind generateUuid fun _ => Keeps.bind (Keeps.raiseIf _ _) fun _ =>
    Keeps.bind (Keeps.modify fun _ hs => ⟨hs.db, hs.nextId, hs.acls, hs.newAcls⟩) fun _ =>
      Keeps.bind (Keeps.raiseIf _ _) fun _ =>
        Keeps.modify fun _ hs => ⟨hs.db, hs.nextId, hs.acls, hs.newAcls⟩

theorem deleteZdnsAcl (failing : Option Acls.AclSite) (aclId : Nat) :
    Keeps (Grows e) (Acls.deleteZdnsAcl failing aclId) :=
  Keeps.bind (Keeps.read _) fun _ => Keeps.bind (Keeps.raiseIf _ _) fun _ =>
    Keeps.bind (Keeps.modify fun _ hs => ⟨hs.db, hs.nextId, hs.acls, hs.newAcls⟩) fun _ =>
      Keeps.bind (Keeps.raiseIf _ _) fun _ =>
        Keeps.modify fun _ hs => ⟨hs.db, hs.nextId, hs.acls, hs.newAcls⟩

end Grows

theorem effect_mirrorAcl (ctx : Context) (failing : Option Acls.AclSite) (aclId : Nat)
    (response : Acls.AclResponse) (e : Estate) :
    Effect e (.mirrorAcl ctx failing aclId response)
      ((Task.mirrorAcl ctx failing aclId response).outcome e).1
      ((Task.mirrorAcl ctx failing aclId response).outcome e).2 := by
  have hgrows : Keeps (Grows e) (Task.mirrorAcl ctx failing aclId response).run :=
    Keeps.catching (Keeps.bind (Keeps.bind (Keeps.raiseIf _ _) fun _ =>
      Grows.createZdnsAcl failing aclId response) fun _ => Keeps.pure _) (Keeps.pure _)
  refine effect_run (hgrows e (Grows.refl e)).calm trivial (fun t' e' h => ?_) fun _ h => h
  change Exec.catching _ _ _ e = _ at h
  -- whether it raises or not, the call goes on to nothing
  unfold Exec.catching at h
  split at h
  · rename_i hbody
    obtain ⟨_, s₁, -, hdone⟩ := bind_eq_ok.mp hbody
    obtain ⟨hdone, -⟩ := Prod.mk.inj hdone
    obtain ⟨h, -⟩ := Prod.mk.inj h
    obtain rfl := Except.ok.inj (hdone.trans h)
    rfl
  · obtain ⟨h, -⟩ := Prod.mk.inj h
    obtain rfl := Except.ok.inj h
    rfl

theorem effect_createAcl (ctx : Context) (failing : Option Acls.AclSite) (acl : Acls.NewAcl)
    (response : Acls.AclResponse) (e : Estate) :
    Effect e (.createAcl ctx failing acl response)
      ((Task.createAcl ctx failing acl response).outcome e).1
      ((Task.createAcl ctx failing acl response).outcome e).2 :=
  effect_look (t := .createAcl ctx failing acl response)
    (f := fun row => .mirrorAcl ctx failing row.id response) rfl
    (Grows.storeAcl ctx failing acl).calm trivial (fun _ => rfl) fun _ h => h

theorem effect_deleteAcl (ctx : Context) (failing : Option Acls.AclSite) (aclId : Nat)
    (e : Estate) :
    Effect e (.deleteAcl ctx failing aclId) ((Task.deleteAcl ctx failing aclId).outcome e).1
      ((Task.deleteAcl ctx failing aclId).outcome e).2 :=
  effect_look (t := .deleteAcl ctx failing aclId) (f := fun _ => .unmirrorAcl ctx failing aclId) rfl
    (Grows.calm <| (Keeps.bind (Keeps.read _) fun _ => Keeps.bind (Keeps.read _) fun _ =>
      Keeps.raiseIf _ _ : Keeps (Grows e) (checkAclUnused ctx aclId)) e (Grows.refl e))
    trivial (fun _ => rfl) fun _ h => h

theorem effect_unmirrorAcl (ctx : Context) (failing : Option Acls.AclSite) (aclId : Nat)
    (e : Estate) :
    Effect e (.unmirrorAcl ctx failing aclId) ((Task.unmirrorAcl ctx failing aclId).outcome e).1
      ((Task.unmirrorAcl ctx failing aclId).outcome e).2 :=
  effect_look (t := .unmirrorAcl ctx failing aclId) (f := fun _ => .removeAcl ctx failing aclId) rfl
    (Grows.calm <| (Keeps.bind (Keeps.raiseIf _ _) fun _ =>
      Grows.deleteZdnsAcl failing aclId) e (Grows.refl e))
    trivial (fun _ => rfl) fun _ h => h

/-- An ACL is deleted, or nothing happens. -/
theorem deleteAclRow_cases (ctx : Context) (aclId : Nat) (e : Estate) :
    (∃ x, Acls.deleteAclRow ctx aclId e = (.error x, e)) ∨
      ∃ row, Acls.deleteAclRow ctx aclId e =
        (.ok row, { e with acls := Table.remove AclRow.id aclId e.acls }) := by
  unfold Acls.deleteAclRow Acls.getAcl
  cases hfind : Acls.findAcl ctx aclId e with
  | error x => exact Or.inl ⟨x, bind_error (by rw [read_apply, hfind])⟩
  | ok row =>
    have hid := (Table.find_mem hfind).2.1
    exact Or.inr ⟨row, by rw [bind_ok (by rw [read_apply, hfind]), hid]; rfl⟩

/-- A step that deletes an ACL which nothing names, or raises. -/
theorem effect_aclRemoved {m : AclCall AclRow} {aclId : Nat}
    (hrun : t.run = m >>= fun _ => pure .done) (hremoves : t.removesAcl = some aclId)
    (hunused : ∀ a ∈ e.world.db.viewAcls, a.aclId ≠ aclId)
    (hm : (∃ x, m e = (.error x, e)) ∨
      ∃ row, m e = (.ok row, { e with acls := Table.remove AclRow.id aclId e.acls })) :
    Effect e t (t.outcome e).1 (t.outcome e).2 := by
  -- only the two steps that remove an ACL are meant
  have hplain : t.role = .plain ∧ ∀ z, ¬ t.clears z := by
    cases t with
    | takeBackAcl ctx aclId => exact ⟨rfl, fun _ h => h⟩
    | removeAcl ctx failing aclId => exact ⟨rfl, fun _ h => h⟩
    | _ => exact absurd hremoves (by simp [Task.removesAcl])
  rcases outcome_bind hrun e with ⟨row, e', hr, ht⟩ | ⟨x, e', hr, ht⟩
  · rw [ht]
    rcases hm with ⟨y, hy⟩ | ⟨row', hrow⟩
    · rw [hy] at hr
      exact absurd (Prod.mk.inj hr).1 (by simp)
    · rw [hrow] at hr
      obtain ⟨-, rfl⟩ := Prod.mk.inj hr
      exact .aclRemoved hunused hplain.1 rfl hplain.2 hremoves
  · rw [ht]
    rcases hm with ⟨y, hy⟩ | ⟨row', hrow⟩
    · rw [hy] at hr
      obtain ⟨-, rfl⟩ := Prod.mk.inj hr
      exact .quiet (Calm.refl e) (hplain.1 ▸ trivial) rfl hplain.2
    · rw [hrow] at hr
      exact absurd (Prod.mk.inj hr).1 (by simp)

theorem effect_takeBackAcl (ctx : Context) (aclId : Nat) (e : Estate)
    (hready : (Task.takeBackAcl ctx aclId).Ready e) :
    Effect e (.takeBackAcl ctx aclId) ((Task.takeBackAcl ctx aclId).outcome e).1
      ((Task.takeBackAcl ctx aclId).outcome e).2 := by
  refine effect_aclRemoved (m := Acls.deleteAclInStorage ctx aclId) rfl rfl hready ?_
  unfold Acls.deleteAclInStorage Acls.transaction Exec.rollback
  rcases deleteAclRow_cases ctx aclId e with ⟨x, hr⟩ | ⟨row, hr⟩
  · rw [hr]; exact Or.inl ⟨x, rfl⟩
  · rw [hr]; exact Or.inr ⟨row, rfl⟩

theorem effect_removeAcl (ctx : Context) (failing : Option Acls.AclSite) (aclId : Nat) (e : Estate)
    (hready : (Task.removeAcl ctx failing aclId).Ready e) :
    Effect e (.removeAcl ctx failing aclId) ((Task.removeAcl ctx failing aclId).outcome e).1
      ((Task.removeAcl ctx failing aclId).outcome e).2 := by
  have hrun : (Task.removeAcl ctx failing aclId).run =
      (Acls.step failing .aclWrite >>= fun _ => Acls.deleteAclRow ctx aclId) >>= fun _ =>
        pure .done := by
    funext s
    rw [bind_assoc]
    rfl
  refine effect_aclRemoved hrun rfl hready ?_
  by_cases hf : failing = some .aclWrite
  · exact Or.inl ⟨_, bind_error (Acls.step_failing hf)⟩
  · rw [bind_ok (Acls.step_other hf)]
    exact deleteAclRow_cases ctx aclId e

/-! ### Zones -/

theorem effect_createZone (ctx : Context) (conf : Conf) (faults : ZoneFaults)
    (plan : Nat → ZoneFaults) (zone : NewZone) (e : Estate) :
    Effect e (.createZone ctx conf faults plan zone)
      ((Task.createZone ctx conf faults plan zone).outcome e).1
      ((Task.createZone ctx conf faults plan zone).outcome e).2 := by
  refine effect_spares (t := .createZone ctx conf faults plan zone) (f := fun c => .storeZone c) rfl
    (fun w => ?_) trivial (fun _ => rfl) (fun _ h => h) e
  refine Keeps.bind (fun w' hw => ?_) fun (_, _) => ?_
  · rw [createZoneChecks_state]
    exact hw
  · dsimp only
    split
    · exact Keeps.raise _
    · exact Keeps.bind (Keeps.read _) fun _ => Keeps.pure _

theorem effect_storeZone (c : ZoneCreation) (e : Estate) (hready : (Task.storeZone c).Ready e) :
    Effect e (.storeZone c) ((Task.storeZone c).outcome e).1 ((Task.storeZone c).outcome e).2 := by
  rcases outcome_onWorld (t := .storeZone c) rfl e with ⟨zone, w', hr, ht⟩ | ⟨x, w', hr, ht⟩
  · rw [ht]
    rcases createZoneInStorage_cases c.ctx c.conf c.zone c.viewId c.parent e.world with
      ⟨x, hx⟩ | hok
    · rw [hx] at hr
      exact absurd (Prod.mk.inj hr).1 (by simp)
    · rw [hok] at hr
      obtain ⟨-, rfl⟩ := Prod.mk.inj hr
      obtain ⟨view, hview, hid⟩ := hready
      exact .zoneStored ⟨view, hview, congrArg some hid.symm⟩ rfl rfl fun _ h => h
  · rw [ht]
    rcases createZoneInStorage_cases c.ctx c.conf c.zone c.viewId c.parent e.world with
      ⟨y, hy⟩ | hok
    · rw [hy] at hr
      obtain ⟨-, rfl⟩ := Prod.mk.inj hr
      exact .quiet (Calm.of_world rfl (Nat.le_succ _)) trivial rfl fun _ h => h
    · rw [hok] at hr
      exact absurd (Prod.mk.inj hr).1 (by simp)

theorem effect_deleteZone (ctx : Context) (conf : Conf) (faults : ZoneFaults) (zoneId : Nat)
    (e : Estate) :
    Effect e (.deleteZone ctx conf faults zoneId)
      ((Task.deleteZone ctx conf faults zoneId).outcome e).1
      ((Task.deleteZone ctx conf faults zoneId).outcome e).2 := by
  refine effect_spares (t := .deleteZone ctx conf faults zoneId)
    (f := fun zone => if ctx.abandon then .done else .undoZone ctx conf faults zone) rfl
    (fun w => ?_) trivial (fun _ => ?_) (fun _ h => h) e
  · exact Keeps.bind (Keeps.bind (Keeps.read _) fun _ => Keeps.bind (Keeps.read _) fun _ =>
      Keeps.bind (Keeps.raiseIf _ _) fun _ => Keeps.pure _) fun zone =>
        Keeps.ite (fun _ => World.Spares.deleteZoneRow _)
          fun _ => World.Spares.deleteZoneInStorage zone
  · split <;> rfl

/-- **What every step of every call does.** -/
theorem outcome_effect (e : Estate) (hready : t.Ready e) :
    Effect e t (t.outcome e).1 (t.outcome e).2 := by
  -- one lemma for each step, and one for those that leave views and ACLs alone
  cases t with
  | done => exact .quiet (Calm.refl e) trivial rfl fun _ h => h
  | createView ctx device name aclIds => exact effect_createView ctx device name aclIds e
  | storeInfo view info aclIds => exact .infoStored rfl rfl
  | storeView view info aclIds => exact .viewStored rfl rfl
  | storeAssociation view info aclIds => exact .linked rfl rfl
  | storeViewAcls viewId aclIds name => exact effect_storeViewAcls viewId aclIds name e hready
  | lowerOthers name => exact effect_lowerOthers name e
  | updateView ctx refused viewId aclIds => exact effect_updateView ctx refused viewId aclIds e
  | deleteView refused d => exact effect_deleteView refused d e
  | findViewAcls viewId next =>
    exact .calm (Calm.refl e) (Or.inl rfl) fun _ _ _ h => absurd h id
  | dropViewAcls ids next => exact effect_dropViewAcls ids next e
  | findAssociation d => exact effect_findAssociation d e
  | dropAssociations d infoId => exact .cut rfl rfl
  | getInfo d infoId => exact effect_getInfo d infoId e
  | dropInfo d info => exact .infoDropped rfl rfl
  | raiseOthers d info => exact effect_raiseOthers d info e
  | removeView d => exact effect_removeView d e hready
  | findZones d => exact effect_findZones d e hready
  | deleteZones d plan zones => exact effect_deleteZones d plan zones e hready
  | createAcl ctx failing acl response => exact effect_createAcl ctx failing acl response e
  | mirrorAcl ctx failing aclId response => exact effect_mirrorAcl ctx failing aclId response e
  | takeBackAcl ctx aclId => exact effect_takeBackAcl ctx aclId e hready
  | deleteAcl ctx failing aclId => exact effect_deleteAcl ctx failing aclId e
  | unmirrorAcl ctx failing aclId => exact effect_unmirrorAcl ctx failing aclId e
  | removeAcl ctx failing aclId => exact effect_removeAcl ctx failing aclId e hready
  | createZone ctx conf faults plan zone => exact effect_createZone ctx conf faults plan zone e
  | storeZone c => exact effect_storeZone c e hready
  | actOnZone c zone =>
    exact effect_spares (t := .actOnZone c zone) (f := fun _ => .furnishZone c zone.id) rfl
      (fun _ => World.Spares.zoneAction _ _) trivial (fun _ => rfl) (fun _ h => h) e
  | furnishZone c zoneId =>
    exact effect_spares (t := .furnishZone c zoneId) (f := fun _ => .adoptZones c zoneId) rfl
      (fun _ => Keeps.bind (Keeps.read _) fun _ => World.Spares.createDefaultRecord _) trivial
      (fun _ => rfl) (fun _ h => h) e
  | adoptZones c zoneId =>
    exact effect_spares (t := .adoptZones c zoneId) (f := fun _ => .done) rfl
      (fun _ => World.Spares.adoptSubzones _ _ _) trivial (fun _ => rfl) (fun _ h => h) e
  | deleteZone ctx conf faults zoneId => exact effect_deleteZone ctx conf faults zoneId e
  | undoZone ctx conf faults zone =>
    exact effect_spares (t := .undoZone ctx conf faults zone) (f := fun _ => .done) rfl
      (fun _ => World.Spares.zoneAction _ _) trivial (fun _ => rfl) (fun _ h => h) e

end

end Views

end Designate
