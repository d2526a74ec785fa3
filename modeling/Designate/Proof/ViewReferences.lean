import Designate.Proof.ViewCalls
import Designate.Sample

/-!
# References under interleaving

One invariant is kept by every step that is clear to be taken. It says of each call what it
knows about the rows it is working on, that no two calls are about to write the same view
or to delete one that is still being written, and of each view that it leads to its row, or
which call is about to see to it.

What the steps that refer to a row or delete one need, the calls have looked for themselves:
that the view and the ACLs are there, that nothing names them any more. So it is enough that
nothing gets between such a look and the write behind it.
-/

namespace Designate

namespace Views

open Exec

/-! ## What the calls know -/

/-- There is a view `v`. -/
def HasView (e : Estate) (v : Nat) : Prop := v ∈ e.world.db.views.map View.id

/-- There is a row `i` of `zdns_view_info_t`. -/
def HasInfo (e : Estate) (i : Nat) : Prop := i ∈ e.world.db.zdnsViewInfos.map ZdnsViewInfo.id

/-- Something leads from the view `v`. -/
def Linked (e : Estate) (v : Nat) : Prop := v ∈ e.world.db.viewZdnsViews.map ViewZdnsView.viewId

/-- The view of the deletion is an old one, and while it is there its caller sees it. -/
structure Aims (e : Estate) (d : ViewDeletion) : Prop where
  old : d.viewId < e.world.nextId
  sees : ∀ view ∈ e.world.db.views, view.id = d.viewId → d.ctx.sees view.tenantId

/-- What a call knows. -/
def Role.Fits (e : Estate) : Role → Prop
  | .plain => True
  | .unwritten v i => v = i + 1 ∧ v < e.world.nextId ∧ ¬ HasInfo e i ∧ ¬ HasView e v ∧ ¬ Linked e v
  | .unborn v i => v = i + 1 ∧ v < e.world.nextId ∧ HasInfo e i ∧ ¬ HasView e v ∧ ¬ Linked e v
  | .unlinked v i => v = i + 1 ∧ v < e.world.nextId ∧ HasInfo e i ∧ ¬ Linked e v
  | .deleting d => Aims e d
  | .holding d i => d.viewId = i + 1 ∧ Aims e d
  | .finishing d => Aims e d

/-- The view a call has still to write. -/
def Role.born : Role → Option Nat
  | .unwritten v _ => some v
  | .unborn v _ => some v
  | _ => none

/-- The view a call has still to lead to its row. -/
def Role.books : Role → Option Nat
  | .unwritten v _ => some v
  | .unborn v _ => some v
  | .unlinked v _ => some v
  | _ => none

/-- The view a call has seen and will delete. -/
def Role.target : Role → Option ViewDeletion
  | .deleting d => some d
  | .holding d _ => some d
  | .finishing d => some d
  | _ => none

/-- The view a call will delete, once it has seen where it leads. -/
def Role.held : Role → Option ViewDeletion
  | .holding d _ => some d
  | .finishing d => some d
  | _ => none

/-- Two calls that are not in each other's way. -/
structure Role.Apart (r r' : Role) : Prop where
  books : ∀ v ∈ r.books, v ∉ r'.books
  born : ∀ v ∈ r.born, ∀ d ∈ r'.target, d.viewId ≠ v
  born' : ∀ v ∈ r'.born, ∀ d ∈ r.target, d.viewId ≠ v
  held : ∀ v ∈ r.books, ∀ d ∈ r'.held, d.viewId ≠ v
  held' : ∀ v ∈ r'.books, ∀ d ∈ r.held, d.viewId ≠ v

/-- The call sees to the view `v`. -/
def Role.Covers (e : Estate) (v : Nat) : Role → Prop
  | .unlinked v' _ => v' = v
  | .holding d i => d.viewId = v ∧ HasInfo e i
  | .finishing d => d.viewId = v
  | _ => False

/-- The view `v` leads to its row. -/
def Mirrored (e : Estate) (v : Nat) : Prop := Linked e v ∧ ∃ i, v = i + 1 ∧ HasInfo e i

/-- The rows that make up the views, as far as they do not depend on calls. -/
structure Rows (e : Estate) : Prop where
  viewIds : (e.world.db.views.map View.id).Nodup
  infoIds : (e.world.db.zdnsViewInfos.map ZdnsViewInfo.id).Nodup
  associationIds : (e.world.db.viewZdnsViews.map ViewZdnsView.viewId).Nodup
  links : ∀ a ∈ e.world.db.viewZdnsViews, a.viewId = a.zdnsViewId + 1
  views : ∀ v, HasView e v → v < e.world.nextId
  infos : ∀ i, HasInfo e i → i < e.world.nextId
  associations : ∀ v, Linked e v → v < e.world.nextId

/-- Rows of `view_acl` lead to views and to ACLs. -/
def ViewAclsValid (e : Estate) : Prop :=
  ∀ a ∈ e.world.db.viewAcls,
    (∃ view ∈ e.world.db.views, view.id = a.viewId) ∧ ∃ acl ∈ e.acls, acl.id = a.aclId

/-- The invariant. -/
structure Sound (e : Estate) (tasks : Nat → Task) : Prop where
  rows : Rows e
  fits : ∀ n, (tasks n).role.Fits e
  apart : ∀ m n, m ≠ n → (tasks m).role.Apart (tasks n).role
  mirrored : ∀ v, HasView e v → Mirrored e v ∨ ∃ n, (tasks n).role.Covers e v
  zones : ∀ z ∈ e.world.db.zones, z.deleted = false →
    (∃ view ∈ e.world.db.views, z.viewId = some view.id) ∨ ∃ n, (tasks n).clears z
  viewAcls : ViewAclsValid e

/-! ## What changes -/

section

variable {e e' : Estate} {t t' : Task} {r r' : Role} {v i : Nat} {d : ViewDeletion}

/-- The rows of views and what leads from them stay as they are. -/
structure Kept (e e' : Estate) : Prop where
  views : e'.world.db.views = e.world.db.views
  associations : e'.world.db.viewZdnsViews = e.world.db.viewZdnsViews
  infoIds : e'.world.db.zdnsViewInfos.map ZdnsViewInfo.id =
    e.world.db.zdnsViewInfos.map ZdnsViewInfo.id
  nextId : e.world.nextId ≤ e'.world.nextId

theorem Kept.refl (e : Estate) : Kept e e := ⟨rfl, rfl, rfl, Nat.le_refl _⟩

theorem Calm.kept (h : Calm e e') : Kept e e' := ⟨h.views, h.associations, h.infoIds, h.nextId⟩

theorem Kept.hasView (h : Kept e e') : HasView e' v ↔ HasView e v := by
  unfold HasView
  rw [h.views]

theorem Kept.hasInfo (h : Kept e e') : HasInfo e' i ↔ HasInfo e i := by
  unfold HasInfo
  rw [h.infoIds]

theorem Kept.linked (h : Kept e e') : Linked e' v ↔ Linked e v := by
  unfold Linked
  rw [h.associations]

theorem Kept.aims (h : Kept e e') (ha : Aims e d) : Aims e' d := by
  refine ⟨Nat.lt_of_lt_of_le ha.old h.nextId, ?_⟩
  rw [h.views]
  exact ha.sees

theorem Kept.mirrored (h : Kept e e') (hm : Mirrored e v) : Mirrored e' v := by
  obtain ⟨hlinked, i, hi, hinfo⟩ := hm
  exact ⟨h.linked.mpr hlinked, i, hi, h.hasInfo.mpr hinfo⟩

theorem Kept.covers (h : Kept e e') (hc : r.Covers e v) : r.Covers e' v := by
  cases r with
  | holding d i => exact ⟨hc.1, h.hasInfo.mpr hc.2⟩
  | _ => exact hc

/-- What a call knows depends on few of the rows. -/
theorem Role.Fits.transfer (hf : r.Fits e) (hn : e.world.nextId ≤ e'.world.nextId)
    (hinfo : ∀ v ∈ r.books, ∀ i, v = i + 1 → (HasInfo e' i ↔ HasInfo e i))
    (hview : ∀ v ∈ r.born, HasView e' v → HasView e v)
    (hlinked : ∀ v ∈ r.books, Linked e' v → Linked e v)
    (haims : ∀ d ∈ r.target, Aims e d → Aims e' d) : r.Fits e' := by
  -- one case a stage of a call: each is about one row of its own, and asks for no other
  cases r with
  | plain => trivial
  | unwritten v i =>
    obtain ⟨hv, hlt, hnot, hborn, hbooks⟩ := hf
    exact ⟨hv, Nat.lt_of_lt_of_le hlt hn, mt (hinfo v rfl i hv).mp hnot, mt (hview v rfl) hborn,
      mt (hlinked v rfl) hbooks⟩
  | unborn v i =>
    obtain ⟨hv, hlt, hhas, hborn, hbooks⟩ := hf
    exact ⟨hv, Nat.lt_of_lt_of_le hlt hn, (hinfo v rfl i hv).mpr hhas, mt (hview v rfl) hborn,
      mt (hlinked v rfl) hbooks⟩
  | unlinked v i =>
    obtain ⟨hv, hlt, hhas, hbooks⟩ := hf
    exact ⟨hv, Nat.lt_of_lt_of_le hlt hn, (hinfo v rfl i hv).mpr hhas, mt (hlinked v rfl) hbooks⟩
  | deleting d => exact haims d rfl hf
  | holding d i => exact ⟨hf.1, haims d rfl hf.2⟩
  | finishing d => exact haims d rfl hf

theorem Kept.fits (h : Kept e e') (hf : r.Fits e) : r.Fits e' :=
  hf.transfer h.nextId (fun _ _ _ _ => h.hasInfo) (fun _ _ => h.hasView.mp)
    (fun _ _ => h.linked.mp) fun _ _ => h.aims

theorem Kept.rows (h : Kept e e') (hr : Rows e) : Rows e' where
  viewIds := by rw [h.views]; exact hr.viewIds
  infoIds := by rw [h.infoIds]; exact hr.infoIds
  associationIds := by rw [h.associations]; exact hr.associationIds
  links := by rw [h.associations]; exact hr.links
  views v hv := Nat.lt_of_lt_of_le (hr.views v (h.hasView.mp hv)) h.nextId
  infos i hi := Nat.lt_of_lt_of_le (hr.infos i (h.hasInfo.mp hi)) h.nextId
  associations v hv := Nat.lt_of_lt_of_le (hr.associations v (h.linked.mp hv)) h.nextId

/-! ### What a call knows of the others -/

theorem Role.Fits.books_lt (h : r.Fits e) (hv : v ∈ r.books) : v < e.world.nextId := by
  cases r with
  | unwritten v' i => obtain rfl := Option.some.inj hv; exact h.2.1
  | unborn v' i => obtain rfl := Option.some.inj hv; exact h.2.1
  | unlinked v' i => obtain rfl := Option.some.inj hv; exact h.2.1
  | _ => exact absurd hv (by simp [Role.books])

theorem Role.Fits.not_linked (h : r.Fits e) (hv : v ∈ r.books) : ¬ Linked e v := by
  cases r with
  | unwritten v' i => obtain rfl := Option.some.inj hv; exact h.2.2.2.2
  | unborn v' i => obtain rfl := Option.some.inj hv; exact h.2.2.2.2
  | unlinked v' i => obtain rfl := Option.some.inj hv; exact h.2.2.2
  | _ => exact absurd hv (by simp [Role.books])

theorem Role.Fits.not_view (h : r.Fits e) (hv : v ∈ r.born) : ¬ HasView e v := by
  cases r with
  | unwritten v' i => obtain rfl := Option.some.inj hv; exact h.2.2.2.1
  | unborn v' i => obtain rfl := Option.some.inj hv; exact h.2.2.2.1
  | _ => exact absurd hv (by simp [Role.born])

theorem Role.Fits.aims (h : r.Fits e) (hd : d ∈ r.target) : Aims e d := by
  cases r with
  | deleting d' => obtain rfl := Option.some.inj hd; exact h
  | holding d' i => obtain rfl := Option.some.inj hd; exact h.2
  | finishing d' => obtain rfl := Option.some.inj hd; exact h
  | _ => exact absurd hd (by simp [Role.target])

theorem born_books (h : v ∈ r.born) : v ∈ r.books := by
  cases r with
  | unwritten v' i => exact h
  | unborn v' i => exact h
  | _ => exact absurd h (by simp [Role.born])

theorem held_target (h : d ∈ r.held) : d ∈ r.target := by
  cases r with
  | holding d' i => exact h
  | finishing d' => exact h
  | _ => exact absurd h (by simp [Role.held])

theorem Role.Apart.symm (h : r.Apart r') : r'.Apart r where
  books v hv hv' := h.books v hv' hv
  born := h.born'
  born' := h.born
  held := h.held'
  held' := h.held

/-- A call that has gone on, with no more before it than there was. -/
structure Role.Within (r' r : Role) : Prop where
  books : ∀ v ∈ r'.books, v ∈ r.books
  born : ∀ v ∈ r'.born, v ∈ r.born
  target : ∀ d ∈ r'.target, d ∈ r.target
  held : ∀ d ∈ r'.held, d ∈ r.held

theorem Role.Apart.within {r₀ : Role} (h : r.Apart r₀) (hw : r'.Within r) : r'.Apart r₀ where
  books v hv := h.books v (hw.books v hv)
  born v hv := h.born v (hw.born v hv)
  born' v hv d hd := h.born' v hv d (hw.target d hd)
  held v hv := h.held v (hw.books v hv)
  held' v hv d hd := h.held' v hv d (hw.held d hd)

theorem within_plain (r : Role) : Role.plain.Within r :=
  ⟨fun _ h => absurd h (by simp [Role.books]), fun _ h => absurd h (by simp [Role.born]),
    fun _ h => absurd h (by simp [Role.target]), fun _ h => absurd h (by simp [Role.held])⟩

/-! ## One step -/

/-- Only a call that makes no promise about views has zones to delete. -/
theorem plain_of_clears {z : Zone} (h : t.clears z) : t.role = .plain := by
  cases t with
  | findZones d => rfl
  | deleteZones d plan zones => rfl
  | _ => exact absurd h id

theorem clears_congr {z z₀ : Zone} (hid : z₀.id = z.id) (hview : z₀.viewId = z.viewId)
    (h : t.clears z₀) : t.clears z := by
  cases t with
  | findZones d => exact hview.symm.trans h
  | deleteZones d plan zones =>
    obtain ⟨z₁, hmem, hz₁⟩ := h
    exact ⟨z₁, hmem, hz₁.trans hid⟩
  | _ => exact h

/-- What a call with the role `r`, and `r'` afterwards, does to the rows. -/
inductive RowChange (e : Estate) : Role → Role → Estate → Prop
  | kept {r r' : Role} {e' : Estate} (h : Kept e e') : RowChange e r r' e'
  | infoStored (viewId : Nat) (info : ZdnsViewInfo) :
    RowChange e (.unwritten viewId info.id) (.unborn viewId info.id) (withDb e { e.world.db with
      zdnsViewInfos := e.world.db.zdnsViewInfos ++ [info] })
  | viewStored (view : View) (infoId : Nat) :
    RowChange e (.unborn view.id infoId) (.unlinked view.id infoId) (withDb e { e.world.db with
      views := e.world.db.views ++ [view] })
  | linked (viewId infoId : Nat) :
    RowChange e (.unlinked viewId infoId) .plain (withDb e { e.world.db with
      viewZdnsViews := e.world.db.viewZdnsViews ++ [⟨viewId, infoId⟩] })
  | cut (d : ViewDeletion) (infoId : Nat) :
    RowChange e (.holding d infoId) (.holding d infoId) (withDb e { e.world.db with
      viewZdnsViews := Table.remove ViewZdnsView.viewId d.viewId e.world.db.viewZdnsViews })
  | infoDropped (d : ViewDeletion) (infoId : Nat) :
    RowChange e (.holding d infoId) (.finishing d) (withDb e { e.world.db with
      zdnsViewInfos := Table.remove ZdnsViewInfo.id infoId e.world.db.zdnsViewInfos })
  | viewRemoved (d : ViewDeletion) :
    RowChange e (.finishing d) .plain (withDb e { e.world.db with
      views := Table.remove View.id d.viewId e.world.db.views })

theorem Effect.rowChange (h : Effect e t t' e') : RowChange e t.role t'.role e' := by
  cases h with
  | calm h => exact .kept h.kept
  | asked h => exact .kept h.kept
  | chosen h => exact .kept h.kept
  | viewAclStored => exact .kept ⟨rfl, rfl, rfl, Nat.le_succ e.world.nextId⟩
  | zoneStored => exact .kept ⟨rfl, rfl, rfl, Nat.le_succ e.world.nextId⟩
  | found => exact .kept (Kept.refl e)
  | infoMissing => exact .kept (Kept.refl e)
  | viewMissing => exact .kept (Kept.refl e)
  | aclRemoved => exact .kept ⟨rfl, rfl, rfl, Nat.le_refl _⟩
  | infoStored hrole hrole' => rw [hrole, hrole']; exact .infoStored _ _
  | viewStored hrole hrole' => rw [hrole, hrole']; exact .viewStored _ _
  | linked hrole hrole' => rw [hrole, hrole']; exact .linked _ _
  | cut hrole hrole' => rw [hrole, hrole']; exact .cut _ _
  | infoDropped hrole hrole' => rw [hrole, hrole']; exact .infoDropped _ _
  | viewRemoved hrole hrole' => rw [hrole, hrole']; exact .viewRemoved _

section

variable {info : ZdnsViewInfo} {view : View} {w : Nat}

theorem hasInfo_stored : HasInfo (withDb e { e.world.db with
    zdnsViewInfos := e.world.db.zdnsViewInfos ++ [info] }) i ↔ HasInfo e i ∨ i = info.id := by
  simp [HasInfo, withDb]

theorem hasView_stored : HasView (withDb e { e.world.db with
    views := e.world.db.views ++ [view] }) v ↔ HasView e v ∨ v = view.id := by
  simp [HasView, withDb]

theorem linked_stored : Linked (withDb e { e.world.db with
    viewZdnsViews := e.world.db.viewZdnsViews ++ [⟨w, i⟩] }) v ↔ Linked e v ∨ v = w := by
  simp [Linked, withDb]

theorem linked_removed : Linked (withDb e { e.world.db with
    viewZdnsViews := Table.remove ViewZdnsView.viewId w e.world.db.viewZdnsViews }) v ↔
      Linked e v ∧ v ≠ w := Table.mem_map_remove

theorem hasInfo_removed : HasInfo (withDb e { e.world.db with
    zdnsViewInfos := Table.remove ZdnsViewInfo.id w e.world.db.zdnsViewInfos }) i ↔
      HasInfo e i ∧ i ≠ w := Table.mem_map_remove

theorem hasView_removed : HasView (withDb e { e.world.db with
    views := Table.remove View.id w e.world.db.views }) v ↔ HasView e v ∧ v ≠ w := Table.mem_map_remove

end

/-- The rows after a step. -/
theorem RowChange.rows (h : RowChange e r r' e') (hr : Rows e) (hf : r.Fits e) : Rows e' := by
  cases h with
  | kept h => exact h.rows hr
  | infoStored viewId info =>
    -- the response has a fresh identifier, the one that the call has been given
    obtain ⟨hv, hlt, hinfo, -, -⟩ := hf
    refine ⟨hr.viewIds, ?_, hr.associationIds, hr.links, hr.views, ?_, hr.associations⟩
    · exact Table.append_nodup hr.infoIds fun b hb heq => hinfo (List.mem_map.mpr ⟨b, hb, heq⟩)
    · intro i hi
      rcases hasInfo_stored.mp hi with hi | rfl
      · exact hr.infos i hi
      · rw [hv] at hlt
        exact Nat.lt_of_succ_lt hlt
  | viewStored view infoId =>
    obtain ⟨-, hlt, -, hview, -⟩ := hf
    refine ⟨?_, hr.infoIds, hr.associationIds, hr.links, ?_, hr.infos, hr.associations⟩
    · exact Table.append_nodup hr.viewIds fun b hb heq => hview (List.mem_map.mpr ⟨b, hb, heq⟩)
    · intro v hv
      rcases hasView_stored.mp hv with hv | rfl
      · exact hr.views v hv
      · exact hlt
  | linked viewId infoId =>
    -- the association stands under the identifier of its view
    obtain ⟨hv, hlt, -, hlinked⟩ := hf
    refine ⟨hr.viewIds, hr.infoIds, ?_, ?_, hr.views, hr.infos, ?_⟩
    · exact Table.append_nodup hr.associationIds
        fun b hb heq => hlinked (List.mem_map.mpr ⟨b, hb, heq⟩)
    · intro a ha
      rcases List.mem_append.mp ha with ha | ha
      · exact hr.links a ha
      · obtain rfl := List.mem_singleton.mp ha
        exact hv
    · intro v hv
      rcases linked_stored.mp hv with hv | rfl
      · exact hr.associations v hv
      · exact hlt
  | cut d infoId =>
    -- removing rows leaves the identifiers below the counter, and different
    exact ⟨hr.viewIds, hr.infoIds, Table.remove_nodup hr.associationIds,
      fun a ha => hr.links a (Table.mem_remove.mp ha).1, hr.views, hr.infos,
      fun v hv => hr.associations v (linked_removed.mp hv).1⟩
  | infoDropped d infoId =>
    exact ⟨hr.viewIds, Table.remove_nodup hr.infoIds, hr.associationIds, hr.links, hr.views,
      fun i hi => hr.infos i (hasInfo_removed.mp hi).1, hr.associations⟩
  | viewRemoved d =>
    exact ⟨Table.remove_nodup hr.viewIds, hr.infoIds, hr.associationIds, hr.links,
      fun v hv => hr.views v (hasView_removed.mp hv).1, hr.infos, hr.associations⟩

/-- What a call knows is not made wrong by another one that is not in its way. -/
theorem RowChange.fits {r₀ : Role} (h : RowChange e r r' e') (hf : r.Fits e) (hf₀ : r₀.Fits e)
    (hapart : r.Apart r₀) : r₀.Fits e' := by
  have hsame : ∀ v ∈ r₀.books, ∀ i, v = i + 1 → (HasInfo e i ↔ HasInfo e i) :=
    fun _ _ _ _ => Iff.rfl
  cases h with
  | kept h => exact h.fits hf₀
  | infoStored viewId info =>
    have hviewId : viewId = info.id + 1 := hf.1
    refine hf₀.transfer (Nat.le_refl _) (fun v hv i hi => ?_) (fun _ _ h => h) (fun _ _ h => h)
      fun _ _ ha => ⟨ha.old, ha.sees⟩
    -- the new row is that of another view
    have hne : i ≠ info.id := by
      rintro rfl
      exact hapart.books viewId rfl (hi.trans hviewId.symm ▸ hv)
    rw [hasInfo_stored]
    exact or_iff_left hne
  | viewStored view infoId =>
    refine hf₀.transfer (Nat.le_refl _) hsame (fun v hv hview => ?_) (fun _ _ h => h)
      fun d hd ha => ⟨ha.old, fun view' hview' hid => ?_⟩
    · rcases hasView_stored.mp hview with hview | rfl
      · exact hview
      · exact absurd (born_books hv) (hapart.books view.id rfl)
    · rcases List.mem_append.mp hview' with hview' | hview'
      · exact ha.sees view' hview' hid
      · obtain rfl := List.mem_singleton.mp hview'
        exact absurd hid.symm (hapart.born view'.id rfl d hd)
  | linked viewId infoId =>
    refine hf₀.transfer (Nat.le_refl _) hsame (fun _ _ h => h) (fun v hv hlinked => ?_)
      fun _ _ ha => ⟨ha.old, ha.sees⟩
    rcases linked_stored.mp hlinked with hlinked | rfl
    · exact hlinked
    · exact absurd hv (hapart.books v rfl)
  | cut d infoId =>
    exact hf₀.transfer (Nat.le_refl _) hsame (fun _ _ h => h)
      (fun _ _ h => (linked_removed.mp h).1) fun _ _ ha => ⟨ha.old, ha.sees⟩
  | infoDropped d infoId =>
    have hd : d.viewId = infoId + 1 := hf.1
    refine hf₀.transfer (Nat.le_refl _) (fun v hv i hi => ?_) (fun _ _ h => h) (fun _ _ h => h)
      fun _ _ ha => ⟨ha.old, ha.sees⟩
    -- the row that goes is that of another view
    have hne : i ≠ infoId := by
      have := hapart.held' v hv d rfl
      omega
    rw [hasInfo_removed]
    exact and_iff_left hne
  | viewRemoved d =>
    exact hf₀.transfer (Nat.le_refl _) hsame (fun _ _ h => (hasView_removed.mp h).1)
      (fun _ _ h => h) fun _ _ ha =>
        ⟨ha.old, fun view hview hid => ha.sees view (Table.mem_remove.mp hview).1 hid⟩

/-- What the call knows after its step. -/
theorem Effect.fits (h : Effect e t t' e') (hr : Rows e) (hf : t.role.Fits e) :
    t'.role.Fits e' := by
  cases h with
  | calm h hrole =>
    rcases hrole with hrole | ⟨hrole, -⟩
    · rw [hrole]; exact h.kept.fits hf
    · rw [hrole]; trivial
  | asked h hplain hrole hn =>
    -- the view's identifier is new: no table has a row under it
    rw [hrole]
    have hlt : e.world.nextId + 1 < e'.world.nextId := by omega
    refine ⟨rfl, hlt, fun hinfo => ?_, fun hview => ?_, fun hlinked => ?_⟩
    · exact absurd (hr.infos _ (h.kept.hasInfo.mp hinfo)) (Nat.lt_irrefl _)
    · exact absurd (hr.views _ (h.kept.hasView.mp hview)) (by omega)
    · exact absurd (hr.associations _ (h.kept.linked.mp hlinked)) (by omega)
  | infoStored hrole hrole' =>
    rw [hrole] at hf
    rw [hrole']
    obtain ⟨hv, hlt, -, hview, hlinked⟩ := hf
    exact ⟨hv, hlt, hasInfo_stored.mpr (Or.inr rfl), hview, hlinked⟩
  | viewStored hrole hrole' =>
    rw [hrole] at hf
    rw [hrole']
    obtain ⟨hv, hlt, hinfo, -, hlinked⟩ := hf
    exact ⟨hv, hlt, hinfo, hlinked⟩
  | linked hrole hrole' => rw [hrole']; trivial
  | viewAclStored hview hacl hrole hrole' => rw [hrole']; trivial
  | @chosen _ d view h hplain hrole hview hid hsees =>
    -- the view to delete is the only row under its identifier, so what is seen of it is seen of
    -- any
    rw [hrole]
    refine h.kept.aims ⟨?_, fun view' hview' hid' => ?_⟩
    · rw [← hid]
      exact hr.views _ (List.mem_map_of_mem hview)
    · rw [Table.eq_of_key hr.viewIds hview' hview (hid'.trans hid.symm)]
      exact hsees
  | found hrole hrole' hmem hid =>
    rw [hrole] at hf
    rw [hrole']
    exact ⟨hid.symm.trans (hr.links _ hmem), hf⟩
  | cut hrole hrole' =>
    rw [hrole] at hf
    rw [hrole']
    exact ⟨hf.1, hf.2.old, hf.2.sees⟩
  | infoMissing hrole hrole' => rw [hrole']; trivial
  | infoDropped hrole hrole' =>
    rw [hrole] at hf
    rw [hrole']
    exact ⟨hf.2.old, hf.2.sees⟩
  | viewRemoved hrole hrole' => rw [hrole']; trivial
  | viewMissing hrole hrole' => rw [hrole']; trivial
  | aclRemoved hunused hrole hrole' => rw [hrole']; trivial
  | zoneStored hview hrole hrole' => rw [hrole']; trivial

/-- Calls that are not in each other's way stay so. -/
theorem Effect.apart {r₀ : Role} (h : Effect e t t' e') (hf₀ : r₀.Fits e)
    (hapart : t.role.Apart r₀) : t'.role.Apart r₀ := by
  cases h with
  | calm h hrole =>
    rcases hrole with hrole | ⟨hrole, -⟩
    · rw [hrole]; exact hapart
    · rw [hrole]; exact hapart.within (within_plain _)
  | asked h hplain hrole hn =>
    -- the identifiers are new
    rw [hrole]
    refine ⟨fun v hv hv' => ?_, fun v hv d hd heq => ?_, fun v hv d hd => ?_,
      fun v hv d hd heq => ?_, fun v hv d hd => ?_⟩
    · obtain rfl := Option.some.inj hv
      exact absurd (hf₀.books_lt hv') (by omega)
    · obtain rfl := Option.some.inj hv
      exact absurd (hf₀.aims hd).old (by omega)
    · exact absurd hd (by simp [Role.target])
    · obtain rfl := Option.some.inj hv
      exact absurd (hf₀.aims (held_target hd)).old (by omega)
    · exact absurd hd (by simp [Role.held])
  | infoStored hrole hrole' =>
    rw [hrole] at hapart
    rw [hrole']
    exact hapart.within ⟨fun _ h => h, fun _ h => h, fun _ h => h, fun _ h => h⟩
  | viewStored hrole hrole' =>
    rw [hrole] at hapart
    rw [hrole']
    exact hapart.within ⟨fun _ h => h, fun _ h => absurd h (by simp [Role.born]), fun _ h => h,
      fun _ h => h⟩
  | linked hrole hrole' => rw [hrole']; exact hapart.within (within_plain _)
  | viewAclStored hview hacl hrole hrole' => rw [hrole']; exact hapart.within (within_plain _)
  | @chosen _ d view h hplain hrole hview hid hsees =>
    -- a view that is there is none that is still to be written
    rw [hrole]
    refine ⟨fun v hv => absurd hv (by simp [Role.books]), fun v hv => absurd hv (by simp [Role.born]),
      fun v hv d' hd' heq => ?_, fun v hv => absurd hv (by simp [Role.books]),
      fun v hv d' hd' => absurd hd' (by simp [Role.held])⟩
    obtain rfl := Option.some.inj hd'
    exact hf₀.not_view hv (heq ▸ hid ▸ List.mem_map_of_mem hview)
  | @found d association hrole hrole' hmem hid =>
    -- a view from which something leads is none of which that is still to be written
    rw [hrole] at hapart
    rw [hrole']
    refine ⟨fun v hv => absurd hv (by simp [Role.books]), fun v hv => absurd hv (by simp [Role.born]),
      hapart.born', fun v hv => absurd hv (by simp [Role.books]), fun v hv d' hd' heq => ?_⟩
    obtain rfl := Option.some.inj hd'
    exact hf₀.not_linked hv (heq ▸ hid ▸ List.mem_map_of_mem hmem)
  | cut hrole hrole' => rw [hrole'.trans hrole.symm]; exact hapart
  | infoMissing hrole hrole' => rw [hrole']; exact hapart.within (within_plain _)
  | infoDropped hrole hrole' =>
    rw [hrole] at hapart
    rw [hrole']
    exact hapart.within ⟨fun _ h => h, fun _ h => h, fun _ h => h, fun _ h => h⟩
  | viewRemoved hrole hrole' => rw [hrole']; exact hapart.within (within_plain _)
  | viewMissing hrole hrole' => rw [hrole']; exact hapart.within (within_plain _)
  | aclRemoved hunused hrole hrole' => rw [hrole']; exact hapart.within (within_plain _)
  | zoneStored hview hrole hrole' => rw [hrole']; exact hapart.within (within_plain _)

/-! ### Views and their rows -/

/-- A view that leads to its row goes on doing so, or the call sees to it. -/
theorem RowChange.mirrored (h : RowChange e r r' e') (hf : r.Fits e) (hm : Mirrored e v) :
    Mirrored e' v ∨ r'.Covers e' v := by
  obtain ⟨hlinked, i, hi, hinfo⟩ := hm
  cases h with
  | kept h => exact Or.inl (h.mirrored ⟨hlinked, i, hi, hinfo⟩)
  | infoStored viewId info => exact Or.inl ⟨hlinked, i, hi, hasInfo_stored.mpr (Or.inl hinfo)⟩
  | viewStored view infoId => exact Or.inl ⟨hlinked, i, hi, hinfo⟩
  | linked viewId infoId => exact Or.inl ⟨linked_stored.mpr (Or.inl hlinked), i, hi, hinfo⟩
  -- a deletion takes the link first and the row next; in between it answers for the view itself
  | cut d infoId =>
    have hd : d.viewId = infoId + 1 := hf.1
    by_cases hv : v = d.viewId
    · obtain rfl : i = infoId := by omega
      exact Or.inr ⟨hv.symm, hinfo⟩
    · exact Or.inl ⟨linked_removed.mpr ⟨hlinked, hv⟩, i, hi, hinfo⟩
  | infoDropped d infoId =>
    have hd : d.viewId = infoId + 1 := hf.1
    by_cases hv : v = d.viewId
    · exact Or.inr hv.symm
    · have hne : i ≠ infoId := by omega
      exact Or.inl ⟨hlinked, i, hi, hasInfo_removed.mpr ⟨hinfo, hne⟩⟩
  | viewRemoved d => exact Or.inl ⟨hlinked, i, hi, hinfo⟩

/-- A view that another call sees to is still seen to. -/
theorem RowChange.covers {r₀ : Role} (h : RowChange e r r' e') (hf : r.Fits e) (hf₀ : r₀.Fits e)
    (hc : r₀.Covers e v) : r₀.Covers e' v ∨ r'.Covers e' v := by
  cases r₀ with
  | holding d₀ i =>
    obtain ⟨rfl, hinfo⟩ := hc
    cases h with
    | kept h => exact Or.inl ⟨rfl, h.hasInfo.mpr hinfo⟩
    | infoStored viewId info => exact Or.inl ⟨rfl, hasInfo_stored.mpr (Or.inl hinfo)⟩
    | infoDropped d infoId =>
      have hd : d.viewId = infoId + 1 := hf.1
      have hd₀ : d₀.viewId = i + 1 := hf₀.1
      by_cases hi : i = infoId
      · refine Or.inr ?_
        change d.viewId = d₀.viewId
        omega
      · exact Or.inl ⟨rfl, hasInfo_removed.mpr ⟨hinfo, hi⟩⟩
    | _ => exact Or.inl ⟨rfl, hinfo⟩
  | _ => exact Or.inl hc

/-- A view whose row the caller sees is found. -/
theorem findView_of_mem {ctx : Context} {view : View} {id : Nat} (hr : Rows e)
    (hmem : view ∈ e.world.db.views) (hid : view.id = id) (hsees : ctx.sees view.tenantId) :
    findView ctx (some id) e.world.db = .ok view :=
  Table.find_of_mem hr.viewIds hmem hid hsees

/-- What becomes of a view the call itself sees to. -/
theorem Effect.covers (h : Effect e t t' e') (hr : Rows e) (hf : t.role.Fits e)
    (hc : t.role.Covers e v) (hview : HasView e' v) : Mirrored e' v ∨ t'.role.Covers e' v := by
  -- a call that covers no view has nothing to lose
  have hplain : ∀ {r}, t.role = r → ¬ r.Covers e v → Mirrored e' v ∨ t'.role.Covers e' v :=
    fun hrole hnot => absurd (hrole ▸ hc) hnot
  cases h with
  | calm h hrole =>
    rcases hrole with hrole | ⟨-, hidle⟩
    · rw [hrole]
      exact Or.inr (h.kept.covers hc)
    · cases ht : t.role with
      | plain => exact hplain ht id
      | deleting d => exact hplain ht id
      | _ => rw [ht] at hidle; exact absurd hidle id
  | asked h hrole => exact hplain hrole id
  | infoStored hrole => exact hplain hrole id
  | viewStored hrole => exact hplain hrole id
  | linked hrole hrole' =>
    rw [hrole] at hf hc
    obtain rfl : _ = v := hc
    exact Or.inl ⟨linked_stored.mpr (Or.inr rfl), _, hf.1, hf.2.2.1⟩
  | viewAclStored hview hacl hrole => exact hplain hrole id
  | chosen h hrole => exact hplain hrole id
  | found hrole => exact hplain hrole id
  | cut hrole hrole' =>
    rw [hrole] at hc
    rw [hrole']
    exact Or.inr hc
  | infoMissing hrole hrole' hmissing =>
    -- an info that is missing mirrors no view, so there was nothing to cover
    rw [hrole] at hc
    obtain ⟨info, hinfo, hid⟩ := List.mem_map.mp hc.2
    exact absurd hid (hmissing info hinfo)
  | infoDropped hrole hrole' =>
    rw [hrole] at hc
    rw [hrole']
    exact Or.inr hc.1
  | viewRemoved hrole hrole' =>
    rw [hrole] at hc
    exact absurd hc.symm (hasView_removed.mp hview).2
  | viewMissing hrole hrole' hmissing =>
    -- the view is there and is seen, so it would have been found
    rw [hrole] at hc hf
    obtain rfl : _ = v := hc
    obtain ⟨view, hmem, hid⟩ := List.mem_map.mp hview
    exact absurd (hmissing.symm.trans (findView_of_mem hr hmem hid (hf.sees view hmem hid)))
      (by simp)
  | aclRemoved hunused hrole => exact hplain hrole id
  | zoneStored hview hrole => exact hplain hrole id

/-- A view that is there was there, or the call sees to it. -/
theorem RowChange.hasView (h : RowChange e r r' e') (hv : HasView e' v) :
    HasView e v ∨ r'.Covers e' v := by
  cases h with
  | kept h => exact Or.inl (h.hasView.mp hv)
  | viewStored view infoId =>
    rcases hasView_stored.mp hv with hv | rfl
    · exact Or.inl hv
    · exact Or.inr rfl
  | viewRemoved d => exact Or.inl (hasView_removed.mp hv).1
  | _ => exact Or.inl hv

/-! ### Zones and rows of `view_acl` -/

/-- A live zone that is there was there in the same view, or is a new one in a view. -/
theorem Effect.zone (h : Effect e t t' e') {z : Zone} (hz : z ∈ e'.world.db.zones)
    (hlive : z.deleted = false) :
    (∃ z₀ ∈ e.world.db.zones, z₀.deleted = false ∧ z₀.id = z.id ∧ z₀.viewId = z.viewId) ∨
      ∃ view ∈ e'.world.db.views, z.viewId = some view.id := by
  cases h with
  | calm h => exact Or.inl (h.zones z hz hlive)
  | asked h => exact Or.inl (h.zones z hz hlive)
  | chosen h => exact Or.inl (h.zones z hz hlive)
  | zoneStored hview =>
    rcases List.mem_append.mp hz with hz | hz
    · exact Or.inl ⟨z, hz, hlive, rfl, rfl⟩
    · obtain rfl := List.mem_singleton.mp hz
      exact Or.inr hview
  | _ => exact Or.inl ⟨z, hz, hlive, rfl, rfl⟩

/-- The zones the call is about to delete are gone, or it is still about to delete them. -/
theorem Effect.clears (h : Effect e t t' e') {z : Zone} (hz : z ∈ e'.world.db.zones)
    (hlive : z.deleted = false) (hc : t.clears z) : t'.clears z := by
  -- only a plain task has zones to delete, so most effects are not of such a call
  have hplain : ∀ {r : Role}, t.role = r → r ≠ .plain → t'.clears z := fun hrole hne =>
    absurd (hrole.symm.trans (plain_of_clears hc)) hne
  cases h with
  | calm h hrole hclears => exact hclears z hz hlive hc
  | asked h hrole hrole' hn hclears => exact absurd hc (hclears z)
  | viewAclStored hview hacl hrole hrole' hclears => exact absurd hc (hclears z)
  | chosen h hrole hrole' hview hid hsees hclears => exact absurd hc (hclears z)
  | aclRemoved hunused hrole hrole' hclears => exact absurd hc (hclears z)
  | zoneStored hview hrole hrole' hclears => exact absurd hc (hclears z)
  | infoStored hrole => exact hplain hrole (by simp)
  | viewStored hrole => exact hplain hrole (by simp)
  | linked hrole => exact hplain hrole (by simp)
  | found hrole => exact hplain hrole (by simp)
  | cut hrole => exact hplain hrole (by simp)
  | infoMissing hrole => exact hplain hrole (by simp)
  | infoDropped hrole => exact hplain hrole (by simp)
  | viewRemoved hrole => exact hplain hrole (by simp)
  | viewMissing hrole => exact hplain hrole (by simp)

/-- The view of a zone stays, or the call is about to delete the zone. -/
theorem Effect.view (h : Effect e t t' e') {z : Zone} {view : View}
    (hview : view ∈ e.world.db.views) (hz : z.viewId = some view.id) :
    view ∈ e'.world.db.views ∨ t'.clears z := by
  cases h with
  | calm h => exact Or.inl (h.views ▸ hview)
  | asked h => exact Or.inl (h.views ▸ hview)
  | chosen h => exact Or.inl (h.views ▸ hview)
  | viewStored => exact Or.inl (List.mem_append_left _ hview)
  | @viewRemoved d hrole hrole' hviewAcls hclears =>
    by_cases hid : view.id = d.viewId
    · exact Or.inr (hclears z (hz.trans (congrArg some hid)))
    · exact Or.inl (Table.mem_remove.mpr ⟨hview, hid⟩)
  | _ => exact Or.inl hview

/-- Rows of `view_acl` go on leading to views and to ACLs. -/
theorem Effect.viewAcls (h : Effect e t t' e') (hv : ViewAclsValid e) : ViewAclsValid e' := by
  -- a calm step adds no row of `view_acl`, and takes neither views nor ACLs
  have hcalm : ∀ {e'}, Calm e e' → ViewAclsValid e' := by
    intro e' h a ha
    obtain ⟨hview, acl, hacl, hid⟩ := hv a (h.viewAcls a ha)
    exact ⟨h.views ▸ hview, acl, h.acls acl hacl, hid⟩
  cases h with
  | calm h => exact hcalm h
  | asked h => exact hcalm h
  | chosen h => exact hcalm h
  | viewAclStored hview hacl =>
    intro a ha
    rcases List.mem_append.mp ha with ha | ha
    · exact hv a ha
    · obtain rfl := List.mem_singleton.mp ha
      exact ⟨hview, hacl⟩
  | viewStored =>
    intro a ha
    obtain ⟨⟨view, hview, hid⟩, hacl⟩ := hv a ha
    exact ⟨⟨view, List.mem_append_left _ hview, hid⟩, hacl⟩
  | viewRemoved hrole hrole' hviewAcls =>
    -- the view that goes is named by no row, by what the call knows of its rows
    intro a ha
    obtain ⟨⟨view, hview, hid⟩, hacl⟩ := hv a ha
    exact ⟨⟨view, Table.mem_remove.mpr ⟨hview, hid ▸ hviewAcls a ha⟩, hid⟩, hacl⟩
  | aclRemoved hunused =>
    intro a ha
    obtain ⟨hview, acl, hacl, hid⟩ := hv a ha
    exact ⟨hview, acl, Table.mem_remove.mpr ⟨hacl, hid ▸ hunused a ha⟩, hid⟩
  | _ => exact hv

/-! ## Every step -/

/-- **Every step that is clear to be taken keeps the invariant.** -/
theorem Sound.step {tasks : Nat → Task} {n : Nat} (hs : Sound e tasks)
    (h : Effect e (tasks n) t' e') : Sound e' (Function.update tasks n t') := by
  -- the task that acts is task `n`; for each part of the invariant, is it its own or another's?
  have hfits := hs.fits n
  have hself : Function.update tasks n t' n = t' := Function.update_self n t' tasks
  have hother : ∀ {m}, m ≠ n → Function.update tasks n t' m = tasks m := fun hm =>
    Function.update_of_ne hm t' tasks
  refine ⟨h.rowChange.rows hs.rows hfits, fun m => ?_, fun k m hkm => ?_, fun v hv => ?_,
    fun z hz hlive => ?_, h.viewAcls hs.viewAcls⟩
  · by_cases hm : m = n
    · rw [hm, hself]
      exact h.fits hs.rows hfits
    · rw [hother hm]
      exact h.rowChange.fits hfits (hs.fits m) (hs.apart n m (Ne.symm hm))
  · by_cases hk : k = n
    · subst hk
      rw [hself, hother (Ne.symm hkm)]
      exact h.apart (hs.fits m) (hs.apart k m hkm)
    · by_cases hm : m = n
      · subst hm
        rw [hself, hother hk]
        exact (h.apart (hs.fits k) (hs.apart m k (Ne.symm hkm))).symm
      · rw [hother hk, hother hm]
        exact hs.apart k m hkm
  · -- a view without its mirror is covered by a task: the one that acts, or another that still
    -- covers it
    have hown : t'.role.Covers e' v → Mirrored e' v ∨
        ∃ m, (Function.update tasks n t' m).role.Covers e' v := fun hc =>
      Or.inr ⟨n, by rw [hself]; exact hc⟩
    rcases h.rowChange.hasView hv with hold | hc
    · rcases hs.mirrored v hold with hm | ⟨m, hc⟩
      · rcases h.rowChange.mirrored hfits hm with hm | hc
        · exact Or.inl hm
        · exact hown hc
      · by_cases hm : m = n
        · subst hm
          rcases h.covers hs.rows hfits hc hv with hm | hc
          · exact Or.inl hm
          · exact hown hc
        · rcases h.rowChange.covers hfits (hs.fits m) hc with hc | hc
          · exact Or.inr ⟨m, by rw [hother hm]; exact hc⟩
          · exact hown hc
    · exact hown hc
  · -- a zone is of before, or has just been stored under a view that is there
    rcases h.zone hz hlive with ⟨z₀, hz₀, hlive₀, hid, hview₀⟩ | hview
    · rcases hs.zones z₀ hz₀ hlive₀ with ⟨view, hview, hzview⟩ | ⟨m, hc⟩
      · have hzview := hview₀.symm.trans hzview
        rcases h.view hview hzview with hview | hc
        · exact Or.inl ⟨view, hview, hzview⟩
        · exact Or.inr ⟨n, by rw [hself]; exact hc⟩
      · have hc := clears_congr hid hview₀ hc
        by_cases hm : m = n
        · subst hm
          exact Or.inr ⟨m, by rw [hself]; exact h.clears hz hlive hc⟩
        · exact Or.inr ⟨m, by rw [hother hm]; exact hc⟩
    · exact Or.inl hview

end

/-! ## What the calls have looked up -/

/-- There is an ACL `a`. -/
def HasAcl (e : Estate) (a : Nat) : Prop := a ∈ e.acls.map AclRow.id

/-- The view a call has found or written, and is about to name in a row of its own. -/
def Task.namesView : Task → Option Nat
  | .storeAssociation view _ (_ :: _) => some view.id
  | .storeViewAcls viewId (_ :: _) _ => some viewId
  | .findViewAcls _ next => next.namesView
  | .dropViewAcls _ next => next.namesView
  | .storeZone c => some c.viewId
  | _ => none

/-- The ACLs a call has found, and is about to name in rows of its own. -/
def Task.namesAcls : Task → List Nat
  | .storeInfo _ _ aclIds => aclIds
  | .storeView _ _ aclIds => aclIds
  | .storeAssociation _ _ aclIds => aclIds
  | .storeViewAcls _ aclIds _ => aclIds
  | .findViewAcls _ next => next.namesAcls
  | .dropViewAcls _ next => next.namesAcls
  | _ => []

/-- The view a call is about to delete, having looked for the rows of `view_acl` that name it. -/
def Task.deletesView : Task → Option Nat
  | .dropViewAcls _ next => next.deletesView
  | .findAssociation d => some d.viewId
  | .dropAssociations d _ => some d.viewId
  | .getInfo d _ => some d.viewId
  | .dropInfo d _ => some d.viewId
  | .raiseOthers d _ => some d.viewId
  | .removeView d => some d.viewId
  | _ => none

/-- The rows of `view_acl` it has found, and has still to delete. -/
def Task.pending : Task → List Nat
  | .dropViewAcls ids _ => ids
  | _ => []

/--
The ACL a call is about to delete, having found that no view uses it; or one that it creates
itself, and will take back as a step of the creation is going to fail.
-/
def Task.deletesAcl : Task → Option Nat
  | .findViewAcls _ next => next.deletesAcl
  | .dropViewAcls _ next => next.deletesAcl
  | .mirrorAcl _ failing aclId _ => if failing.isSome then some aclId else none
  | .takeBackAcl _ aclId => some aclId
  | .unmirrorAcl _ _ aclId => some aclId
  | .removeAcl _ _ aclId => some aclId
  | _ => none

/--
The next step of a call does not come between a look of another one and its write. A row is
not written that names what the other call has found unnamed and is about to delete, and no
view or ACL is deleted that the other call has found and is about to name.
-/
def Task.Yields (t other : Task) : Prop :=
  match t with
  | .storeViewAcls viewId (aclId :: _) _ =>
    other.deletesView ≠ some viewId ∧ other.deletesAcl ≠ some aclId
  | .removeView d => other.namesView ≠ some d.viewId
  | .takeBackAcl _ aclId => aclId ∉ other.namesAcls
  | .removeAcl _ _ aclId => aclId ∉ other.namesAcls
  | _ => True

/--
Who deletes the zones of a view that has gone sees all of them, and the deletion of each gets
through.
-/
def Task.Completes (e : Estate) : Task → Prop
  | .findZones d => ∀ z ∈ e.world.db.zones, z.deleted = false → z.viewId = some d.viewId →
    d.ctx.sees z.tenantId
  | .deleteZones d plan (zone :: _) =>
    (deleteZoneOfView d.ctx d.conf (plan 0) zone e.world).1 = .ok ()
  | _ => True

/-- The rows that a call looks for before it deletes a view are those that name this view. -/
def Task.Looks : Task → Prop
  | .findViewAcls viewId next => (∀ v ∈ next.deletesView, v = viewId) ∧ next.Looks
  | .dropViewAcls _ next => next.Looks
  | _ => True

/-- What a call has seen is still so. -/
structure Task.Known (e : Estate) (t : Task) : Prop where
  view : ∀ v ∈ t.namesView, HasView e v
  acls : ∀ a ∈ t.namesAcls, HasAcl e a
  looks : t.Looks
  rows : ∀ v ∈ t.deletesView, ∀ row ∈ e.world.db.viewAcls, row.viewId = v → row.id ∈ t.pending
  unused : ∀ a ∈ t.deletesAcl, ∀ row ∈ e.world.db.viewAcls, row.aclId ≠ a

/-- A call that is not about to name or to delete anything it has seen. -/
structure Task.Uncommitted (t : Task) : Prop where
  view : t.namesView = none
  acls : t.namesAcls = []
  looks : t.Looks
  rows : t.deletesView = none
  unused : t.deletesAcl = none

section

variable {e e' : Estate} {t t' t₀ : Task} {v a : Nat}

theorem Task.Uncommitted.known (h : t.Uncommitted) (e : Estate) : t.Known e where
  view v hv := by rw [h.view] at hv; exact absurd hv (by simp)
  acls a ha := by rw [h.acls] at ha; exact absurd ha (by simp)
  looks := h.looks
  rows v hv := by rw [h.rows] at hv; exact absurd hv (by simp)
  unused a ha := by rw [h.unused] at ha; exact absurd ha (by simp)

theorem uncommitted_done : Task.done.Uncommitted := ⟨rfl, rfl, trivial, rfl, rfl⟩

/-- **What a call has seen, and nobody has got in between, is what its next step needs.** -/
theorem ready_of_known (hk : t.Known e) (hc : t.Completes e) : t.Ready e := by
  cases t with
  | storeViewAcls viewId aclIds name =>
    cases aclIds with
    | nil => trivial
    | cons aclId aclIds =>
      obtain ⟨view, hview, hid⟩ := List.mem_map.mp (hk.view viewId rfl)
      obtain ⟨acl, hacl, hid'⟩ := List.mem_map.mp (hk.acls aclId List.mem_cons_self)
      exact ⟨⟨view, hview, hid⟩, acl, hacl, hid'⟩
  | removeView d =>
    intro row hrow hid
    exact absurd (hk.rows d.viewId rfl row hrow hid) List.not_mem_nil
  -- it was new when it was looked at, and nobody has named it since
  | takeBackAcl ctx aclId => exact hk.unused aclId rfl
  | removeAcl ctx failing aclId => exact hk.unused aclId rfl
  | storeZone c =>
    obtain ⟨view, hview, hid⟩ := List.mem_map.mp (hk.view c.viewId rfl)
    exact ⟨view, hview, hid⟩
  -- what a deletion still has to find, nobody could have looked up before
  | findZones d => exact hc
  | deleteZones d plan zones =>
    cases zones with
    | nil => trivial
    | cons zone zones => exact hc
  | _ => trivial

/-! ### What one step takes away and adds -/

theorem Effect.hasView (h : Effect e t t' e') (hv : HasView e v) :
    HasView e' v ∨ ∃ d, t = .removeView d ∧ d.viewId = v := by
  cases h with
  | calm h => exact Or.inl (h.kept.hasView.mpr hv)
  | asked h => exact Or.inl (h.kept.hasView.mpr hv)
  | chosen h => exact Or.inl (h.kept.hasView.mpr hv)
  | viewStored => exact Or.inl (hasView_stored.mpr (Or.inl hv))
  | @viewRemoved d _ _ _ _ hremoves =>
    by_cases hid : v = d.viewId
    · exact Or.inr ⟨d, hremoves, hid.symm⟩
    · exact Or.inl (hasView_removed.mpr ⟨hv, hid⟩)
  | _ => exact Or.inl hv

theorem Effect.hasAcl (h : Effect e t t' e') (ha : HasAcl e a) :
    HasAcl e' a ∨ t.removesAcl = some a := by
  have hcalm : ∀ {e'}, Calm e e' → HasAcl e' a := by
    intro e' h
    obtain ⟨acl, hacl, hid⟩ := List.mem_map.mp ha
    exact List.mem_map.mpr ⟨acl, h.acls acl hacl, hid⟩
  cases h with
  | calm h => exact Or.inl (hcalm h)
  | asked h => exact Or.inl (hcalm h)
  | chosen h => exact Or.inl (hcalm h)
  | @aclRemoved aclId _ _ _ _ hremoves =>
    by_cases hid : a = aclId
    · exact Or.inr (hid ▸ hremoves)
    · exact Or.inl (Table.mem_map_remove.mpr ⟨ha, hid⟩)
  | _ => exact Or.inl ha

theorem Effect.viewAcl (h : Effect e t t' e') {row : ViewAcl} (hrow : row ∈ e'.world.db.viewAcls) :
    row ∈ e.world.db.viewAcls ∨
      ∃ aclIds name, t = .storeViewAcls row.viewId (row.aclId :: aclIds) name := by
  cases h with
  | calm h => exact Or.inl (h.viewAcls row hrow)
  | asked h => exact Or.inl (h.viewAcls row hrow)
  | chosen h => exact Or.inl (h.viewAcls row hrow)
  | viewAclStored _ _ _ _ _ hnames =>
    rcases List.mem_append.mp hrow with hrow | hrow
    · exact Or.inl hrow
    · obtain rfl := List.mem_singleton.mp hrow
      exact Or.inr hnames
  | _ => exact Or.inl hrow

/-- Every identifier of an ACL has been given away. -/
theorem Effect.acl_lt (h : Effect e t t' e') (hlt : ∀ a, HasAcl e a → a < e.world.nextId) :
    ∀ a, HasAcl e' a → a < e'.world.nextId := by
  have hcalm : ∀ {e'}, Calm e e' → ∀ a, HasAcl e' a → a < e'.world.nextId := by
    intro e' h a ha
    obtain ⟨acl, hacl, rfl⟩ := List.mem_map.mp ha
    rcases h.newAcls acl hacl with hacl | hnew
    · exact Nat.lt_of_lt_of_le (hlt _ (List.mem_map_of_mem hacl)) h.nextId
    · exact hnew
  cases h with
  | calm h => exact hcalm h
  | asked h => exact hcalm h
  | chosen h => exact hcalm h
  | viewAclStored => exact fun a ha => Nat.lt_succ_of_lt (hlt a ha)
  | zoneStored => exact fun a ha => Nat.lt_succ_of_lt (hlt a ha)
  | aclRemoved => exact fun a ha => hlt a (Table.mem_map_remove.mp ha).1
  | _ => exact hlt

/-- **What a call has seen is still so after a step that yields to it.** -/
theorem Task.Known.after (hk : t₀.Known e) (h : Effect e t t' e') (hy : t.Yields t₀) :
    t₀.Known e' where
  view v hv := by
    rcases h.hasView (hk.view v hv) with hview | ⟨d, rfl, rfl⟩
    · exact hview
    · exact absurd hv hy
  acls a ha := by
    rcases h.hasAcl (hk.acls a ha) with hacl | hremoves
    · exact hacl
    · -- only the two steps that remove an ACL can have taken it, and neither takes one that is
      -- named
      cases t with
      | takeBackAcl ctx aclId =>
        obtain rfl := Option.some.inj hremoves
        exact absurd ha hy
      | removeAcl ctx failing aclId =>
        obtain rfl := Option.some.inj hremoves
        exact absurd ha hy
      | _ => exact absurd hremoves (by simp [Task.removesAcl])
  looks := hk.looks
  rows v hv row hrow hid := by
    rcases h.viewAcl hrow with hrow | ⟨aclIds, name, rfl⟩
    · exact hk.rows v hv row hrow hid
    · -- a new row of the view would come from a step that names the view
      exact absurd (hid ▸ hv) hy.1
  unused a ha row hrow := by
    rcases h.viewAcl hrow with hrow | ⟨aclIds, name, rfl⟩
    · exact hk.unused a ha row hrow
    · rintro rfl
      exact hy.2 ha

/-! ### What a call sees -/

/-- A step after which the call goes on with what it knew before, or ends. -/
theorem known_carry {α : Type} {m : AclCall α} {f : α → Task}
    (hrun : t.run = m >>= fun a => pure (f a)) (hready : t.Ready e) (hf : ∀ a, (f a).Known e)
    (hy : ∀ a, t.Yields (f a)) : (t.outcome e).1.Known (t.outcome e).2 := by
  have heffect := outcome_effect e hready
  rcases outcome_bind hrun e with ⟨a, e', -, ht⟩ | ⟨x, e', -, ht⟩
  · rw [ht] at heffect ⊢
    exact (hf a).after heffect (hy a)
  · rw [ht]
    exact uncommitted_done.known e'

/-- A step after which the call relies on nothing. -/
theorem known_uncommitted {α : Type} {m : AclCall α} {f : α → Task}
    (hrun : t.run = m >>= fun a => pure (f a)) (hf : ∀ a, (f a).Uncommitted) :
    (t.outcome e).1.Known (t.outcome e).2 := by
  rcases outcome_bind hrun e with ⟨a, e', -, ht⟩ | ⟨x, e', -, ht⟩
  · rw [ht]
    exact (hf a).known e'
  · rw [ht]
    exact uncommitted_done.known e'

/-- The ACLs whose names have been looked up are there. By induction on them. -/
theorem hasAcl_of_aclNames {ctx : Context} {aclIds : List Nat} :
    ∀ {names : List String} {e' : Estate}, aclNames ctx aclIds e = (.ok names, e') →
      ∀ a ∈ aclIds, HasAcl e a := by
  induction aclIds with
  | nil =>
    intro names e' _ a ha
    exact absurd ha List.not_mem_nil
  | cons aclId aclIds ih =>
    intro names e' h a ha
    unfold aclNames at h
    obtain ⟨acl, e₁, hget, hrest⟩ := bind_eq_ok.mp h
    obtain ⟨hfound, rfl⟩ := Prod.mk.inj hget
    obtain ⟨hmem, hid, -⟩ := Table.find_mem hfound
    rcases List.mem_cons.mp ha with rfl | ha
    · exact List.mem_map.mpr ⟨acl, hmem, hid⟩
    · obtain ⟨others, e₂, hothers, -⟩ := bind_eq_ok.mp hrest
      exact ih hothers a ha

theorem hasView_of_getView {ctx : Context} {viewId : Nat} {view : View} {w w' : World}
    (h : getView ctx (some viewId) w = (.ok view, w')) : viewId ∈ w.db.views.map View.id := by
  obtain ⟨hmem, hid, -⟩ := Table.find_mem (Prod.mk.inj h).1
  exact List.mem_map.mpr ⟨view, hmem, hid⟩

theorem known_createView (ctx : Context) (device : ViewDevice) (name : String)
    (aclIds : List Nat) (e : Estate) :
    ((Task.createView ctx device name aclIds).outcome e).1.Known
      ((Task.createView ctx device name aclIds).outcome e).2 := by
  have hrun : (Task.createView ctx device name aclIds).run =
      askNewView ctx device name aclIds >>= fun r => onWorld (beginView ctx name aclIds r) := rfl
  unfold Task.outcome
  rw [hrun]
  cases hask : askNewView ctx device name aclIds e with
  | mk r e₁ =>
    cases r with
    | error x =>
      rw [bind_error hask]
      exact uncommitted_done.known e₁
    | ok response =>
      rw [bind_ok hask]
      obtain ⟨acls, e₂, hnames, hread⟩ := bind_eq_ok.mp hask
      -- the look at the ACLs changes nothing
      have hstate : e₂ = e := (congrArg Prod.snd hnames).symm.trans (aclNames_state ctx aclIds e)
      obtain rfl : e₂ = e₁ := (Prod.mk.inj hread).2
      subst hstate
      show Task.Known _ (.storeInfo ⟨e₂.world.nextId + 1, some ctx.tenant, name⟩
        ⟨e₂.world.nextId, response.name, response.priority⟩ aclIds)
      refine ⟨fun v hv => absurd hv (by simp [Task.namesView]), fun a ha => ?_, trivial,
        fun v hv => absurd hv (by simp [Task.deletesView]),
        fun a ha => absurd ha (by simp [Task.deletesAcl])⟩
      exact hasAcl_of_aclNames hnames a ha

theorem known_updateView (ctx : Context) (refused : Bool) (viewId : Nat) (aclIds : List Nat)
    (e : Estate) : ((Task.updateView ctx refused viewId aclIds).outcome e).1.Known
      ((Task.updateView ctx refused viewId aclIds).outcome e).2 := by
  have hstate := askUpdatedView_state ctx refused viewId aclIds e
  rcases outcome_bind (t := .updateView ctx refused viewId aclIds)
      (f := fun _ => .findViewAcls viewId (.storeViewAcls viewId aclIds none)) rfl e with
    ⟨_, e', hr, ht⟩ | ⟨x, e', hr, ht⟩
  · rw [ht]
    rw [hr] at hstate
    obtain rfl : e' = e := hstate
    obtain ⟨_, e₁, hget, hrest⟩ := bind_eq_ok.mp hr
    obtain ⟨hfound, rfl⟩ := Prod.mk.inj hget
    obtain ⟨names, e₂, hnames, -⟩ := bind_eq_ok.mp hrest
    -- the call has looked its view up first
    have hview : HasView e' viewId := by
      cases hview : getView ctx (some viewId) e'.world with
      | mk r w =>
        cases r with
        | ok view => exact hasView_of_getView hview
        | error y => rw [hview] at hfound; exact absurd hfound (by simp)
    refine ⟨fun v hv => ?_, fun a ha => ?_, ⟨fun v hv => absurd hv (by simp [Task.deletesView]),
      trivial⟩, fun v hv => absurd hv (by simp [Task.deletesView]),
      fun a ha => absurd ha (by simp [Task.deletesAcl])⟩
    · cases aclIds with
      | nil => exact absurd hv (by simp [Task.namesView])
      | cons aclId aclIds =>
        obtain rfl : viewId = v := Option.some.inj hv
        exact hview
    · exact hasAcl_of_aclNames hnames a ha
  · rw [ht]
    exact uncommitted_done.known e'

theorem known_findViewAcls {viewId : Nat} {next : Task}
    (hk : (Task.findViewAcls viewId next).Known e) :
    ((Task.findViewAcls viewId next).outcome e).1.Known
      ((Task.findViewAcls viewId next).outcome e).2 := by
  show Task.Known e
    (.dropViewAcls ((e.world.db.viewAcls.filter fun a => a.viewId == viewId).map ViewAcl.id) next)
  refine ⟨hk.view, hk.acls, hk.looks.2, fun v hv row hrow hid => ?_, hk.unused⟩
  -- it has found all of the rows that name the view
  have hview : v = viewId := hk.looks.1 v hv
  exact List.mem_map_of_mem (List.mem_filter.mpr ⟨hrow, by simp [hid, hview]⟩)

theorem known_dropViewAcls {ids : List Nat} {next : Task}
    (hk : (Task.dropViewAcls ids next).Known e) :
    ((Task.dropViewAcls ids next).outcome e).1.Known
      ((Task.dropViewAcls ids next).outcome e).2 := by
  cases ids with
  | nil =>
    refine ⟨hk.view, hk.acls, hk.looks, fun v hv row hrow hid => ?_, hk.unused⟩
    exact absurd (hk.rows v hv row hrow hid) List.not_mem_nil
  | cons id ids =>
    show Task.Known (withDb e { e.world.db with
      viewAcls := Table.remove ViewAcl.id id e.world.db.viewAcls }) (.dropViewAcls ids next)
    refine ⟨hk.view, hk.acls, hk.looks, fun v hv row hrow hid => ?_, fun a ha row hrow => ?_⟩
    · obtain ⟨hrow, hne⟩ := Table.mem_remove.mp hrow
      exact (List.mem_cons.mp (hk.rows v hv row hrow hid)).resolve_left hne
    · exact hk.unused a ha row (Table.mem_remove.mp hrow).1

/-- An ACL that is created has a new identifier, which no row can name. -/
theorem known_createAcl (ctx : Context) (failing : Option Acls.AclSite) (acl : Acls.NewAcl)
    (response : Acls.AclResponse) (hvalid : ViewAclsValid e)
    (hlt : ∀ a, HasAcl e a → a < e.world.nextId) :
    ((Task.createAcl ctx failing acl response).outcome e).1.Known
      ((Task.createAcl ctx failing acl response).outcome e).2 := by
  rcases outcome_bind (t := .createAcl ctx failing acl response)
      (f := fun row : AclRow => .mirrorAcl ctx failing row.id response) rfl e with
    ⟨row, e', hr, ht⟩ | ⟨x, e', hr, ht⟩
  · rw [ht]
    rcases storeAcl_cases ctx failing acl e with ⟨y, e₁, hy, -⟩ | hok
    · rw [hy] at hr
      exact absurd (Prod.mk.inj hr).1 (by simp)
    · rw [hok] at hr
      obtain ⟨hrow, rfl⟩ := Prod.mk.inj hr
      obtain rfl := Except.ok.inj hrow
      refine ⟨fun v hv => absurd hv (by simp [Task.namesView]),
        fun a ha => absurd ha (by simp [Task.namesAcls]), trivial,
        fun v hv => absurd hv (by simp [Task.deletesView]), fun a ha named hnamed hid => ?_⟩
      -- it may have to take back the ACL, whose identifier is the one just given
      have hid' : a = e.world.nextId := by
        cases failing with
        | none => exact absurd ha (by simp [Task.deletesAcl])
        | some site => exact (Option.some.inj ha).symm
      obtain ⟨-, other, hother, hname⟩ := hvalid named hnamed
      have := hlt other.id (List.mem_map_of_mem hother)
      omega
  · rw [ht]
    exact uncommitted_done.known e'

theorem known_mirrorAcl {ctx : Context} {failing : Option Acls.AclSite} {aclId : Nat}
    {response : Acls.AclResponse} (hk : (Task.mirrorAcl ctx failing aclId response).Known e) :
    ((Task.mirrorAcl ctx failing aclId response).outcome e).1.Known
      ((Task.mirrorAcl ctx failing aclId response).outcome e).2 := by
  have heffect := outcome_effect (t := .mirrorAcl ctx failing aclId response) e trivial
  cases failing with
  | none => exact uncommitted_done.known _
  | some site =>
    have hback : (Task.takeBackAcl ctx aclId).Known e :=
      ⟨hk.view, hk.acls, trivial, hk.rows, fun a ha => hk.unused a ha⟩
    have hends : ((Task.mirrorAcl ctx (some site) aclId response).outcome e).1 = .done ∨
        ((Task.mirrorAcl ctx (some site) aclId response).outcome e).1 = .takeBackAcl ctx aclId := by
      cases site <;> first | exact Or.inl rfl | exact Or.inr rfl
    rcases hends with hdone | htaken
    · rw [hdone]
      exact uncommitted_done.known _
    · rw [htaken]
      exact hback.after heffect trivial

/-- The check of `delete_acl` is that no row names the ACL. -/
theorem known_deleteAcl (ctx : Context) (failing : Option Acls.AclSite) (aclId : Nat)
    (e : Estate) : ((Task.deleteAcl ctx failing aclId).outcome e).1.Known
      ((Task.deleteAcl ctx failing aclId).outcome e).2 := by
  rcases outcome_bind (t := .deleteAcl ctx failing aclId)
      (f := fun _ => .unmirrorAcl ctx failing aclId) rfl e with ⟨_, e', hr, ht⟩ | ⟨x, e', hr, ht⟩
  · rw [ht]
    obtain ⟨acl, e₁, hget, hrest⟩ := bind_eq_ok.mp hr
    obtain rfl : e = e₁ := (Prod.mk.inj hget).2
    obtain ⟨rows, e₂, hrows, hraise⟩ := bind_eq_ok.mp hrest
    rw [Acls.getAclViewAsso_apply] at hrows
    obtain ⟨hfound, rfl⟩ := Prod.mk.inj hrows
    obtain rfl := Except.ok.inj hfound
    cases hempty : (e.world.db.viewAcls.filter fun a => a.aclId == aclId).isEmpty with
    | false =>
      rw [hempty, Bool.not_false, raiseIf_true] at hraise
      exact absurd (Prod.mk.inj hraise).1 (by simp)
    | true =>
      -- the check has passed, and it saw every row of the table
      rw [hempty, Bool.not_true, raiseIf_false] at hraise
      obtain rfl : e = e' := (Prod.mk.inj hraise).2
      refine ⟨fun v hv => absurd hv (by simp [Task.namesView]),
        fun a ha => absurd ha (by simp [Task.namesAcls]), trivial,
        fun v hv => absurd hv (by simp [Task.deletesView]), fun a ha row hrow hid => ?_⟩
      obtain rfl : aclId = a := Option.some.inj ha
      have hmem : row ∈ e.world.db.viewAcls.filter fun a => a.aclId == aclId :=
        List.mem_filter.mpr ⟨hrow, by simp [hid]⟩
      rw [List.isEmpty_iff.mp hempty] at hmem
      exact absurd hmem List.not_mem_nil
  · rw [ht]
    exact uncommitted_done.known e'

/-- The look of `create_zone` is at the view its row will name. -/
theorem known_createZone (ctx : Context) (conf : Conf) (faults : ZoneFaults)
    (plan : Nat → ZoneFaults) (zone : NewZone) (e : Estate) :
    ((Task.createZone ctx conf faults plan zone).outcome e).1.Known
      ((Task.createZone ctx conf faults plan zone).outcome e).2 := by
  rcases outcome_onWorld (t := .createZone ctx conf faults plan zone) (f := fun c => .storeZone c)
      rfl e with ⟨c, w', hr, ht⟩ | ⟨x, w', hr, ht⟩
  · rw [ht]
    -- the view is the last thing that is looked at before the zone is stored
    have hview : c.viewId ∈ w'.db.views.map View.id := by
      obtain ⟨⟨parent, subzones⟩, w₁, hchecks, hrest⟩ := bind_eq_ok.mp hr
      dsimp only at hrest
      cases hgiven : (zone.owned ctx).viewId with
      | none =>
        rw [hgiven] at hrest
        exact absurd (Prod.mk.inj hrest).1 (by simp)
      | some viewId =>
        rw [hgiven] at hrest
        obtain ⟨view, w₂, hget, hpure⟩ := bind_eq_ok.mp hrest
        obtain ⟨hc, rfl⟩ := Prod.mk.inj hpure
        obtain rfl := Except.ok.inj hc
        obtain rfl : w₁ = w₂ := (Prod.mk.inj hget).2
        exact hasView_of_getView hget
    refine ⟨fun v hv => ?_, fun a ha => absurd ha (by simp [Task.namesAcls]), trivial,
      fun v hv => absurd hv (by simp [Task.deletesView]),
      fun a ha => absurd ha (by simp [Task.deletesAcl])⟩
    obtain rfl : c.viewId = v := Option.some.inj hv
    exact hview
  · rw [ht]
    exact uncommitted_done.known _

/-- **What every step of every call knows after it.** -/
theorem outcome_known (hk : t.Known e) (hready : t.Ready e) (hvalid : ViewAclsValid e)
    (hlt : ∀ a, HasAcl e a → a < e.world.nextId) : (t.outcome e).1.Known (t.outcome e).2 := by
  cases t with
  | done => exact uncommitted_done.known e
  | createView ctx device name aclIds => exact known_createView ctx device name aclIds e
  | storeInfo view info aclIds =>
    -- up to the association the call has named only what it has looked at
    exact known_carry (t := .storeInfo view info aclIds) (f := fun _ => .storeView view info aclIds)
      rfl hready (fun _ => ⟨hk.view, hk.acls, trivial, hk.rows, hk.unused⟩) fun _ => trivial
  | storeView view info aclIds =>
    -- from here on the view it will name is the one it has stored
    show Task.Known (withDb e { e.world.db with views := e.world.db.views ++ [view] })
      (.storeAssociation view info aclIds)
    refine ⟨fun v hv => ?_, hk.acls, trivial, hk.rows, hk.unused⟩
    cases aclIds with
    | nil => exact absurd hv (by simp [Task.namesView])
    | cons aclId aclIds =>
      obtain rfl : view.id = v := Option.some.inj hv
      exact hasView_stored.mpr (Or.inr rfl)
  | storeAssociation view info aclIds =>
    refine known_carry (t := .storeAssociation view info aclIds)
      (f := fun _ => .storeViewAcls view.id aclIds (some view.name)) rfl hready (fun _ => ?_)
      fun _ => trivial
    cases aclIds with
    | nil => exact ⟨hk.view, hk.acls, trivial, hk.rows, hk.unused⟩
    | cons aclId aclIds => exact ⟨hk.view, hk.acls, trivial, hk.rows, hk.unused⟩
  | storeViewAcls viewId aclIds name =>
    cases aclIds with
    | nil =>
      cases name with
      | none => exact uncommitted_done.known e
      | some name => exact Task.Uncommitted.known (t := .lowerOthers name) ⟨rfl, rfl, trivial, rfl, rfl⟩ e
    | cons aclId aclIds =>
      refine known_carry (t := .storeViewAcls viewId (aclId :: aclIds) name)
        (f := fun _ => .storeViewAcls viewId aclIds name) rfl hready (fun _ => ?_)
        fun _ => ⟨by simp [Task.deletesView], by simp [Task.deletesAcl]⟩
      refine ⟨fun v hv => hk.view v ?_, fun a ha => hk.acls a (List.mem_cons_of_mem _ ha), trivial,
        hk.rows, hk.unused⟩
      cases aclIds with
      | nil => exact absurd hv (by simp [Task.namesView])
      | cons other aclIds => exact hv
  | lowerOthers name =>
    exact known_uncommitted (t := .lowerOthers name) (f := fun _ => .done) rfl fun _ =>
      uncommitted_done
  | updateView ctx refused viewId aclIds => exact known_updateView ctx refused viewId aclIds e
  | deleteView refused d =>
    refine known_carry (t := .deleteView refused d)
      (f := fun _ => .findViewAcls d.viewId (.findAssociation d)) rfl hready (fun _ => ?_)
      fun _ => trivial
    exact ⟨hk.view, hk.acls, ⟨fun v hv => (Option.some.inj hv).symm, trivial⟩, hk.rows, hk.unused⟩
  | findViewAcls viewId next => exact known_findViewAcls hk
  | dropViewAcls ids next => exact known_dropViewAcls hk
  | findAssociation d =>
    exact known_carry (t := .findAssociation d) (f := fun a : ViewZdnsView => .dropAssociations d a.zdnsViewId)
      rfl hready (fun _ => ⟨hk.view, hk.acls, trivial, hk.rows, hk.unused⟩) fun _ => trivial
  | dropAssociations d infoId =>
    exact known_carry (t := .dropAssociations d infoId) (f := fun _ => .getInfo d infoId) rfl hready
      (fun _ => ⟨hk.view, hk.acls, trivial, hk.rows, hk.unused⟩) fun _ => trivial
  | getInfo d infoId =>
    exact known_carry (t := .getInfo d infoId) (f := fun info => .dropInfo d info) rfl hready
      (fun _ => ⟨hk.view, hk.acls, trivial, hk.rows, hk.unused⟩) fun _ => trivial
  | dropInfo d info =>
    exact known_carry (t := .dropInfo d info) (f := fun _ => .raiseOthers d info) rfl hready
      (fun _ => ⟨hk.view, hk.acls, trivial, hk.rows, hk.unused⟩) fun _ => trivial
  | raiseOthers d info =>
    exact known_carry (t := .raiseOthers d info) (f := fun _ => .removeView d) rfl hready
      (fun _ => ⟨hk.view, hk.acls, trivial, hk.rows, hk.unused⟩) fun _ => trivial
  | removeView d =>
    -- what follows names nothing that could be missing
    exact known_uncommitted (t := .removeView d) (f := fun _ => .findZones d) rfl fun _ =>
      ⟨rfl, rfl, trivial, rfl, rfl⟩
  | findZones d =>
    exact known_uncommitted (t := .findZones d) (f := fun zones => .deleteZones d d.plan zones) rfl
      fun _ => ⟨rfl, rfl, trivial, rfl, rfl⟩
  | deleteZones d plan zones =>
    cases zones with
    | nil => exact uncommitted_done.known e
    | cons zone zones =>
      exact known_uncommitted (t := .deleteZones d plan (zone :: zones))
        (f := fun _ => .deleteZones d (fun n => plan (n + 1)) zones) rfl fun _ =>
          ⟨rfl, rfl, trivial, rfl, rfl⟩
  | createAcl ctx failing acl response => exact known_createAcl ctx failing acl response hvalid hlt
  | mirrorAcl ctx failing aclId response => exact known_mirrorAcl hk
  | takeBackAcl ctx aclId =>
    exact known_uncommitted (t := .takeBackAcl ctx aclId) (f := fun _ => .done) rfl fun _ =>
      uncommitted_done
  | deleteAcl ctx failing aclId => exact known_deleteAcl ctx failing aclId e
  | unmirrorAcl ctx failing aclId =>
    exact known_carry (t := .unmirrorAcl ctx failing aclId) (f := fun _ => .removeAcl ctx failing aclId)
      rfl hready (fun _ => ⟨hk.view, hk.acls, trivial, hk.rows, hk.unused⟩) fun _ => trivial
  | removeAcl ctx failing aclId =>
    have hrun : (Task.removeAcl ctx failing aclId).run =
        (Acls.step failing .aclWrite >>= fun _ => Acls.deleteAclRow ctx aclId) >>= fun _ =>
          pure .done := by
      funext s
      rw [Exec.bind_assoc]
      rfl
    exact known_uncommitted hrun fun _ => uncommitted_done
  | createZone ctx conf faults plan zone => exact known_createZone ctx conf faults plan zone e
  | storeZone c =>
    exact known_uncommitted (t := .storeZone c) (f := fun zone => .actOnZone c zone) rfl fun _ =>
      ⟨rfl, rfl, trivial, rfl, rfl⟩
  | actOnZone c zone =>
    exact known_uncommitted (t := .actOnZone c zone) (f := fun _ => .furnishZone c zone.id) rfl
      fun _ => ⟨rfl, rfl, trivial, rfl, rfl⟩
  | furnishZone c zoneId =>
    exact known_uncommitted (t := .furnishZone c zoneId) (f := fun _ => .adoptZones c zoneId) rfl
      fun _ => ⟨rfl, rfl, trivial, rfl, rfl⟩
  | adoptZones c zoneId =>
    exact known_uncommitted (t := .adoptZones c zoneId) (f := fun _ => .done) rfl fun _ =>
      uncommitted_done
  | deleteZone ctx conf faults zoneId =>
    refine known_uncommitted (t := .deleteZone ctx conf faults zoneId)
      (f := fun zone => if ctx.abandon then .done else .undoZone ctx conf faults zone) rfl
      fun zone => ?_
    split
    · exact uncommitted_done
    · exact ⟨rfl, rfl, trivial, rfl, rfl⟩
  | undoZone ctx conf faults zone =>
    exact known_uncommitted (t := .undoZone ctx conf faults zone) (f := fun _ => .done) rfl fun _ =>
      uncommitted_done

end

/-! ## Runs -/

/-- The rows of `zdns_view_info_t` a view leads to. -/
def zdnsViewsOf (e : Estate) (view : View) : List ZdnsViewInfo :=
  (e.world.db.viewZdnsViews.filter fun a => a.viewId == view.id).flatMap fun a =>
    e.world.db.zdnsViewInfos.filter fun i => i.id == a.zdnsViewId

/-- All references lead somewhere, and those of a view to exactly one row. -/
structure References (e : Estate) : Prop where
  zones : ∀ z ∈ e.world.db.zones, z.deleted = false →
    ∃ view ∈ e.world.db.views, z.viewId = some view.id
  viewAcls : ViewAclsValid e
  zdnsViews : ∀ view ∈ e.world.db.views, (zdnsViewsOf e view).length = 1

/-- The services after some steps. -/
def Service.after (s : Service) : List ViewStep → Service
  | [] => s
  | step :: steps => (s.next step).after steps

/-- No call is under way. -/
def Service.Quiet (s : Service) : Prop := ∀ n, (s.tasks n).free

/--
The call at the place `n` may take its next step: it does not get between a look of another
call and its write, and completes what it does to the zones of a view.
-/
def Clear (s : Service) (n : Nat) : Prop :=
  (s.tasks n).Completes s.estate ∧ ∀ m, m ≠ n → (s.tasks n).Yields (s.tasks m)

/-- Every step of a run may be taken. -/
def ClearSteps (s : Service) : List ViewStep → Prop
  | [] => True
  | .start n request :: steps => ClearSteps (s.next (.start n request)) steps
  | .go n :: steps => Clear s n ∧ ClearSteps (s.next (.go n)) steps

theorem eq_done {t : Task} (h : t.free) : t = .done := by
  cases t with
  | done => rfl
  | _ => exact absurd h (by simp [Task.free])

theorem sound_init : Sound {} fun _ => .done where
  rows :=
    { viewIds := List.nodup_nil
      infoIds := List.nodup_nil
      associationIds := List.nodup_nil
      links := fun _ h => absurd h List.not_mem_nil
      views := fun _ h => absurd h List.not_mem_nil
      infos := fun _ h => absurd h List.not_mem_nil
      associations := fun _ h => absurd h List.not_mem_nil }
  fits _ := trivial
  apart _ _ _ :=
    { books := fun _ h => absurd h (by simp [Task.role, Role.books])
      born := fun _ h => absurd h (by simp [Task.role, Role.born])
      born' := fun _ h => absurd h (by simp [Task.role, Role.born])
      held := fun _ h => absurd h (by simp [Task.role, Role.books])
      held' := fun _ h => absurd h (by simp [Task.role, Role.books]) }
  mirrored _ h := absurd h List.not_mem_nil
  zones _ h := absurd h List.not_mem_nil
  viewAcls _ h := absurd h List.not_mem_nil

/-- A call that comes in knows nothing yet. -/
theorem effect_start (request : ViewRequest) (e : Estate) : Effect e .done request.task e := by
  refine .quiet (Calm.refl e) trivial ?_ fun _ h => h
  cases request <;> rfl

/-- The invariant of a run: what refers to what, and what each call has seen. -/
structure Orderly (s : Service) : Prop where
  sound : Sound s.estate s.tasks
  aclIds : ∀ a, HasAcl s.estate a → a < s.estate.world.nextId
  known : ∀ n, (s.tasks n).Known s.estate

/-- A call comes in, and has not seen anything. -/
theorem Orderly.start {s : Service} (h : Orderly s) (n : Nat) (request : ViewRequest) :
    Orderly (s.next (.start n request)) := by
  unfold Service.next
  dsimp only
  split
  · rename_i hfree
    have heffect : Effect s.estate (s.tasks n) request.task s.estate := by
      rw [eq_done hfree]
      exact effect_start request s.estate
    refine ⟨h.sound.step heffect, h.aclIds, fun m => ?_⟩
    by_cases hm : m = n
    · subst hm
      -- a call that has just come in relies on nothing it has seen
      have huncommitted : request.task.Uncommitted := by
        cases request <;> exact ⟨rfl, rfl, trivial, rfl, rfl⟩
      dsimp only
      rw [Function.update_self]
      exact huncommitted.known _
    · dsimp only
      rw [Function.update_of_ne hm]
      exact h.known m
  · exact h

/-- **A call takes a step that is clear**: the others have still seen what is so. -/
theorem Orderly.go {s : Service} (h : Orderly s) {n : Nat} (hclear : Clear s n) :
    Orderly (s.next (.go n)) := by
  have hready := ready_of_known (h.known n) hclear.1
  have heffect := outcome_effect s.estate hready
  refine ⟨h.sound.step heffect, heffect.acl_lt h.aclIds, fun m => ?_⟩
  unfold Service.next
  dsimp only
  by_cases hm : m = n
  · subst hm
    rw [Function.update_self]
    exact outcome_known (h.known m) hready h.sound.viewAcls h.aclIds
  · rw [Function.update_of_ne hm]
    exact (h.known m).after heffect (hclear.2 m hm)

/-- The invariant after a run, by induction on its steps. -/
theorem orderly_after {steps : List ViewStep} {s : Service} (hs : Orderly s)
    (h : ClearSteps s steps) : Orderly (s.after steps) := by
  induction steps generalizing s with
  | nil => exact hs
  | cons step steps ih =>
    cases step with
    | start n request => exact ih (hs.start n request) h
    | go n => exact ih (hs.go h.1) h.2

theorem orderly_init : Orderly {} where
  sound := sound_init
  aclIds _ h := absurd h List.not_mem_nil
  known _ := uncommitted_done.known _

/-- A view that leads to its row leads to one row only. -/
theorem zdnsViewsOf_length {e : Estate} (hr : Rows e) {view : View} (h : Mirrored e view.id) :
    (zdnsViewsOf e view).length = 1 := by
  obtain ⟨hlinked, i, hi, hinfo⟩ := h
  obtain ⟨a, ha, hid⟩ := List.mem_map.mp hlinked
  obtain ⟨info, hmem, rfl⟩ := List.mem_map.mp hinfo
  have hlink := hr.links a ha
  have hassociations : (e.world.db.viewZdnsViews.filter fun b => b.viewId == view.id) = [a] := by
    rw [← hid]
    exact Table.filter_key hr.associationIds ha
  have hinfos : (e.world.db.zdnsViewInfos.filter fun j => j.id == a.zdnsViewId) = [info] := by
    rw [show a.zdnsViewId = info.id by omega]
    exact Table.filter_key hr.infoIds hmem
  unfold zdnsViewsOf
  rw [hassociations, List.flatMap_singleton, hinfos]
  rfl

/--
**In every run in which nothing gets between a look and its write, the rows of `view_acl` lead
to views and ACLs at any time, and all references do whenever no call is under way**, as long
as who deletes a view sees its zones, and their deletions get through.
-/
theorem references_valid {steps : List ViewStep} (h : ClearSteps {} steps) :
    ViewAclsValid (Service.after {} steps).estate ∧
      ((Service.after {} steps).Quiet → References (Service.after {} steps).estate) := by
  have hs : Sound (Service.after {} steps).estate (Service.after {} steps).tasks :=
    (orderly_after orderly_init h).sound
  refine ⟨hs.viewAcls, fun hquiet => ⟨fun z hz hlive => ?_, hs.viewAcls, fun view hview => ?_⟩⟩
  · obtain ⟨view, hview, hid⟩ | ⟨n, hc⟩ := hs.zones z hz hlive
    · exact ⟨view, hview, hid⟩
    · rw [eq_done (hquiet n)] at hc
      exact absurd hc id
  · obtain hm | ⟨n, hc⟩ := hs.mirrored view.id (List.mem_map_of_mem hview)
    · exact zdnsViewsOf_length hs.rows hm
    · rw [eq_done (hquiet n)] at hc
      exact absurd hc id

/-! ## Two runs -/

section Sample

instance (t other : Task) : Decidable (t.Yields other) := by
  unfold Task.Yields
  split <;> infer_instance

instance (t : Task) (e : Estate) : Decidable (t.Completes e) := by
  unfold Task.Completes
  split <;> infer_instance

/-- The place a step is about. -/
def ViewStep.place : ViewStep → Nat
  | .start n _ => n
  | .go n => n

/-- Other places are left alone. -/
theorem next_tasks {step : ViewStep} {s : Service} {n : Nat} (h : step.place ≠ n) :
    (s.next step).tasks n = s.tasks n := by
  cases step with
  | start m request =>
    unfold Service.next
    dsimp only
    split
    · exact Function.update_of_ne (Ne.symm h) _ _
    · rfl
  | go m => exact Function.update_of_ne (Ne.symm h) _ _

theorem after_tasks {steps : List ViewStep} {n : Nat} (h : ∀ step ∈ steps, step.place ≠ n)
    (s : Service) : (s.after steps).tasks n = s.tasks n := by
  induction steps generalizing s with
  | nil => rfl
  | cons step steps ih =>
    exact (ih (fun step' hmem => h step' (List.mem_cons_of_mem step hmem)) _).trans
      (next_tasks (h step List.mem_cons_self))

/-- Only two places need to be looked at where no others are used. -/
theorem quiet_of_two {steps : List ViewStep} (h : ∀ step ∈ steps, step.place < 2)
    (h₀ : ((Service.after {} steps).tasks 0).free) (h₁ : ((Service.after {} steps).tasks 1).free) :
    (Service.after {} steps).Quiet := by
  intro n
  by_cases hn : n < 2
  · have hcases : n = 0 ∨ n = 1 := by omega
    rcases hcases with rfl | rfl
    · exact h₀
    · exact h₁
  · have hother : ∀ step ∈ steps, step.place ≠ n := by
      intro step hmem heq
      have := h step hmem
      omega
    rw [after_tasks hother]
    rfl

/-- The run is clear, as far as the first two places go. -/
def clearOfTwo (s : Service) : List ViewStep → Bool
  | [] => true
  | .start n request :: steps => clearOfTwo (s.next (.start n request)) steps
  | .go n :: steps =>
    decide ((s.tasks n).Completes s.estate) &&
      ((List.range 2).all fun m => m == n || decide ((s.tasks n).Yields (s.tasks m))) &&
      clearOfTwo (s.next (.go n)) steps

/-- Who has returned has nothing to be yielded to. -/
theorem yields_done (t : Task) : t.Yields .done := by
  cases t with
  | storeViewAcls viewId aclIds name =>
    cases aclIds with
    | nil => trivial
    | cons aclId aclIds => exact ⟨by simp [Task.deletesView], by simp [Task.deletesAcl]⟩
  | removeView d => simp [Task.Yields, Task.namesView]
  | takeBackAcl ctx aclId => simp [Task.Yields, Task.namesAcls]
  | removeAcl ctx failing aclId => simp [Task.Yields, Task.namesAcls]
  | _ => trivial

theorem clearSteps_of_two {steps : List ViewStep} (h : ∀ step ∈ steps, step.place < 2) :
    ∀ {s : Service}, (∀ m, 2 ≤ m → s.tasks m = .done) → clearOfTwo s steps = true →
      ClearSteps s steps := by
  induction steps with
  | nil => exact fun _ _ => trivial
  | cons step steps ih =>
    intro s hdone hclear
    have hplace := h step List.mem_cons_self
    have hrest : ∀ {s : Service}, (∀ m, 2 ≤ m → s.tasks m = .done) → clearOfTwo s steps = true →
        ClearSteps s steps := ih fun step' hmem => h step' (List.mem_cons_of_mem _ hmem)
    have hnext : ∀ m, 2 ≤ m → (s.next step).tasks m = .done := fun m hm =>
      (next_tasks (by omega)).trans (hdone m hm)
    cases step with
    | start n request => exact hrest hnext hclear
    | go n =>
      simp only [clearOfTwo, Bool.and_eq_true, decide_eq_true_iff, List.all_eq_true,
        List.mem_range, Bool.or_eq_true, beq_iff_eq] at hclear
      obtain ⟨⟨hcompletes, hyields⟩, hclear⟩ := hclear
      refine ⟨⟨hcompletes, fun m hm => ?_⟩, hrest hnext hclear⟩
      -- the other places are idle, and an idle call gets in nobody's way
      by_cases htwo : m < 2
      · exact (hyields m htwo).resolve_left hm
      · rw [hdone m (by omega)]
        exact yields_done _

/-- A device that does as it should. -/
def agreeing : ViewDevice := fun name _ => some ⟨name, 1⟩

/-- A zone for the view `2`. -/
def newZone (viewId : Nat) : NewZone where
  name := "example.com."
  tenantId := none
  type := .PRIMARY
  ttl := none
  serial := none
  viewId := some viewId

/--
A view is created for an ACL; a zone is put into it before the view leads to its row, and
the ACL cannot be deleted any more.
-/
def sampleSteps : List ViewStep :=
  .start 0 (.createAcl Sample.ctx none ⟨none, "a", .list ["10.0.0.0/8"]⟩ ⟨[], "a", "", "", none⟩) ::
    List.replicate 2 (.go 0) ++
  .start 0 (.createView Sample.ctx agreeing "v" [1]) :: List.replicate 3 (.go 0) ++
  .start 1 (.createZone Sample.ctx Sample.confNs .none (fun _ => .none) (newZone 4)) ::
    List.replicate 5 (.go 1) ++
  List.replicate 4 (.go 0) ++
  [.start 1 (.deleteAcl Sample.ctx none 1), .go 1]

theorem references_valid_sample :
    References (Service.after {} sampleSteps).estate ∧
      (Service.after {} sampleSteps).estate.world.db.views.map View.id = [4] ∧
      (Service.after {} sampleSteps).estate.world.db.zones.map Zone.viewId = [some 4] ∧
      (Service.after {} sampleSteps).estate.world.db.viewAcls.map ViewAcl.aclId = [1] :=
  ⟨(references_valid (clearSteps_of_two (by decide) (fun _ _ => rfl) (by decide +kernel))).2
      (quiet_of_two (by decide) (by decide +kernel) (by decide +kernel)),
    by decide +kernel, by decide +kernel, by decide +kernel⟩

/-- A tenant deletes a view in which somebody who may see everything has a zone. -/
def strandingSteps : List ViewStep :=
  .start 0 (.createView Sample.ctx agreeing "v" []) :: List.replicate 6 (.go 0) ++
  .start 0 (.createZone { tenant := "u", allTenants := true } Sample.confNs .none (fun _ => .none)
    (newZone 2)) :: List.replicate 5 (.go 0) ++
  .start 0 (.deleteView false ⟨Sample.ctx, Sample.confNs, fun _ => .none, 2⟩) ::
    List.replicate 11 (.go 0)

/-- **The zone stays, in a view that does not exist.** -/
theorem zone_left_stranded :
    (Service.after {} strandingSteps).Quiet ∧
      ¬ References (Service.after {} strandingSteps).estate := by
  refine ⟨quiet_of_two (by decide) (by decide +kernel) (by decide +kernel), fun h => ?_⟩
  have hzone : ∃ z ∈ (Service.after {} strandingSteps).estate.world.db.zones, z.deleted = false := by
    decide +kernel
  have hviews : (Service.after {} strandingSteps).estate.world.db.views = [] := by decide +kernel
  obtain ⟨z, hz, hlive⟩ := hzone
  obtain ⟨view, hview, -⟩ := h.zones z hz hlive
  rw [hviews] at hview
  exact absurd hview List.not_mem_nil

end Sample

end Views

end Designate
