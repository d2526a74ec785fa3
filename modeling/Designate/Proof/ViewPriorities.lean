import Designate.Central.Views
import Designate.Proof.ViewFrame
import Designate.Ranks

/-!
# The priorities of views

A new view has the first priority, and those there were move one down; when a view goes,
those behind it move one up. Both are loops that read the rows and write them back one at a
time. Carried along is the list of views, newest first, each with the row of
`zdns_view_info_t` that was written for it: the three tables are what that list says, and
the rows have their places in it as their priorities.
-/

namespace Designate

namespace Views

open Exec Ranks

variable {ctx : Context} {conf : Conf} {device : ViewDevice} {s s' : Estate} {w w' : World}

theorem updateDb_apply (f : Db → Db) (w : World) :
    updateDb f w = (.ok (), { w with db := f w.db }) := rfl

theorem findZones_apply (p : Zone → Bool) (w : World) :
    findZones ctx p w =
      (.ok (w.db.zones.filter fun z => p z && ctx.sees z.tenantId && !z.deleted), w) := rfl

/-! ## The loops -/

section Loops

variable (p : ZdnsViewInfo → Prop) [DecidablePred p] (g : ZdnsViewInfo → Nat)

/-- What a loop over the rows it has read does to the row of each. -/
def rewriting (i r : ZdnsViewInfo) : ZdnsViewInfo := if p i then { r with priority := g i } else r

/-- A row keeps its identifier and its name. -/
theorem rewriting_keeps (i r : ZdnsViewInfo) :
    (rewriting p g i r).id = r.id ∧ (rewriting p g i r).name = r.name := by
  unfold rewriting
  split <;> exact ⟨rfl, rfl⟩

/-- Rows that are read and written back one at a time. -/
theorem rewriteAll_apply (rows : List ZdnsViewInfo) (w : World) :
    Exec.forEach (fun i => if p i then updateZdnsViewInfo i.id (g i) else pure ()) rows w =
      (.ok (), { w with db := { w.db with
        zdnsViewInfos := rows.foldl (fun l i =>
          Table.update ZdnsViewInfo.id i.id (rewriting p g i) l) w.db.zdnsViewInfos } }) := by
  induction rows generalizing w with
  | nil => rfl
  | cons i rows ih =>
    unfold Exec.forEach
    by_cases hp : p i
    · have hstep : rewriting p g i = fun r => { r with priority := g i } := by
        funext r
        exact if_pos hp
      rw [if_pos hp, List.foldl_cons, hstep]
      exact ih _
    · have hid : Table.update ZdnsViewInfo.id i.id (rewriting p g i) w.db.zdnsViewInfos =
          w.db.zdnsViewInfos := Table.update_id fun r _ _ => if_neg hp
      rw [if_neg hp, List.foldl_cons, hid]
      exact ih _

/-- The rows are read in the order of their priorities, and that order does not matter. -/
theorem rewriteFound_apply (hids : (w.db.zdnsViewInfos.map ZdnsViewInfo.id).Nodup) :
    (findZdnsViewInfos >>= fun infos => Exec.forEach (fun i =>
        if p i then updateZdnsViewInfo i.id (g i) else pure ()) infos) w =
      (.ok (), { w with db := { w.db with
        zdnsViewInfos := w.db.zdnsViewInfos.map fun r => rewriting p g r r } }) := by
  have hread : findZdnsViewInfos w =
      (.ok (w.db.zdnsViewInfos.insertionSort ZdnsViewInfo.Before), w) := rfl
  have hkeep : ∀ i r, (rewriting p g i r).id = r.id := fun i r => (rewriting_keeps p g i r).1
  rw [bind_ok hread, rewriteAll_apply,
    Table.foldl_update_perm hkeep (List.perm_insertionSort _ _) hids]

end Loops

/-! ## The list of views -/

/-- A view with the row that was written for it. -/
abbrev Entry := View × ZdnsViewInfo

/-- The tables are those of a list of views, newest first. -/
structure Written (entries : List Entry) (w : World) : Prop where
  views : w.db.views = (entries.map Prod.fst).reverse
  associations : w.db.viewZdnsViews = (entries.map fun e => ⟨e.1.id, e.2.id⟩).reverse
  infos : w.db.zdnsViewInfos = (entries.map Prod.snd).reverse
  names : ∀ e ∈ entries, e.2.name = e.1.name
  viewIds : (entries.map fun e => e.1.id).Nodup
  infoIds : (entries.map fun e => e.2.id).Nodup
  fresh : ∀ e ∈ entries, e.1.id < w.nextId ∧ e.2.id < w.nextId

/-- The place of a view, as its row has it. -/
def Entry.rank (e : Entry) : Nat := e.2.priority

/-- The entry with its row rewritten. -/
def Entry.rewrite (p : ZdnsViewInfo → Prop) [DecidablePred p] (g : ZdnsViewInfo → Nat) (e : Entry) :
    Entry := (e.1, rewriting p g e.2 e.2)

namespace Written

variable {entries : List Entry}

theorem nodup_infos (h : Written entries w) : (w.db.zdnsViewInfos.map ZdnsViewInfo.id).Nodup := by
  rw [h.infos, List.map_reverse, List.nodup_reverse, List.map_map]
  exact h.infoIds

/-- The tables and the generator of identifiers are all that counts. -/
theorem congr (h : Written entries w) (hviews : w'.db.views = w.db.views)
    (hassociations : w'.db.viewZdnsViews = w.db.viewZdnsViews)
    (hinfos : w'.db.zdnsViewInfos = w.db.zdnsViewInfos) (hn : w.nextId ≤ w'.nextId) :
    Written entries w' where
  views := hviews.trans h.views
  associations := hassociations.trans h.associations
  infos := hinfos.trans h.infos
  names := h.names
  viewIds := h.viewIds
  infoIds := h.infoIds
  fresh e he := by
    have := h.fresh e he
    omega

theorem spares (h : Written entries w) (hs : w.Spares w') : Written entries w' := by
  have ht := hs.tables
  simp only [Db.viewTables, Prod.mk.injEq] at ht
  exact h.congr ht.1 ht.2.2.1 ht.2.2.2 hs.nextId

/-- A loop over the rows is one over the entries. -/
theorem rewrite (h : Written entries w) (p : ZdnsViewInfo → Prop) [DecidablePred p]
    (g : ZdnsViewInfo → Nat) :
    Written (entries.map (Entry.rewrite p g))
      { w with db := { w.db with
        zdnsViewInfos := w.db.zdnsViewInfos.map fun r => rewriting p g r r } } where
  views := by rw [h.views, List.map_map]; rfl
  associations := by
    rw [h.associations, List.map_map]
    refine congrArg List.reverse (List.map_congr_left fun e _ => ?_)
    rw [Function.comp_apply, Entry.rewrite, (rewriting_keeps p g e.2 e.2).1]
  infos := by
    change w.db.zdnsViewInfos.map _ = _
    rw [h.infos, List.map_reverse, List.map_map, List.map_map]
    rfl
  -- a rewriting touches neither the identifier nor the name of an info
  names e he := by
    obtain ⟨e₀, he₀, rfl⟩ := List.mem_map.mp he
    exact (rewriting_keeps p g e₀.2 e₀.2).2.trans (h.names e₀ he₀)
  viewIds := by rw [List.map_map]; exact h.viewIds
  infoIds := by
    rw [List.map_map]
    have heq : (fun e : Entry => e.2.id) ∘ Entry.rewrite p g = fun e => e.2.id := by
      funext e
      exact (rewriting_keeps p g e.2 e.2).1
    rw [heq]
    exact h.infoIds
  fresh e he := by
    obtain ⟨e₀, he₀, rfl⟩ := List.mem_map.mp he
    obtain ⟨hview, hinfo⟩ := h.fresh e₀ he₀
    exact ⟨hview, (rewriting_keeps p g e₀.2 e₀.2).1.symm ▸ hinfo⟩

end Written

/-! ## Creation -/

section Create

variable {entries : List Entry} {name : String} {aclIds : List Nat} {view : View}

variable (ctx) in
theorem aclNames_state (aclIds : List Nat) (s : Estate) : (aclNames ctx aclIds s).2 = s := by
  induction aclIds with
  | nil => rfl
  | cons aclId aclIds ih =>
    unfold aclNames
    have hget : Acls.getAcl ctx aclId s = (Acls.findAcl ctx aclId s, s) := rfl
    cases hfound : Acls.findAcl ctx aclId s with
    | error e => rw [bind_error (hget.trans (by rw [hfound]))]
    | ok acl =>
      rw [bind_ok (hget.trans (by rw [hfound]))]
      cases hnames : aclNames ctx aclIds s with
      | mk r s₁ =>
        rw [hnames] at ih
        cases r with
        | error e => rw [bind_error hnames]; exact ih
        | ok names => rw [bind_ok hnames]; exact ih

/-- What `create_view` writes down, once the device has answered. -/
def storeView (ctx : Context) (name : String) (response : ViewResponse) (aclIds : List Nat) :
    Call View := do
  let view ← createZdnsViewInfo ctx name response
  Exec.forEach (createViewAcl view.id) aclIds
  lowerOthers view.name
  pure view

theorem createView_ok (h : createView ctx device name aclIds s = (.ok view, s')) :
    ∃ acls response, device name acls = some response ∧
      storeView ctx name response aclIds s.world = (.ok view, s'.world) := by
  unfold createView at h
  -- the look at the ACLs changes nothing
  obtain ⟨acls, s₁, hnames, hrest⟩ := bind_eq_ok.mp h
  obtain rfl : s₁ = s := by
    have := aclNames_state ctx aclIds s
    rw [hnames] at this
    exact this
  obtain ⟨response, s₂, hanswer, hstore⟩ := bind_eq_ok.mp hrest
  -- the device has answered, and its answer is stored
  rw [read_apply] at hanswer
  obtain ⟨hresponse, rfl⟩ := Prod.mk.inj hanswer
  refine ⟨acls, response, ?_, ?_⟩
  · split at hresponse
    · rename_i answer hdevice
      rw [hdevice, Except.ok.inj hresponse]
    · exact absurd hresponse (by simp)
  · change onWorld (storeView ctx name response aclIds) s₁ = _ at hstore
    unfold onWorld at hstore
    obtain ⟨hresult, hstate⟩ := Prod.mk.inj hstore
    cases hrun : storeView ctx name response aclIds s₁.world with
    | mk r w' =>
      rw [hrun] at hresult hstate
      cases r with
      | error e => exact absurd hresult (by simp)
      | ok v =>
        rw [Except.ok.inj hresult, ← hstate]

/-- The row that is written for a new view. -/
def newInfo (name : String) (w : World) : ZdnsViewInfo := ⟨w.nextId, name, 1⟩

/-- The new view. -/
def newView (ctx : Context) (name : String) (w : World) : View :=
  ⟨w.nextId + 1, some ctx.tenant, name⟩

/-- The three rows of a new view. -/
def withView (ctx : Context) (name : String) (w : World) : World :=
  { w with
    nextId := w.nextId + 2
    db := { w.db with
      zdnsViewInfos := w.db.zdnsViewInfos ++ [newInfo name w]
      views := w.db.views ++ [newView ctx name w]
      viewZdnsViews := w.db.viewZdnsViews ++ [⟨w.nextId + 1, w.nextId⟩] } }

theorem Written.create (h : Written entries w) :
    Written ((newView ctx name w, newInfo name w) :: entries) (withView ctx name w) where
  views := by rw [List.map_cons, List.reverse_cons, ← h.views]; rfl
  associations := by rw [List.map_cons, List.reverse_cons, ← h.associations]; rfl
  infos := by rw [List.map_cons, List.reverse_cons, ← h.infos]; rfl
  names e he := by
    rcases List.mem_cons.mp he with rfl | he
    · rfl
    · exact h.names e he
  -- the identifiers are the next two, which no entry has
  viewIds := by
    rw [List.map_cons, List.nodup_cons]
    refine ⟨fun hmem => ?_, h.viewIds⟩
    obtain ⟨e, he, hid⟩ := List.mem_map.mp hmem
    have := h.fresh e he
    simp only [newView] at hid
    omega
  infoIds := by
    rw [List.map_cons, List.nodup_cons]
    refine ⟨fun hmem => ?_, h.infoIds⟩
    obtain ⟨e, he, hid⟩ := List.mem_map.mp hmem
    have := h.fresh e he
    simp only [newInfo] at hid
    omega
  fresh e he := by
    change e.1.id < w.nextId + 2 ∧ e.2.id < w.nextId + 2
    rcases List.mem_cons.mp he with rfl | he
    · simp only [newView, newInfo]
      omega
    · have := h.fresh e he
      omega

/-- The ACLs of a view are in a table of their own. -/
theorem Written.createViewAcls (h : Written entries w) (viewId : Nat) (aclIds : List Nat) :
    ∃ w', Exec.forEach (createViewAcl viewId) aclIds w = (.ok (), w') ∧ Written entries w' := by
  induction aclIds generalizing w with
  | nil => exact ⟨w, rfl, h⟩
  | cons aclId aclIds ih =>
    have hone : Written entries { w with
        nextId := w.nextId + 1
        db := { w.db with viewAcls := w.db.viewAcls ++ [⟨w.nextId, viewId, aclId⟩] } } :=
      h.congr rfl rfl rfl (Nat.le_succ _)
    obtain ⟨w', hrun, hwritten⟩ := ih hone
    exact ⟨w', hrun, hwritten⟩

theorem lowerOthers_eq (name : String) :
    lowerOthers name = findZdnsViewInfos >>= fun infos => Exec.forEach (fun i =>
      if ¬ i.name = name then updateZdnsViewInfo i.id (i.priority + 1) else pure ()) infos := by
  unfold lowerOthers
  simp only [ite_not]

/-- **A new view comes first, and the others move one place down.** -/
theorem Written.storeView (h : Written entries w) (hranked : Ranked Entry.rank entries)
    (hname : ∀ e ∈ entries, e.1.name ≠ name) {response : ViewResponse}
    (hresponse : response.name = name ∧ response.priority = 1)
    (hrun : storeView ctx name response aclIds w = (.ok view, w')) :
    ∃ info others, Written ((view, info) :: others) w' ∧
      Ranked Entry.rank ((view, info) :: others) ∧ others.map Prod.fst = entries.map Prod.fst ∧
      view.name = name := by
  have hstored : createZdnsViewInfo ctx name response w =
      (.ok (newView ctx name w), withView ctx name w) := by
    obtain ⟨name', priority⟩ := response
    obtain ⟨rfl, rfl⟩ := hresponse
    rfl
  unfold Views.storeView at hrun
  rw [bind_ok hstored] at hrun
  obtain ⟨w₁, hacls, hwritten⟩ := h.create.createViewAcls (newView ctx name w).id aclIds
  rw [bind_ok hacls, lowerOthers_eq,
    bind_ok (rewriteFound_apply _ (fun i => i.priority + 1) hwritten.nodup_infos)] at hrun
  obtain ⟨hview, hw'⟩ := Prod.mk.inj hrun
  obtain rfl := Except.ok.inj hview
  subst hw'
  have hrewritten := hwritten.rewrite (fun i => ¬ i.name = name) fun i => i.priority + 1
  -- the new one is passed over when the others are moved, as it has the name
  have hfirst : rewriting (fun i => ¬ i.name = name) (fun i => i.priority + 1)
      (newInfo name w) (newInfo name w) = newInfo name w := if_neg (by simp [newInfo])
  refine ⟨newInfo name w, entries.map (Entry.rewrite (fun i => ¬ i.name = name) fun i =>
    i.priority + 1), ?_, ?_, ?_, rfl⟩
  · rw [List.map_cons, Entry.rewrite, hfirst] at hrewritten
    exact hrewritten
  · refine hranked.push rfl fun e he => ?_
    have hother : ¬ e.2.name = name := fun heq => hname e he ((h.names e he).symm.trans heq)
    change (rewriting _ _ e.2 e.2).priority = e.2.priority + 1
    unfold rewriting
    rw [if_pos hother]
  · rw [List.map_map]
    rfl

end Create

/-! ## Deletion -/

section Delete

variable {entries l₁ l₂ : List Entry} {e : Entry} {refused : Bool} {plan : Nat → ZoneFaults}
  {viewId : Nat}

/-- The row of a view goes, and those behind it move one place up. -/
theorem deleteZdnsViewInfo_apply (h : Written (l₁ ++ e :: l₂) w) :
    deleteZdnsViewInfo e.1.id w = (.ok (), { w with db := { w.db with
      viewZdnsViews := Table.remove ViewZdnsView.viewId e.1.id w.db.viewZdnsViews
      zdnsViewInfos := (Table.remove ZdnsViewInfo.id e.2.id w.db.zdnsViewInfos).map fun r =>
        rewriting (fun i => e.2.priority < i.priority) (fun i => i.priority - 1) r r } }) := by
  have hmem : e ∈ l₁ ++ e :: l₂ := List.mem_append_right l₁ List.mem_cons_self
  have hassociations : (w.db.viewZdnsViews.map ViewZdnsView.viewId).Nodup := by
    rw [h.associations, List.map_reverse, List.nodup_reverse, List.map_map]
    exact h.viewIds
  have hassociation : (⟨e.1.id, e.2.id⟩ : ViewZdnsView) ∈ w.db.viewZdnsViews := by
    rw [h.associations, List.mem_reverse]
    exact List.mem_map.mpr ⟨e, hmem, rfl⟩
  have hinfo : e.2 ∈ w.db.zdnsViewInfos := by
    rw [h.infos, List.mem_reverse]
    exact List.mem_map_of_mem hmem
  have hfind₁ := Table.find?_of_mem hassociations hassociation
  have hfind₂ := Table.find?_of_mem h.nodup_infos hinfo
  have hids : ((Table.remove ZdnsViewInfo.id e.2.id w.db.zdnsViewInfos).map
      ZdnsViewInfo.id).Nodup := Table.remove_nodup h.nodup_infos
  unfold deleteZdnsViewInfo
  rw [bind_ok (a := ⟨e.1.id, e.2.id⟩) (by rw [read_apply, hfind₁]),
    bind_ok (updateDb_apply _ _), bind_ok (a := e.2) (by rw [read_apply, hfind₂]),
    bind_ok (updateDb_apply _ _)]
  exact rewriteFound_apply _ _ hids

/-- What `delete_view` leaves of the list, before it turns to the zones. -/
theorem Written.delete (h : Written (l₁ ++ e :: l₂) w) {viewAcls : List ViewAcl} {device : Device} :
    Written ((l₁ ++ l₂).map
        (Entry.rewrite (fun i => e.2.priority < i.priority) fun i => i.priority - 1))
      { w with
        device := device
        db := { w.db with
          viewAcls := viewAcls
          views := Table.remove View.id e.1.id w.db.views
          viewZdnsViews := Table.remove ViewZdnsView.viewId e.1.id w.db.viewZdnsViews
          zdnsViewInfos := (Table.remove ZdnsViewInfo.id e.2.id w.db.zdnsViewInfos).map fun r =>
            rewriting (fun i => e.2.priority < i.priority) (fun i => i.priority - 1) r r } } := by
  have hsub : ∀ d ∈ l₁ ++ l₂, d ∈ l₁ ++ e :: l₂ := by
    intro d hd
    rcases List.mem_append.mp hd with hd | hd
    · exact List.mem_append_left _ hd
    · exact List.mem_append_right _ (List.mem_cons_of_mem e hd)
  have hless : (l₁ ++ l₂).Sublist (l₁ ++ e :: l₂) :=
    List.Sublist.append_left (List.sublist_cons_self e l₂) l₁
  -- each of the three tables loses the row that came from `e`
  have hremove : ∀ {β : Type} (f : Entry → β) (key : β → Nat),
      ((l₁ ++ e :: l₂).map fun d => key (f d)).Nodup →
      Table.remove key (key (f e)) ((l₁ ++ e :: l₂).map f).reverse = ((l₁ ++ l₂).map f).reverse := by
    intro β f key hnodup
    have hsplit : ((l₁ ++ e :: l₂).map f).reverse =
        (l₂.map f).reverse ++ f e :: (l₁.map f).reverse := by simp
    rw [hsplit, Table.remove_middle]
    · simp
    · rw [← hsplit, List.map_reverse, List.nodup_reverse, List.map_map]
      exact hnodup
  have hwritten : Written (l₁ ++ l₂) { w with db := { w.db with
      views := Table.remove View.id e.1.id w.db.views
      viewZdnsViews := Table.remove ViewZdnsView.viewId e.1.id w.db.viewZdnsViews
      zdnsViewInfos := Table.remove ZdnsViewInfo.id e.2.id w.db.zdnsViewInfos } } := {
    views := by
      change Table.remove _ _ w.db.views = _
      rw [h.views]
      exact hremove Prod.fst View.id h.viewIds
    associations := by
      change Table.remove _ _ w.db.viewZdnsViews = _
      rw [h.associations]
      exact hremove (fun d => ⟨d.1.id, d.2.id⟩) ViewZdnsView.viewId h.viewIds
    infos := by
      change Table.remove _ _ w.db.zdnsViewInfos = _
      rw [h.infos]
      exact hremove Prod.snd ZdnsViewInfo.id h.infoIds
    names := fun d hd => h.names d (hsub d hd)
    viewIds := h.viewIds.sublist (hless.map _)
    infoIds := h.infoIds.sublist (hless.map _)
    fresh := fun d hd => h.fresh d (hsub d hd) }
  exact (hwritten.rewrite _ _).congr rfl rfl rfl (Nat.le_refl _)

/-- **When a view goes, those behind it move one place up.** -/
theorem Written.deleteView (h : Written entries w) (hranked : Ranked Entry.rank entries)
    (hrun : deleteView ctx conf refused plan viewId w = (.ok (), w')) :
    ∃ others, Written others w' ∧ Ranked Entry.rank others ∧
      others.map Prod.fst = (entries.map Prod.fst).filter fun v => v.id ≠ viewId := by
  unfold Designate.deleteView at hrun
  obtain ⟨view, w₁, hget, hrest⟩ := bind_eq_ok.mp hrun
  obtain ⟨hfound, rfl⟩ := Prod.mk.inj hget
  obtain ⟨hview, rfl, -⟩ := Table.find_mem hfound
  rw [h.views, List.mem_reverse] at hview
  obtain ⟨e, he, rfl⟩ := List.mem_map.mp hview
  -- the view found is somewhere in the list
  obtain ⟨l₁, l₂, rfl⟩ := List.append_of_mem he
  obtain ⟨_, w₂, hdevice, hrest⟩ := bind_eq_ok.mp hrest
  obtain ⟨device, rfl⟩ : ∃ device, w₂ = { w with device := device } := by
    cases refused with
    | true => exact absurd (congrArg Prod.fst hdevice) (by simp [deleteViewAction, bind_apply])
    | false => exact ⟨_, (congrArg Prod.snd hdevice).symm⟩
  rw [bind_ok (updateDb_apply _ _)] at hrest
  have hwritten : Written (l₁ ++ e :: l₂) { w with
      device := device
      db := { w.db with viewAcls := Table.remove ViewAcl.viewId e.1.id w.db.viewAcls } } :=
    h.congr rfl rfl rfl (Nat.le_refl _)
  rw [bind_ok (deleteZdnsViewInfo_apply hwritten), bind_ok (updateDb_apply _ _),
    bind_ok (findZones_apply _ _)] at hrest
  -- deleting its zones touches none of the tables here
  have hzones := World.Spares.of_run (World.Spares.deleteZonesOfView plan _) hrest
  refine ⟨_, h.delete.spares hzones, hranked.remove ?_, ?_⟩
  · intro d
    change (rewriting _ _ d.2 d.2).priority = if e.2.priority < d.2.priority then _ else _
    unfold rewriting
    split <;> rfl
  · have hids := h.viewIds
    have hremoved : Table.remove View.id e.1.id (l₁.map Prod.fst ++ e.1 :: l₂.map Prod.fst) =
        l₁.map Prod.fst ++ l₂.map Prod.fst :=
      Table.remove_middle (by simpa [Function.comp_def] using hids)
    rw [List.map_map, List.map_append, List.map_append, List.map_cons]
    exact hremoved.symm

end Delete

/-! ## Sequences of calls -/

/--
What a sequence of calls that return leads to from no views, with the live views, newest
first. No two of them ever have one name.
-/
inductive Reached : List View → Estate → Prop
  | init {s : Estate} (hviews : s.world.db.views = [])
      (hassociations : s.world.db.viewZdnsViews = []) (hinfos : s.world.db.zdnsViewInfos = []) :
      Reached [] s
  | create {live : List View} {s s' : Estate} {ctx : Context} {device : ViewDevice} {name : String}
      {aclIds : List Nat} {view : View} (h : Reached live s) (hdevice : Honest device)
      (hname : ∀ v ∈ live, v.name ≠ name)
      (hrun : createView ctx device name aclIds s = (.ok view, s')) : Reached (view :: live) s'
  | delete {live : List View} {s s' : Estate} {ctx : Context} {conf : Conf} {refused : Bool}
      {plan : Nat → ZoneFaults} {viewId : Nat} (h : Reached live s)
      (hrun : onWorld (deleteView ctx conf refused plan viewId) s = (.ok (), s')) :
      Reached (live.filter fun v => v.id ≠ viewId) s'

theorem onWorld_ok {α : Type} {m : Call α} {a : α} (h : onWorld m s = (.ok a, s')) :
    m s.world = (.ok a, s'.world) := by
  unfold onWorld at h
  obtain ⟨hresult, hstate⟩ := Prod.mk.inj h
  cases hrun : m s.world with
  | mk r w' =>
    rw [hrun] at hresult hstate
    cases r with
    | error e => exact absurd hresult (by simp)
    | ok b => rw [Except.ok.inj hresult, ← hstate]

/-- Every sequence of calls keeps the list of views. -/
theorem reached_written {live : List View} (h : Reached live s) :
    ∃ entries, Written entries s.world ∧ Ranked Entry.rank entries ∧
      entries.map Prod.fst = live := by
  -- by induction on the sequence: each call turns one list into the next
  induction h with
  | init hviews hassociations hinfos =>
    refine ⟨[], ⟨hviews, hassociations, hinfos, ?_, ?_, ?_, ?_⟩, ranked_nil, rfl⟩ <;> simp
  | create h hdevice hname hrun ih =>
    obtain ⟨entries, hwritten, hranked, hlive⟩ := ih
    obtain ⟨acls, response, hanswer, hstore⟩ := createView_ok hrun
    have hnew : ∀ e ∈ entries, e.1.name ≠ _ := fun e he =>
      hname e.1 (hlive ▸ List.mem_map_of_mem he)
    obtain ⟨info, others, hwritten', hranked', hothers, -⟩ :=
      hwritten.storeView hranked hnew (hdevice _ _ _ hanswer) hstore
    exact ⟨_, hwritten', hranked', by rw [List.map_cons, hothers, hlive]⟩
  | delete h hrun ih =>
    obtain ⟨entries, hwritten, hranked, hlive⟩ := ih
    obtain ⟨others, hwritten', hranked', hothers⟩ := hwritten.deleteView hranked (onWorld_ok hrun)
    exact ⟨others, hwritten', hranked', by rw [hothers, hlive]⟩

/--
**The rows of `zdns_view_info_t` say `1` of the newest view, `2` of the one before it, and
so on to the oldest**, and there is no other row.
-/
theorem priorities_newest_first {live : List View} (h : Reached live s) :
    s.world.db.views.Perm live ∧
      (s.world.db.zdnsViewInfos.map fun i => (i.name, i.priority)).Perm
        ((live.map View.name).zip (List.range' 1 live.length)) := by
  obtain ⟨entries, hwritten, hranked, rfl⟩ := reached_written h
  constructor
  · rw [hwritten.views]
    exact List.reverse_perm _
  · rw [hwritten.infos, List.map_reverse, List.map_map, List.map_map, List.length_map,
      ← hranked.map_eq, List.zip_map']
    refine (List.reverse_perm _).trans (List.Perm.of_eq (List.map_congr_left fun e he => ?_))
    rw [Function.comp_apply, Function.comp_apply, hwritten.names e he]
    rfl

section Sample

/-- A device that does as it should. -/
def sampleDevice : ViewDevice := fun name _ => some ⟨name, 1⟩

theorem honest_sampleDevice : Honest sampleDevice := by
  intro name acls response h
  obtain rfl := Option.some.inj h
  exact ⟨rfl, rfl⟩

/-- The state after three views have come and the second of them has gone. -/
def sampleEnd : Estate :=
  let ctx : Context := { tenant := "a" }
  let s := (createView ctx sampleDevice "east" [] {}).2
  let s := (createView ctx sampleDevice "west" [] s).2
  let s := (createView ctx sampleDevice "north" [] s).2
  (onWorld (deleteView ctx {} false (fun _ => ZoneFaults.none) 4) s).2

theorem priorities_newest_first_sample :
    sampleEnd.world.db.views.Perm [⟨6, some "a", "north"⟩, ⟨2, some "a", "east"⟩] ∧
      (sampleEnd.world.db.zdnsViewInfos.map fun i => (i.name, i.priority)).Perm
        [("north", 1), ("east", 2)] := by
  have hfirst := @Reached.create [] {} _ { tenant := "a" } sampleDevice "east" [] _
    (Reached.init rfl rfl rfl) honest_sampleDevice (by simp) rfl
  have hsecond := @Reached.create _ _ _ { tenant := "a" } sampleDevice "west" [] _ hfirst
    honest_sampleDevice (by decide) rfl
  have hthird := @Reached.create _ _ _ { tenant := "a" } sampleDevice "north" [] _ hsecond
    honest_sampleDevice (by decide) rfl
  have hend := @Reached.delete _ _ _ { tenant := "a" } {} false (fun _ => ZoneFaults.none) 4
    hthird rfl
  exact priorities_newest_first hend

end Sample

end Views

end Designate
