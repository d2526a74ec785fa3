import Mathlib.Data.Fintype.Defs
import Designate.Proof.Stable

/-!
# Recordsets below a zone cut

A name at or below a zone belongs to that zone, not to one above it. A new recordset is
checked against the zones stored as children of its own. Nothing is checked when it is
the zone that is new.
-/

namespace Designate

open Exec

variable {ctx : Context} {conf : Conf} {zone : Zone} {recordset : RecordSet} {record : Record}
  {w w' : World} {row : RecordRow}

/-- The name `name` is below the zone `above`. -/
def Below (name above : String) : Prop := Text.endsWith name ("." ++ above) = true

/-- The name is that of the zone or below it. -/
def AtOrBelow (name above : String) : Prop := name = above ∨ Below name above

instance (name above : String) : Decidable (Below name above) :=
  inferInstanceAs (Decidable (_ = true))

instance (name above : String) : Decidable (AtOrBelow name above) :=
  inferInstanceAs (Decidable (_ ∨ _))

/-- No recordset of a live zone is at or below a live zone of the same pool further down. -/
def World.NoCut (w : World) : Prop :=
  ∀ s ∈ w.db.recordsets, ∀ z ∈ w.db.zones, z.id = s.zoneId → z.deleted = false →
    ∀ c ∈ w.db.zones, c.deleted = false → c.poolId = z.poolId → Below c.name z.name →
      ¬ AtOrBelow s.name c.name

theorem Below.length {name above : String} (h : Below name above) :
    above.toList.length < name.toList.length := by
  have hle := (List.isSuffixOf_iff_suffix.mp h).length_le
  rw [String.toList_append, List.length_append] at hle
  have hdot : ".".toList.length = 1 := rfl
  omega

/-- A zone is not at or below the ones below it. -/
theorem Below.not_atOrBelow {name above : String} (h : Below name above) :
    ¬ AtOrBelow above name := by
  have hlt := h.length
  rintro (rfl | h')
  · omega
  · have hlt' := h'.length
    omega

/-! ## Steps that keep zones where they are -/

/--
The invariant; what the live zones are is `q`'s to say. A new zone has to be compared with the
live zones that were there when it was checked, which is why `q` is carried along with the rule
itself.
-/
structure Uncut (q : Nat → String → Nat → Prop) (w : World) : Prop where
  linked : w.Linked
  noCut : w.NoCut
  zones : ∀ z ∈ w.db.zones, z.deleted = false → q z.id z.name z.poolId

variable {q : Nat → String → Nat → Prop}

/-- Live zones and recordsets were so before, under the same names. -/
theorem Uncut.of_names (h : Uncut q w) (hl : w'.Linked)
    (hz : ∀ z' ∈ w'.db.zones, z'.deleted = false → ∃ z ∈ w.db.zones, z.deleted = false ∧
      z.id = z'.id ∧ z.name = z'.name ∧ z.poolId = z'.poolId)
    (hs : w'.db.recordsets.map RecordSetRow.place ⊆ w.db.recordsets.map RecordSetRow.place) :
    Uncut q w' := by
  refine ⟨hl, fun s' hs' z' hz' hid hlive c' hc' hclive hpool hbelow => ?_, fun z' hz' hlive => ?_⟩
  · obtain ⟨s, hsm, he⟩ := mem_of_map_subset hs hs'
    simp only [RecordSetRow.place, Prod.mk.injEq] at he
    obtain ⟨z, hzm, hzlive, hzid, hzname, hzpool⟩ := hz z' hz' hlive
    obtain ⟨c, hcm, hcl, -, hcname, hcpool⟩ := hz c' hc' hclive
    have hcut := h.noCut s hsm z hzm (hzid.trans (hid.trans he.2.1.symm)) hzlive c hcm hcl
      (hcpool.trans (hpool.trans hzpool.symm)) (by rw [hcname, hzname]; exact hbelow)
    rw [he.2.2.2.1, hcname] at hcut
    exact hcut
  · obtain ⟨z, hzm, hzlive, hzid, hzname, hzpool⟩ := hz z' hz' hlive
    have hq := h.zones z hzm hzlive
    rw [hzid, hzname, hzpool] at hq
    exact hq

/-- What may happen to zones: they keep their names, and those that are gone stay gone. -/
def cutScope : Scope where
  zone f := ∀ z, (f z).place = z.place ∧ (f z).name = z.name ∧ (f z).poolId = z.poolId ∧
    ((f z).deleted = false → z.deleted = false)
  fresh _ := False
  type _ := False
  settle _ := ⟨rfl, rfl, rfl, fun h => h⟩
  drop _ := ⟨rfl, rfl, rfl, fun h => absurd h (by simp [Zone.drop])⟩

theorem cutScope_serves (ctx : Context) : cutScope.Serves ctx where
  updates _ := ⟨fun _ => ⟨rfl, rfl, rfl, fun h => h⟩, fun _ => ⟨rfl, rfl, rfl, fun h => h⟩,
    fun _ _ _ => ⟨rfl, rfl, rfl, fun h => h⟩⟩
  deleting _ := ⟨rfl, rfl, rfl, fun h => h⟩
  status _ _ _ := ⟨rfl, rfl, rfl, fun h => h⟩

theorem same_zones (h : w'.db.zones = w.db.zones) :
    ∀ z' ∈ w'.db.zones, z'.deleted = false → ∃ z ∈ w.db.zones, z.deleted = false ∧
      z.id = z'.id ∧ z.name = z'.name ∧ z.poolId = z'.poolId :=
  fun z' hz hlive => ⟨z', h ▸ hz, hlive, rfl, rfl, rfl⟩

theorem uncut_steady (ctx : Context) (conf : Conf) (q : Nat → String → Nat → Prop) :
    Steady ctx conf cutScope (Uncut q) where
  linked h := h.linked
  still hs h := h.of_names (linked_stable.still hs h.linked) (same_zones hs.zones)
    (by rw [hs.recordsets]; exact List.Subset.refl _)
  insertZone _ _ hz := hz.elim
  -- a change keeps name and pool, and brings no zone back
  updateZone {w f} id h hf := by
    refine h.of_names ((linked_steady ctx conf).updateZone id h.linked fun z => (hf z).1)
      (fun z' hz' hlive => ?_) (List.Subset.refl _)
    rcases Table.mem_update.mp hz' with ⟨hm, -⟩ | ⟨z, hm, -, rfl⟩
    · exact ⟨z', hm, hlive, rfl, rfl, rfl⟩
    · obtain ⟨hplace, hname, hpool, hdel⟩ := hf z
      exact ⟨z, hm, hdel hlive, (congrArg Prod.fst hplace).symm, hname.symm, hpool.symm⟩
  insertRecordset _ _ ht _ := ht.elim
  deleteRecordset {_ id _} h _ := h.of_names (h.linked.withoutRecordset id) (same_zones rfl)
    (List.map_subset _ (List.filter_subset_self _))
  insert h hp hstores := h.of_names ((linked_steady ctx conf).insert h.linked hp hstores)
    (same_zones rfl) (List.Subset.refl _)
  write h hr hf hh := h.of_names ((linked_steady ctx conf).write h.linked hr hf hh)
    (same_zones rfl) (List.Subset.refl _)
  drop h hr := h.of_names ((linked_steady ctx conf).drop h.linked hr) (same_zones rfl)
    (List.Subset.refl _)

theorem uncut_stable (q : Nat → String → Nat → Prop) : Stable (Uncut q) where
  linked h := h.linked
  still hs h := h.of_names (linked_stable.still hs h.linked) (same_zones hs.zones)
    (by rw [hs.recordsets]; exact List.Subset.refl _)
  write new h hm hp hu := h.of_names (linked_stable.write new h.linked hm hp hu) (same_zones rfl)
    (List.Subset.refl _)
  drop id h := h.of_names (linked_stable.drop id h.linked) (same_zones rfl) (List.Subset.refl _)

theorem uncut_ignoresStaying : IgnoresStaying ctx conf (Uncut q) := fun _ _ _ h hr hs =>
  h.of_names (h.linked.write hr hs) (same_zones rfl) (List.Subset.refl _)

/-! ## What is inserted -/

/-- A recordset that is not at or below a zone under its own. -/
theorem Uncut.withRecordset (h : Uncut q w) (recordset : NewRecordSet)
    (hz : findZone ctx zone.id w.db = .ok zone)
    (hfree : ∀ c ∈ w.db.zones, c.deleted = false → c.poolId = zone.poolId →
      Below c.name zone.name → ¬ AtOrBelow recordset.name c.name) :
    Uncut q (w.withRecordsetRow (recordset.row zone w.nextId)) := by
  obtain ⟨hm, -, -, -⟩ := findZone_mem hz
  refine ⟨h.linked.withRecordsetRow rfl ⟨zone, hm, rfl, rfl⟩,
    fun s hs z hzm hid hlive c hc hclive hpool hbelow => ?_, h.zones⟩
  rcases List.mem_append.mp hs with hs | hs
  · exact h.noCut s hs z hzm hid hlive c hc hclive hpool hbelow
  · rw [List.mem_singleton.mp hs] at hid ⊢
    obtain rfl : z = zone := Table.eq_of_key h.linked.zoneIds hzm hm hid
    exact hfree c hc hclive hpool hbelow

/-- A new zone that no recordset above is in. -/
theorem Uncut.withZone (h : Uncut q w) {z : Zone} (hid : z.id = w.nextId)
    (hq : q z.id z.name z.poolId)
    (hfree : ∀ s ∈ w.db.recordsets, ∀ p ∈ w.db.zones, p.id = s.zoneId → p.deleted = false →
      p.poolId = z.poolId → Below z.name p.name → ¬ AtOrBelow s.name z.name) :
    Uncut q (w.withZone z) := by
  refine ⟨h.linked.withZone hid,
    fun s hs p hp hpid hlive c hc hclive hpool hbelow => ?_, fun z' hz' hlive => ?_⟩
  · rcases List.mem_append.mp hp with hp | hp
    · rcases List.mem_append.mp hc with hc | hc
      · exact h.noCut s hs p hp hpid hlive c hc hclive hpool hbelow
      · rw [List.mem_singleton.mp hc] at hpool hbelow ⊢
        exact hfree s hs p hp hpid hlive hpool.symm hbelow
    · -- nothing is in the new zone yet
      rw [List.mem_singleton.mp hp, hid] at hpid
      obtain ⟨z₀, hz₀, he, -⟩ := h.linked.zone s hs
      have hlt := h.linked.zones z₀ hz₀
      omega
  · rcases List.mem_append.mp hz' with hz' | hz'
    · exact h.zones z' hz' hlive
    · rw [List.mem_singleton.mp hz']
      exact hq

/-! ## Requests -/

/-- A recordset that was let through is in no zone stored as a child of its own. -/
theorem isValidRecordsetPlacementSubzone_ok {name : String}
    (hname : isValidRecordsetName conf zone.name name = .ok ())
    (h : isValidRecordsetPlacementSubzone conf zone name w.db = .ok ()) (hne : name ≠ zone.name)
    {d : Zone} (hd : d ∈ w.db.zones) (hlive : d.deleted = false)
    (hparent : d.parentZoneId = some zone.id) : ¬ AtOrBelow name d.name := by
  intro hbelow
  unfold isValidRecordsetPlacementSubzone at h
  rw [if_neg (Ne.symm hne)] at h
  split at h
  · exact absurd h (by simp)
  rename_i hnone
  refine hnone (List.any_eq_true.mpr ⟨d, List.mem_filter.mpr ⟨hd, by simp [hparent, hlive]⟩, ?_⟩)
  -- the name has passed for its own zone what it has to pass for any
  unfold isValidRecordsetName at hname ⊢
  split at hname
  · exact absurd hname (by simp)
  rename_i hdot
  split at hname
  · exact absurd hname (by simp)
  rename_i hlen
  have hin : ¬ (name ≠ d.name ∧ (!Text.endsWith name ("." ++ d.name)) = true) := by
    rintro ⟨hne', hnot⟩
    rcases hbelow with he | hb
    · exact hne' he
    · rw [Below] at hb
      rw [hb] at hnot
      exact absurd hnot (by simp)
  rw [if_neg hdot, if_neg hlen, if_neg hin]
  rfl

/--
The request cuts nothing off: a zone that is created has no recordsets of zones above in
it, nor its own name server's address in a zone below, and where a recordset belongs to
a zone below its own, it belongs to one stored as a child.
-/
def Input.CutsNothing (conf : Conf) (input : Input) (w : World) : Prop :=
  match input.request with
  | .createZone _ _ zone =>
    (createZoneChecks input.ctx conf (zone.owned input.ctx) w).1.toOption.isSome = true →
      (∀ s ∈ w.db.recordsets, ∀ p ∈ w.db.zones, p.id = s.zoneId → p.deleted = false →
        p.poolId = conf.poolId → Below zone.name p.name → ¬ AtOrBelow s.name zone.name) ∧
      ∀ c ∈ w.db.zones, c.deleted = false → c.poolId = conf.poolId → Below c.name zone.name →
        ¬ AtOrBelow ("ns." ++ zone.name) c.name
  | .createRecordset _ zoneId name _ _ _ _ =>
    ∀ p ∈ w.db.zones, p.id = zoneId → p.deleted = false →
      ∀ c ∈ w.db.zones, c.deleted = false → c.poolId = p.poolId → Below c.name p.name →
        AtOrBelow name c.name →
        ∃ d ∈ w.db.zones, d.deleted = false ∧ d.parentZoneId = some p.id ∧ AtOrBelow name d.name
  | _ => True

instance (conf : Conf) (input : Input) (w : World) : Decidable (input.CutsNothing conf w) := by
  unfold Input.CutsNothing
  split <;> infer_instance

/-- Creating a recordset, with its records. -/
theorem createRecordset_uncut (h : Uncut q w) {zoneId : Nat} (plan : Nat → Faults)
    {recordset : NewRecordSet}
    (hchild : ∀ p ∈ w.db.zones, p.id = zoneId → p.deleted = false →
      ∀ c ∈ w.db.zones, c.deleted = false → c.poolId = p.poolId → Below c.name p.name →
        AtOrBelow recordset.name c.name → ∃ d ∈ w.db.zones, d.deleted = false ∧
          d.parentZoneId = some p.id ∧ AtOrBelow recordset.name d.name) :
    Uncut q (createRecordset ctx conf plan zoneId recordset w).2 := by
  have hI := uncut_steady ctx conf q
  have hdel : Removable (Uncut q) := fun _ id h => h.of_names (h.linked.withoutRecordset id)
    (same_zones rfl) (List.map_subset _ (List.filter_subset_self _))
  refine (uncut_stable q).createRecordset hdel plan h fun zone hz hid hs => ?_
  obtain ⟨hm, -, -, hlive⟩ := findZone_mem hz
  obtain ⟨hname, -, hsub, -⟩ := validateRecordset_ok hs.2.1
  have hnew := h.withRecordset recordset hz fun c hc hclive hpool hbelow hat => ?_
  · exact (hI.createAll zone (RecordSet.ofRow (recordset.row zone w.nextId) recordset.records) plan
      recordset.records _ ⟨hnew, _, List.mem_append_right _ (List.mem_singleton_self _), rfl, rfl⟩).1
  · -- the apex is below no subzone; below it, the check has compared the name with every child
    by_cases hne : recordset.name = zone.name
    · exact hbelow.not_atOrBelow (hne ▸ hat)
    · obtain ⟨d, hd, hdlive, hparent, hdat⟩ := hchild zone hm hid hlive c hc hclive hpool hbelow hat
      exact isValidRecordsetPlacementSubzone_ok hname hsub hne hd hdlive hparent hdat

/-- What is known of the zones while the zone `id` is being created. -/
def Creating (conf : Conf) (id : Nat) (name : String) (zoneId : Nat) (zoneName : String)
    (poolId : Nat) : Prop :=
  (zoneId = id → zoneName = name ∧ poolId = conf.poolId) ∧
    (poolId = conf.poolId → Below zoneName name → ¬ AtOrBelow ("ns." ++ name) zoneName)

/-- Before it is there, nothing is known of the zone itself. -/
theorem Uncut.creating {name : String} (h : Uncut (fun _ _ _ => True) w)
    (hns : ∀ c ∈ w.db.zones, c.deleted = false → c.poolId = conf.poolId → Below c.name name →
      ¬ AtOrBelow ("ns." ++ name) c.name) : Uncut (Creating conf w.nextId name) w := by
  refine ⟨h.linked, h.noCut, fun c hc hlive => ⟨fun hid => ?_, hns c hc hlive⟩⟩
  have hlt := h.linked.zones c hc
  omega

theorem Uncut.mono {q' : Nat → String → Nat → Prop} (h : Uncut q w)
    (hq : ∀ id name poolId, q id name poolId → q' id name poolId) : Uncut q' w :=
  ⟨h.linked, h.noCut, fun z hz hlive => hq _ _ _ (h.zones z hz hlive)⟩

/-- The default records of the new zone. -/
theorem createDefaultRecord_uncut {id : Nat} {name : String} (h : Uncut (Creating conf id name) w)
    (hz : findZone ctx zone.id w.db = .ok zone) (hid : zone.id = id) :
    Uncut (Creating conf id name) (createDefaultRecord ctx conf zone w).2 := by
  refine (uncut_stable _).createDefaultRecord (fun w name' type data hname _ h hz hs => ?_) h hz
  have hstored := h.withRecordset
    { name := name', type := type, ttl := some zone.ttl, description := none
      records := [Record.newManaged data] } hz fun c hc hclive hpool hbelow hat => ?_
  · refine ⟨fun w => Uncut (Creating conf id name) w ∧ w.Linked ∧ Placed zone.id _ w,
      (uncut_stable _).and (Stable.placed zone.id _), fun _ h => h.1,
      ⟨hstored, hstored.linked, _, List.mem_append_right _ (List.mem_singleton_self _), rfl, rfl⟩,
      fun w' record row _ hJ hstores => ?_⟩
    have hnew := (uncut_steady ctx conf _).insert hJ.1 hJ.2.2 hstores
    exact ⟨hnew, hnew.linked, hJ.2.2⟩
  · obtain ⟨hm, -, -, hlive⟩ := findZone_mem hz
    obtain ⟨hzname, hzpool⟩ := (h.zones zone hm hlive).1 hid
    rcases hname with rfl | rfl
    · exact hbelow.not_atOrBelow hat
    · rw [hzname] at hat hbelow
      exact (h.zones c hc hclive).2 (hpool.trans hzpool) hbelow hat

/-- Creating a zone, with its default records, and taking over the zones below. -/
theorem createZone_uncut (h : Uncut (fun _ _ _ => True) w) {zone : NewZone} {faults : ZoneFaults}
    {plan : Nat → ZoneFaults}
    (hcuts : Input.CutsNothing conf ⟨ctx, .createZone faults plan zone⟩ w) :
    Uncut (fun _ _ _ => True) (createZone ctx conf faults plan zone w).2 := by
  unfold Designate.createZone
  have hstate := createZoneChecks_state ctx conf (zone.owned ctx) w
  cases hrun : createZoneChecks ctx conf (zone.owned ctx) w with
  | mk res w₁ =>
    obtain rfl : w₁ = w := by rw [hrun] at hstate; exact hstate
    cases res with
    | error e => rw [bind_error hrun]; exact h
    | ok p =>
      obtain ⟨parent, subzones⟩ := p
      obtain ⟨habove, hns⟩ := hcuts (by rw [hrun]; rfl)
      rw [bind_ok hrun]
      dsimp only
      cases (zone.owned ctx).viewId with
      | none => exact h
      | some viewId =>
        refine Keeps.look h fun _ _ => ?_
        rcases createZoneInStorage_cases ctx conf (zone.owned ctx) viewId parent w₁ with
          ⟨e, he⟩ | hok
        · have hstill : World.Still w₁ { w₁ with nextId := w₁.nextId + 1 } :=
            ⟨rfl, rfl, rfl, Nat.le_succ _⟩
          rw [bind_error he]
          exact (uncut_steady ctx conf _).still hstill h
        · rw [bind_ok hok]
          refine Uncut.mono (q := Creating conf w₁.nextId zone.name) ?_ fun _ _ _ _ => trivial
          have hI := uncut_steady ctx conf (Creating conf w₁.nextId zone.name)
          let z := (zone.owned ctx).row ctx conf w₁.nextId viewId parent
          have hself : ¬ Below z.name zone.name := fun hb => Nat.lt_irrefl _ hb.length
          have hstored : Uncut (Creating conf w₁.nextId zone.name) (w₁.withZone z) :=
            (h.creating hns).withZone rfl ⟨fun _ => ⟨rfl, rfl⟩, fun _ hb => absurd hb hself⟩ habove
          refine Keeps.bind (hI.zoneAction faults _) (fun _ w hw => Keeps.look hw fun stored hz => ?_)
            _ hstored
          -- the zone is read back, perhaps under new values, but not under a new name
          obtain ⟨-, hid, -⟩ := findZone_mem hz
          refine Keeps.after (createDefaultRecord_uncut hw (hid.symm ▸ hz) hid) fun _ => ?_
          exact Keeps.bind (hI.adoptSubzones stored.id plan fun z _ =>
            (cutScope_serves ctx).updates _) fun _ => Keeps.pure _

/-- **A request that cuts nothing off leaves no recordset below a zone cut.** -/
theorem serve_uncut {input : Input} (h : Uncut (fun _ _ _ => True) w)
    (hcuts : input.CutsNothing conf w) : Uncut (fun _ _ _ => True) (serve conf input w) := by
  have hI := uncut_steady input.ctx conf (fun _ _ _ => True)
  refine serve_keeps_of hI uncut_ignoresStaying.rewrites (cutScope_serves _) h
    (fun faults plan zone he => ?_) (fun plan zoneId name type ttl description texts he => ?_)
    fun plan zone recordset ttlChanged entries hloops => hloops.steady hI uncut_ignoresStaying h
  · have hcuts' : Input.CutsNothing conf ⟨input.ctx, .createZone faults plan zone⟩ w := by
      rw [← he]
      exact hcuts
    exact createZone_uncut h hcuts'
  · refine createRecordset_uncut h plan ?_
    rw [Input.CutsNothing, he] at hcuts
    exact hcuts

/--
**No recordset lies below a zone cut along a run whose requests cut nothing off**: not
before any of them, and not at the end.
-/
theorem run_noCut (conf : Conf) (inputs : List Input) (w : World) (hw : w.Linked)
    (hcut : w.NoCut)
    (hcuts : ∀ t ∈ Run.transitions (serve conf) inputs w, t.input.CutsNothing conf t.before) :
    (∀ t ∈ Run.transitions (serve conf) inputs w, t.before.NoCut) ∧
      (Run.final (serve conf) inputs w).NoCut := by
  have hrun := Run.invariant (I := Uncut fun _ _ _ => True) (fun input w h hc => serve_uncut h hc)
    ⟨hw, hcut, fun _ _ _ => trivial⟩ hcuts
  exact ⟨fun t ht => (hrun.1 t ht).noCut, hrun.2.noCut⟩

/-! ## At the sample -/

instance (w : World) : Decidable w.NoCut := by
  unfold World.NoCut
  infer_instance

/-- A zone below the one there is. -/
def Sample.below (name : String) : Input :=
  ⟨Sample.ctx, .createZone ZoneFaults.none (fun _ => ZoneFaults.none)
    { tenantId := none, name := name, type := .PRIMARY, ttl := none, serial := none
      viewId := some 1 }⟩

/-- A recordset of the zone above, once the other one is there. -/
def Sample.files : Input :=
  ⟨Sample.ctx, .createRecordset (fun _ => Faults.none) 2 "ftp.example.com." .A none none ["192.0.2.9"]⟩

theorem run_noCut_sample :
    (∀ t ∈ Run.transitions (serve Sample.confNs) [Sample.below "sub.example.com.", Sample.files]
        Sample.world, t.before.NoCut) ∧
      (Run.final (serve Sample.confNs) [Sample.below "sub.example.com.", Sample.files]
        Sample.world).NoCut :=
  run_noCut Sample.confNs _ Sample.world sample_linked (by decide) (by decide +kernel)

/-- A zone is created over a recordset of the zone above. -/
theorem cut_over_recordset :
    ¬ ∀ (conf : Conf) (inputs : List Input) (w : World), w.Linked → w.NoCut →
      (∀ t ∈ Run.transitions (serve conf) inputs w, t.before.NoCut) ∧
        (Run.final (serve conf) inputs w).NoCut := by
  intro h
  have hfinal := (h Sample.confNs [Sample.below "www.example.com."] Sample.world sample_linked
    (by decide)).2
  exact absurd hfinal (by decide +kernel)

end Designate
