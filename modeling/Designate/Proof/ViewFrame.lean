import Designate.Proof.ZoneRows

/-!
# What calls about zones leave of the views

No call about a zone writes a table of the views. Of the rows of zones it only takes
away: a zone that is live afterwards was live before, in the same view. Neither needs to
know where a call stops, so that both are kept by every step, whatever fails.
-/

namespace Designate

open Exec

variable {ctx : Context} {conf : Conf}

/-- The tables of the views. -/
def Db.viewTables (db : Db) :
    List View × List ViewAcl × List ViewZdnsView × List ZdnsViewInfo :=
  (db.views, db.viewAcls, db.viewZdnsViews, db.zdnsViewInfos)

/-- The tables of the views are as they were, and the live zones are among those there were. -/
structure World.Spares (w w' : World) : Prop where
  tables : w'.db.viewTables = w.db.viewTables
  zones : ∀ z ∈ w'.db.zones, z.deleted = false →
    ∃ z₀ ∈ w.db.zones, z₀.deleted = false ∧ z₀.id = z.id ∧ z₀.viewId = z.viewId
  nextId : w.nextId ≤ w'.nextId

namespace World.Spares

variable {w₀ w w' : World}

theorem refl (w : World) : w.Spares w :=
  ⟨rfl, fun z hz hlive => ⟨z, hz, hlive, rfl, rfl⟩, Nat.le_refl _⟩

theorem trans (h : w₀.Spares w) (h' : w.Spares w') : w₀.Spares w' := by
  refine ⟨h'.tables.trans h.tables, ?_, Nat.le_trans h.nextId h'.nextId⟩
  intro z hz hlive
  obtain ⟨z₁, hz₁, hlive₁, hid₁, hview₁⟩ := h'.zones z hz hlive
  obtain ⟨z₀, hz₀, hlive₀, hid₀, hview₀⟩ := h.zones z₁ hz₁ hlive₁
  exact ⟨z₀, hz₀, hlive₀, hid₀.trans hid₁, hview₀.trans hview₁⟩

/-- A step that does not write the zones. -/
theorem still (ht : w'.db.viewTables = w.db.viewTables) (hz : w'.db.zones = w.db.zones)
    (hn : w.nextId ≤ w'.nextId) : w.Spares w' := by
  refine ⟨ht, ?_, hn⟩
  intro z hmem hlive
  exact ⟨z, hz ▸ hmem, hlive, rfl, rfl⟩

/-- What a program that spares the views does in one run. -/
theorem of_run {α : Type} {m : Call α} {r : Except Exc α} (hm : Keeps w.Spares m)
    (hrun : m w = (r, w')) : w.Spares w' := by
  have := hm w (refl w)
  rwa [hrun] at this

/-! ## Rules -/

/-- A write that spares the views where it gets through. -/
theorem write {α : Type} {f : World → Except Exc (α × World)}
    (hf : ∀ w a w', f w = .ok (a, w') → w.Spares w') : Keeps w₀.Spares (Exec.write f) :=
  Keeps.write fun w a w' hw h => hw.trans (hf w a w' h)

/-- A change of other tables. -/
theorem updateDb {f : Db → Db} (ht : ∀ db, (f db).viewTables = db.viewTables)
    (hz : ∀ db, (f db).zones = db.zones) : Keeps w₀.Spares (updateDb f) :=
  Keeps.modify fun _ hw => hw.trans (still (ht _) (hz _) (Nat.le_refl _))

theorem generateUuid : Keeps w₀.Spares generateUuid := by
  refine write fun w a w' h => ?_
  obtain ⟨-, rfl⟩ := Prod.mk.inj (Except.ok.inj h)
  exact still rfl rfl (Nat.le_succ _)

/-- What a transaction puts back had spared the views as well. -/
theorem transaction {α : Type} {m : Call α} (hm : Keeps w₀.Spares m) :
    Keeps w₀.Spares (transaction m) :=
  Keeps.rollback hm fun _ _ h h' => ⟨h.tables, h.zones, h'.nextId⟩

/-! ## Records and recordsets -/

theorem updateRecordRow (record : Record) : Keeps w₀.Spares (updateRecordRow ctx conf record) := by
  refine write fun w a w' h => ?_
  split at h
  · exact absurd h (by simp)
  · dsimp only at h
    split at h
    · exact absurd h (by simp)
    · obtain ⟨-, rfl⟩ := Prod.mk.inj (Except.ok.inj h)
      exact still rfl rfl (Nat.le_refl _)

theorem deleteRecordRow (id : Option Nat) : Keeps w₀.Spares (deleteRecordRow ctx id) := by
  refine write fun w a w' h => ?_
  split at h
  · exact absurd h (by simp)
  · obtain ⟨-, rfl⟩ := Prod.mk.inj (Except.ok.inj h)
    exact still rfl rfl (Nat.le_refl _)

theorem deleteRecordsetRow (id : Nat) : Keeps w₀.Spares (deleteRecordsetRow ctx id) := by
  refine write fun w a w' h => ?_
  split at h
  · exact absurd h (by simp)
  · obtain ⟨-, rfl⟩ := Prod.mk.inj (Except.ok.inj h)
    exact still rfl rfl (Nat.le_refl _)

theorem deleteRecordAssociationRow (id : Option Nat) :
    Keeps w₀.Spares (deleteRecordAssociationRow id) := by
  refine write fun w a w' h => ?_
  split at h
  · exact absurd h (by simp)
  · obtain ⟨-, rfl⟩ := Prod.mk.inj (Except.ok.inj h)
    exact still rfl rfl (Nat.le_refl _)

theorem deleteZdnsRecordRow (id : Nat) : Keeps w₀.Spares (deleteZdnsRecordRow id) := by
  refine write fun w a w' h => ?_
  split at h
  · exact absurd h (by simp)
  · obtain ⟨-, rfl⟩ := Prod.mk.inj (Except.ok.inj h)
    exact still rfl rfl (Nat.le_refl _)

theorem dropRecord (fails : Nat → Bool) (row : RecordRow) :
    Keeps w₀.Spares (dropRecord ctx fails row) :=
  keeps_dropRecord deleteRecordRow deleteRecordsetRow fails row

/-! ## Zones -/

/-- The row of a zone is rewritten in place; a zone that was gone stays gone. -/
theorem updateZoneRow (id : Nat) {f : Zone → Zone}
    (hf : ∀ z, (f z).id = z.id ∧ (f z).viewId = z.viewId ∧ (z.deleted = true → (f z).deleted = true)) :
    Keeps w₀.Spares (updateZoneRow ctx id f) := by
  refine Keeps.bind (Keeps.read _) fun _ => Keeps.bind (Keeps.modify fun w hw => hw.trans ?_)
    fun _ => Keeps.pure _
  refine ⟨rfl, ?_, Nat.le_refl _⟩
  intro z hz hlive
  rcases Table.mem_update.mp hz with ⟨hz, -⟩ | ⟨z₀, hz₀, -, rfl⟩
  · exact ⟨z, hz, hlive, rfl, rfl⟩
  · obtain ⟨hid, hview, hgone⟩ := hf z₀
    refine ⟨z₀, hz₀, ?_, hid.symm, hview.symm⟩
    by_contra hdead
    rw [hgone (Bool.of_not_eq_false hdead)] at hlive
    exact absurd hlive (by simp)

theorem deleteZoneRow (id : Nat) : Keeps w₀.Spares (deleteZoneRow ctx id) :=
  updateZoneRow id fun _ => ⟨rfl, rfl, fun _ => rfl⟩

theorem updateZoneStatus (faults : StatusSite → Bool) (zoneId : Nat) (action : Action)
    (status : Status) : Keeps w₀.Spares (updateZoneStatus ctx conf faults zoneId action status) :=
  Keeps.bind (Keeps.raiseIf _ _) fun _ => Keeps.bind (Keeps.read _) fun _ =>
    Keeps.bind (keeps_updateZoneRecords (fun _ _ => updateRecordRow _) dropRecord
      (keeps_deleteRecordWithZoneDelete deleteRecordRow deleteRecordsetRow
        deleteRecordAssociationRow deleteZdnsRecordRow) faults action status 0) fun _ =>
    Keeps.bind (Keeps.raiseIf _ _) fun _ => keeps_finishZone (deleteZoneRow zoneId)
      (updateZoneRow zoneId fun _ => ⟨rfl, rfl, fun h => h⟩) action status

theorem deleteZdnsZone (faults : ZoneSite → Bool) (zoneId : Nat) :
    Keeps w₀.Spares (deleteZdnsZone faults zoneId) :=
  Keeps.bind (Keeps.raiseIf _ _) fun _ => Keeps.bind (Keeps.read _) fun _ =>
    Keeps.bind (Keeps.raiseIf _ _) fun _ =>
    Keeps.bind (updateDb (fun _ => rfl) fun _ => rfl) fun _ =>
    Keeps.bind (Keeps.raiseIf _ _) fun _ => updateDb (fun _ => rfl) fun _ => rfl

/-- **Deleting a zone with its view spares the tables of the views.** -/
theorem deleteZoneOfView (faults : ZoneFaults) (zone : Zone) :
    Keeps w₀.Spares (deleteZoneOfView ctx conf faults zone) :=
  Keeps.bind (deleteZdnsZone _ _) fun _ => updateZoneStatus _ _ _ _

theorem deleteZonesOfView (plan : Nat → ZoneFaults) (zones : List Zone) :
    Keeps w₀.Spares (deleteZonesOfView ctx conf plan zones) := by
  induction zones generalizing plan with
  | nil => exact Keeps.pure _
  | cons zone zones ih => exact Keeps.bind (deleteZoneOfView _ zone) fun _ => ih _

/-! ## The worker -/

theorem deviceCreateZone (view zone : String) : Keeps w₀.Spares (Device.createZone view zone) := by
  refine write fun w a w' h => ?_
  split at h
  · exact absurd h (by simp)
  · obtain ⟨-, rfl⟩ := Prod.mk.inj (Except.ok.inj h)
    exact still rfl rfl (Nat.le_refl _)

theorem deviceUpdateZone (view zone : String) : Keeps w₀.Spares (Device.updateZone view zone) := by
  refine write fun w a w' h => ?_
  split at h
  · obtain ⟨-, rfl⟩ := Prod.mk.inj (Except.ok.inj h)
    exact still rfl rfl (Nat.le_refl _)
  · exact absurd h (by simp)

theorem deviceDeleteZone (view zone : String) : Keeps w₀.Spares (Device.deleteZone view zone) := by
  refine write fun w a w' h => ?_
  split at h
  · obtain ⟨-, rfl⟩ := Prod.mk.inj (Except.ok.inj h)
    exact still rfl rfl (Nat.le_refl _)
  · exact absurd h (by simp)

theorem createZdnsZone (faults : ZoneSite → Bool) (zoneId : Nat) :
    Keeps w₀.Spares (createZdnsZone faults zoneId) :=
  Keeps.bind (Keeps.raiseIf _ _) fun _ => Keeps.bind
    (Keeps.bind generateUuid fun _ => Keeps.bind (updateDb (fun _ => rfl) fun _ => rfl)
      fun _ => Keeps.pure _) fun _ =>
    Keeps.bind (Keeps.raiseIf _ _) fun _ => updateDb (fun _ => rfl) fun _ => rfl

theorem updateZdnsZone (faults : ZoneSite → Bool) (zoneId : Nat) :
    Keeps w₀.Spares (updateZdnsZone faults zoneId) :=
  Keeps.bind (Keeps.raiseIf _ _) fun _ => Keeps.bind (Keeps.read _) fun _ => Keeps.raiseIf _ _

theorem zoneActionBody (faults : ZoneFaults) (zone : Zone) (action : Action) (viewName : String) :
    Keeps w₀.Spares (zoneActionBody ctx conf faults zone action viewName) := by
  have hstatus : Keeps w₀.Spares
      (Designate.updateZoneStatus ctx conf faults.success zone.id action .SUCCESS) :=
    updateZoneStatus faults.success zone.id action .SUCCESS
  cases action with
  | CREATE =>
    exact Keeps.bind (Keeps.raiseIf _ _) fun _ => Keeps.bind (deviceCreateZone _ _) fun _ =>
      Keeps.bind (createZdnsZone _ _) fun _ => hstatus
  | UPDATE =>
    exact Keeps.bind (Keeps.raiseIf _ _) fun _ => Keeps.bind (deviceUpdateZone _ _) fun _ =>
      Keeps.bind (updateZdnsZone _ _) fun _ => hstatus
  | DELETE =>
    exact Keeps.bind (Keeps.raiseIf _ _) fun _ => Keeps.bind (deviceDeleteZone _ _) fun _ =>
      Keeps.bind (deleteZdnsZone _ _) fun _ => hstatus
  | NONE => exact hstatus

/-- **A zone action spares the tables of the views**, whichever of its steps fail. -/
theorem zoneAction (faults : ZoneFaults) (zone : Zone) :
    Keeps w₀.Spares (zoneAction ctx conf faults zone) :=
  Keeps.bind zoneViewName_keeps fun _ =>
    Keeps.onError (zoneActionBody faults zone zone.action _) (updateZoneStatus _ _ _ _)

/-! ## Changes of a zone -/

theorem deleteZoneInStorage (zone : Zone) : Keeps w₀.Spares (deleteZoneInStorage ctx zone) :=
  transaction (updateZoneRow _ fun _ => ⟨rfl, rfl, fun h => h⟩)

theorem updateRecordsetInStorage (zone : Zone) (recordset : RecordSet) :
    Keeps w₀.Spares (updateRecordsetInStorage ctx conf zone recordset) := by
  refine transaction (Keeps.bind (Keeps.read _) fun _ => Keeps.bind (Keeps.read _) fun _ =>
    write fun w a w' h => ?_)
  split at h
  · exact absurd h (by simp)
  · obtain ⟨-, rfl⟩ := Prod.mk.inj (Except.ok.inj h)
    exact still rfl rfl (Nat.le_refl _)

theorem updateSoa (zone : Zone) : Keeps w₀.Spares (updateSoa ctx conf zone) :=
  Keeps.ite (fun _ => Keeps.bind (Keeps.raiseIf _ _) fun _ => Keeps.bind (Keeps.read _) fun _ =>
    Keeps.bind (Keeps.raiseIf _ _) fun _ => updateRecordsetInStorage _ _) fun _ => Keeps.pure _

theorem updateZoneInStorage (zone : Zone) (increment : Bool) :
    Keeps w₀.Spares (updateZoneInStorage ctx conf zone increment) := by
  refine transaction (Keeps.ite (fun _ => ?_) fun _ => ?_)
  · exact Keeps.bind (updateZoneRow _ fun _ => ⟨rfl, rfl, fun h => h⟩) fun _ =>
      Keeps.bind (updateSoa _) fun _ => Keeps.pure _
  · exact updateZoneRow _ fun _ => ⟨rfl, rfl, fun h => h⟩

theorem updateZone (faults : ZoneFaults) (origin zone : Zone) :
    Keeps w₀.Spares (updateZone ctx conf faults origin zone) :=
  Keeps.bind (Keeps.read _) fun _ => Keeps.bind (Keeps.read _) fun _ =>
    Keeps.bind (updateZoneInStorage _ true) fun _ => Keeps.bind
      (Keeps.onError (zoneAction _ _) (Keeps.bind
        (updateZoneRow _ fun _ => ⟨rfl, rfl, fun h => h⟩) fun _ => Keeps.pure _))
      fun _ => Keeps.read _

theorem adoptSubzones (zoneId : Nat) (plan : Nat → ZoneFaults) (subzones : List Zone) :
    Keeps w₀.Spares (adoptSubzones ctx conf zoneId plan subzones) := by
  induction subzones generalizing plan with
  | nil => exact Keeps.pure _
  | cons subzone subzones ih => exact Keeps.bind (updateZone _ _ _) fun _ => ih _

/-! ## Default records -/

theorem createRecordsetInStorage (zone : Zone) (recordset : NewRecordSet) :
    Keeps w₀.Spares (createRecordsetInStorage ctx conf zone recordset) := by
  refine transaction (Keeps.bind (Keeps.read _) fun _ => Keeps.bind (Keeps.read _) fun _ =>
    Keeps.bind (Keeps.read _) fun _ => Keeps.bind generateUuid fun _ => write fun w a w' h => ?_)
  split at h
  · exact absurd h (by simp)
  · obtain ⟨-, rfl⟩ := Prod.mk.inj (Except.ok.inj h)
    exact still rfl rfl (Nat.le_refl _)

theorem createRecordInStorage (zone : Zone) (recordset : RecordSet) (record : Record) :
    Keeps w₀.Spares (createRecordInStorage ctx conf zone recordset record) := by
  refine transaction (Keeps.bind (Keeps.read _) fun _ => Keeps.bind (Keeps.read _) fun _ =>
    Keeps.bind generateUuid fun _ => write fun w a w' h => ?_)
  split at h
  · exact absurd h (by simp)
  · split at h
    · exact absurd h (by simp)
    · split at h
      · exact absurd h (by simp)
      · obtain ⟨-, rfl⟩ := Prod.mk.inj (Except.ok.inj h)
        exact still rfl rfl (Nat.le_refl _)

theorem createZdnsRecord (faults : Faults) (id : Nat) (values : ZdnsRecordValues) :
    Keeps w₀.Spares (createZdnsRecord faults id values) :=
  Keeps.bind (Keeps.raiseIf _ _) fun _ => Keeps.bind
    (Keeps.bind generateUuid fun _ => Keeps.bind (updateDb (fun _ => rfl) fun _ => rfl)
      fun _ => Keeps.pure _) fun _ =>
    Keeps.bind (Keeps.raiseIf _ _) fun _ => updateDb (fun _ => rfl) fun _ => rfl

theorem updateRecordsetStatus (recordsetId : Nat) (action : Action) (status : Status) :
    Keeps w₀.Spares (updateRecordsetStatus ctx conf recordsetId action status) := by
  refine Keeps.bind (Keeps.read _) fun rows => Keeps.forEach fun row _ => ?_
  split
  · exact Keeps.ite (fun _ => dropRecord _ row) fun _ => updateRecordRow _
  · exact Keeps.ite (fun _ => dropRecord _ row) fun _ => updateRecordRow _
  · exact Keeps.ite (fun _ => updateRecordRow _) fun _ => Keeps.pure _

theorem createDefault (zone : Zone) (name : String) (type : RRType) (typeName data : String) :
    Keeps w₀.Spares (createDefault ctx conf zone name type typeName data) := by
  refine Keeps.bind (createRecordsetInStorage _ _) fun recordset =>
    Keeps.bind (Keeps.forEach fun record _ => Keeps.bind (createRecordInStorage _ _ _)
      fun stored => ?_) fun _ => updateRecordsetStatus _ _ _
  cases stored.id with
  | none => exact Keeps.raise _
  | some id => exact createZdnsRecord _ _ _

theorem createDefaultRecord (zone : Zone) :
    Keeps w₀.Spares (createDefaultRecord ctx conf zone) :=
  transaction (Keeps.bind (createDefault _ _ _ _ _) fun _ => createDefault _ _ _ _ _)

end World.Spares

end Designate
