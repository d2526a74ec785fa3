import Designate.Central.ZoneUpdate

/-!
# When a failed update of a zone is taken back

The fields go back whatever happens: the copy holds the stored value of every field
the update changes. The lists go back only as far as the copy can take them, which
knows the rows it was loaded with but nothing of what was deleted since.
-/

namespace Designate

namespace ZoneUpdate

open Exec Reconcile

variable {ctx : Context} {env : Surroundings} {zone : ZoneObject} {s s' : Store}

/-- Keys of the tables. -/
structure Store.Wf (s : Store) : Prop where
  zones : (s.zones.map ZoneRow.id).Nodup
  attributes : s.attributes.Wf
  masters : s.masters.Wf

/--
Attributes and masters with an identifier are those of the zone. The API reads them from the
zone, so an identifier of another zone does not get in.
-/
structure ZoneObject.Owned (zone : ZoneObject) (s : Store) : Prop where
  attributes : ∀ l, zone.attributes.value = some l →
    Reconcile.Owned zone.id (l.map ZoneAttribute.item) s.attributes
  masters : ∀ l, zone.masters.value = some l →
    Reconcile.Owned zone.id (l.map ZoneMaster.item) s.masters

/-! ## One list -/

section

variable {α β ι : Type} [DecidableEq α] [DecidableEq β] {owner : Nat} {item : ι → Item α β}
  {ofRow : Row α β → ι} {c c₁ : Child α β}

/-- A list that is set has been reconciled with its table. -/
def Reconciled (owner : Nat) (item : ι → Item α β) (list : Option (List ι)) (c c' : Child α β) :
    Prop :=
  match list with
  | none => c' = c
  | some l => reconcile owner (l.map item) c = (.ok (), c')

/--
The list of an object can be taken back: where it is set, it names every row of the
zone and writes nothing new over it; where it was assigned, every row had been
loaded, and where it was not, no item is new.
-/
structure Restorable (owner : Nat) (item : ι → Item α β) (loaded : Row α β → Bool)
    (list : Tracked (List ι)) (c : Child α β) : Prop where
  unharmed : ∀ l, list.value = some l → Unharmed owner (l.map item) c
  added : ∀ l, list.value = some l → list.changed = false → newItems (l.map item) = 0
  loaded : list.changed = true → ∀ r ∈ c.own owner, loaded r = true

/-- The list of the copy. -/
def originList [DecidableEq ι] (list : Tracked (List ι)) (loaded : List ι) : Tracked (List ι) :=
  if list.changed then list.set loaded else list

/-- **The copy restores the rows exactly if the list can be taken back.** -/
theorem originList_iff [DecidableEq ι] (loaded : Row α β → Bool) {list : Tracked (List ι)}
    (hitem : ∀ r, item (ofRow r) = r.item) (hwf : c.Wf)
    (howned : ∀ l, list.value = some l → Owned owner (l.map item) c)
    (h₁ : Reconciled owner item list.value c c₁) :
    (∃ c₂, Reconciled owner item
        (originList list (((c.own owner).filter loaded).map ofRow)).value c₁ c₂ ∧
        c₂.own owner = c.own owner) ↔ Restorable owner item loaded list c := by
  have hback : (((c.own owner).filter loaded).map ofRow).map item =
      ((c.own owner).filter loaded).map Row.item := by
    rw [List.map_map]
    exact List.map_congr_left fun r _ => hitem r
  unfold originList
  cases hchanged : list.changed with
  | false =>
    rw [if_neg (by simp)]
    cases hvalue : list.value with
    | none =>
      rw [hvalue] at h₁
      refine iff_of_true ⟨c₁, rfl, congrArg (fun c => c.own owner) h₁⟩
        ⟨fun l hl => ?_, fun l hl => ?_, fun h => ?_⟩
      · rw [hvalue] at hl; exact absurd hl (by simp)
      · rw [hvalue] at hl; exact absurd hl (by simp)
      · rw [hchanged] at h; exact absurd h (by simp)
    | some l =>
      rw [hvalue] at h₁
      have hiff := twice_iff hwf (howned l hvalue) h₁
      constructor
      · intro h
        obtain ⟨hun, hnew⟩ := hiff.mp h
        refine ⟨fun l' hl => ?_, fun l' hl _ => ?_, fun h => ?_⟩
        · obtain rfl := Option.some.inj (hvalue.symm.trans hl); exact hun
        · obtain rfl := Option.some.inj (hvalue.symm.trans hl); exact hnew
        · rw [hchanged] at h; exact absurd h (by simp)
      · intro h
        exact hiff.mpr ⟨h.unharmed l hvalue, h.added l hvalue hchanged⟩
  | true =>
    rw [if_pos rfl, Tracked.set_value]
    cases hvalue : list.value with
    | none =>
      -- the list was never set: what was loaded is written back over itself
      rw [hvalue] at h₁
      obtain rfl : c₁ = c := h₁
      have hsame : reconcile owner ((c₁.own owner).map Row.item) c₁ = (.ok (), c₁) := by
        rw [reconcile_of hwf fun i hi => ?_]
        · have hleft : c₁.left owner ((c₁.own owner).map Row.item) = c₁.rows := by
            refine List.filter_eq_self.mpr fun r hr => ?_
            refine (List.mem_filter.mp (mem_left.mpr ⟨hr, fun ho => ?_⟩)).2
            exact keeps_iff.mpr ⟨r.item, List.mem_map_of_mem (mem_own.mpr ⟨hr, ho⟩), rfl⟩
          rw [hleft]
        · obtain ⟨r, hr, rfl⟩ := List.mem_map.mp hi
          exact ⟨⟨r, hr, rfl⟩, rfl, rfl⟩
      have hown : Owned owner ((c₁.own owner).map Row.item) c₁ := by
        intro i hi id hid
        obtain ⟨r, hr, rfl⟩ := List.mem_map.mp hi
        exact ⟨r, hr, Option.some.inj hid⟩
      have hiff := back_iff hwf hown loaded hsame
      rw [← hback] at hiff
      constructor
      · intro h
        refine ⟨fun l hl => ?_, fun l hl => ?_, fun _ => (hiff.mp h).2⟩
        · rw [hvalue] at hl; exact absurd hl (by simp)
        · rw [hvalue] at hl; exact absurd hl (by simp)
      · intro h
        refine hiff.mpr ⟨fun r hr => ⟨?_, ?_⟩, h.loaded hchanged⟩
        · exact keeps_iff.mpr ⟨r.item, List.mem_map_of_mem hr, rfl⟩
        · exact written_rows _ r
    | some l =>
      rw [hvalue] at h₁
      have hiff := back_iff hwf (howned l hvalue) loaded h₁
      rw [← hback] at hiff
      constructor
      · intro h
        obtain ⟨hun, hloaded⟩ := hiff.mp h
        refine ⟨fun l' hl => ?_, fun l' hl hf => ?_, fun _ => hloaded⟩
        · obtain rfl := Option.some.inj (hvalue.symm.trans hl); exact hun
        · rw [hchanged] at hf; exact absurd hf (by simp)
      · intro h
        exact hiff.mpr ⟨h.unharmed l hvalue, h.loaded hchanged⟩

end

/-! ## Storage -/

theorem findRow_mem {id : Nat} {row : ZoneRow} (h : findRow ctx id s = .ok row) :
    row ∈ s.zones ∧ row.id = id ∧ (ctx.sees row.tenant && !row.deleted) = true := Table.find_mem h

/-- What `storage.update_zone` leaves where it returns. -/
structure Stored (ctx : Context) (zone : ZoneObject) (row : ZoneRow) (s s' : Store) : Prop where
  found : findRow ctx zone.id s = .ok row
  zones : s'.zones = Table.update ZoneRow.id zone.id zone.over s.zones
  attributes : Reconciled zone.id ZoneAttribute.item zone.attributes.value s.attributes s'.attributes
  masters : Reconciled zone.id ZoneMaster.item zone.masters.value s.masters s'.masters

/-- The object `storage.update_zone` gives back. -/
def ZoneObject.stored (zone : ZoneObject) (row : ZoneRow) (s : Store) : ZoneObject :=
  { id := zone.id
    fields := fun f => .loaded ((zone.over row).columns f)
    attributes := ⟨zone.attributes.value.map (storedAttributes s), false⟩
    masters := ⟨zone.masters.value.map (storedMasters s), false⟩ }

theorem updateAttributes_elim : updateAttributes zone =
    zone.attributes.value.elim (pure ()) (reconcileAttributes zone.id) := by
  unfold updateAttributes
  cases zone.attributes.value <;> rfl

theorem updateMasters_elim : updateMasters zone =
    zone.masters.value.elim (pure ()) (reconcileMasters zone.id) := by
  unfold updateMasters
  cases zone.masters.value <;> rfl

/-- A list written in the table it is in, where it is set; `write` replaces that table alone. -/
theorem writeList_eq_ok {α β ι : Type} [DecidableEq α] [DecidableEq β] {owner : Nat}
    {item : ι → Item α β} (table : Store → Child α β) (write : Child α β → Store → Store)
    (hself : ∀ s, write (table s) s = s) (htable : ∀ c s, table (write c s) = c)
    (call : List ι → Request Unit)
    (hcall : ∀ l s, call l s = ((reconcile owner (l.map item) (table s)).1.mapError .storage,
      write (reconcile owner (l.map item) (table s)).2 s)) (list : Option (List ι)) :
    list.elim (pure () : Request Unit) call s = (.ok (), s') ↔
      Reconciled owner item list (table s) (table s') ∧ s' = write (table s') s := by
  cases list with
  | none =>
    show (Except.ok (), s) = (Except.ok (), s') ↔ table s' = table s ∧ _
    constructor
    · intro h
      obtain rfl := congrArg Prod.snd h
      exact ⟨rfl, (hself s).symm⟩
    · rintro ⟨ht, hs⟩
      rw [hs, ht, hself]
  | some l =>
    show call l s = _ ↔ reconcile owner (l.map item) (table s) = (.ok (), table s') ∧ _
    rw [hcall]
    cases hr : reconcile owner (l.map item) (table s) with
    | mk r c =>
      cases r with
      | error e => simp [Except.mapError]
      | ok u =>
        simp only [Except.mapError, Prod.mk.injEq, true_and]
        constructor
        · rintro rfl
          exact ⟨(htable c s).symm, by rw [htable]⟩
        · rintro ⟨rfl, hs⟩
          exact hs.symm

theorem updateAttributes_eq_ok : updateAttributes zone s = (.ok (), s') ↔
    Reconciled zone.id ZoneAttribute.item zone.attributes.value s.attributes s'.attributes ∧
      s' = { s with attributes := s'.attributes } := by
  rw [updateAttributes_elim]
  exact writeList_eq_ok Store.attributes (fun c s => { s with attributes := c }) (fun _ => rfl)
    (fun _ _ => rfl) (reconcileAttributes zone.id) (fun _ _ => rfl) zone.attributes.value

theorem updateMasters_eq_ok : updateMasters zone s = (.ok (), s') ↔
    Reconciled zone.id ZoneMaster.item zone.masters.value s.masters s'.masters ∧
      s' = { s with masters := s'.masters } := by
  rw [updateMasters_elim]
  exact writeList_eq_ok Store.masters (fun c s => { s with masters := c }) (fun _ => rfl)
    (fun _ _ => rfl) (reconcileMasters zone.id) (fun _ _ => rfl) zone.masters.value

/-- **`storage.update_zone` returns exactly if the row is found and both lists go through.** -/
theorem storageUpdateZone_eq_ok {z : ZoneObject} : storageUpdateZone ctx zone s = (.ok z, s') ↔
    ∃ row, Stored ctx zone row s s' ∧ z = zone.stored row s := by
  unfold storageUpdateZone
  rw [bind_ok (Exec.read_apply _ _)]
  constructor
  · intro h
    obtain ⟨row, hrow, h⟩ := of_read_bind h
    rw [bind_ok (Exec.modify_apply _ _)] at h
    obtain ⟨⟨⟩, s₁, h₁, h⟩ := bind_eq_ok.mp h
    obtain ⟨⟨⟩, s₂, h₂, h₃⟩ := bind_eq_ok.mp h
    -- each of the two lists is written in a table of its own
    obtain ⟨ha, hs₁⟩ := updateAttributes_eq_ok.mp h₁
    obtain ⟨hm, hs₂⟩ := updateMasters_eq_ok.mp h₂
    obtain rfl : s₂ = s' := congrArg Prod.snd h₃
    refine ⟨row, ⟨hrow, ?_, ?_, ?_⟩, (Except.ok.inj (congrArg Prod.fst h₃)).symm⟩
    · rw [hs₂]; dsimp only; rw [hs₁]
    · have : s₂.attributes = s₁.attributes := by rw [hs₂]
      exact this ▸ ha
    · have : s₁.masters = s.masters := by rw [hs₁]
      exact this ▸ hm
  · rintro ⟨row, hstored, rfl⟩
    have hfound := hstored.found
    have hread : (Exec.read fun s => findRow ctx zone.id s : Request ZoneRow) s = (.ok row, s) := by
      rw [Exec.read_apply, hfound]
    rw [bind_ok hread, bind_ok (Exec.modify_apply _ _)]
    -- the other way round, the state between the two writes has the rows and the attributes, but
    -- not yet the masters
    have h₁ : updateAttributes zone
        { s with zones := Table.update ZoneRow.id zone.id zone.over s.zones } =
        (.ok (), { s with zones := Table.update ZoneRow.id zone.id zone.over s.zones
                          attributes := s'.attributes }) :=
      updateAttributes_eq_ok.mpr ⟨hstored.attributes, rfl⟩
    have h₂ : updateMasters zone
        { s with zones := Table.update ZoneRow.id zone.id zone.over s.zones
                 attributes := s'.attributes } = (.ok (), s') := by
      refine updateMasters_eq_ok.mpr ⟨hstored.masters, ?_⟩
      have hz := hstored.zones
      cases s'
      dsimp only at hz ⊢
      rw [hz]
    rw [bind_ok h₁, bind_ok h₂]
    rfl

/-- The row is there afterwards, as the object wrote it. -/
theorem Stored.findRow {row : ZoneRow} (h : Stored ctx zone row s s')
    (hwf : (s.zones.map ZoneRow.id).Nodup) (ht : (zone.fields .tenantId).changed = false) :
    ZoneUpdate.findRow ctx zone.id s' = .ok (zone.over row) := by
  obtain ⟨hm, hid, hp⟩ := findRow_mem h.found
  have hcolumn : (zone.over row).columns .tenantId = row.columns .tenantId := by
    show (zone.fields .tenantId).write _ = _
    unfold Tracked.write
    rw [ht, if_neg (by simp)]
  have htenant : (zone.over row).tenant = row.tenant := by
    unfold ZoneRow.tenant
    rw [hcolumn]
  refine Table.find_of_mem ?_ ?_ hid (by rw [htenant]; exact hp)
  · rw [h.zones, Table.map_update (f := zone.over) fun r _ _ => rfl]
    exact hwf
  · rw [h.zones]
    exact Table.mem_update.mpr (Or.inr ⟨row, hm, hid, rfl⟩)

theorem Stored.wf {row : ZoneRow} (h : Stored ctx zone row s s') (hwf : s.Wf) : s'.Wf where
  zones := by
    rw [h.zones, Table.map_update (f := zone.over) fun r _ _ => rfl]
    exact hwf.zones
  attributes := by
    have ha := h.attributes
    cases hv : zone.attributes.value with
    | none => rw [hv] at ha; exact (show s'.attributes = s.attributes from ha) ▸ hwf.attributes
    | some l => rw [hv] at ha; exact reconcile_wf hwf.attributes ha
  masters := by
    have hm := h.masters
    cases hv : zone.masters.value with
    | none => rw [hv] at hm; exact (show s'.masters = s.masters from hm) ▸ hwf.masters
    | some l => rw [hv] at hm; exact reconcile_wf hwf.masters hm

/-! ## Up to the worker -/

/-- Not set by the update of a zone itself. -/
def Field.shown (f : Field) : Bool := f ≠ .serial && f ≠ .action && f ≠ .status

/-- A zone as its user sees it: all fields but those that tell how far an update has got. -/
def ZoneRow.shown (row : ZoneRow) : Nat × Bool × (Field → Value) :=
  (row.id, row.deleted, fun f => if f.shown then row.columns f else .null)

/-- The copy `_get_origin_zone` makes. -/
def ZoneObject.origin (zone : ZoneObject) (row : ZoneRow) (s : Store) : ZoneObject :=
  { zone with
    fields := fun f =>
      if (zone.fields f).changed then (zone.fields f).set (row.columns f) else zone.fields f
    attributes := originList zone.attributes
      (((s.attributes.own row.id).filter fun r => r.fst ≠ "master").map ZoneAttribute.ofRow)
    masters := originList zone.masters
      (((s.masters.own row.id).filter fun _ => row.columns .type == .text "SECONDARY").map
        ZoneMaster.ofRow) }

theorem getOriginZone_ok {origin : ZoneObject} {s₁ : Store}
    (h : getOriginZone ctx zone s = (.ok origin, s₁)) :
    s₁ = s ∧ ∃ row, findRow ctx zone.id s = .ok row ∧ origin = zone.origin row s := by
  unfold getOriginZone getZone at h
  obtain ⟨values, hv, h⟩ := of_read_bind h
  cases hf : findRow ctx zone.id s with
  | error e => rw [hf] at hv; exact absurd hv (by simp [Except.map])
  | ok row =>
    rw [hf] at hv
    obtain rfl := Except.ok.inj hv
    exact ⟨(congrArg Prod.snd h).symm, row, rfl, (Except.ok.inj (congrArg Prod.fst h)).symm⟩

/-- The object `_update_zone_in_storage` stores: with the action and the status of an update. -/
structure Pending (zone zone' : ZoneObject) : Prop where
  id : zone'.id = zone.id
  attributes : zone'.attributes = zone.attributes
  masters : zone'.masters = zone.masters
  fields : ∀ f, f.shown = true → zone'.fields f = zone.fields f

theorem updateZoneInStorage_ok {increment : Bool} {stored : ZoneObject}
    (h : updateZoneInStorage ctx env zone increment s = (.ok stored, s')) :
    ∃ zone', Pending zone zone' ∧ storageUpdateZone ctx zone' s = (.ok stored, s') := by
  have hset : ∀ {z : ZoneObject} {f : Field} {v : Value}, f.shown = false → Pending zone z →
      Pending zone (z.set f v) := by
    intro z f v hf hz
    refine ⟨hz.id, hz.attributes, hz.masters, fun g hg => ?_⟩
    have hne : g ≠ f := by
      rintro rfl
      rw [hf] at hg
      exact absurd hg (by simp)
    exact (if_neg hne).trans (hz.fields g hg)
  have hpending : Pending zone ((zone.set .action (.text "UPDATE")).set .status (.text "PENDING")) :=
    hset rfl (hset rfl ⟨rfl, rfl, rfl, fun _ _ => rfl⟩)
  unfold updateZoneInStorage Exec.rollback at h
  split at h
  · rename_i z s₁ hrun
    obtain rfl := congrArg Prod.snd h
    obtain rfl := Except.ok.inj (congrArg Prod.fst h)
    cases increment with
    | false => exact ⟨_, hpending, hrun⟩
    | true =>
      obtain ⟨z₁, s₂, h₁, h₂⟩ := bind_eq_ok.mp hrun
      -- `_update_soa` gives nothing back
      have hsame : Except.ok z₁ = (Except.ok z : Except Raised ZoneObject) ∧ s₂ = s₁ := by
        split at h₂
        · obtain ⟨⟨⟩, -, h₂⟩ := of_read_bind h₂
          exact Prod.mk.inj h₂
        · exact Prod.mk.inj h₂
      obtain ⟨hz, rfl⟩ := hsame
      obtain rfl := Except.ok.inj hz
      exact ⟨_, hset (f := .serial) rfl hpending, h₁⟩
  · exact absurd (congrArg Prod.fst h) (by simp)

theorem updateZoneChecks_ok (h : updateZoneChecks env zone s = (.ok (), s')) :
    s' = s ∧ (zone.fields .tenantId).changed = false := by
  unfold updateZoneChecks at h
  obtain ⟨ht, h⟩ := of_raiseIf_bind h
  obtain ⟨-, h⟩ := of_raiseIf_bind h
  refine ⟨?_, ht⟩
  -- the check of the TTL looks at the object only
  revert h
  cases changedValue (zone.fields .ttl) with
  | none => exact fun h => (congrArg Prod.snd h).symm
  | some v => cases v <;> exact fun h => (congrArg Prod.snd h).symm

/--
What is known when the worker is called. `origin` is what a compensation writes back; it was read
before the storage was.
-/
structure Sent (ctx : Context) (zone origin stored : ZoneObject) (row : ZoneRow)
    (zone' : ZoneObject) (s s₁ : Store) : Prop where
  tenant : (zone.fields .tenantId).changed = false
  found : findRow ctx zone.id s = .ok row
  copy : origin = zone.origin row s
  pending : Pending zone zone'
  storage : Stored ctx zone' row s s₁
  object : stored = zone'.stored row s

theorem updateZoneBefore_ok {increment : Bool} {origin stored : ZoneObject} {s₁ : Store}
    (h : updateZoneBefore ctx env zone increment s = (.ok (origin, stored), s₁)) :
    ∃ row zone', Sent ctx zone origin stored row zone' s s₁ := by
  unfold updateZoneBefore at h
  obtain ⟨⟨⟩, s₂, hchecks, htail⟩ := bind_eq_ok.mp h
  clear h
  obtain ⟨hs₂, ht⟩ := updateZoneChecks_ok hchecks
  rw [hs₂] at htail
  obtain ⟨o, s₃, h₂, h⟩ := bind_eq_ok.mp htail
  clear htail
  obtain ⟨rfl, row, hrow, rfl⟩ := getOriginZone_ok h₂
  obtain ⟨z, s₄, h₃, h⟩ := bind_eq_ok.mp h
  -- a message for a transfer changes no table
  have hsame : (zone.origin row s₃, z) = (origin, stored) ∧ s₄ = s₁ := by
    split at h
    · obtain ⟨⟨⟩, -, h⟩ := of_read_bind h
      exact ⟨Except.ok.inj (congrArg Prod.fst h), congrArg Prod.snd h⟩
    · exact ⟨Except.ok.inj (congrArg Prod.fst h), congrArg Prod.snd h⟩
  obtain ⟨hpair, rfl⟩ := hsame
  obtain ⟨rfl, rfl⟩ := Prod.mk.inj hpair
  obtain ⟨zone', hpending, hrun⟩ := updateZoneInStorage_ok h₃
  obtain ⟨row', hstored, hobj⟩ := storageUpdateZone_eq_ok.mp hrun
  have hfound := hstored.found
  rw [hpending.id] at hfound
  obtain rfl := Except.ok.inj (hrow.symm.trans hfound)
  exact ⟨row, zone', ht, hrow, rfl, hpending, hstored, hobj⟩

/-! ## The worker -/

/-- An assignment to what the user does not see. -/
structure Hidden (G : ZoneRow → ZoneRow) : Prop where
  id : ∀ r, (G r).id = r.id
  deleted : ∀ r, (G r).deleted = r.deleted
  columns : ∀ r f, f.shown = true → (G r).columns f = r.columns f

theorem storedAttributes_item (l : List ZoneAttribute) :
    (storedAttributes s l).map ZoneAttribute.item =
      numbered s.attributes.nextId (l.map ZoneAttribute.item) := by
  unfold storedAttributes
  rw [List.map_map]
  refine (List.map_congr_left fun i hi => ?_).trans (List.map_id _)
  obtain ⟨-, ha, hb⟩ := numbered_blank hi
  cases i
  simp_all [ZoneAttribute.item, changedValue]

theorem storedMasters_item (l : List ZoneMaster) :
    (storedMasters s l).map ZoneMaster.item =
      numbered s.masters.nextId (l.map ZoneMaster.item) := by
  unfold storedMasters
  rw [List.map_map]
  refine (List.map_congr_left fun i hi => ?_).trans (List.map_id _)
  obtain ⟨-, ha, hb⟩ := numbered_blank hi
  cases i
  simp_all [ZoneMaster.item, changedValue]

/-- **A worker that raises has at most set the action and the status.** -/
theorem zoneApiUpdateZone_raises {call : WorkerCall} {e : Exc} {origin stored zone' : ZoneObject}
    {row : ZoneRow} {s₁ : Store} (he : call.raises = some e) (hwf : s.Wf) (howned : zone.Owned s)
    (hsent : Sent ctx zone origin stored row zone' s s₁) :
    ∃ s₂ G row₂, zoneApiUpdateZone ctx call stored s₁ = (.error (.worker e), s₂) ∧ Hidden G ∧
      s₂.zones = Table.update ZoneRow.id zone.id G s₁.zones ∧
      s₂.attributes = s₁.attributes ∧ s₂.masters = s₁.masters ∧
      findRow ctx zone.id s₂ = .ok row₂ := by
  have hpending := hsent.pending
  have hfound₁ : findRow ctx zone.id s₁ = .ok (zone'.over row) := by
    rw [← hpending.id]
    exact hsent.storage.findRow hwf.zones (by rw [hpending.fields _ rfl]; exact hsent.tenant)
  unfold zoneApiUpdateZone
  rw [he]
  cases hreports : call.reports with
  | false =>
    refine ⟨s₁, id, _, rfl, ⟨fun _ => rfl, fun _ => rfl, fun _ _ _ => rfl⟩, ?_, rfl, rfl, hfound₁⟩
    exact (Table.update_id fun _ _ _ => rfl).symm
  | true =>
    let told := (stored.set .action (.text "NONE")).set .status (.text "ACTIVE")
    have hid : told.id = zone.id := by
      show stored.id = zone.id
      rw [hsent.object]
      exact hpending.id
    have hattributes : Reconciled told.id ZoneAttribute.item told.attributes.value s₁.attributes
        s₁.attributes := by
      show Reconciled told.id _ stored.attributes.value _ _
      have hrun := hsent.storage.attributes
      rw [hsent.object, hid, ← hpending.id]
      show Reconciled _ _ (zone'.attributes.value.map (storedAttributes s)) _ _
      cases hv : zone'.attributes.value with
      | none => rfl
      | some l =>
        rw [hv] at hrun
        show reconcile _ ((storedAttributes s l).map _) _ = _
        rw [storedAttributes_item]
        rw [hpending.attributes] at hv
        exact reconcile_numbered hwf.attributes (hpending.id ▸ howned.attributes l hv) hrun
    have hmasters : Reconciled told.id ZoneMaster.item told.masters.value s₁.masters
        s₁.masters := by
      show Reconciled told.id _ stored.masters.value _ _
      have hrun := hsent.storage.masters
      rw [hsent.object, hid, ← hpending.id]
      show Reconciled _ _ (zone'.masters.value.map (storedMasters s)) _ _
      cases hv : zone'.masters.value with
      | none => rfl
      | some l =>
        rw [hv] at hrun
        show reconcile _ ((storedMasters s l).map _) _ = _
        rw [storedMasters_item]
        rw [hpending.masters] at hv
        exact reconcile_numbered hwf.masters (hpending.id ▸ howned.masters l hv) hrun
    -- only the action and the status of the object differ from the row
    have hhidden : Hidden told.over := by
      refine ⟨fun _ => rfl, fun _ => rfl, fun r f hf => ?_⟩
      have hne : f ≠ .action ∧ f ≠ .status := by
        constructor
        · rintro rfl; exact absurd hf (by decide)
        · rintro rfl; exact absurd hf (by decide)
      have hfield : told.fields f = .loaded ((zone'.over row).columns f) := by
        show (if f = .status then _ else if f = .action then _ else stored.fields f) = _
        rw [if_neg hne.2, if_neg hne.1, hsent.object]
        rfl
      show (told.fields f).write (r.columns f) = r.columns f
      rw [hfield, Tracked.write_loaded]
    let s₂ : Store := { s₁ with zones := Table.update ZoneRow.id told.id told.over s₁.zones }
    have hstored : Stored ctx told (zone'.over row) s₁ s₂ :=
      ⟨hid ▸ hfound₁, rfl, hattributes, hmasters⟩
    have hrun : storageUpdateZone ctx told s₁ = (.ok (told.stored (zone'.over row) s₁), s₂) :=
      storageUpdateZone_eq_ok.mpr ⟨_, hstored, rfl⟩
    have htenant : (told.fields .tenantId).changed = false := by
      show (stored.fields .tenantId).changed = false
      rw [hsent.object]
      rfl
    have hfound₂ := hstored.findRow (hsent.storage.wf hwf).zones htenant
    refine ⟨s₂, told.over, _, ?_, hhidden, ?_, rfl, rfl, hid ▸ hfound₂⟩
    · rw [if_pos rfl, bind_ok hrun]
      rfl
    · show Table.update ZoneRow.id told.id told.over s₁.zones = _
      rw [hid]

/-! ## The roll-back -/

/-- The update ended with the worker's exception, and the zone is what it was before. -/
def RolledBack (id : Nat) (e : Exc) (s : Store) (o : Except Raised ZoneObject × Store) : Prop :=
  o.1 = .error (.worker e) ∧ o.2.zones.map ZoneRow.shown = s.zones.map ZoneRow.shown ∧
    o.2.attributes.own id = s.attributes.own id ∧ o.2.masters.own id = s.masters.own id

/-- A list that is written raises what the storage raises. -/
theorem writeList_not_worker {ι : Type} (call : List ι → Request Unit)
    (hcall : ∀ l s, ∃ r : Except Refusal Unit, (call l s).1 = r.mapError .storage) {e : Exc}
    (list : Option (List ι)) :
    list.elim (pure () : Request Unit) call s ≠ (.error (.worker e), s') := by
  intro h
  have he := congrArg Prod.fst h
  cases list with
  | none => exact absurd he (by simp)
  | some l =>
    obtain ⟨r, hr⟩ := hcall l s
    rw [show ((some l).elim (pure ()) call s).1 = _ from hr] at he
    cases r with
    | error r => exact absurd he (by simp [Except.mapError])
    | ok u => exact absurd he (by simp [Except.mapError])

/-- What `storage.update_zone` raises is its own. -/
theorem storageUpdateZone_not_worker {e : Exc} :
    storageUpdateZone ctx zone s ≠ (.error (.worker e), s') := by
  intro h
  unfold storageUpdateZone at h
  rw [bind_ok (Exec.read_apply _ _)] at h
  rcases bind_eq_error.mp h with h | ⟨row, s₁, h₁, h⟩
  · have hfind := congrArg Prod.fst h
    have hraised := Table.find_error hfind
    exact absurd hraised (by simp)
  rw [bind_ok (Exec.modify_apply _ _)] at h
  rcases bind_eq_error.mp h with h | ⟨⟨⟩, s₂, h₂, h⟩
  · rw [updateAttributes_elim] at h
    exact writeList_not_worker (reconcileAttributes zone.id) (fun _ _ => ⟨_, rfl⟩) _ h
  rcases bind_eq_error.mp h with h | ⟨⟨⟩, s₃, h₃, h⟩
  · rw [updateMasters_elim] at h
    exact writeList_not_worker (reconcileMasters zone.id) (fun _ _ => ⟨_, rfl⟩) _ h
  · exact absurd (congrArg Prod.fst h) (by simp)

/-- The copy puts every field its user sees back over what the update and the worker wrote. -/
theorem Sent.restores {origin stored zone' : ZoneObject} {row : ZoneRow} {s₁ : Store}
    {G : ZoneRow → ZoneRow} (hsent : Sent ctx zone origin stored row zone' s s₁) (hG : Hidden G) :
    (origin.over (G (zone'.over row))).shown = row.shown := by
  refine Prod.ext (hG.id _) (Prod.ext (hG.deleted _) (funext fun f => ?_))
  show (if f.shown then (origin.over (G (zone'.over row))).columns f else .null) =
    if f.shown then row.columns f else .null
  cases hf : f.shown with
  | false => rfl
  | true =>
    show (origin.fields f).write ((G (zone'.over row)).columns f) = row.columns f
    rw [hG.columns _ f hf]
    show (origin.fields f).write ((zone'.fields f).write (row.columns f)) = row.columns f
    rw [hsent.pending.fields f hf, hsent.copy]
    show (if (zone.fields f).changed then (zone.fields f).set (row.columns f)
      else zone.fields f).write _ = _
    cases hc : (zone.fields f).changed with
    | true =>
      rw [if_pos rfl]
      exact Tracked.set_write_of_changed hc _ _
    | false =>
      rw [if_neg (by simp)]
      simp [Tracked.write, hc]

/-- The zones after the copy has been stored, to a user, are those from before the update. -/
theorem Sent.restored {origin stored zone' : ZoneObject} {row : ZoneRow} {s₁ s₂ s₃ : Store}
    {G : ZoneRow → ZoneRow} (hwf : s.Wf) (hsent : Sent ctx zone origin stored row zone' s s₁)
    (hG : Hidden G) (h₂ : s₂.zones = Table.update ZoneRow.id zone.id G s₁.zones)
    (h₃ : s₃.zones = Table.update ZoneRow.id zone.id origin.over s₂.zones) :
    s₃.zones.map ZoneRow.shown = s.zones.map ZoneRow.shown := by
  have hz₁ := hsent.storage.zones
  rw [hsent.pending.id] at hz₁
  have hover : ∀ row : ZoneRow, row.id = zone.id → (zone'.over row).id = zone.id :=
    fun _ hid => hid
  rw [h₃, h₂, hz₁, Table.update_update fun zone hid => (hG.id zone).trans hid,
    Table.update_update hover]
  refine Table.map_update (f := fun r => origin.over (G (zone'.over r))) fun r hr hid => ?_
  obtain ⟨hm, hrow, -⟩ := findRow_mem hsent.found
  rw [Table.eq_of_key hwf.zones hr hm (hid.trans hrow.symm)]
  exact hsent.restores hG

theorem updateZone_apply {call : WorkerCall} {increment : Bool} {origin stored : ZoneObject}
    {s₁ : Store}
    (h : updateZoneBefore ctx env zone increment s = (.ok (origin, stored), s₁)) :
    updateZone ctx env call zone increment s =
      (Exec.onError (zoneApiUpdateZone ctx call stored)
        (do let _ ← storageUpdateZone ctx origin) >>= fun _ => getZone ctx stored.id) s₁ := by
  unfold updateZone
  rw [bind_ok h]

/-- The update is rolled back where storing the copy goes through and puts the lists back. -/
theorem updateZone_rolledBack {call : WorkerCall} {increment : Bool}
    {origin stored : ZoneObject} {s₁ s₂ : Store} {e : Exc}
    (hbefore : updateZoneBefore ctx env zone increment s = (.ok (origin, stored), s₁))
    (hapi : zoneApiUpdateZone ctx call stored s₁ = (.error (.worker e), s₂)) :
    RolledBack zone.id e s (updateZone ctx env call zone increment s) ↔
      ∃ z s₃, storageUpdateZone ctx origin s₂ = (.ok z, s₃) ∧
        s₃.zones.map ZoneRow.shown = s.zones.map ZoneRow.shown ∧
        s₃.attributes.own zone.id = s.attributes.own zone.id ∧
        s₃.masters.own zone.id = s.masters.own zone.id := by
  rw [updateZone_apply hbefore]
  cases hback : storageUpdateZone ctx origin s₂ with
  | mk r s₃ =>
    cases r with
    | ok z =>
      have hraises : Exec.onError (zoneApiUpdateZone ctx call stored)
          (do let _ ← storageUpdateZone ctx origin) s₁ = (.error (.worker e), s₃) :=
        onError_handled hapi (bind_ok hback)
      rw [bind_error hraises]
      constructor
      · rintro ⟨-, hz, ha, hm⟩
        exact ⟨z, s₃, rfl, hz, ha, hm⟩
      · rintro ⟨z', s₃', hsame, hz, ha, hm⟩
        obtain rfl := congrArg Prod.snd hsame
        exact ⟨rfl, hz, ha, hm⟩
    | error e' =>
      -- the exception of the roll-back takes the place of the worker's
      have hraises : Exec.onError (zoneApiUpdateZone ctx call stored)
          (do let _ ← storageUpdateZone ctx origin) s₁ = (.error e', s₃) := by
        unfold Exec.onError
        rw [hapi]
        dsimp only
        rw [bind_error hback]
      rw [bind_error hraises]
      constructor
      · rintro ⟨he, -⟩
        obtain rfl := Except.error.inj he
        exact absurd hback storageUpdateZone_not_worker
      · rintro ⟨z, s₃', hsame, -⟩
        exact absurd (congrArg Prod.fst hsame) (by simp)

/--
**A failed update of a zone is taken back exactly if both of its lists can be: where a
list was set, it named every stored row and changed none.**
-/
theorem updateZone_rolledBack_iff (ctx : Context) (env : Surroundings) (call : WorkerCall)
    (zone : ZoneObject) (increment : Bool) (s : Store) (origin stored : ZoneObject) (s₁ : Store)
    (row : ZoneRow) (e : Exc) (hwf : s.Wf) (howned : zone.Owned s)
    (hbefore : updateZoneBefore ctx env zone increment s = (.ok (origin, stored), s₁))
    (hrow : findRow ctx zone.id s = .ok row) (he : call.raises = some e) :
    RolledBack zone.id e s (updateZone ctx env call zone increment s) ↔
      Restorable zone.id ZoneAttribute.item (fun r => r.fst ≠ "master") zone.attributes
        s.attributes ∧
      Restorable zone.id ZoneMaster.item (fun _ => row.columns .type == .text "SECONDARY")
        zone.masters s.masters := by
  obtain ⟨row', zone', hsent⟩ := updateZoneBefore_ok hbefore
  obtain rfl := Except.ok.inj (hrow.symm.trans hsent.found)
  obtain ⟨s₂, G, row₂, hapi, hG, hz₂, ha₂, hm₂, hfound₂⟩ :=
    zoneApiUpdateZone_raises he hwf howned hsent
  have hrowId := (findRow_mem hrow).2.1
  have hid : origin.id = zone.id := by rw [hsent.copy]; rfl
  -- each list on its own
  have hpending := hsent.pending
  have ha₁ := hsent.storage.attributes
  have hm₁ := hsent.storage.masters
  rw [hpending.id, hpending.attributes, ← ha₂] at ha₁
  rw [hpending.id, hpending.masters, ← hm₂] at hm₁
  have hattributes := originList_iff (fun r => r.fst ≠ "master")
    (fun r => (rfl : (ZoneAttribute.ofRow r).item = r.item)) hwf.attributes howned.attributes ha₁
  have hmasters := originList_iff (fun _ => row.columns .type == .text "SECONDARY")
    (fun r => (rfl : (ZoneMaster.ofRow r).item = r.item)) hwf.masters howned.masters hm₁
  rw [updateZone_rolledBack hbefore hapi, ← hattributes, ← hmasters]
  have hcopy : origin.attributes.value = (originList zone.attributes
      (((s.attributes.own zone.id).filter fun r => r.fst ≠ "master").map
        ZoneAttribute.ofRow)).value ∧
      origin.masters.value = (originList zone.masters
        (((s.masters.own zone.id).filter fun _ => row.columns .type == .text "SECONDARY").map
          ZoneMaster.ofRow)).value := by
    rw [hsent.copy, ← hrowId]
    exact ⟨rfl, rfl⟩
  constructor
  · rintro ⟨z, s₃, hrun, -, ha, hm⟩
    obtain ⟨row₃, hstored, -⟩ := storageUpdateZone_eq_ok.mp hrun
    have ha₃ := hstored.attributes
    have hm₃ := hstored.masters
    rw [hid, hcopy.1] at ha₃
    rw [hid, hcopy.2] at hm₃
    exact ⟨⟨s₃.attributes, ha₃, ha⟩, ⟨s₃.masters, hm₃, hm⟩⟩
  · rintro ⟨⟨c, hc, ha⟩, ⟨d, hd, hm⟩⟩
    let s₃ : Store := ⟨Table.update ZoneRow.id origin.id origin.over s₂.zones, c, d⟩
    have hstored : Stored ctx origin row₂ s₂ s₃ := by
      refine ⟨hid ▸ hfound₂, rfl, ?_, ?_⟩
      · rw [hid, hcopy.1]; exact hc
      · rw [hid, hcopy.2]; exact hd
    refine ⟨_, s₃, storageUpdateZone_eq_ok.mpr ⟨row₂, hstored, rfl⟩, ?_, ha, hm⟩
    refine hsent.restored hwf hG hz₂ ?_
    show Table.update ZoneRow.id origin.id origin.over s₂.zones = _
    rw [hid]

end ZoneUpdate

/-! ## A secondary zone -/

namespace ZoneUpdate.Sample

open Exec Reconcile

/-- A secondary zone with one master and one attribute. -/
def store : Store where
  zones := [⟨2, false, fun
    | .tenantId => .text "t"
    | .name => .text "example.com."
    | .type => .text "SECONDARY"
    | .serial => .nat 1
    | .ttl => .nat 3600
    | .action => .text "NONE"
    | .status => .text "ACTIVE"
    | _ => .null⟩]
  attributes := ⟨[⟨3, 2, "service_tier", "gold"⟩], 4⟩
  masters := ⟨[⟨3, 2, "192.0.2.1", 53⟩], 4⟩

def row : ZoneRow := store.zones.headD ⟨0, false, fun _ => .null⟩

/-- The zone as `get_zone` loads it. -/
def loaded : ZoneObject where
  id := 2
  fields := fun f => .loaded (row.columns f)
  attributes := .loaded [⟨some 3, .loaded "service_tier", .loaded "gold"⟩]
  masters := .loaded [⟨some 3, .loaded "192.0.2.1", .loaded 53⟩]

/-- The zone with another TTL. -/
def retimed : ZoneObject := loaded.set .ttl (.nat 600)

/-- The zone with other masters, as a request names them. -/
def moved : ZoneObject :=
  { loaded with
    masters := loaded.masters.set [⟨none, Tracked.unset.set "192.0.2.9", Tracked.unset.set 53⟩] }

def env : Surroundings := ⟨{}, fun _ => .ok (), .ok ()⟩

def ctx : Context := { tenant := "t" }

/-- A worker that fails and gets no report through. -/
def silent : WorkerCall := ⟨false, some .StepFailed⟩

theorem store_wf : store.Wf where
  zones := by decide
  attributes := ⟨by decide, by decide⟩
  masters := ⟨by decide, by decide⟩

/-- The lists of a loaded zone name its rows. -/
theorem loaded_owned : loaded.Owned store where
  attributes := by
    intro l hl
    obtain rfl := Option.some.inj hl
    rintro item hitem id hid
    obtain rfl := List.mem_singleton.mp hitem
    exact ⟨⟨3, 2, "service_tier", "gold"⟩, by decide, Option.some.inj hid⟩
  masters := by
    intro l hl
    obtain rfl := Option.some.inj hl
    rintro item hitem id hid
    obtain rfl := List.mem_singleton.mp hitem
    exact ⟨⟨3, 2, "192.0.2.1", 53⟩, by decide, Option.some.inj hid⟩

theorem of_isSome {α : Type} {o : Except Raised α × Store} (h : o.1.toOption.isSome = true) :
    ∃ a s, o = (.ok a, s) := by
  obtain ⟨r, s⟩ := o
  cases r with
  | error e => exact absurd h (by simp [Except.toOption])
  | ok a => exact ⟨a, s, rfl⟩

end ZoneUpdate.Sample

namespace ZoneUpdate

/-- A change of the TTL leaves both lists as they were loaded, and is taken back. -/
theorem updateZone_rolledBack_iff_sample :
    RolledBack 2 .StepFailed Sample.store
      (updateZone Sample.ctx Sample.env Sample.silent
        Sample.retimed true Sample.store) := by
  obtain ⟨⟨origin, stored⟩, s₁, hbefore⟩ := Sample.of_isSome
    (o := updateZoneBefore Sample.ctx Sample.env Sample.retimed
      true Sample.store) (by decide +kernel)
  have howned := Sample.loaded_owned
  refine (updateZone_rolledBack_iff _ _ Sample.silent Sample.retimed _ _ origin stored s₁
    Sample.row .StepFailed Sample.store_wf
    ⟨howned.attributes, howned.masters⟩ hbefore rfl rfl).mpr ⟨?_, ?_⟩
  · refine ⟨fun l hl => ?_, fun l hl _ => ?_, fun h => absurd h (by decide)⟩
    · obtain rfl := Option.some.inj hl
      unfold Reconcile.Unharmed
      decide
    · obtain rfl := Option.some.inj hl
      decide
  · refine ⟨fun l hl => ?_, fun l hl _ => ?_, fun h => absurd h (by decide)⟩
    · obtain rfl := Option.some.inj hl
      unfold Reconcile.Unharmed
      decide
    · obtain rfl := Option.some.inj hl
      decide

/-- The master a request replaced is gone, and another error is raised than the worker's. -/
theorem replaced_masters_lost :
    ¬ ∀ (ctx : Context) (env : Surroundings) (call : WorkerCall) (zone : ZoneObject)
      (increment : Bool) (s : Store) (origin stored : ZoneObject) (s₁ : Store) (e : Exc),
      s.Wf → zone.Owned s →
      updateZoneBefore ctx env zone increment s = (.ok (origin, stored), s₁) →
      call.raises = some e → RolledBack zone.id e s (updateZone ctx env call zone increment s) := by
  intro h
  obtain ⟨⟨origin, stored⟩, s₁, hbefore⟩ := Sample.of_isSome
    (o := updateZoneBefore Sample.ctx Sample.env Sample.moved
      true Sample.store) (by decide +kernel)
  have howned : Sample.moved.Owned Sample.store := by
    refine ⟨Sample.loaded_owned.attributes, fun l hl => ?_⟩
    obtain rfl := Option.some.inj hl
    intro item hitem id hid
    obtain rfl := List.mem_singleton.mp hitem
    exact absurd (show (none : Option Nat) = some id from hid) (by simp)
  obtain ⟨-, -, -, hmasters⟩ := h Sample.ctx _ Sample.silent _ true _ _ _ _ _
    Sample.store_wf howned hbefore rfl
  revert hmasters
  decide +kernel

end ZoneUpdate

end Designate
