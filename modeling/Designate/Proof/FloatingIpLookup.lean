import Designate.Proof.FloatingIps
import Designate.Proof.Keeps
import Mathlib.Data.List.Induction

/-!
# One floating IP and all of them

`get_floatingip` has every floating IP of the region determined and formatted, as
`list_floatingips` has those of all regions, and then returns the first. The dictionary
of a region has what the whole dictionary has in the region, and deleting the records of
other tenants touches nothing that is shown. So the two calls agree on the floating IP
that is first in the dictionary of its region, and on no other. Where dictionaries keep
the order they are filled in, this is the one the network service reports first.
-/

namespace Designate

namespace FloatingIps

open Exec

variable {ctx : Context} {conf : Conf} {env : Env} {network : Network} {w w₁ w₂ : World}

/-! ## The dictionary -/

/-- What a floating IP stands under in the dictionary. -/
def Fip.key (fip : Fip) : String × String := (fip.region, fip.id)

/-- The turn of `_list_to_dict` for a floating IP. -/
def put (dict : List Fip) (fip : Fip) : List Fip :=
  if dict.any fun f => f.region == fip.region && f.id == fip.id then
    dict.map fun f => if f.region = fip.region ∧ f.id = fip.id then fip else f
  else dict ++ [fip]

theorem listToDict_snoc (fips : List Fip) (fip : Fip) :
    listToDict (fips ++ [fip]) = put (listToDict fips) fip := by
  unfold listToDict put
  rw [List.foldl_concat]

theorem Fip.key_eq {f fip : Fip} : f.key = fip.key ↔ f.region = fip.region ∧ f.id = fip.id :=
  Prod.mk.injEq .. ▸ Iff.rfl

/-- A key is taken when some floating IP is under it. -/
theorem taken_iff (dict : List Fip) (fip : Fip) :
    (dict.any fun f => f.region == fip.region && f.id == fip.id) = true ↔
      fip.key ∈ dict.map Fip.key := by
  rw [List.any_eq_true, List.mem_map]
  constructor
  · rintro ⟨f, hf, heq⟩
    rw [Bool.and_eq_true, beq_iff_eq, beq_iff_eq] at heq
    exact ⟨f, hf, Fip.key_eq.mpr heq⟩
  · rintro ⟨f, hf, heq⟩
    refine ⟨f, hf, ?_⟩
    rw [Bool.and_eq_true, beq_iff_eq, beq_iff_eq]
    exact Fip.key_eq.mp heq

/-- A new key goes to the end, a taken one stays where it is. -/
theorem put_keys (dict : List Fip) (fip : Fip) :
    (put dict fip).map Fip.key =
      if fip.key ∈ dict.map Fip.key then dict.map Fip.key else dict.map Fip.key ++ [fip.key] := by
  unfold put
  by_cases h : fip.key ∈ dict.map Fip.key
  · rw [if_pos ((taken_iff dict fip).mpr h), if_pos h, List.map_map]
    refine List.map_congr_left fun f _ => ?_
    by_cases hf : f.region = fip.region ∧ f.id = fip.id
    · rw [Function.comp_apply, if_pos hf]
      exact (Fip.key_eq.mpr hf).symm
    · rw [Function.comp_apply, if_neg hf]
  · rw [if_neg (fun ht => h ((taken_iff dict fip).mp ht)), if_neg h, List.map_append]
    rfl

theorem listToDict_nodup (fips : List Fip) : ((listToDict fips).map Fip.key).Nodup := by
  induction fips using List.reverseRecOn with
  | nil => exact List.nodup_nil
  | append_singleton fips fip ih =>
    rw [listToDict_snoc, put_keys]
    split
    · exact ih
    · rename_i hnew
      refine List.nodup_append.mpr ⟨ih, List.nodup_singleton _, ?_⟩
      rintro k hk k' hk' rfl
      rw [List.mem_singleton] at hk'
      exact hnew (hk' ▸ hk)

theorem mem_listToDict_keys (fips : List Fip) (k : String × String) :
    k ∈ (listToDict fips).map Fip.key ↔ k ∈ fips.map Fip.key := by
  induction fips using List.reverseRecOn with
  | nil => exact Iff.rfl
  | append_singleton fips fip ih =>
    rw [listToDict_snoc, put_keys, List.map_append, List.mem_append, ← ih]
    split
    · rename_i htaken
      refine ⟨Or.inl, ?_⟩
      rintro (hk | hk)
      · exact hk
      · rw [List.map_singleton, List.mem_singleton] at hk
        exact hk ▸ htaken
    · rw [List.mem_append, List.map_singleton]

/-- The first key of the dictionary is the first that was put in. -/
theorem listToDict_head_key (fips : List Fip) :
    ((listToDict fips).map Fip.key).head? = (fips.map Fip.key).head? := by
  induction fips using List.reverseRecOn with
  | nil => rfl
  | append_singleton fips fip ih =>
    rw [listToDict_snoc, put_keys, List.map_append, List.head?_append, ← ih]
    split
    · rename_i htaken
      -- something is there, so it has a first
      obtain ⟨k, ks, hks⟩ := List.exists_cons_of_ne_nil (List.ne_nil_of_mem htaken)
      rw [hks]
      rfl
    · rw [List.head?_append]
      rfl

/-- What is put in under another region is not seen in this one. -/
theorem put_filter (region : String) (dict : List Fip) (fip : Fip) :
    (put dict fip).filter (fun f => f.region == region) =
      if fip.region = region then put (dict.filter fun f => f.region == region) fip
      else dict.filter fun f => f.region == region := by
  have hmap : ∀ l : List Fip,
      (l.map fun f => if f.region = fip.region ∧ f.id = fip.id then fip else f).filter
          (fun f => f.region == region) =
        (l.filter fun f => f.region == region).map
          fun f => if f.region = fip.region ∧ f.id = fip.id then fip else f := by
    intro l
    rw [List.filter_map]
    congr 1
    refine List.filter_congr fun f _ => ?_
    rw [Function.comp_apply]
    split
    · rename_i hf
      rw [hf.1]
    · rfl
  -- the key is the region and the identifier, so only an entry of this region can be replaced in
  -- it
  by_cases hregion : fip.region = region
  · rw [if_pos hregion]
    have htaken : (dict.filter fun f => f.region == region).any
        (fun f => f.region == fip.region && f.id == fip.id) =
          dict.any fun f => f.region == fip.region && f.id == fip.id := by
      rw [List.any_filter]
      refine congrArg (dict.any ·) (funext fun f => ?_)
      rw [hregion]
      cases f.region == region <;> rfl
    unfold put
    rw [htaken]
    split
    · exact hmap dict
    · rw [List.filter_append, List.filter_cons_of_pos (by rw [hregion, beq_self_eq_true])]
      rfl
  · rw [if_neg hregion]
    unfold put
    split
    · rw [hmap]
      refine (List.map_congr_left fun f hf => ?_).trans (List.map_id _)
      have hin : f.region = region := beq_iff_eq.mp (List.mem_filter.mp hf).2
      exact if_neg fun hkey => hregion (hkey.1.symm.trans hin)
    · rw [List.filter_append, List.filter_cons_of_neg (by simpa using hregion), List.filter_nil,
        List.append_nil]

/-- The dictionary of a region is the part of the dictionary that is in the region. -/
theorem listToDict_filter (region : String) (fips : List Fip) :
    listToDict (fips.filter fun f => f.region == region) =
      (listToDict fips).filter fun f => f.region == region := by
  induction fips using List.reverseRecOn with
  | nil => rfl
  | append_singleton fips fip ih =>
    rw [listToDict_snoc, put_filter, List.filter_append, ← ih]
    by_cases hregion : fip.region = region
    · rw [if_pos hregion, List.filter_cons_of_pos (by rw [hregion, beq_self_eq_true]),
        List.filter_nil, listToDict_snoc]
    · rw [if_neg hregion, List.filter_cons_of_neg (by simpa using hregion), List.filter_nil,
        List.append_nil]

/-- The filter of the network service for a region. -/
theorem asked_region (region : String) :
    (fun f : Fip => (some region).all (· == f.region)) = fun f => f.region == region := by
  funext f
  exact Bool.beq_comm

theorem listOf_none_perm :
    (listOf env network ctx none).Perm (listToDict (network ctx.tenant)) := by
  unfold listOf
  have hall : (network ctx.tenant).filter (fun fip => (none : Option String).all (· == fip.region)) =
      network ctx.tenant := List.filter_eq_self.mpr fun _ _ => rfl
  rw [hall]
  exact env.perm _

/-- What is listed of a region is what is listed of all that is in the region. -/
theorem listOf_some_perm (region : String) :
    (listOf env network ctx (some region)).Perm
      ((listOf env network ctx none).filter fun f => f.region == region) := by
  have hregion : (listOf env network ctx (some region)).Perm
      ((listToDict (network ctx.tenant)).filter fun f => f.region == region) := by
    unfold listOf
    rw [asked_region, listToDict_filter]
    exact env.perm _
  exact hregion.trans (listOf_none_perm.filter _).symm

variable (ctx env network) in
/-- A key is listed once. -/
theorem listOf_none_nodup : ((listOf env network ctx none).map Fip.key).Nodup :=
  (listOf_none_perm.map Fip.key).nodup_iff.mpr (listToDict_nodup _)

theorem mem_listOf_some {region : String} {fip : Fip} :
    fip ∈ listOf env network ctx (some region) ↔
      fip ∈ listOf env network ctx none ∧ fip.region = region := by
  rw [(listOf_some_perm region).mem_iff, List.mem_filter, beq_iff_eq]

/-! ## What the tenant holds -/

/-- The network service reports the floating IP for the tenant. -/
def Listed (network : Network) (ctx : Context) (region id : String) : Prop :=
  ∃ fip ∈ network ctx.tenant, fip.region = region ∧ fip.id = id

/-- It is the first that the call for one floating IP has of the region. -/
def FirstOfRegion (env : Env) (network : Network) (ctx : Context) (region id : String) : Prop :=
  ∃ fip, (env.order (listOf env network ctx (some region))).head? = some fip ∧ fip.id = id

variable {region id : String}

variable (env) in
theorem listed_iff_key :
    Listed network ctx region id ↔
      (region, id) ∈ (listOf env network ctx (some region)).map Fip.key := by
  unfold listOf
  rw [((env.perm _).map Fip.key).mem_iff, mem_listToDict_keys, List.mem_map]
  constructor
  · rintro ⟨fip, hfip, rfl, rfl⟩
    refine ⟨fip, List.mem_filter.mpr ⟨hfip, ?_⟩, rfl⟩
    exact beq_self_eq_true fip.region
  · rintro ⟨fip, hfip, hkey⟩
    obtain ⟨hregion, hid⟩ := Prod.mk.inj hkey
    exact ⟨fip, (List.mem_filter.mp hfip).1, hregion, hid⟩

/-- `_get_floatingip` raises `NotFound`, or it does not raise. -/
theorem getOf_cases (region id : String) (fips : List Fip) :
    (∃ fip, getOf region id fips = .ok fip) ∧ (region, id) ∈ fips.map Fip.key ∨
      getOf region id fips = .error .NotFound ∧ (region, id) ∉ fips.map Fip.key := by
  unfold getOf
  cases hfind : fips.find? fun fip => fip.region == region && fip.id == id with
  | some fip =>
    have hkey := List.find?_some hfind
    rw [Bool.and_eq_true, beq_iff_eq, beq_iff_eq] at hkey
    exact Or.inl ⟨⟨fip, rfl⟩, List.mem_map.mpr
      ⟨fip, List.mem_of_find?_eq_some hfind, Prod.ext hkey.1 hkey.2⟩⟩
  | none =>
    refine Or.inr ⟨rfl, fun hmem => ?_⟩
    obtain ⟨fip, hfip, hkey⟩ := List.mem_map.mp hmem
    obtain ⟨hregion, hid⟩ := Prod.mk.inj hkey
    have hno := List.find?_eq_none.mp hfind fip hfip
    exact hno (by rw [hregion, hid, beq_self_eq_true, beq_self_eq_true, Bool.and_self])

/--
Where dictionaries keep the order they are filled in, the first of a region is the first of it in
the report: a later one under its key takes its place, and has its identifier.
-/
theorem firstOfRegion_iff_reported (hkeeps : ∀ fips, env.order fips = fips) :
    FirstOfRegion env network ctx region id ↔
      ∃ fip, (network ctx.tenant).find? (fun f => f.region == region) = some fip ∧ fip.id = id := by
  have hfirst : ((listToDict ((network ctx.tenant).filter fun f => f.region == region)).map
      Fip.key).head? = ((network ctx.tenant).find? fun f => f.region == region).map Fip.key := by
    rw [listToDict_head_key, List.head?_map, List.head?_filter]
  unfold FirstOfRegion listOf
  rw [hkeeps, hkeeps, asked_region]
  rw [List.head?_map] at hfirst
  constructor
  · rintro ⟨fip, hhead, rfl⟩
    rw [hhead, Option.map_some] at hfirst
    obtain ⟨f, hf, hkey⟩ := Option.map_eq_some_iff.mp hfirst.symm
    exact ⟨f, hf, congrArg Prod.snd hkey⟩
  · rintro ⟨fip, hfind, rfl⟩
    rw [hfind, Option.map_some] at hfirst
    obtain ⟨f, hf, hkey⟩ := Option.map_eq_some_iff.mp hfirst
    exact ⟨f, hf, congrArg Prod.snd hkey⟩

/-! ## What deleting a record leaves alone -/

/-- Zones, recordsets and all records but `id` are the same. -/
structure Apart (id : Nat) (w w' : World) : Prop where
  zones : w'.db.zones = w.db.zones
  recordsets : w'.db.recordsets = w.db.recordsets
  records : ∀ i ≠ id, w'.db.records.filter (fun r => r.id == i) =
    w.db.records.filter fun r => r.id == i

namespace Apart

variable {n : Nat} {w₀ : World} {record : Record}

theorem rfl : Apart n w w := ⟨Eq.refl _, Eq.refl _, fun _ _ => Eq.refl _⟩

/-- A step that leaves the three tables alone. -/
theorem still (h : Apart n w₀ w) {w' : World} (hz : w'.db.zones = w.db.zones)
    (hs : w'.db.recordsets = w.db.recordsets) (hr : w'.db.records = w.db.records) :
    Apart n w₀ w' :=
  ⟨hz.trans h.zones, hs.trans h.recordsets, fun i hi => by rw [hr]; exact h.records i hi⟩

theorem deleteRecordRow (hid : record.id = some n) :
    Keeps (Apart n w₀) (deleteRecordRow ctx record.id) := by
  intro w h
  cases hr : findRecordRow ctx record.id w.db with
  | error e => rw [deleteRecordRow_missing hr]; exact h
  | ok row =>
    have hrow : row.id = n := by
      obtain ⟨-, hfound, -⟩ := findRecordRow_mem hr
      exact Option.some.inj (hfound.symm.trans hid)
    rw [deleteRecordRow_ok hr]
    refine ⟨h.zones, h.recordsets, fun i hi => ?_⟩
    rw [← h.records i hi]
    refine Table.filter_remove fun r _ hrn => ?_
    exact beq_false_of_ne fun hri => hi (hri.symm.trans (hrn.trans hrow))

theorem recordActionUpdateStatus (hid : record.id = some n) {faults : Faults} {status : Status} :
    Keeps (Apart n w₀) (recordActionUpdateStatus ctx conf faults record .DELETE status) := by
  refine Keeps.bind ?_ fun _ => ?_
  · exact Keeps.modify fun w h => h.still (Eq.refl _) (Eq.refl _) (Eq.refl _)
  refine Keeps.bind (Keeps.raiseIf _ _) fun _ => Keeps.bind findRecordById_keeps fun _ => ?_
  refine Keeps.ite (fun _ => ?_) fun _ => Keeps.pure _
  refine Keeps.bind ?_ fun _ => Keeps.bind (Keeps.raiseIf _ _) fun _ => Keeps.bind ?_ fun _ =>
    Keeps.bind (Keeps.raiseIf _ _) fun _ => deleteRecordRow hid
  · refine Keeps.write fun w a w' h hw => ?_
    split at hw
    · exact absurd hw (by simp)
    · obtain ⟨-, rfl⟩ := Prod.mk.inj (Except.ok.inj hw)
      exact h.still (Eq.refl _) (Eq.refl _) (Eq.refl _)
  · refine Keeps.write fun w a w' h hw => ?_
    split at hw
    · exact absurd hw (by simp)
    · obtain ⟨-, rfl⟩ := Prod.mk.inj (Except.ok.inj hw)
      exact h.still (Eq.refl _) (Eq.refl _) (Eq.refl _)

/-- Deleting a record touches that record, what mirrors it, and the device. -/
theorem recordAction (hid : record.id = some n) {faults : Faults} {zone : Zone}
    {recordset : RecordSet} :
    Keeps (Apart n w₀) (recordAction ctx conf faults zone record .DELETE recordset) := by
  refine Keeps.saga ?_ (fun _ _ => recordActionUpdateStatus hid) (recordActionUpdateStatus hid)
  refine Keeps.bind lookupView_keeps fun _ => Keeps.bind lookupZdnsRecord_keeps fun _ => ?_
  refine Keeps.bind (Keeps.bind ?_ fun _ => Keeps.bind (Keeps.raiseIf _ _) fun _ => ?_)
    fun _ => Keeps.pure _
  · exact Keeps.modify fun w h => h.still (Eq.refl _) (Eq.refl _) (Eq.refl _)
  · refine Keeps.write fun w a w' h hw => ?_
    split at hw
    · exact absurd hw (by simp)
    · obtain ⟨-, rfl⟩ := Prod.mk.inj (Except.ok.inj hw)
      exact h.still (Eq.refl _) (Eq.refl _) (Eq.refl _)

theorem deleteRecord {faults : Faults} (zoneId recordsetId : Nat) :
    Keeps (Apart n w₀) (deleteRecord ctx conf faults zoneId recordsetId n) := by
  intro w h
  refine Keeps.bind (Keeps.read _) (fun zone => Keeps.bind (Keeps.raiseIf _ _) fun _ =>
    Keeps.bind (Keeps.read _) fun recordset => ?_) w h
  intro w h
  refine Keeps.look h fun row hrow => ?_
  have hid : row.id = n := by
    obtain ⟨-, hfound, -⟩ := findRecordRow_mem hrow
    exact (Option.some.inj hfound).symm
  refine Keeps.bind (Keeps.raiseIf _ _) (fun _ => Keeps.bind (Keeps.raiseIf _ _) fun _ =>
    Keeps.bind (Keeps.raiseIf _ _) fun _ => Keeps.bind ?_ fun _ => Keeps.pure _) w h
  exact recordAction (congrArg some hid)

end Apart

/-! ## When deleting a record gets through -/

/-- Zones, recordsets and the records under `ids` are the same. -/
structure Alike (ids : List Nat) (w w' : World) : Prop where
  zones : w'.db.zones = w.db.zones
  recordsets : w'.db.recordsets = w.db.recordsets
  records : ∀ i ∈ ids, w'.db.records.filter (fun r => r.id == i) =
    w.db.records.filter fun r => r.id == i

namespace Alike

variable {ids : List Nat} {w' : World}

theorem rfl : Alike ids w w := ⟨Eq.refl _, Eq.refl _, fun _ _ => Eq.refl _⟩

theorem findZone (h : Alike ids w w') (n : Nat) : findZone ctx n w'.db = findZone ctx n w.db := by
  unfold Designate.findZone
  rw [h.zones]

theorem findRecordsetRow (h : Alike ids w w') (n : Nat) :
    findRecordsetRow ctx n w'.db = findRecordsetRow ctx n w.db := by
  unfold Designate.findRecordsetRow Db.liveZone
  rw [h.zones, h.recordsets]

theorem findRecordRow (h : Alike ids w w') {n : Nat} (hn : n ∈ ids) :
    findRecordRow ctx (some n) w'.db = findRecordRow ctx (some n) w.db := by
  have hsplit : ∀ l : List RecordRow,
      l.filter (fun r => decide (r.id = n) && ctx.sees r.tenantId) =
        (l.filter fun r => r.id == n).filter fun r => ctx.sees r.tenantId := by
    intro l
    rw [List.filter_filter]
    refine List.filter_congr fun r _ => ?_
    rw [Bool.and_comm]
    rfl
  unfold Designate.findRecordRow Table.find
  dsimp only
  rw [hsplit, hsplit, h.records n hn]

/-- Deleting another record on one side keeps it so. -/
theorem apart {n : Nat} (h : Alike ids w w') (hn : n ∉ ids) (ha : Apart n w w₁) :
    Alike ids w₁ w' :=
  ⟨h.zones.trans ha.zones.symm, h.recordsets.trans ha.recordsets.symm, fun i hi =>
    (h.records i hi).trans (ha.records i fun hin => hn (hin ▸ hi)).symm⟩

/-- And on the other. -/
theorem apart_right {n : Nat} (h : Alike ids w w') (hn : n ∉ ids) (ha : Apart n w' w₁) :
    Alike ids w w₁ :=
  ⟨ha.zones.trans h.zones, ha.recordsets.trans h.recordsets, fun i hi =>
    (ha.records i fun hin => hn (hin ▸ hi)).trans (h.records i hi)⟩

end Alike

/-- Whatever becomes of it, the action that deletes a record returns. -/
theorem recordAction_delete_returns {zone : Zone} {record : Record} {recordset : RecordSet}
    {n : Nat} (hid : record.id = some n) (w : World) :
    ∃ answer w', recordAction ctx conf Faults.none zone record .DELETE recordset w =
      (.ok answer, w') :=
  saga_always (fun _ => ⟨(), _, handler_quiet (Or.inr rfl) rfl hid⟩) w

/-- The object `get_recordset` makes of a row. -/
def recordsetOf (ctx : Context) (n : Nat) (row : RecordSetRow) (w : World) : RecordSet :=
  RecordSet.ofRow row
    ((w.db.records.filter fun r => r.recordsetId == n && ctx.sees r.tenantId).map Record.ofRow)

theorem getRecordset_apply (n : Nat) (w : World) :
    getRecordset ctx n w =
      ((findRecordsetRow ctx n w.db).map fun row => recordsetOf ctx n row w, w) := rfl

/-- The object a record is deleted as. -/
def deleting (row : RecordRow) : Record :=
  { Record.ofRow row with action := (Record.ofRow row).action.set .DELETE }

theorem deleteRecord_returns {n zoneId recordsetId : Nat} {record : Record} {w' : World}
    (h : Alike [n] w w')
    (hrun : deleteRecord (managing ctx) conf Faults.none zoneId recordsetId n w =
      (.ok record, w₁)) :
    ∃ record w₂, deleteRecord (managing ctx) conf Faults.none zoneId recordsetId n w' =
      (.ok record, w₂) := by
  unfold deleteRecord at hrun
  obtain ⟨zone, _, hz, hrun⟩ := bind_eq_ok.mp hrun
  obtain ⟨hzone, rfl⟩ := Prod.mk.inj hz
  obtain ⟨hdeleting, hrun⟩ := of_raiseIf_bind hrun
  obtain ⟨recordset, _, hs, hrun⟩ := bind_eq_ok.mp hrun
  obtain ⟨hrecordset, rfl⟩ := Prod.mk.inj hs
  obtain ⟨row, _, hr, hrun⟩ := bind_eq_ok.mp hrun
  obtain ⟨hrow, rfl⟩ := Prod.mk.inj hr
  obtain ⟨hzoneId, hrun⟩ := of_raiseIf_bind hrun
  obtain ⟨hrecordsetId, -⟩ := of_raiseIf_bind hrun
  -- the recordset is made from the same row, though its other records may have changed
  obtain ⟨setRow, hset, rfl⟩ : ∃ setRow,
      findRecordsetRow (managing ctx) recordsetId w.db = .ok setRow ∧
      recordset = recordsetOf (managing ctx) recordsetId setRow w := by
    cases hset : findRecordsetRow (managing ctx) recordsetId w.db with
    | error e =>
      dsimp only at hrecordset
      rw [hset] at hrecordset
      exact absurd hrecordset nofun
    | ok setRow =>
      dsimp only at hrecordset
      rw [hset] at hrecordset
      exact ⟨setRow, rfl, (Except.ok.inj hrecordset).symm⟩
  have hzone' : getZone (managing ctx) zoneId w' = (.ok zone, w') :=
    Prod.ext ((h.findZone zoneId).trans hzone) rfl
  have hrefuse : refuseDeletingZone zone w' = (.ok (), w') := raiseIf_of_not hdeleting _ w'
  have hset' : getRecordset (managing ctx) recordsetId w' =
      (.ok (recordsetOf (managing ctx) recordsetId setRow w'), w') := by
    rw [getRecordset_apply, h.findRecordsetRow, hset]
    rfl
  have hrow' : getRecord (managing ctx) n w' = (.ok row, w') :=
    Prod.ext ((h.findRecordRow (List.mem_singleton_self n)).trans hrow) rfl
  have hsame : decide ((recordsetOf (managing ctx) recordsetId setRow w').id ≠ row.recordsetId) =
      false := hrecordsetId
  obtain ⟨answer, w₂, hact⟩ : ∃ answer w₂,
      recordAction (managing ctx) conf Faults.none zone (deleting row) .DELETE
        (recordsetOf (managing ctx) recordsetId setRow w') w' = (.ok answer, w₂) :=
    recordAction_delete_returns rfl w'
  refine ⟨deleting row, w₂, ?_⟩
  unfold deleteRecord
  rw [bind_ok hzone', seq_ok hrefuse, bind_ok hset', bind_ok hrow',
    seq_ok (raiseIf_of_not hzoneId _ w'), seq_ok (raiseIf_of_not hsame _ w')]
  exact (seq_ok (raiseIf_of_not (Bool.and_false _) _ w')).trans ((bind_ok hact).trans rfl)

theorem invalidateOne_apart {r : RecordRow} {result : Except Exc Unit}
    (hrun : invalidateOne ctx conf r w = (result, w₁)) : Apart r.id w w₁ := by
  have hkeeps : Keeps (Apart r.id w) (invalidateOne ctx conf r) :=
    Keeps.bind (Apart.deleteRecord _ _) fun _ => Keeps.pure _
  have hend := hkeeps w Apart.rfl
  rwa [hrun] at hend

/-- Deleting a record returns, or it does not, by what is in the tables under its id. -/
theorem invalidateOne_returns {r : RecordRow} {w' : World} (h : Alike [r.id] w w')
    (hrun : invalidateOne ctx conf r w = (.ok (), w₁)) :
    ∃ w₂, invalidateOne ctx conf r w' = (.ok (), w₂) := by
  obtain ⟨record, w₃, hdelete, -⟩ := bind_eq_ok.mp hrun
  obtain ⟨record', w₂, hdelete'⟩ := deleteRecord_returns h hdelete
  exact ⟨w₂, bind_ok hdelete'⟩

/--
Records that are deleted once each are all deleted exactly when each of them could be deleted
first: what is deleted before it leaves what it takes to delete it. By induction on the records.
-/
theorem invalidate_returns_iff {l : List RecordRow} (hids : (l.map RecordRow.id).Nodup) :
    ∀ {w : World}, (∃ w₁, invalidate ctx conf l w = (.ok (), w₁)) ↔
      ∀ r ∈ l, ∃ w₁, invalidateOne ctx conf r w = (.ok (), w₁) := by
  induction l with
  | nil =>
    intro w
    exact iff_of_true ⟨w, invalidate_nil⟩ fun r hr => absurd hr List.not_mem_nil
  | cons r l ih =>
    intro w
    obtain ⟨hnew, hids⟩ := List.nodup_cons.mp hids
    -- a record of the rest is the same before and after this one is deleted
    have hother : ∀ {wr : World}, invalidateOne ctx conf r w = (.ok (), wr) → ∀ s ∈ l,
        Alike [s.id] w wr ∧ Alike [s.id] wr w := by
      intro wr hone s hs
      have hne : r.id ∉ [s.id] := by
        rw [List.mem_singleton]
        intro heq
        exact hnew (List.mem_map.mpr ⟨s, hs, heq.symm⟩)
      have hapart := invalidateOne_apart hone
      exact ⟨Alike.rfl.apart_right hne hapart, Alike.rfl.apart hne hapart⟩
    constructor
    · intro h s hs
      obtain ⟨w₁, hrun⟩ := h
      obtain ⟨u, wr, hone, hrest⟩ := bind_eq_ok.mp hrun
      rcases List.mem_cons.mp hs with rfl | hs
      · exact ⟨wr, hone⟩
      · obtain ⟨w₂, hlater⟩ := (ih hids).mp ⟨w₁, hrest⟩ s hs
        exact invalidateOne_returns (hother hone s hs).2 hlater
    · intro h
      obtain ⟨wr, hone⟩ := h r List.mem_cons_self
      obtain ⟨w₁, hrest⟩ := (ih hids).mpr fun s hs => by
        obtain ⟨w₂, hearlier⟩ := h s (List.mem_cons_of_mem _ hs)
        exact invalidateOne_returns (hother hone s hs).1 hearlier
      exact ⟨w₁, (bind_ok hone).trans hrest⟩

/-- Deleting records changes neither zones nor recordsets. -/
theorem invalidate_alike (l : List RecordRow) : Keeps (Alike [] w₁) (invalidate ctx conf l) := by
  refine Keeps.forEach fun r _ w h => ?_
  exact h.apart_right List.not_mem_nil (invalidateOne_apart rfl)

/-! ## What is shown -/

/-- The records of floating IPs. -/
def reverseRecords (ctx : Context) (w : World) : List RecordRow :=
  w.db.records.filter fun r => reverse r && (managing ctx).sees r.tenantId

def ownedBy (ctx : Context) (r : RecordRow) : Bool := r.managedBy.tenantId == some ctx.tenant

/-- A floating IP with the record the tenant has for it. -/
def paired (ctx : Context) (w : World) (fip : Fip) : Fip × Option RecordRow :=
  (fip, (recordFor (reverseRecords ctx w) fip).filter (ownedBy ctx))

/-- The records other tenants have for floating IPs. -/
def strangers (ctx : Context) (w : World) (fips : List Fip) : List RecordRow :=
  fips.filterMap fun fip => (recordFor (reverseRecords ctx w) fip).filter fun r => !ownedBy ctx r

theorem determine_apply (fips : List Fip) (w : World) :
    determine ctx env fips w =
      (.ok ((env.order fips).map (paired ctx w), strangers ctx w fips), w) := rfl

/-- What is shown for a floating IP with its record. -/
def Shows (ctx : Context) (w : World) (p : Fip × Option RecordRow) (s : FloatingIp) : Prop :=
  formatOne ctx none p.1 (p.2.map Record.ofRow) w = (.ok s, w)

/-- What is shown depends on the zones and the recordsets. -/
theorem formatOne_alike {w' : World} (h : Alike [] w w') (fip : Fip) (record : Option Record) :
    formatOne ctx none fip record w' = ((formatOne ctx none fip record w).1, w') := by
  cases record with
  | none => rfl
  | some record =>
    have hzone : ∀ n, getZone ctx.elevated n w' = (findZone ctx.elevated n w.db, w') := fun n =>
      Prod.ext (h.findZone n) rfl
    have hzone₀ : ∀ n, getZone ctx.elevated n w = (findZone ctx.elevated n w.db, w) := fun _ => rfl
    dsimp only [formatOne, ttlOf]
    rw [Option.filter_none]
    cases record.recordsetId.value with
    | none => rfl
    | some n =>
      dsimp only
      simp only [bind_apply, getRecordset_apply, h.findRecordsetRow]
      cases findRecordsetRow ctx.elevated n w.db with
      | error e => rfl
      | ok row =>
        -- the two objects differ in their records, and have the TTL of the row
        have httl : ∀ v, (recordsetOf ctx.elevated n row v).ttlValue = row.ttl := fun v => rfl
        simp only [Except.map, httl]
        cases row.ttl with
        | some ttl => rfl
        | none =>
          cases record.zoneId.value with
          | none => rfl
          | some m =>
            dsimp only
            simp only [bind_apply, hzone, hzone₀]
            cases findZone ctx.elevated m w.db with
            | error e => rfl
            | ok zone => rfl

theorem Shows.alike {p : Fip × Option RecordRow} {s : FloatingIp} {w' : World} (h : Shows ctx w p s)
    (halike : Alike [] w w') : Shows ctx w' p s := by
  unfold Shows at h ⊢
  rw [formatOne_alike halike, h]

/-- What is shown for a floating IP is about that floating IP. -/
theorem Shows.fip {p : Fip × Option RecordRow} {s : FloatingIp} (h : Shows ctx w p s) :
    s.fip = p.1 := by
  unfold Shows at h
  cases hr : p.2.map Record.ofRow with
  | none =>
    rw [hr] at h
    exact (Except.ok.inj (congrArg Prod.fst h)) ▸ rfl
  | some record =>
    rw [hr] at h
    obtain ⟨ttl, w₁, -, hpure⟩ := bind_eq_ok.mp h
    exact (Except.ok.inj (congrArg Prod.fst hpure)) ▸ rfl

/-- `_format_floatingips` shows each of them, or raises. -/
theorem format_eq_ok {data : List (Fip × Option RecordRow)} {shown : List FloatingIp} :
    format ctx data w = (.ok shown, w₁) ↔ w₁ = w ∧ List.Forall₂ (Shows ctx w) data shown := by
  induction data generalizing shown w₁ with
  | nil =>
    constructor
    · intro h
      obtain ⟨hs, rfl⟩ := Prod.mk.inj h
      obtain rfl := Except.ok.inj hs
      exact ⟨rfl, .nil⟩
    · rintro ⟨rfl, h⟩
      cases h
      rfl
  | cons p data ih =>
    obtain ⟨fip, record⟩ := p
    rw [format, bind_eq_ok]
    constructor
    · rintro ⟨s, w₂, hone, hrest⟩
      -- showing one only reads
      have hstate : w₂ = w := by
        have hsame : formatOne ctx none fip (record.map Record.ofRow) w =
            ((formatOne ctx none fip (record.map Record.ofRow) w).1, w) :=
          formatOne_alike Alike.rfl _ _
        rw [hone] at hsame
        exact congrArg Prod.snd hsame
      subst hstate
      obtain ⟨rest, w₃, hformat, hpure⟩ := bind_eq_ok.mp hrest
      obtain ⟨rfl, hall⟩ := ih.mp hformat
      obtain ⟨hs, rfl⟩ := Prod.mk.inj hpure
      obtain rfl := Except.ok.inj hs
      exact ⟨rfl, .cons hone hall⟩
    · rintro ⟨rfl, h⟩
      cases h with
      | cons hone hall =>
        exact ⟨_, w₁, hone, (bind_ok (ih.mpr ⟨rfl, hall⟩)).trans rfl⟩

/-! ## The two calls -/

/-- How a list comes about. -/
theorem listFloatingips_eq_ok {entries : List FloatingIp} :
    listFloatingips ctx conf env network w = (.ok entries, w₁) ↔
      invalidate ctx conf (strangers ctx w (listOf env network ctx none)) w = (.ok (), w₁) ∧
        List.Forall₂ (Shows ctx w₁)
          ((env.order (listOf env network ctx none)).map (paired ctx w)) entries := by
  unfold listFloatingips
  rw [bind_ok (determine_apply _ _), bind_eq_ok]
  constructor
  · rintro ⟨u, w₂, hinvalidate, hformat⟩
    obtain ⟨rfl, hall⟩ := format_eq_ok.mp hformat
    exact ⟨hinvalidate, hall⟩
  · rintro ⟨hinvalidate, hall⟩
    exact ⟨(), w₁, hinvalidate, format_eq_ok.mpr ⟨rfl, hall⟩⟩

/-- How one floating IP comes about: it is the first of those that are shown. -/
theorem getFloatingip_eq_ok {shown : FloatingIp} :
    getFloatingip ctx conf env network region id w = (.ok shown, w₁) ↔
      Listed network ctx region id ∧
        invalidate ctx conf (strangers ctx w (listOf env network ctx (some region))) w = (.ok (), w₁) ∧
        ∃ rest, List.Forall₂ (Shows ctx w₁)
          ((env.order (listOf env network ctx (some region))).map (paired ctx w)) (shown :: rest) := by
  rw [listed_iff_key env]
  unfold getFloatingip
  -- either the identifier is among those that Neutron lists, or the call raises before it looks
  -- at a record
  rcases getOf_cases region id (listOf env network ctx (some region)) with
    ⟨⟨fip, hget⟩, hkey⟩ | ⟨hget, hkey⟩
  · have hread : (Exec.read fun _ => getOf region id (listOf env network ctx (some region)) :
        Call Fip) w = (.ok fip, w) := by rw [read_apply, hget]
    dsimp only
    rw [bind_ok hread, bind_ok (determine_apply _ _), bind_eq_ok]
    constructor
    · rintro ⟨u, w₂, hinvalidate, hformat⟩
      obtain ⟨all, w₃, hformat, hfirst⟩ := bind_eq_ok.mp hformat
      obtain ⟨rfl, hall⟩ := format_eq_ok.mp hformat
      -- an empty list has no first: the call would raise
      cases all with
      | nil => exact absurd hfirst nofun
      | cons s rest =>
        obtain ⟨hs, rfl⟩ := Prod.mk.inj hfirst
        obtain rfl := Except.ok.inj hs
        exact ⟨hkey, hinvalidate, rest, hall⟩
    · rintro ⟨-, hinvalidate, rest, hall⟩
      refine ⟨(), w₁, hinvalidate, ?_⟩
      rw [bind_ok (format_eq_ok.mpr ⟨rfl, hall⟩)]
      rfl
  · have hread : (Exec.read fun _ => getOf region id (listOf env network ctx (some region)) :
        Call Fip) w = (.error .NotFound, w) := by rw [read_apply, hget]
    dsimp only
    constructor
    · intro hrun
      obtain ⟨fip, w₂, hok, -⟩ := bind_eq_ok.mp hrun
      rw [hread] at hok
      exact absurd hok nofun
    · intro h
      exact absurd h.1 hkey

/-! ## `NotFound` -/

theorem findZone_avoids (n : Nat) : Avoids .NotFound (getZone ctx n) := by
  refine Avoids.read fun s he => ?_
  exact absurd (Table.find_error he) nofun

theorem findRecordset_avoids (n : Nat) : Avoids .NotFound (getRecordset ctx n) := by
  refine Avoids.read fun s he => ?_
  cases hrow : findRecordsetRow ctx n s.db with
  | ok row => rw [hrow] at he; exact absurd he nofun
  | error e =>
    rw [hrow] at he
    obtain rfl := Except.error.inj he
    exact absurd (Table.find_error hrow) nofun

theorem deleteRecord_avoids (zoneId recordsetId n : Nat) :
    Avoids .NotFound (deleteRecord ctx conf Faults.none zoneId recordsetId n) := by
  refine Avoids.bind (findZone_avoids _) fun zone => ?_
  refine Avoids.bind (Avoids.raiseIf _ nofun) fun _ => ?_
  refine Avoids.bind (findRecordset_avoids _) fun recordset => ?_
  refine Avoids.bind (Avoids.read fun s he => absurd (Table.find_error he) nofun) fun row => ?_
  refine Avoids.bind (Avoids.raiseIf _ nofun) fun _ => ?_
  refine Avoids.bind (Avoids.raiseIf _ nofun) fun _ => ?_
  refine Avoids.bind (Avoids.raiseIf _ nofun) fun _ => ?_
  exact Avoids.bind (Avoids.of_returns (recordAction_delete_returns rfl)) fun _ => Avoids.pure _ _

theorem ttlOf_avoids (recordsets : Option RecordSet) (record : Record) :
    Avoids .NotFound (ttlOf ctx recordsets record) := by
  unfold ttlOf
  extract_lets rest
  have hrest : ∀ recordset : RecordSet, Avoids .NotFound (rest recordset) := by
    intro recordset
    unfold rest
    split
    · exact Avoids.pure _ _
    · exact Avoids.bind (findZone_avoids _) fun _ => Avoids.pure _ _
    · exact Avoids.raise nofun
  split
  · exact Avoids.bind (Avoids.pure _ _) hrest
  · exact Avoids.bind (findRecordset_avoids _) hrest
  · exact Avoids.bind (Avoids.raise nofun) hrest

theorem format_avoids (data : List (Fip × Option RecordRow)) :
    Avoids .NotFound (format ctx data) := by
  induction data with
  | nil => exact Avoids.pure _ _
  | cons p data ih =>
    obtain ⟨fip, record⟩ := p
    refine Avoids.bind ?_ fun _ => Avoids.bind ih fun _ => Avoids.pure _ _
    cases record with
    | none => exact Avoids.pure _ _
    | some record => exact Avoids.bind (ttlOf_avoids _ _) fun _ => Avoids.pure _ _

/-- `get_floatingip` raises `NotFound` exactly for what the network service does not report. -/
theorem getFloatingip_notFound :
    (getFloatingip ctx conf env network region id w).1 = .error .NotFound ↔
      ¬ Listed network ctx region id := by
  rw [listed_iff_key env]
  rcases getOf_cases region id (listOf env network ctx (some region)) with
    ⟨⟨fip, hget⟩, hkey⟩ | ⟨hget, hkey⟩
  · refine ⟨fun hraise => ?_, fun hno => absurd hkey hno⟩
    have havoids : Avoids .NotFound (getFloatingip ctx conf env network region id) := by
      unfold getFloatingip
      dsimp only
      rw [hget]
      refine Avoids.bind (Avoids.read fun _ => nofun) fun _ => ?_
      refine Avoids.bind (Avoids.of_returns fun s => ⟨_, s, determine_apply _ s⟩) fun p => ?_
      refine Avoids.bind (Avoids.forEach (fun r => ?_) _) fun _ =>
        Avoids.bind (format_avoids _) fun all => ?_
      · exact Avoids.bind (deleteRecord_avoids _ _ _) fun _ => Avoids.pure _ _
      · cases all with
        | nil => exact Avoids.raise nofun
        | cons s rest => exact Avoids.pure _ _
    exact absurd hraise (havoids w)
  · rw [getFloatingip_missing hget]
    exact ⟨fun _ => hkey, fun _ => rfl⟩

/-! ## Where the two calls agree -/

/-- What `get_floatingip` has to give for the two calls to agree. -/
structure LooksUp (conf : Conf) (env : Env) (ctx : Context) (network : Network)
    (region id : String) (w : World) : Prop where
  notFound : (getFloatingip ctx conf env network region id w).1 = .error .NotFound ↔
    ¬ Listed network ctx region id
  /-- Where all of them are shown and no record is to be deleted twice, one is. -/
  returns : ∀ entries w₁, listFloatingips ctx conf env network w = (.ok entries, w₁) →
    ((strangers ctx w (listOf env network ctx none)).map RecordRow.id).Nodup →
      Listed network ctx region id →
        ∃ shown w₂, getFloatingip ctx conf env network region id w = (.ok shown, w₂)
  /-- It is the entry of the list under that region and id, with all it has. -/
  entry : ∀ entries w₁ shown w₂, listFloatingips ctx conf env network w = (.ok entries, w₁) →
    getFloatingip ctx conf env network region id w = (.ok shown, w₂) →
      entries.find? (fun e => e.fip.region == region && e.fip.id == id) = some shown

/-- The tables after deleting some and after deleting others show the same. -/
theorem invalidate_both {l l' : List RecordRow} {w₁' : World}
    (h : invalidate ctx conf l w = (.ok (), w₁)) (h' : invalidate ctx conf l' w = (.ok (), w₁')) :
    Alike [] w₁ w₁' := by
  have hleft : Alike [] w (invalidate ctx conf l w).2 := invalidate_alike l w Alike.rfl
  have hright : Alike [] w (invalidate ctx conf l' w).2 := invalidate_alike l' w Alike.rfl
  rw [h] at hleft
  rw [h'] at hright
  exact ⟨hright.zones.trans hleft.zones.symm, hright.recordsets.trans hleft.recordsets.symm, nofun⟩

/-- The list has an entry for each floating IP, in the order of the dictionary. -/
theorem entries_fips {fips : List Fip} {entries : List FloatingIp}
    (h : List.Forall₂ (Shows ctx w₁) (fips.map (paired ctx w)) entries) :
    entries.map FloatingIp.fip = fips := by
  induction entries generalizing fips with
  | nil =>
    cases fips with
    | nil => rfl
    | cons fip fips => exact absurd h nofun
  | cons s entries ih =>
    cases fips with
    | nil => exact absurd h nofun
    | cons fip fips =>
      obtain ⟨hone, hall⟩ := List.forall₂_cons.mp h
      rw [List.map_cons, hone.fip, ih hall]
      rfl

/-- One of the entries is what is shown for a floating IP. -/
theorem exists_entry {fips : List Fip} {entries : List FloatingIp} {fip : Fip}
    (h : List.Forall₂ (Shows ctx w₁) (fips.map (paired ctx w)) entries) (hfip : fip ∈ fips) :
    ∃ s ∈ entries, Shows ctx w₁ (paired ctx w fip) s := by
  induction entries generalizing fips with
  | nil =>
    rw [List.forall₂_nil_right_iff, List.map_eq_nil_iff] at h
    exact absurd (h ▸ hfip) List.not_mem_nil
  | cons s entries ih =>
    cases fips with
    | nil => exact absurd hfip List.not_mem_nil
    | cons f fips =>
      obtain ⟨hone, hall⟩ := List.forall₂_cons.mp h
      rcases List.mem_cons.mp hfip with rfl | hfip
      · exact ⟨s, List.mem_cons_self, hone⟩
      · obtain ⟨s', hs', hshows⟩ := ih hall hfip
        exact ⟨s', List.mem_cons_of_mem _ hs', hshows⟩

/-- What can be shown one by one can be shown together. -/
theorem exists_entries {fips : List Fip}
    (h : ∀ fip ∈ fips, ∃ s, Shows ctx w₁ (paired ctx w fip) s) :
    ∃ entries, List.Forall₂ (Shows ctx w₁) (fips.map (paired ctx w)) entries := by
  induction fips with
  | nil => exact ⟨[], .nil⟩
  | cons fip fips ih =>
    obtain ⟨s, hs⟩ := h fip List.mem_cons_self
    obtain ⟨entries, hall⟩ := ih fun f hf => h f (List.mem_cons_of_mem _ hf)
    exact ⟨s :: entries, .cons hs hall⟩

/-- What is shown for the floating IP under a key is what the list has under the key. -/
theorem find_entry {entries : List FloatingIp} {s : FloatingIp}
    (hnodup : (entries.map fun e => e.fip.key).Nodup) (hs : s ∈ entries)
    (hkey : s.fip.key = (region, id)) :
    entries.find? (fun e => e.fip.region == region && e.fip.id == id) = some s := by
  rw [← List.head?_filter]
  have hpred : (fun e : FloatingIp => e.fip.region == region && e.fip.id == id) =
      fun e => decide (e.fip.key = s.fip.key) := by
    funext e
    rw [hkey, Fip.key, Bool.eq_iff_iff, Bool.and_eq_true, beq_iff_eq, beq_iff_eq, decide_eq_true_eq,
      Prod.mk.injEq]
  rw [hpred, Table.filter_key hnodup hs]
  rfl

/-- One thing is shown for a floating IP. -/
theorem shows_unique : Relator.RightUnique (Shows ctx w) := by
  intro p s s' hs hs'
  unfold Shows at hs hs'
  rw [hs] at hs'
  exact Except.ok.inj (congrArg Prod.fst hs')

variable (ctx env network) in
/-- But for their order, the records to delete for a region are some of those to delete for all. -/
theorem strangers_region (region : String) (w : World) :
    ∃ gone, (strangers ctx w (listOf env network ctx (some region))).Perm gone ∧
      gone.Sublist (strangers ctx w (listOf env network ctx none)) :=
  ⟨_, (listOf_some_perm region).filterMap _, List.Sublist.filterMap _ List.filter_sublist⟩

/-- What is shown in the list for a floating IP of the region is what the other call shows for it. -/
theorem shows_of_listed {entries : List FloatingIp} (halike : Alike [] w₁ w₂)
    (hall : List.Forall₂ (Shows ctx w₁)
      ((env.order (listOf env network ctx none)).map (paired ctx w)) entries) {fip : Fip}
    (hfip : fip ∈ env.order (listOf env network ctx (some region))) :
    ∃ s ∈ entries, Shows ctx w₂ (paired ctx w fip) s := by
  have hlisted := (mem_listOf_some.mp ((env.perm _).mem_iff.mp hfip)).1
  obtain ⟨s, hs, hshows⟩ := exists_entry hall ((env.perm _).mem_iff.mpr hlisted)
  exact ⟨s, hs, hshows.alike halike⟩

/-- The first of its region is looked up as the list has it. -/
theorem looksUp_of_first
    (h : Listed network ctx region id → FirstOfRegion env network ctx region id) (w : World) :
    LooksUp conf env ctx network region id w where
  notFound := getFloatingip_notFound
  returns := by
    intro entries w₁ hlist hids hlisted
    obtain ⟨hinvalidate, hall⟩ := listFloatingips_eq_ok.mp hlist
    -- the records to delete are among those the list has deleted
    obtain ⟨gone, hperm, hsub⟩ := strangers_region ctx env network region w
    have hids' : ((strangers ctx w (listOf env network ctx (some region))).map
        RecordRow.id).Nodup := (hperm.map _).nodup_iff.mpr (hids.sublist (hsub.map _))
    obtain ⟨w₂, hinvalidate'⟩ := (invalidate_returns_iff hids').mpr fun r hr =>
      (invalidate_returns_iff hids).mp ⟨w₁, hinvalidate⟩ r (hsub.subset (hperm.mem_iff.mp hr))
    have halike : Alike [] w₁ w₂ := invalidate_both hinvalidate hinvalidate'
    have hshows : ∀ fip ∈ env.order (listOf env network ctx (some region)),
        ∃ s, Shows ctx w₂ (paired ctx w fip) s := by
      intro fip hfip
      obtain ⟨s, -, hs⟩ := shows_of_listed halike hall hfip
      exact ⟨s, hs⟩
    obtain ⟨shown, hshown⟩ := exists_entries hshows
    cases shown with
    | nil =>
      -- the region has one floating IP at least
      rw [List.forall₂_nil_right_iff, List.map_eq_nil_iff] at hshown
      obtain ⟨fip, hfip, -⟩ := List.mem_map.mp ((listed_iff_key env).mp hlisted)
      rw [← (env.perm _).mem_iff, hshown] at hfip
      exact absurd hfip List.not_mem_nil
    | cons s rest =>
      exact ⟨s, w₂, getFloatingip_eq_ok.mpr ⟨hlisted, hinvalidate', rest, hshown⟩⟩
  entry := by
    intro entries w₁ shown w₂ hlist hget
    obtain ⟨hinvalidate, hall⟩ := listFloatingips_eq_ok.mp hlist
    obtain ⟨hlisted, hinvalidate', rest, hregion⟩ := getFloatingip_eq_ok.mp hget
    have halike : Alike [] w₁ w₂ := invalidate_both hinvalidate hinvalidate'
    have hkeys : (entries.map fun e => e.fip.key).Nodup := by
      have hnodup := ((env.perm _).map Fip.key).nodup_iff.mpr
        (listOf_none_nodup ctx env network)
      rw [← entries_fips hall, List.map_map] at hnodup
      exact hnodup
    -- what is shown is for the first of the region, which is the one asked for
    obtain ⟨fip, hfirst, rfl⟩ := h hlisted
    have hmem : fip ∈ env.order (listOf env network ctx (some region)) := List.mem_of_head? hfirst
    obtain ⟨fips, hfips⟩ := List.head?_eq_some_iff.mp hfirst
    rw [hfips, List.map_cons] at hregion
    have hshown : Shows ctx w₂ (paired ctx w fip) shown := (List.forall₂_cons.mp hregion).1
    obtain ⟨s, hs, hshows⟩ := shows_of_listed halike hall hmem
    obtain rfl : s = shown := shows_unique hshows hshown
    refine find_entry hkeys hs ?_
    have hin := (mem_listOf_some.mp ((env.perm _).mem_iff.mp hmem)).2
    rw [hshown.fip]
    exact Prod.ext hin rfl

/-- Without any record, the first of the region is shown, so it has to be what is asked for. -/
theorem first_of_looksUp (hlooks : LooksUp conf env ctx network region id {})
    (hlisted : Listed network ctx region id) : FirstOfRegion env network ctx region id := by
  have hw : NoReverse {} := fun r hr => absurd hr List.not_mem_nil
  rw [listed_iff_key env] at hlisted
  rcases getOf_cases region id (listOf env network ctx (some region)) with
    ⟨⟨fip, hfound⟩, -⟩ | ⟨-, hno⟩
  · obtain ⟨f, hf, hget⟩ := getFloatingip_nothing conf hw hfound
    have hfind := hlooks.entry _ _ _ _ (listFloatingips_nothing hw) hget
    have hkey := List.find?_some hfind
    rw [Bool.and_eq_true, beq_iff_eq, beq_iff_eq] at hkey
    exact ⟨f, hf, hkey.2⟩
  · exact absurd hlisted hno

/--
**One floating IP is looked up as the list of all has it exactly where it is the first
of its region** that the dictionary has for the tenant, or is not reported at all,
whatever records there are.
-/
theorem looksUp_iff (conf : Conf) (env : Env) (ctx : Context) (network : Network)
    (region id : String) :
    (∀ w, LooksUp conf env ctx network region id w) ↔
      (Listed network ctx region id → FirstOfRegion env network ctx region id) := by
  constructor
  · intro h hlisted
    exact first_of_looksUp (h {}) hlisted
  · exact looksUp_of_first

/-- A tenant with two floating IPs in one region. -/
def Sample.pair : Network := fun _ => [Sample.fip, ⟨"RegionOne", "f-2", "192.0.2.2"⟩]

/-- The second of them is asked for, and the first is shown. -/
theorem other_shown :
    ¬ ∀ (conf : Conf) (env : Env) (ctx : Context) (network : Network) (region id : String)
      (w : World), LooksUp conf env ctx network region id w := by
  intro h
  have hlooks := h Designate.Sample.conf Sample.names { tenant := "t" } Sample.pair "RegionOne" "f-2"
    {}
  have hlisted : Listed Sample.pair { tenant := "t" } "RegionOne" "f-2" :=
    ⟨⟨"RegionOne", "f-2", "192.0.2.2"⟩, by decide, rfl, rfl⟩
  obtain ⟨fip, hfind, hid⟩ := first_of_looksUp hlooks hlisted
  have hfip : Sample.fip = fip := Option.some.inj hfind
  exact absurd (hfip ▸ hid) (by decide)

end FloatingIps

end Designate
