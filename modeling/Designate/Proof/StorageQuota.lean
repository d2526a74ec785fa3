import Designate.Quota.StorageQuota
import Designate.Proof.Adapters

/-!
# The quota a tenant has

The table refines the limits: under the unique constraint, what a call leaves of it is what the
call means, whether it inserts a row or finds that there is one. So after every history the table
holds the limits set last. They are read in two ways, and each misses something: with the defaults,
but as far as the context sees, or from all rows, but without the defaults.
-/

namespace Designate

namespace StorageQuota

variable {q : QuotaConf} {ctx : Context} {t t' : Quotas} {tenantId resource : String}
  {hardLimit : Int} {row : Row}

/-! ## The limits of a table -/

/-- The limits the rows say. -/
def Quotas.limits (t : Quotas) : Limits := fun tenantId resource =>
  (t.rows.find? fun row => decide (row.key = (tenantId, resource))).map Row.hardLimit

theorem limits_eq_some {limit : Int} :
    t.limits tenantId resource = some limit ↔
      ∃ row ∈ t.rows, row.key = (tenantId, resource) ∧ row.hardLimit = limit := by
  unfold Quotas.limits
  rw [Option.map_eq_some_iff]
  constructor
  · intro h
    obtain ⟨row, hfind, hlimit⟩ := h
    have hkey : row.key = (tenantId, resource) := by simpa using List.find?_some hfind
    exact ⟨row, List.mem_of_find?_eq_some hfind, hkey, hlimit⟩
  · intro h
    obtain ⟨row, hrow, hkey, hlimit⟩ := h
    cases hfind : t.rows.find? fun row => decide (row.key = (tenantId, resource)) with
    | none => exact absurd (decide_eq_true hkey) (List.find?_eq_none.mp hfind row hrow)
    | some other =>
      have hother : other.key = (tenantId, resource) := by
        simpa using List.find?_some hfind
      have hmem := List.mem_of_find?_eq_some hfind
      -- the key is unique, so the row that is found is this one
      have hone : other = row := Table.eq_of_key t.keys hmem hrow (hother.trans hkey.symm)
      exact ⟨other, rfl, hone ▸ hlimit⟩

theorem limits_eq_none :
    t.limits tenantId resource = none ↔ (tenantId, resource) ∉ t.rows.map Row.key := by
  constructor
  · intro h hmem
    obtain ⟨row, hrow, hkey⟩ := List.mem_map.mp hmem
    rw [limits_eq_some.mpr ⟨row, hrow, hkey, rfl⟩] at h
    exact absurd h (Option.some_ne_none _)
  · intro h
    cases hlimit : t.limits tenantId resource with
    | none => rfl
    | some limit =>
      obtain ⟨row, hrow, hkey, -⟩ := limits_eq_some.mp hlimit
      exact absurd (List.mem_map.mpr ⟨row, hrow, hkey⟩) h

/-- Limits are told by what they are for each row of a table that has the rows they come from. -/
theorem limits_eq {limits : Limits}
    (h : ∀ tn r limit, (∃ row ∈ t.rows, row.key = (tn, r) ∧ row.hardLimit = limit) ↔
      limits tn r = some limit) : t.limits = limits := by
  funext tn r
  refine Option.ext fun limit => ?_
  rw [limits_eq_some]
  exact h tn r limit

theorem limits_insert (h : (tenantId, resource) ∉ t.rows.map Row.key) :
    (t.insert tenantId resource hardLimit h).limits =
      fun tn r => if tn = tenantId ∧ r = resource then some hardLimit else t.limits tn r := by
  refine limits_eq fun tn r limit => ?_
  have hrows : (t.insert tenantId resource hardLimit h).rows =
    t.rows ++ [⟨t.nextId, tenantId, resource, hardLimit⟩] := rfl
  rw [hrows]
  -- the new row is the only one for its tenant and resource
  by_cases hkey : tn = tenantId ∧ r = resource
  · obtain ⟨rfl, rfl⟩ := hkey
    rw [if_pos ⟨rfl, rfl⟩, Option.some.injEq]
    constructor
    · intro hrow
      obtain ⟨row, hmem, hk, hl⟩ := hrow
      rcases List.mem_append.mp hmem with hmem | hmem
      · exact absurd (List.mem_map.mpr ⟨row, hmem, hk⟩) h
      · rw [List.mem_singleton.mp hmem] at hl
        exact hl
    · intro hl
      exact ⟨_, List.mem_append_right _ (List.mem_singleton_self _), rfl, hl⟩
  · rw [if_neg hkey, limits_eq_some]
    constructor
    · intro hrow
      obtain ⟨row, hmem, hk, hl⟩ := hrow
      rcases List.mem_append.mp hmem with hmem | hmem
      · exact ⟨row, hmem, hk, hl⟩
      · rw [List.mem_singleton.mp hmem] at hk
        obtain ⟨rfl, rfl⟩ := Prod.mk.inj hk
        exact absurd ⟨rfl, rfl⟩ hkey
    · intro hrow
      obtain ⟨row, hmem, hrest⟩ := hrow
      exact ⟨row, List.mem_append_left _ hmem, hrest⟩

theorem limits_setLimit (hrow : row ∈ t.rows) (hkey : row.key = (tenantId, resource)) :
    (t.setLimit row.id hardLimit).limits =
      fun tn r => if tn = tenantId ∧ r = resource then some hardLimit else t.limits tn r := by
  -- the row with this identifier is the one with this key
  have hid : ∀ other ∈ t.rows, other.id = row.id ↔ other.key = (tenantId, resource) := by
    intro other hother
    constructor
    · intro h
      rw [Table.eq_of_key t.ids hother hrow h]
      exact hkey
    · intro h
      rw [Table.eq_of_key t.keys hother hrow (h.trans hkey.symm)]
  refine limits_eq fun tn r limit => ?_
  have hrows : (t.setLimit row.id hardLimit).rows =
    Table.update Row.id row.id (Row.limited hardLimit) t.rows := rfl
  rw [hrows]
  by_cases hsame : tn = tenantId ∧ r = resource
  · obtain ⟨rfl, rfl⟩ := hsame
    rw [if_pos ⟨rfl, rfl⟩, Option.some.injEq]
    constructor
    · intro h
      obtain ⟨new, hnew, hk, hl⟩ := h
      rcases Table.mem_update.mp hnew with ⟨hold, hne⟩ | ⟨old, hold, -, rfl⟩
      · exact absurd ((hid new hold).mpr hk) hne
      · exact hl
    · intro hl
      exact ⟨row.limited hardLimit, Table.mem_update.mpr (.inr ⟨row, hrow, rfl, rfl⟩), hkey, hl⟩
  · rw [if_neg hsame, limits_eq_some]
    have hother : ∀ old : Row, old.key = (tn, r) → old.key ≠ (tenantId, resource) := by
      intro old hk he
      exact hsame (Prod.mk.inj (hk.symm.trans he))
    constructor
    · intro h
      obtain ⟨new, hnew, hk, hl⟩ := h
      rcases Table.mem_update.mp hnew with ⟨hold, -⟩ | ⟨old, hold, hi, rfl⟩
      · exact ⟨new, hold, hk, hl⟩
      · exact absurd ((hid old hold).mp hi) (hother old hk)
    · intro h
      obtain ⟨old, hold, hk, hl⟩ := h
      have hne : old.id ≠ row.id := fun hi => hother old hk ((hid old hold).mp hi)
      exact ⟨old, Table.mem_update.mpr (.inl ⟨hold, hne⟩), hk, hl⟩

/-! ## What a criterion selects -/

theorem applyCriterion_plain {value : String} (h : plain value = true) :
    applyCriterion q value = .ok fun column => decide (column = value) := by
  unfold applyCriterion columnCriterion
  rw [textCriterion_plain h]
  refine congrArg Except.ok (funext fun column => ?_)
  exact Bool.beq_eq_decide_eq _ _

/-- A tenant whose text is compared as it stands is always found. -/
theorem names_plain (h : plain tenantId = true) (rows : List Row) : Names q tenantId rows :=
  ⟨_, applyCriterion_plain h, fun _ _ => rfl⟩

theorem plain_of_known (h : Known q resource) : plain resource = true := by
  unfold Known at h
  obtain ⟨limit, hlookup⟩ := Option.isSome_iff_exists.mp h
  have hmem := List.lookup_eq_some_iff.mp hlookup
  obtain ⟨before, after, he, -⟩ := hmem
  have hkey : resource ∈ (getDefaultQuotas q).map Prod.fst := by
    rw [he]
    simp
  have hnames : (getDefaultQuotas q).map Prod.fst =
    ["zones", "zone_recordsets", "zone_records", "recordset_records", "api_export_size"] := rfl
  have hplain : ∀ name ∈ ["zones", "zone_recordsets", "zone_records", "recordset_records",
    "api_export_size"], plain name = true := by decide
  rw [hnames] at hkey
  exact hplain resource hkey

theorem sees_elevated (ctx : Context) (tn : Option String) : ctx.elevated.sees tn = true := rfl

/-- `find_quota`, for a tenant that its text names: the row there is, or none. -/
theorem findQuota_elevated (ctx : Context) (hknown : Known q resource)
    (hnames : Names q tenantId (t.rows.filter fun row => row.resource = resource)) :
    findQuota q ctx.elevated tenantId resource t =
      (Table.one (t.rows.filter fun row => decide (row.key = (tenantId, resource))) .QuotaNotFound,
        t) := by
  obtain ⟨holds, hcriterion, hrows⟩ := hnames
  unfold findQuota
  rw [hcriterion, applyCriterion_plain (plain_of_known hknown)]
  have hfilter : (t.rows.filter fun row => holds row.tenantId && decide (row.resource = resource) &&
      ctx.elevated.sees (some row.tenantId)) =
      t.rows.filter fun row => decide (row.key = (tenantId, resource)) := by
    refine List.filter_congr fun row hrow => ?_
    rw [sees_elevated, Bool.and_true]
    by_cases hresource : row.resource = resource
    · rw [hrows row (List.mem_filter.mpr ⟨hrow, decide_eq_true hresource⟩)]
      simp [Row.key, hresource]
    · simp [Row.key, hresource]
  exact congrArg (fun rows => (Table.one rows Raised.QuotaNotFound, t)) hfilter

theorem findQuotas_names (ctx : Context) (hnames : Names q tenantId t.rows) :
    findQuotas q ctx tenantId t =
      (.ok (t.rows.filter fun row => decide (row.tenantId = tenantId) &&
        ctx.sees (some tenantId)), t) := by
  obtain ⟨holds, hcriterion, hrows⟩ := hnames
  unfold findQuotas
  rw [hcriterion]
  refine congrArg (fun rows => (Except.ok rows, t)) (List.filter_congr fun row hrow => ?_)
  rw [hrows row hrow]
  by_cases htenant : row.tenantId = tenantId
  · rw [htenant]
  · simp [htenant]

/-! ## What a call does to the limits -/

theorem find_elevated (hrow : row ∈ t.rows) :
    Table.find Row.id row.id (fun row => ctx.elevated.sees (some row.tenantId))
      Raised.QuotaNotFound t.rows = .ok row :=
  Table.find_of_mem t.ids hrow rfl (sees_elevated ctx _)

theorem isNone_of_known (h : Known q resource) :
    ((getDefaultQuotas q).lookup resource).isNone = false := by
  unfold Known at h
  rw [← Option.not_isSome, h]
  rfl

theorem isNone_of_unknown (h : ¬ Known q resource) :
    ((getDefaultQuotas q).lookup resource).isNone = true := by
  unfold Known at h
  rw [← Option.not_isSome, Bool.eq_false_iff.mpr h]
  rfl

/-- The row that `set_quota` creates, or the one it finds in its place. -/
def putQuota (q : QuotaConf) (ctx : Context) (tenantId resource : String) (hardLimit : Int) :
    QuotaCall Unit :=
  Exec.catching (· == .DuplicateQuota) (createQuota q tenantId resource hardLimit) do
    let quota ← findQuota q ctx.elevated tenantId resource
    updateQuota q ctx.elevated quota hardLimit

theorem setQuota_of_put (hknown : Known q resource)
    (hput : putQuota q ctx tenantId resource hardLimit t = (.ok (), t')) :
    setQuota q ctx tenantId resource hardLimit t = (.ok (resource, hardLimit), t') := by
  unfold putQuota at hput
  unfold setQuota transaction Exec.rollback
  rw [Exec.seq_ok (Exec.raiseIf_of_not (isNone_of_known hknown) _ _), Exec.seq_ok hput]
  rfl

theorem putQuota_new (hfits : q.fits hardLimit = true)
    (h : (tenantId, resource) ∉ t.rows.map Row.key) :
    putQuota q ctx tenantId resource hardLimit t =
      (.ok (), t.insert tenantId resource hardLimit h) := by
  have hnone : ¬ ∃ row ∈ t.rows, row.key = (tenantId, resource) := mt List.mem_map.mpr h
  have hcreate : createQuota q tenantId resource hardLimit t =
      (.ok (), t.insert tenantId resource hardLimit h) := by
    unfold createQuota Exec.write
    simp only [hfits, Bool.true_eq_false, if_false, dif_neg hnone]
  unfold putQuota Exec.catching
  rw [hcreate]

theorem putQuota_found (hfits : q.fits hardLimit = true) (hknown : Known q resource)
    (hrow : row ∈ t.rows)
    (hkey : row.key = (tenantId, resource))
    (hnames : Names q tenantId (t.rows.filter fun row => row.resource = resource)) :
    putQuota q ctx tenantId resource hardLimit t = (.ok (), t.setLimit row.id hardLimit) := by
  have hex : ∃ row ∈ t.rows, row.key = (tenantId, resource) := ⟨row, hrow, hkey⟩
  -- the INSERT is refused by the constraint, which is what leads to the look-up
  have hcreate : createQuota q tenantId resource hardLimit t = (.error .DuplicateQuota, t) := by
    unfold createQuota Exec.write
    simp only [hfits, Bool.true_eq_false, if_false, dif_pos hex]
  have hfind : findQuota q ctx.elevated tenantId resource t = (.ok row, t) := by
    rw [findQuota_elevated ctx hknown hnames, ← hkey, Table.filter_key t.keys hrow]
    rfl
  have hupdate : updateQuota q ctx.elevated row hardLimit t =
      (.ok (), t.setLimit row.id hardLimit) := by
    refine Exec.write_eq_ok.mpr ?_
    rw [find_elevated hrow]
    exact if_pos hfits
  unfold putQuota Exec.catching
  rw [hcreate]
  exact (Exec.bind_ok hfind).trans hupdate

/-- **Setting a limit, whether there is one or not.** -/
theorem setQuota_spec (hknown : Known q resource) (hfits : q.fits hardLimit = true)
    (hfinds : Finds q (.set ctx tenantId resource hardLimit) t) :
    ∃ t', setQuota q ctx tenantId resource hardLimit t = (.ok (resource, hardLimit), t') ∧
      t'.limits =
        fun tn r => if tn = tenantId ∧ r = resource then some hardLimit else t.limits tn r := by
  by_cases hkey : (tenantId, resource) ∈ t.rows.map Row.key
  · obtain ⟨row, hrow, hk⟩ := List.mem_map.mp hkey
    exact ⟨_, setQuota_of_put hknown (putQuota_found hfits hknown hrow hk (hfinds hkey)),
      limits_setLimit hrow hk⟩
  · exact ⟨_, setQuota_of_put hknown (putQuota_new hfits hkey), limits_insert hkey⟩

/-- One row after the other is deleted, each of which is there. -/
theorem deleteAll_spec (ctx : Context) {gone : List Row} (hgone : ∀ row ∈ gone, row ∈ t.rows)
    (hids : (gone.map Row.id).Nodup) :
    ∃ t', Exec.forEach (fun quota : Row => deleteQuota ctx.elevated quota.id) gone t = (.ok (), t') ∧
      t'.rows = t.rows.filter fun row => row.id ∉ gone.map Row.id := by
  induction gone generalizing t with
  | nil => exact ⟨t, rfl, by simp⟩
  | cons quota gone ih =>
    rw [List.map_cons, List.nodup_cons] at hids
    have hdelete : deleteQuota ctx.elevated quota.id t = (.ok (), t.delete quota.id) := by
      refine Exec.write_eq_ok.mpr ?_
      rw [find_elevated (hgone quota List.mem_cons_self)]
      rfl
    -- the first deletion takes none of the others
    have hleft : ∀ row ∈ gone, row ∈ (t.delete quota.id).rows := by
      intro row hrow
      refine Table.mem_remove.mpr ⟨hgone row (List.mem_cons_of_mem _ hrow), ?_⟩
      intro he
      exact hids.1 (he ▸ List.mem_map_of_mem hrow)
    obtain ⟨t', hrest, hrows⟩ := ih hleft hids.2
    refine ⟨t', (Exec.seq_ok hdelete).trans hrest, ?_⟩
    have hremoved : (t.delete quota.id).rows = t.rows.filter fun row => row.id ≠ quota.id := rfl
    rw [hrows, hremoved, List.filter_filter]
    refine List.filter_congr fun row _ => ?_
    by_cases hid : row.id = quota.id
    · simp [hid]
    · simp [hid]

/-- **Taking all limits of a tenant back.** -/
theorem resetQuotas_spec (ctx : Context) (hfinds : Names q tenantId t.rows) :
    ∃ t', resetQuotas q ctx tenantId t = (.ok (), t') ∧
      t'.limits = fun tn r => if tn = tenantId then none else t.limits tn r := by
  have hfind := findQuotas_names ctx.elevated hfinds
  simp only [sees_elevated, Bool.and_true] at hfind
  have hsub : (t.rows.filter fun row => decide (row.tenantId = tenantId)).Sublist t.rows :=
    List.filter_sublist
  obtain ⟨t', hdelete, hrows⟩ := deleteAll_spec ctx (fun row hrow => hsub.subset hrow)
    (t.ids.sublist (hsub.map Row.id))
  refine ⟨t', ?_, limits_eq fun tn r limit => ?_⟩
  · unfold resetQuotas transaction Exec.rollback
    rw [Exec.bind_ok hfind, hdelete]
  · -- what is left are the rows of other tenants
    have hkept : ∀ row, row ∈ t'.rows ↔ row ∈ t.rows ∧ row.tenantId ≠ tenantId := by
      intro row
      rw [hrows, List.mem_filter]
      refine and_congr_right fun hrow => ?_
      rw [decide_eq_true_iff]
      refine not_congr ?_
      constructor
      · intro hid
        obtain ⟨other, hother, he⟩ := List.mem_map.mp hid
        have hone := Table.eq_of_key t.ids (hsub.subset hother) hrow he
        exact hone ▸ of_decide_eq_true (List.mem_filter.mp hother).2
      · intro htenant
        exact List.mem_map_of_mem (List.mem_filter.mpr ⟨hrow, decide_eq_true htenant⟩)
    by_cases htenant : tn = tenantId
    · rw [if_pos htenant]
      constructor
      · intro h
        obtain ⟨row, hrow, hkey, -⟩ := h
        exact absurd ((Prod.mk.inj hkey).1.trans htenant) ((hkept row).mp hrow).2
      · intro h
        exact absurd h.symm (Option.some_ne_none limit)
    · rw [if_neg htenant, limits_eq_some]
      constructor
      · intro h
        obtain ⟨row, hrow, hrest⟩ := h
        exact ⟨row, ((hkept row).mp hrow).1, hrest⟩
      · intro h
        obtain ⟨row, hrow, hkey, hlimit⟩ := h
        have hne : row.tenantId ≠ tenantId := fun he => htenant ((Prod.mk.inj hkey).1 ▸ he)
        exact ⟨row, (hkept row).mpr ⟨hrow, hne⟩, hkey, hlimit⟩

theorem setQuota_unknown (h : ¬ Known q resource) :
    setQuota q ctx tenantId resource hardLimit t =
      (.error (.QuotaResourceUnknown resource), t) := by
  unfold setQuota transaction Exec.rollback
  rw [Exec.bind_error (Exec.raiseIf_of (isNone_of_unknown h) _ _)]

/-- A limit that the column does not hold is refused before anything is looked up. -/
theorem setQuota_refused (hknown : Known q resource) (h : ¬ q.fits hardLimit = true) :
    setQuota q ctx tenantId resource hardLimit t = (.error .DBError, t) := by
  have hcreate : createQuota q tenantId resource hardLimit t = (.error .DBError, t) := by
    unfold createQuota Exec.write
    simp only [Bool.eq_false_iff.mpr h, if_true]
  have hput : putQuota q ctx tenantId resource hardLimit t = (.error .DBError, t) := by
    unfold putQuota Exec.catching
    rw [hcreate]
    rfl
  unfold putQuota at hput
  unfold setQuota transaction Exec.rollback
  rw [Exec.seq_ok (Exec.raiseIf_of_not (isNone_of_known hknown) _ _), Exec.bind_error hput]

/-- **A call does to the table what it means for the limits.** -/
theorem step_limits {call : Write} (h : Finds q call t) :
    (step q call t).limits = Limits.step q t.limits call := by
  cases call with
  | set ctx tenantId resource hardLimit =>
    have hstep : step q (.set ctx tenantId resource hardLimit) t =
      (setQuota q ctx tenantId resource hardLimit t).2 := rfl
    -- a call that is refused for the resource or for the column means nothing for the limits
    by_cases hknown : Known q resource
    · by_cases hfits : q.fits hardLimit = true
      · obtain ⟨t', hset, hlimits⟩ := setQuota_spec hknown hfits h
        rw [hstep, hset, hlimits]
        exact (if_pos ⟨hknown, hfits⟩).symm
      · rw [hstep, setQuota_refused hknown hfits]
        exact (if_neg fun hboth => hfits hboth.2).symm
    · rw [hstep, setQuota_unknown hknown]
      exact (if_neg fun hboth => hknown hboth.1).symm
  | reset ctx tenantId =>
    obtain ⟨t', hreset, hlimits⟩ := resetQuotas_spec ctx h
    have hstep : step q (.reset ctx tenantId) t = (resetQuotas q ctx tenantId t).2 := rfl
    rw [hstep, hreset, hlimits]
    rfl

/-- **The table refines the limits, over every history.** By induction on the calls. -/
theorem final_limits {calls : List Write}
    (h : ∀ tr ∈ Run.transitions (step q) calls t, Finds q tr.input tr.before) :
    (Run.final (step q) calls t).limits = calls.foldl (Limits.step q) t.limits := by
  induction calls generalizing t with
  | nil => rfl
  | cons call calls ih =>
    have hstep := step_limits (h _ List.mem_cons_self)
    have hrest := ih fun tr htr => h tr (List.mem_cons_of_mem _ htr)
    rw [Run.final, List.foldl_cons, hrest]
    exact congrArg (fun limits => calls.foldl (Limits.step q) limits) hstep

/-- From an empty table, it holds the limits set last. -/
theorem limits_history {calls : List Write}
    (h : ∀ tr ∈ Run.transitions (step q) calls .empty, Finds q tr.input tr.before) :
    (Run.final (step q) calls .empty).limits = limitsAfter q calls := final_limits h

/-! ## What is read -/

theorem lookup_foldl_assign {ps : List (String × Int)} (hnodup : (ps.map Prod.fst).Nodup)
    (quotas : List (String × Int)) (resource : String) :
    (ps.foldl (fun quotas p => Objects.assign quotas p.1 p.2) quotas).lookup resource =
      (ps.lookup resource).or (quotas.lookup resource) := by
  induction ps generalizing quotas with
  | nil => rfl
  | cons p ps ih =>
    obtain ⟨name, limit⟩ := p
    rw [List.map_cons, List.nodup_cons] at hnodup
    rw [List.foldl_cons, ih hnodup.2, List.lookup_cons]
    by_cases hname : resource = name
    · subst hname
      -- the names are distinct, so nothing later goes over this one
      have hnone : ps.lookup resource = none := by
        rw [List.lookup_eq_none_iff]
        intro p hp
        have hne : resource ≠ p.1 := fun he => hnodup.1 (List.mem_map.mpr ⟨p, hp, he.symm⟩)
        simpa using hne
      rw [hnone, beq_self_eq_true, Adapters.lookup_assign]
      rfl
    · have hne : (resource == name) = false := beq_eq_false_iff_ne.mpr hname
      rw [hne, Adapters.lookup_assign_ne hname]

/-- The limits of one tenant, by their resources. -/
theorem lookup_stored (rows : List Row) (tenantId resource : String) :
    ((rows.filter fun row => decide (row.tenantId = tenantId)).map
        fun row => (row.resource, row.hardLimit)).lookup resource =
      (rows.find? fun row => decide (row.key = (tenantId, resource))).map Row.hardLimit := by
  induction rows with
  | nil => rfl
  | cons row rows ih =>
    rw [List.filter_cons, List.find?_cons]
    by_cases htenant : row.tenantId = tenantId
    · by_cases hresource : resource = row.resource
      · simp [htenant, hresource, Row.key]
      · have hne : (resource == row.resource) = false := beq_eq_false_iff_ne.mpr hresource
        rw [if_pos (decide_eq_true htenant), List.map_cons, List.lookup_cons, hne, ih]
        simp [Row.key, Ne.symm hresource]
    · simp [htenant, Row.key, ih]

theorem resources_nodup (t : Quotas) (tenantId : String) :
    (((t.rows.filter fun row => decide (row.tenantId = tenantId)).map
      fun row => (row.resource, row.hardLimit)).map Prod.fst).Nodup := by
  rw [List.map_map]
  refine List.Nodup.map_on ?_ ((List.Nodup.of_map _ t.ids).filter _)
  intro row hrow other hother he
  have htenant := of_decide_eq_true (List.mem_filter.mp hrow).2
  have htenant' := of_decide_eq_true (List.mem_filter.mp hother).2
  refine Table.eq_of_key t.keys (List.mem_filter.mp hrow).1 (List.mem_filter.mp hother).1 ?_
  exact Prod.ext (htenant.trans htenant'.symm) he

/-- **What `get_quotas` gives**: the limits of the tenant, if the context sees them. -/
theorem getQuotas_spec (ctx : Context) (hnames : Names q tenantId t.rows) :
    ∃ quotas, getQuotas q ctx tenantId t = (.ok quotas, t) ∧ ∀ resource,
      quotas.lookup resource = if ctx.sees (some tenantId) then effective q t.limits tenantId resource
        else (getDefaultQuotas q).lookup resource := by
  have hfind := findQuotas_names ctx hnames
  refine ⟨_, Exec.bind_ok (Exec.bind_ok hfind), ?_⟩
  intro resource
  cases hsees : ctx.sees (some tenantId) with
  | true =>
    simp only [Bool.and_true]
    rw [lookup_foldl_assign (resources_nodup t tenantId), lookup_stored, if_pos trivial]
    rfl
  | false =>
    simp

/-- **What `get_quota` gives**: the limit, if one is set. -/
theorem getQuota_spec (hknown : Known q resource) (hnames : Names q tenantId t.rows) :
    getQuota q ctx tenantId resource t =
      (match t.limits tenantId resource with
        | some limit => .ok (resource, limit)
        | none => .error .QuotaNotFound, t) := by
  -- a text that names the tenant among all rows does so among those of the resource
  have hnamed : Names q tenantId (t.rows.filter fun row => row.resource = resource) := by
    obtain ⟨holds, hcriterion, hrows⟩ := hnames
    exact ⟨holds, hcriterion, fun row hrow => hrows row (List.mem_filter.mp hrow).1⟩
  have hfind := findQuota_elevated ctx hknown hnamed
  cases hlimit : t.limits tenantId resource with
  | some limit =>
    obtain ⟨row, hrow, hkey, rfl⟩ := limits_eq_some.mp hlimit
    rw [← hkey, Table.filter_key t.keys hrow] at hfind
    exact Exec.bind_ok hfind
  | none =>
    have hnone : (t.rows.filter fun row => decide (row.key = (tenantId, resource))) = [] := by
      rw [List.filter_eq_nil_iff]
      intro row hrow hkey
      exact limits_eq_none.mp hlimit (List.mem_map.mpr ⟨row, hrow, of_decide_eq_true hkey⟩)
    rw [hnone] at hfind
    exact Exec.bind_error hfind

theorem checkLimits_congr {quotas quotas' : List (String × Int)}
    (h : ∀ resource, quotas.lookup resource = quotas'.lookup resource)
    (values : List (String × Int)) : checkLimits quotas values = checkLimits quotas' values := by
  induction values with
  | nil => rfl
  | cons p values ih =>
    unfold checkLimits
    rw [h, ih]

variable {quotas : List (String × Int)} {values : List (String × Int)}

theorem checkLimits_within (hknown : ∀ p ∈ values, (quotas.lookup p.1).isSome = true)
    (h : ∀ p ∈ values, ∀ limit, quotas.lookup p.1 = some limit → p.2 < limit) :
    checkLimits quotas values = .ok () := by
  induction values with
  | nil => rfl
  | cons p values ih =>
    obtain ⟨limit, hlimit⟩ := Option.isSome_iff_exists.mp (hknown p List.mem_cons_self)
    have hlt := h p List.mem_cons_self limit hlimit
    unfold checkLimits
    rw [hlimit]
    simp only
    rw [if_neg (by omega)]
    exact ih (fun p hp => hknown p (List.mem_cons_of_mem _ hp))
      fun p hp => h p (List.mem_cons_of_mem _ hp)

theorem checkLimits_over (hknown : ∀ p ∈ values, (quotas.lookup p.1).isSome = true)
    (h : ∃ p ∈ values, ∃ limit, quotas.lookup p.1 = some limit ∧ limit ≤ p.2) :
    checkLimits quotas values = .error .OverQuota := by
  induction values with
  | nil =>
    obtain ⟨p, hp, -⟩ := h
    exact absurd hp List.not_mem_nil
  | cons p values ih =>
    obtain ⟨limit, hlimit⟩ := Option.isSome_iff_exists.mp (hknown p List.mem_cons_self)
    unfold checkLimits
    rw [hlimit]
    simp only
    -- the first value that is over ends the loop; before it, the loop goes on as if it were not
    -- there
    by_cases hover : limit ≤ p.2
    · rw [if_pos hover]
    · rw [if_neg hover]
      refine ih (fun p hp => hknown p (List.mem_cons_of_mem _ hp)) ?_
      obtain ⟨p', hp', limit', hlimit', hover'⟩ := h
      rcases List.mem_cons.mp hp' with rfl | hp'
      · obtain rfl := Option.some.inj (hlimit.symm.trans hlimit')
        exact absurd hover' hover
      · exact ⟨p', hp', limit', hlimit', hover'⟩

/-! ## When the answers are right -/

/-- The context sees the tenant, or the limits that are set are the defaults. -/
def Sees (q : QuotaConf) (ctx : Context) (limits : Limits) (tenantId : String) : Prop :=
  ctx.sees (some tenantId) = true ∨ ∀ resource, Known q resource →
    effective q limits tenantId resource = (getDefaultQuotas q).lookup resource

/-- In both cases the dict says the limits. -/
theorem getQuotas_sees (hnames : Names q tenantId t.rows) (h : Sees q ctx t.limits tenantId) :
    QuotasRight q ctx t.limits tenantId t := by
  obtain ⟨quotas, hget, hlookup⟩ := getQuotas_spec ctx hnames
  refine ⟨quotas, hget, fun resource hknown => ?_⟩
  rw [hlookup resource]
  rcases h with hsees | hdefault
  · rw [if_pos hsees]
  · rw [hdefault resource hknown, ite_self]

theorem quotasRight_iff (hnames : Names q tenantId t.rows) :
    QuotasRight q ctx t.limits tenantId t ↔ Sees q ctx t.limits tenantId := by
  constructor
  · intro h
    obtain ⟨quotas, hget, hright⟩ := h
    obtain ⟨quotas', hget', hlookup⟩ := getQuotas_spec ctx hnames
    obtain rfl := Except.ok.inj (Prod.mk.inj (hget.symm.trans hget')).1
    by_cases hsees : ctx.sees (some tenantId) = true
    · exact .inl hsees
    · refine .inr fun resource hknown => ?_
      rw [← hright resource hknown, hlookup resource, if_neg hsees]
  · exact getQuotas_sees hnames

theorem quotaRight_iff (hknown : Known q resource) (hnames : Names q tenantId t.rows) :
    QuotaRight q ctx t.limits tenantId t resource ↔ (t.limits tenantId resource).isSome = true := by
  unfold QuotaRight effective
  rw [getQuota_spec hknown hnames]
  cases t.limits tenantId resource with
  | some limit => simp
  | none => simp

/-- Every resource there is has a limit. -/
theorem effective_some (limits : Limits) (tenantId : String) (hknown : Known q resource) :
    ∃ limit, effective q limits tenantId resource = some limit := by
  obtain ⟨default, hdefault⟩ := Option.isSome_iff_exists.mp hknown
  unfold effective
  rw [hdefault]
  cases limits tenantId resource with
  | some limit => exact ⟨limit, rfl⟩
  | none => exact ⟨default, rfl⟩

/-- A limit that is enforced is the one that counts: one value is let through that is just below
it, and the next one is not. -/
theorem eq_of_enforced {quotas : List (String × Int)} {seen limit : Int}
    (hget : getQuotas q ctx tenantId t = (.ok quotas, t)) (hknown : Known q resource)
    (hseen : quotas.lookup resource = some seen)
    (hlimit : effective q t.limits tenantId resource = some limit)
    (h : LimitsEnforced q ctx t.limits tenantId t) : seen = limit := by
  have hcheck : ∀ value, limitCheck q ctx tenantId [(resource, value)] t =
      (if seen ≤ value then .error .OverQuota else .ok (), t) := by
    intro value
    refine (Exec.bind_ok hget).trans ?_
    simp only [Exec.read_apply, checkLimits, hseen]
  -- one below the limit must be let through, and the limit itself not
  have hbelow := (h [(resource, limit - 1)] (by simpa using hknown)).1 (by
    intro p hp other hother
    rw [List.mem_singleton.mp hp] at hother ⊢
    obtain rfl := Option.some.inj (hlimit.symm.trans hother)
    exact Int.sub_one_lt_of_le (le_refl limit))
  have hover := (h [(resource, limit)] (by simpa using hknown)).2
    ⟨_, List.mem_singleton_self _, limit, hlimit, le_refl limit⟩
  rw [hcheck] at hbelow hover
  have hgt : ¬ seen ≤ limit - 1 := by
    intro hle
    rw [if_pos hle] at hbelow
    cases hbelow
  have hle : seen ≤ limit := by
    by_contra hnot
    rw [if_neg hnot] at hover
    cases hover
  omega

/-- The limits that count are enforced. -/
theorem enforced_of_right (h : QuotasRight q ctx t.limits tenantId t) :
    LimitsEnforced q ctx t.limits tenantId t := by
  obtain ⟨quotas, hget, hright⟩ := h
  intro values hvalues
  have hcheck : limitCheck q ctx tenantId values t = (checkLimits quotas values, t) :=
    Exec.bind_ok hget
  have hsome : ∀ p ∈ values, (quotas.lookup p.1).isSome = true := by
    intro p hp
    obtain ⟨limit, hlimit⟩ := effective_some t.limits tenantId (hvalues p hp)
    rw [hright p.1 (hvalues p hp), hlimit]
    rfl
  rw [hcheck]
  constructor
  · intro hwithin
    rw [checkLimits_within hsome]
    intro p hp limit hlimit
    exact hwithin p hp limit ((hright p.1 (hvalues p hp)).symm.trans hlimit)
  · intro hover
    rw [checkLimits_over hsome]
    obtain ⟨p, hp, limit, hlimit, hle⟩ := hover
    exact ⟨p, hp, limit, (hright p.1 (hvalues p hp)).trans hlimit, hle⟩

theorem limitsEnforced_iff (hnames : Names q tenantId t.rows) :
    LimitsEnforced q ctx t.limits tenantId t ↔ Sees q ctx t.limits tenantId := by
  rw [← quotasRight_iff hnames]
  constructor
  · intro h
    obtain ⟨quotas, hget, hlookup⟩ := getQuotas_spec ctx hnames
    refine ⟨quotas, hget, fun resource hknown => ?_⟩
    obtain ⟨limit, hlimit⟩ := effective_some t.limits tenantId hknown
    have hsome : ∃ seen, quotas.lookup resource = some seen := by
      rw [hlookup resource]
      split
      · exact ⟨limit, hlimit⟩
      · exact Option.isSome_iff_exists.mp hknown
    obtain ⟨seen, hseen⟩ := hsome
    rw [hseen, hlimit, eq_of_enforced hget hknown hseen hlimit h]
  · exact enforced_of_right

/-- Two tables with the same limits of a tenant give it the same answers. -/
theorem sameAnswers (hnames : Names q tenantId t.rows) (hnames' : Names q tenantId t'.rows)
    (hlimits : t'.limits tenantId = t.limits tenantId) : SameAnswers q ctx tenantId t t' := by
  obtain ⟨quotas, hget, hlookup⟩ := getQuotas_spec ctx hnames
  obtain ⟨quotas', hget', hlookup'⟩ := getQuotas_spec ctx hnames'
  -- the defaults are the same anyway, so the limits are all that could differ
  have hsame : ∀ resource, quotas.lookup resource = quotas'.lookup resource := by
    intro resource
    rw [hlookup, hlookup']
    unfold effective
    rw [hlimits]
  refine ⟨?_, ?_, ?_⟩
  · rw [hget, hget']
    exact congrArg Except.ok (funext hsame)
  · intro resource hknown
    rw [getQuota_spec hknown hnames, getQuota_spec hknown hnames', hlimits]
  · intro values
    have hcheck : limitCheck q ctx tenantId values t = (checkLimits quotas values, t) :=
      Exec.bind_ok hget
    have hcheck' : limitCheck q ctx tenantId values t' = (checkLimits quotas' values, t') :=
      Exec.bind_ok hget'
    rw [hcheck, hcheck']
    exact checkLimits_congr hsame values

/-- A call for one tenant says nothing about another. -/
theorem limits_step_other {limits : Limits} {call : Write} (h : call.tenantId ≠ tenantId) :
    Limits.step q limits call tenantId = limits tenantId := by
  funext resource
  cases call with
  | set ctx tn r hardLimit =>
    unfold Limits.step
    dsimp only
    split
    · exact if_neg fun hboth => h hboth.1.symm
    · rfl
  | reset ctx tn => exact if_neg fun he => h he.symm

/-- **When the quota a tenant is given is its effective one.** After every history of calls, each of
which finds the rows of the tenant it names, and for every tenant whose text names it:
`get_quotas` and `limit_check` go by the limits in force exactly when the context sees the tenant
or these limits are the defaults; `get_quota` gives a limit exactly when one is set; and no call
for another tenant changes an answer. -/
theorem quotas_right_iff (q : QuotaConf) (calls : List Write)
    (hcalls : ∀ tr ∈ Run.transitions (step q) calls .empty, Finds q tr.input tr.before)
    (ctx : Context) (tenantId : String)
    (hnames : Names q tenantId (Run.final (step q) calls .empty).rows) :
    (QuotasRight q ctx (limitsAfter q calls) tenantId (Run.final (step q) calls .empty) ↔
      Sees q ctx (limitsAfter q calls) tenantId) ∧
    (∀ resource, Known q resource →
      (QuotaRight q ctx (limitsAfter q calls) tenantId (Run.final (step q) calls .empty) resource ↔
        (limitsAfter q calls tenantId resource).isSome = true)) ∧
    (LimitsEnforced q ctx (limitsAfter q calls) tenantId (Run.final (step q) calls .empty) ↔
      Sees q ctx (limitsAfter q calls) tenantId) ∧
    ∀ call : Write, call.tenantId ≠ tenantId → Finds q call (Run.final (step q) calls .empty) →
      Names q tenantId (step q call (Run.final (step q) calls .empty)).rows →
      SameAnswers q ctx tenantId (Run.final (step q) calls .empty)
        (step q call (Run.final (step q) calls .empty)) := by
  -- from here on, the limits that are in force are those of the table
  have hlimits := limits_history hcalls
  rw [← hlimits]
  refine ⟨quotasRight_iff hnames, fun _ hknown => quotaRight_iff hknown hnames,
    limitsEnforced_iff hnames, ?_⟩
  intro call hother hfinds hnames'
  refine sameAnswers hnames hnames' ?_
  rw [step_limits hfinds]
  exact limits_step_other hother

/-- A tenant that has had its quota of zones set asks for its quotas. -/
theorem quotas_right_sample :
    QuotasRight {} { tenant := "t" }
      (limitsAfter {} [.set { tenant := "admin" } "t" "zones" 5]) "t"
      (Run.final (step {}) [.set { tenant := "admin" } "t" "zones" 5] .empty) := by
  have hplain : ∀ rows, Names {} "t" rows := names_plain (by decide)
  refine ((quotas_right_iff {} _ ?_ { tenant := "t" } "t" (hplain _)).1).mpr (.inl (by decide))
  intro tr htr
  obtain rfl := List.mem_singleton.mp htr
  exact fun _ => hplain _

/-- The quota of zones of one tenant is set to 5. In the context of another one it is 10000. -/
theorem quota_missed :
    ¬ ∀ (calls : List Write) (ctx : Context) (tenantId : String),
      QuotasRight {} ctx (limitsAfter {} calls) tenantId (Run.final (step {}) calls .empty) := by
  intro h
  have hplain : ∀ rows, Names {} "t" rows := names_plain (by decide)
  have hright := h [.set { tenant := "admin" } "t" "zones" 5] { tenant := "u" } "t"
  rw [← limits_history, quotasRight_iff (hplain _), limits_history] at hright
  · rcases hright with hsees | hdefault
    · exact absurd hsees (by decide)
    · exact absurd (hdefault "zones" (by decide)) (by decide)
  all_goals
    intro tr htr
    obtain rfl := List.mem_singleton.mp htr
    exact fun _ => hplain _

end StorageQuota

end Designate
