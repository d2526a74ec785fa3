import Designate.Scheduler
import Mathlib.Data.List.Induction

/-!
# What a schedule promises

Every filter leaves some of the pools it is given, so that what one filter sees to holds until
the end. A filter that looks for one pool and finds it gone leaves all of them: a zone may then
end up in another pool than the one it names.
-/

namespace Designate

namespace Scheduler

variable {D : Deployment} {zone : Zone}

/-! ## Attributes as a dictionary -/

theorem toDict_concat (l : List Attribute) (a : Attribute) :
    toDict (l ++ [a]) = Function.update (toDict l) a.key (some a.value) := by
  unfold toDict
  rw [List.foldl_append]
  rfl

/-- An entry of the dictionary is one of the attributes. -/
theorem mem_of_toDict {l : List Attribute} {k v : String} (h : toDict l k = some v) :
    ⟨k, v⟩ ∈ l := by
  induction l using List.reverseRecOn with
  | nil => cases h
  | append_singleton l a ih =>
    rw [toDict_concat] at h
    by_cases hk : k = a.key
    · subst hk
      rw [Function.update_self] at h
      cases h
      exact List.mem_append_right _ List.mem_cons_self
    · rw [Function.update_of_ne hk] at h
      exact List.mem_append_left _ (ih h)

/-- Every attribute's key is in the dictionary. -/
theorem toDict_of_mem {l : List Attribute} {a : Attribute} (h : a ∈ l) :
    ∃ v, toDict l a.key = some v := by
  induction l using List.reverseRecOn with
  | nil => cases h
  | append_singleton l b ih =>
    rw [toDict_concat]
    by_cases hk : a.key = b.key
    · rw [hk, Function.update_self]
      exact ⟨_, rfl⟩
    · rw [Function.update_of_ne hk]
      rcases List.mem_append.mp h with h | h
      · exact ih h
      · exact absurd (congrArg Attribute.key (List.mem_singleton.mp h)) hk

/-- A pool passes when its dictionary has the values of the zone's, as far as they make sense. -/
theorem evaluatePool_iff {pool : Pool} :
    evaluatePool D zone pool = true ↔ ∀ k v, toDict (zoneAttributes zone) k = some v →
      ∃ v', toDict pool.attributes k = some v' ∧ sense D v' = sense D v := by
  unfold evaluatePool
  simp only [Bool.and_eq_true, List.all_eq_true, decide_eq_true_eq]
  constructor
  · intro h k v hv
    obtain ⟨hkeys, hvalues⟩ := h
    have hmem := mem_of_toDict hv
    obtain ⟨v', hv'⟩ := Option.isSome_iff_exists.mp (hkeys _ hmem)
    have hsame := hvalues _ hmem
    rw [hv', hv] at hsame
    exact ⟨v', hv', Option.some.inj hsame⟩
  · intro h
    refine ⟨fun a ha => ?_, fun a ha => ?_⟩
    · obtain ⟨v, hv⟩ := toDict_of_mem ha
      obtain ⟨v', hv', _⟩ := h _ v hv
      rw [hv']
      rfl
    · obtain ⟨v, hv⟩ := toDict_of_mem ha
      obtain ⟨v', hv', hsame⟩ := h _ v hv
      rw [hv', hv, Option.map_some, Option.map_some, hsame]

/-! ## Filters -/

/-- The pool a zone asks for. -/
def named (zone : Zone) : Option String :=
  (zone.attributes.bind fun attributes => get attributes "pool_id").filter (· ≠ "")

/-- **A filter leaves some of the pools it is given.** -/
theorem filter_narrows {f : Filter} {pools pools' : List Pool}
    (h : f.filter D zone pools = .ok pools') : pools' ⊆ pools := by
  cases f with
  | attributeFilter =>
    cases h
    exact fun _ hpool => (List.mem_filter.mp hpool).1
  -- the pool that is asked for is checked against the list it is given
  | poolIdAttributeFilter =>
    simp only [Filter.filter] at h
    split at h
    · cases h
      exact List.Subset.refl _
    · split at h
      · cases h
        exact List.nil_subset _
      · split at h
        · split at h
          · next hmem => cases h; exact fun _ hpool => List.mem_singleton.mp hpool ▸ hmem
          · cases h; exact List.Subset.refl _
        · cases h
  -- and so is the default pool
  | inDoubtDefaultPoolFilter =>
    simp only [Filter.filter] at h
    split at h
    · split at h
      · cases h
        exact List.Subset.refl _
      · split at h
        · next hmem => cases h; exact fun _ hpool => List.mem_singleton.mp hpool ▸ hmem
        · cases h; exact List.Subset.refl _
    · cases h
      exact List.Subset.refl _
  | randomFilter draw =>
    cases h
    intro pool hpool
    exact List.mem_of_getElem? (Option.mem_toList.mp hpool)

/-- A zone that asks for a pool gets it if it is there, and has to be allowed to. -/
theorem filter_poolId {pools pools' : List Pool} {poolId : String} (hnamed : named zone = some poolId)
    (h : Filter.poolIdAttributeFilter.filter D zone pools = .ok pools') :
    pools' = [] ∨ ∃ pool, getPool D poolId = some pool ∧ D.allowed pool = true ∧
      (pool ∈ pools → pools' = [pool]) := by
  unfold named at hnamed
  simp only [Filter.filter, hnamed] at h
  cases hpool : getPool D poolId with
  | none =>
    rw [hpool] at h
    cases h
    exact .inl rfl
  | some pool =>
    rw [hpool] at h
    refine .inr ⟨pool, rfl, ?_⟩
    dsimp only at h
    split at h
    · next hallowed =>
      refine ⟨hallowed, fun hmem => ?_⟩
      rw [if_pos hmem] at h
      cases h
      rfl
    · cases h

/-! ## Chains of filters -/

theorem runFilters_cons {f : Filter} {filters : List Filter} {pools pools' : List Pool}
    (h : runFilters D zone (f :: filters) pools = .ok pools') :
    ∃ between, f.filter D zone pools = .ok between ∧
      runFilters D zone filters between = .ok pools' := by
  unfold runFilters at h
  cases hf : f.filter D zone pools with
  | error e => rw [hf] at h; cases h
  | ok between => rw [hf] at h; exact ⟨between, rfl, h⟩

theorem runFilters_append {before after : List Filter} {pools pools' : List Pool}
    (h : runFilters D zone (before ++ after) pools = .ok pools') :
    ∃ between, runFilters D zone before pools = .ok between ∧
      runFilters D zone after between = .ok pools' := by
  induction before generalizing pools with
  | nil => exact ⟨pools, rfl, h⟩
  | cons f before ih =>
    obtain ⟨first, hf, h⟩ := runFilters_cons h
    obtain ⟨between, hbefore, hafter⟩ := ih h
    refine ⟨between, ?_, hafter⟩
    unfold runFilters
    rw [hf]
    exact hbefore

/-- A chain leaves some of the pools it is given. By induction on the filters. -/
theorem runFilters_narrows {filters : List Filter} {pools pools' : List Pool}
    (h : runFilters D zone filters pools = .ok pools') : pools' ⊆ pools := by
  induction filters generalizing pools with
  | nil =>
    cases h
    exact List.Subset.refl _
  | cons f filters ih =>
    obtain ⟨between, hf, h⟩ := runFilters_cons h
    exact List.Subset.trans (ih h) (filter_narrows hf)

/-- What a zone is scheduled to is the one pool its chain leaves over. -/
theorem runFilters_of_schedule {filters : List Filter} {id : String}
    (h : scheduleZone D filters zone = .ok id) :
    ∃ pool, runFilters D zone filters D.pools = .ok [pool] ∧ pool.id = id := by
  unfold scheduleZone at h
  split at h
  · cases h
  · cases hrun : runFilters D zone filters D.pools with
    | error e => rw [hrun] at h; cases h
    | ok pools =>
      rw [hrun] at h
      match pools with
      | [] => cases h
      | [pool] => cases h; exact ⟨pool, rfl, rfl⟩
      | _ :: _ :: _ => cases h

/-- The pool carries what the dictionary of the zone's attributes says. -/
def Carries (D : Deployment) (zone : Zone) (pool : Pool) : Prop :=
  ∀ k v, toDict (zoneAttributes zone) k = some v →
    ∃ a ∈ pool.attributes, a.key = k ∧ sense D a.value = sense D v

theorem carries_of_evaluatePool {pool : Pool} (h : evaluatePool D zone pool = true) :
    Carries D zone pool := by
  intro k v hv
  obtain ⟨v', hv', hsame⟩ := evaluatePool_iff.mp h k v hv
  exact ⟨⟨k, v'⟩, mem_of_toDict hv', rfl, hsame⟩

/--
**What a schedule promises.** A zone gets a stored pool, which carries its attributes if there
is an attribute filter. It gets the pool it names if that is still there for a filter that
looks for it. And a pool is never filtered out that has the zone's attributes.
-/
theorem scheduleZone_sound (D : Deployment) (filters : List Filter) (zone : Zone) :
    (∀ id, scheduleZone D filters zone = .ok id →
      (∃ pool ∈ D.pools, pool.id = id ∧
        (.attributeFilter ∈ filters → Carries D zone pool)) ∧
      ∀ poolId, named zone = some poolId →
        (.poolIdAttributeFilter ∈ filters →
          ∃ pool, getPool D poolId = some pool ∧ D.allowed pool = true) ∧
        ∀ before after pools pool, filters = before ++ .poolIdAttributeFilter :: after →
          runFilters D zone before D.pools = .ok pools → getPool D poolId = some pool →
          pool ∈ pools → id = poolId) ∧
    ∀ pools pools', Filter.attributeFilter.filter D zone pools = .ok pools' →
      ∀ pool ∈ pools, (∀ k v, toDict (zoneAttributes zone) k = some v →
        toDict pool.attributes k = some v) → pool ∈ pools' := by
  refine ⟨?_, ?_⟩
  · intro id h
    -- the pool that is left over has passed every filter of the chain
    obtain ⟨pool, hrun, hid⟩ := runFilters_of_schedule h
    have hstays : ∀ {before after : List Filter} {f : Filter}, filters = before ++ f :: after →
        ∃ pools pools', runFilters D zone before D.pools = .ok pools ∧
          f.filter D zone pools = .ok pools' ∧ pool ∈ pools' := by
      intro before after f hsplit
      rw [hsplit] at hrun
      obtain ⟨pools, hbefore, hafter⟩ := runFilters_append hrun
      obtain ⟨pools', hf, hafter⟩ := runFilters_cons hafter
      exact ⟨pools, pools', hbefore, hf, runFilters_narrows hafter List.mem_cons_self⟩
    refine ⟨⟨pool, runFilters_narrows hrun List.mem_cons_self, hid, ?_⟩, ?_⟩
    · intro hmem
      obtain ⟨before, after, hsplit⟩ := List.append_of_mem hmem
      obtain ⟨pools, pools', _, hf, hpool⟩ := hstays hsplit
      cases hf
      exact carries_of_evaluatePool (List.mem_filter.mp hpool).2
    · intro poolId hnamed
      refine ⟨?_, ?_⟩
      · intro hmem
        obtain ⟨before, after, hsplit⟩ := List.append_of_mem hmem
        obtain ⟨pools, pools', _, hf, hpool⟩ := hstays hsplit
        rcases filter_poolId hnamed hf with rfl | ⟨found, hfound, hallowed, _⟩
        · cases hpool
        · exact ⟨found, hfound, hallowed⟩
      · intro before after candidates found hsplit hbefore hfound hmem
        obtain ⟨pools, pools', hbefore', hf, hpool⟩ := hstays hsplit
        obtain rfl : candidates = pools := Except.ok.inj (hbefore.symm.trans hbefore')
        rcases filter_poolId hnamed hf with rfl | ⟨found', hfound', _, hone⟩
        · cases hpool
        · -- the filter leaves the named pool alone, and the rest of the chain only narrows that
          obtain rfl : found = found' := Option.some.inj (hfound.symm.trans hfound')
          rw [hone hmem, List.mem_singleton] at hpool
          have hpoolId : found.id = poolId := by
            simpa using List.find?_some hfound
          rw [← hid, hpool, hpoolId]
  · intro pools pools' hf pool hmem hsame
    cases hf
    exact List.mem_filter.mpr ⟨hmem, evaluatePool_iff.mpr fun k v hv => ⟨v, hsame k v hv, rfl⟩⟩

/-- A deployment of two pools, of which the second has an attribute twice. -/
def twoPools : Deployment where
  pools := [⟨"one", [⟨"tier", "gold"⟩]⟩, ⟨"two", [⟨"tier", "gold"⟩, ⟨"tier", "lead"⟩]⟩]
  defaultPoolId := "one"
  allowed _ := true
  spells _ := none

/--
A zone that names the first pool gets the second; one that asks for two tiers gets a pool with
one of them; and a pool that has the tier which is asked for is filtered out.
-/
theorem scheduled_elsewhere :
    scheduleZone twoPools [.randomFilter 1, .poolIdAttributeFilter]
        ⟨some [⟨"pool_id", "one"⟩]⟩ = .ok "two" ∧
    scheduleZone twoPools [.attributeFilter]
        ⟨some [⟨"tier", "lead"⟩, ⟨"tier", "gold"⟩]⟩ = .ok "one" ∧
    Filter.attributeFilter.filter twoPools ⟨some [⟨"tier", "gold"⟩]⟩ twoPools.pools =
      .ok [⟨"one", [⟨"tier", "gold"⟩]⟩] := by
  decide

end Scheduler

end Designate
