import Designate.Central.FloatingIps
import Designate.Run
import Designate.Sample

/-!
# The register of names behind the floating IPs

What the calls are for is a register: a name for an address, with the tenant that set
it. `create_record` is called under a keyword it does not have, so no name is ever set,
and every call that is to set one raises.
-/

namespace Designate

namespace FloatingIps

open Exec

variable {ctx : Context} {conf : Conf} {env : Env} {network : Network} {w : World} {input : Input}

/-! ## The register -/

/-- A name, the floating IP it was set for and the tenant that set it. -/
structure Named where
  tenant : String
  id : String
  name : String
  deriving DecidableEq, Repr

/-- The names, by address. -/
abbrev Register := String → Option Named

namespace Register

def set (reg : Register) (ctx : Context) (fip : Fip) (name : String) : Register := fun address =>
  if address = fip.address then some ⟨ctx.tenant, fip.id, name⟩ else reg address

/-- The tenant takes its name for the floating IP out. -/
def unset (reg : Register) (ctx : Context) (id : String) : Register := fun address =>
  (reg address).filter fun n => !(n.tenant == ctx.tenant && n.id == id)

/-- The tenant looks at floating IPs: what somebody else had set for their addresses goes. -/
def look (reg : Register) (ctx : Context) (fips : List Fip) : Register := fun address =>
  (reg address).filter fun n => n.tenant == ctx.tenant || !fips.any fun f => f.address == address

/-- What the tenant is shown for a floating IP. -/
def shown (reg : Register) (ctx : Context) (fip : Fip) : Option String :=
  ((reg fip.address).filter fun n => n.tenant == ctx.tenant).map Named.name

end Register

namespace Input

/-- The floating IP a call sets a name for, if the tenant holds it. -/
def sets (env : Env) (input : Input) : Option (Fip × String) :=
  match input.call with
  | .update region id values =>
    match values.ptrdname.value, getOf region id (listOf env input.network input.ctx (some region)) with
    | some (some name), .ok fip => some (fip, name)
    | _, _ => none
  | _ => none

/-- The floating IP a call takes the name of. -/
def unsets (input : Input) : Option String :=
  match input.call with
  | .update _ id values =>
    if values.ptrdname.changed && values.ptrdname.value == some none then some id else none
  | _ => none

/-- The floating IPs a call looks at, in the order in which it has them. -/
def looks (env : Env) (input : Input) : List Fip :=
  match input.call with
  | .list => env.order (listOf env input.network input.ctx none)
  | .get region id =>
    match getOf region id (listOf env input.network input.ctx (some region)) with
    | .ok _ => env.order (listOf env input.network input.ctx (some region))
    | .error _ => []
  | .update _ _ _ => []

/-- The register after a call. -/
def after (env : Env) (input : Input) (reg : Register) : Register :=
  match input.sets env, input.unsets with
  | some (fip, name), _ => reg.set input.ctx fip name
  | none, some id => reg.unset input.ctx id
  | none, none => reg.look input.ctx (input.looks env)

end Input

/-- A live managed PTR record for the address. -/
def reverseFor (db : Db) (address : String) (r : RecordRow) : Bool :=
  reverse r && r.managedBy.extra == some address &&
    db.recordsets.any fun s => s.id == r.recordsetId && s.type == .PTR && db.liveZone s.zoneId

/-- The tables have exactly the records of the register. -/
def Agrees (db : Db) (reg : Register) : Prop :=
  ∀ address, ((db.records.filter (reverseFor db address)).map fun r =>
      (r.managedBy.tenantId, r.managedBy.resourceId, r.data)) =
    (reg address).toList.map fun n => (some n.tenant, some n.id, n.name)

/-- A call on the tables and on the register. -/
def step (conf : Conf) (env : Env) (input : Input) (s : World × Register) : World × Register :=
  ((input.answer conf env s.1).2, input.after env s.2)

/-- What a transition has to do for the calls to be a register. -/
structure Right (conf : Conf) (env : Env) (t : Run.Transition (World × Register) Input) : Prop where
  agrees : Agrees t.after.1.db t.after.2
  others : t.after.1.db.records.filter (fun r => !reverse r) =
    t.before.1.db.records.filter fun r => !reverse r
  sets : ∀ fip name, t.input.sets env = some (fip, name) →
    ∃ shown, (t.input.answer conf env t.before.1).1 = .ok [shown] ∧ shown.fip = fip ∧
      shown.ptrdname = some name
  unsets : ∀ id, t.input.unsets = some id →
    (∃ address n, t.before.2 address = some n ∧ n.tenant = t.input.ctx.tenant ∧ n.id = id) →
      (t.input.answer conf env t.before.1).1 = .ok []
  lists : t.input.call = .list →
    ∃ shown, (t.input.answer conf env t.before.1).1 = .ok shown ∧
      shown.map (fun s => (s.fip, s.ptrdname)) =
        (t.input.looks env).map fun fip => (fip, t.after.2.shown t.input.ctx fip)
  gets : ∀ region id fip, t.input.call = .get region id →
    getOf region id (listOf env t.input.network t.input.ctx (some region)) = .ok fip →
      ∃ shown, (t.input.answer conf env t.before.1).1 = .ok [shown] ∧
        shown.ptrdname = t.after.2.shown t.input.ctx fip

/-! ## Setting a name raises -/

theorem setFloatingipReverse_raises (region id name : String) (values : Values) :
    Raises (setFloatingipReverse ctx conf env network region id name values) := by
  unfold setFloatingipReverse
  refine Raises.rest fun fip => Raises.rest fun zone => Raises.rest fun recordName => ?_
  refine Raises.rest fun recordset => Raises.first ?_
  exact Raises.raise Exc.TypeError

/-- Whoever holds a floating IP and sets a name for it gets no answer. -/
theorem sets_raises {p : Fip × String} (h : input.sets env = some p) :
    Raises (input.answer conf env) := by
  unfold Input.sets at h
  unfold Input.answer
  split at h
  · rename_i region id values hcall
    rw [hcall]
    cases hname : values.ptrdname.value with
    | none => rw [hname] at h; exact absurd h (by simp)
    | some name =>
      cases name with
      | none => rw [hname] at h; exact absurd h (by simp)
      | some name =>
        refine Raises.first (Raises.rollback ?_)
        have hset : (values.ptrdname.changed && values.ptrdname.value == some none) = false := by
          rw [hname]
          simp
        rw [if_neg (by rw [hset]; exact Bool.false_ne_true), hname]
        exact Raises.first (setFloatingipReverse_raises region id name values)
  · exact absurd h (by simp)

/-! ## Without any reverse record -/

/-- Nothing has the managed columns of a floating IP. -/
def NoReverse (w : World) : Prop :=
  ∀ r ∈ w.db.records, r.managedBy.resourceType ≠ some resourceType ∧ r.managedBy.tenantId = none

theorem NoReverse.reverse (h : NoReverse w) : ∀ r ∈ w.db.records, reverse r = false := by
  intro r hr
  unfold FloatingIps.reverse
  have hne := (h r hr).1
  simp [hne]

/-- A floating IP without a name. -/
def blank (fip : Fip) : FloatingIp := ⟨fip, none, none, none, none, some .ACTIVE⟩

theorem determine_nothing (h : NoReverse w) (fips : List Fip) :
    determine ctx env fips w = (.ok ((env.order fips).map fun fip => (fip, none), []), w) := by
  have hfound : w.db.records.filter (fun r => reverse r && (managing ctx).sees r.tenantId) = [] := by
    refine List.filter_eq_nil_iff.mpr fun r hr hp => ?_
    have hrev := (Bool.and_eq_true_iff.mp hp).1
    rw [h.reverse r hr] at hrev
    exact absurd hrev (by simp)
  have hnone : ∀ fip : Fip, recordFor [] fip = none := fun _ => rfl
  unfold determine findRecords
  rw [bind_ok (by rw [read_apply, hfound]), pure_apply]
  simp only [hnone, Option.filter_none]
  rw [List.filterMap_none]

theorem format_nothing (fips : List Fip) :
    format ctx (fips.map fun fip => (fip, none)) w = (.ok (fips.map blank), w) := by
  induction fips with
  | nil => rfl
  | cons fip fips ih =>
    have hone : formatOne ctx none fip (Option.map Record.ofRow none) w = (.ok (blank fip), w) := rfl
    rw [List.map_cons, format, bind_ok hone, bind_ok ih]
    rfl

theorem invalidate_nil : invalidate ctx conf [] w = (.ok (), w) := rfl

theorem listFloatingips_nothing (h : NoReverse w) :
    listFloatingips ctx conf env network w = (.ok ((env.order (listOf env network ctx none)).map blank), w) := by
  unfold listFloatingips
  rw [bind_ok (determine_nothing h _)]
  dsimp only
  rw [seq_ok invalidate_nil, format_nothing]

theorem getOf_mem {region id : String} {fips : List Fip} {fip : Fip}
    (h : getOf region id fips = .ok fip) : fip ∈ fips := by
  unfold getOf at h
  split at h
  · rename_i f hf
    obtain rfl := Except.ok.inj h
    exact List.mem_of_find?_eq_some hf
  · exact absurd h (by simp)

/-- A tenant that holds the floating IP is shown the first of the region, without a name. -/
theorem getFloatingip_nothing (conf : Conf) (h : NoReverse w) {region id : String} {fip : Fip}
    (hget : getOf region id (listOf env network ctx (some region)) = .ok fip) :
    ∃ f, (env.order (listOf env network ctx (some region))).head? = some f ∧
      getFloatingip ctx conf env network region id w = (.ok (blank f), w) := by
  have hmem : fip ∈ env.order (listOf env network ctx (some region)) :=
    (env.perm _).mem_iff.mpr (getOf_mem hget)
  have hread : (Exec.read fun _ => .ok fip : Call Fip) w = (.ok fip, w) := rfl
  unfold getFloatingip
  dsimp only
  rw [hget, bind_ok hread, bind_ok (determine_nothing h _)]
  dsimp only
  rw [seq_ok invalidate_nil, bind_ok (format_nothing _)]
  cases hl : env.order (listOf env network ctx (some region)) with
  | nil => rw [hl] at hmem; exact absurd hmem List.not_mem_nil
  | cons f fs => exact ⟨f, rfl, rfl⟩

/-- A tenant that does not hold it is told so. -/
theorem getFloatingip_missing {region id : String} {e : Exc}
    (hget : getOf region id (listOf env network ctx (some region)) = .error e) :
    getFloatingip ctx conf env network region id w = (.error e, w) := by
  unfold getFloatingip
  dsimp only
  rw [hget]
  rfl

/-- Nobody has a name to take out. -/
theorem unsetFloatingipReverse_nothing (h : NoReverse w) (id : String) :
    (unsetFloatingipReverse ctx conf id w).2 = w := by
  -- a condition on a column is false of NULL, however it is spelt
  have hcolumn : ∀ {value : String} {p : Option String → Bool},
      columnCriterion conf value = .ok p → p none = false := by
    intro value p hp
    unfold columnCriterion at hp
    cases ht : textCriterion conf value with
    | error e => rw [ht] at hp; exact absurd hp (by simp [Except.map])
    | ok q =>
      rw [ht] at hp
      obtain rfl := Except.ok.inj hp
      rfl
  unfold unsetFloatingipReverse
  cases hid : columnCriterion conf id with
  | error e => simp only [bind_apply, read_apply]
  | ok resourceId =>
    cases htenant : columnCriterion conf ctx.tenant with
    | error e => simp only [bind_apply, read_apply]
    | ok tenantId =>
      -- without names no record is managed, so none is found
      have hnone : w.db.records.filter (fun r => (resourceId r.managedBy.resourceId &&
          tenantId r.managedBy.tenantId) && (managing ctx).sees r.tenantId) = [] := by
        refine List.filter_eq_nil_iff.mpr fun r hr hp => ?_
        rw [(h r hr).2, hcolumn htenant] at hp
        exact absurd hp (by simp)
      simp only [bind_apply, read_apply]
      unfold findRecord Exec.catching
      simp only [read_apply, hnone]
      rfl

/-- A transaction that raises puts the tables back; so what matters is how it returns. -/
theorem transaction_db {α : Type} {m : Call α} (h : ∀ a w', m w = (.ok a, w') → w'.db = w.db) :
    (transaction m w).2.db = w.db := by
  unfold transaction Exec.rollback
  cases hm : m w with
  | mk result w' =>
    cases result with
    | ok a => exact h a w' hm
    | error e => rfl

/-- An update that returns has not changed the tables. -/
theorem updateFloatingip_db (h : NoReverse w) (region id : String) (values : Values) :
    (updateFloatingip ctx conf env network region id values w).2.db = w.db := by
  unfold updateFloatingip
  refine transaction_db fun shown w' hrun => ?_
  split at hrun
  · obtain ⟨u, w₁, hunset, hpure⟩ := bind_eq_ok.mp hrun
    have hsame : (unsetFloatingipReverse ctx conf id w).2 = w := unsetFloatingipReverse_nothing h id
    rw [hunset] at hsame
    obtain ⟨-, rfl⟩ := Prod.mk.inj hpure
    exact congrArg World.db hsame
  · cases hname : values.ptrdname.value with
    | none =>
      rw [hname] at hrun
      obtain ⟨-, rfl⟩ := Prod.mk.inj hrun
      rfl
    | some name =>
      cases name with
      | none =>
        rw [hname] at hrun
        obtain ⟨-, rfl⟩ := Prod.mk.inj hrun
        rfl
      | some name =>
        rw [hname] at hrun
        obtain ⟨fip, w₁, hset, -⟩ := bind_eq_ok.mp hrun
        -- a name that is set raises on the way; so this path does not return
        exact absurd hset (setFloatingipReverse_raises _ _ _ _ _ _ _)

/-- **No call changes the tables** where there is no reverse record. -/
theorem answer_db (h : NoReverse w) (input : Input) : (input.answer conf env w).2.db = w.db := by
  obtain ⟨ctx, network, call⟩ := input
  unfold Input.answer
  cases call with
  | list =>
    dsimp only
    rw [listFloatingips_nothing h]
  | get region id =>
    dsimp only
    rw [bind_pure_snd]
    cases hget : getOf region id (listOf env network ctx (some region)) with
    | error e => rw [getFloatingip_missing hget]
    | ok fip =>
      obtain ⟨f, -, hf⟩ := getFloatingip_nothing conf h hget
      rw [hf]
  | update region id values =>
    dsimp only
    rw [bind_pure_snd]
    exact updateFloatingip_db h _ _ _

/-- The register of nothing. -/
def Register.empty : Register := fun _ => none

theorem after_empty (hsets : input.sets env = none) :
    input.after env Register.empty = Register.empty := by
  unfold Input.after
  rw [hsets]
  cases input.unsets with
  | some id => rfl
  | none => rfl

theorem agrees_empty (h : NoReverse w) : Agrees w.db Register.empty := by
  intro address
  have hnone : w.db.records.filter (reverseFor w.db address) = [] := by
    refine List.filter_eq_nil_iff.mpr fun r hr hp => ?_
    unfold reverseFor at hp
    rw [h.reverse r hr] at hp
    exact absurd hp (by simp)
  rw [hnone]
  rfl

/-- What a call that sets no name does is right, as long as there are no names. -/
theorem right_of_empty (h : NoReverse w) (hsets : input.sets env = none) :
    Right conf env ⟨(w, Register.empty), input, step conf env input (w, Register.empty)⟩ where
  agrees := by
    show Agrees (input.answer conf env w).2.db (input.after env Register.empty)
    rw [answer_db h, after_empty hsets]
    exact agrees_empty h
  others := by
    show (input.answer conf env w).2.db.records.filter _ = _
    rw [answer_db h]
  sets fip name hset := absurd (hsets.symm.trans hset) (by simp)
  unsets id _ hentry := by
    obtain ⟨address, n, hn, -⟩ := hentry
    exact absurd hn (by simp [Register.empty])
  -- with nothing stored, what is shown is the list of Neutron, each without a name
  lists hcall := by
    refine ⟨(env.order (listOf env input.network input.ctx none)).map blank, ?_, ?_⟩
    · show (input.answer conf env w).1 = _
      rw [Input.answer, hcall]
      dsimp only
      rw [listFloatingips_nothing h]
    · show _ = (input.looks env).map fun fip =>
        (fip, (input.after env Register.empty).shown input.ctx fip)
      rw [after_empty hsets, Input.looks, hcall, List.map_map]
      rfl
  gets region id fip hcall hget := by
    obtain ⟨f, -, hf⟩ := getFloatingip_nothing conf h hget
    refine ⟨blank f, ?_, ?_⟩
    · show (input.answer conf env w).1 = _
      rw [Input.answer, hcall]
      dsimp only
      rw [bind_ok hf]
      rfl
    · show _ = (input.after env Register.empty).shown input.ctx fip
      rw [after_empty hsets]
      rfl

/--
**The calls are a register of names exactly as long as nobody sets one** for a floating
IP it holds: the names are those that were set and not taken out, each tenant sees its
own, and nothing of another is left once somebody else has looked.
-/
theorem run_register_iff (conf : Conf) (env : Env) (inputs : List Input) (w : World)
    (hw : NoReverse w) :
    (∀ t ∈ Run.transitions (step conf env) inputs (w, Register.empty), Right conf env t) ↔
      ∀ input ∈ inputs, input.sets env = none := by
  constructor
  · intro hright input hinput
    obtain ⟨t, ht, rfl⟩ : ∃ t ∈ Run.transitions (step conf env) inputs (w, Register.empty),
        t.input = input := Run.exists_transition hinput
    by_contra hne
    obtain ⟨⟨fip, name⟩, hset⟩ := Option.ne_none_iff_exists'.mp hne
    obtain ⟨shown, hanswer, -⟩ := (hright t ht).sets fip name hset
    -- it would have to return, and it raises
    exact sets_raises hset _ _ _ (Prod.ext hanswer rfl)
  · intro hnone
    have hguard : ∀ t ∈ Run.transitions (step conf env) inputs (w, Register.empty),
        t.input.sets env = none := fun t ht => hnone _ (Run.input_mem ht)
    refine Run.forall_transitions (P := fun s i s' => Right conf env ⟨s, i, s'⟩)
      (I := fun s => NoReverse s.1 ∧ s.2 = Register.empty) (G := fun i _ => i.sets env = none)
      ?_ ?_ ⟨hw, rfl⟩ hguard
    · rintro input ⟨w, reg⟩ ⟨hw, rfl⟩ hsets
      refine ⟨?_, after_empty hsets⟩
      intro r hr
      have hdb : (step conf env input (w, Register.empty)).1.db = w.db := answer_db hw input
      rw [hdb] at hr
      exact hw r hr
    · rintro input ⟨w, reg⟩ ⟨hw, rfl⟩ hsets
      exact right_of_empty hw hsets

/-! ## At the sample -/

namespace Sample

def names : Env where
  addressName := fun _ => .ok "1.2.0.192.in-addr.arpa."
  managedResourceTenantId := some "admin"
  order := id
  perm := List.Perm.refl

def fip : Fip := ⟨"RegionOne", "f-1", "192.0.2.1"⟩

/-- The tenant `t` holds one floating IP. -/
def holds : Network := fun tenant => if tenant = "t" then [fip] else []

def reverseZone : Zone :=
  { id := 2, tenantId := some "admin", name := "2.0.192.in-addr.arpa.", type := .PRIMARY, ttl := 3600,
    serial := 1, action := .NONE, status := .ACTIVE, poolId := 0, viewId := some 1,
    parentZoneId := none, deleted := false }

def world : World := { db := { zones := [reverseZone] }, nextId := 3 }

def call (tenant : String) (c : FipCall) : Input := ⟨{ tenant := tenant }, holds, c⟩

def set : Input :=
  call "t" (.update "RegionOne" "f-1" ⟨Tracked.unset.set (some "www.example.com."), none, none⟩)

def unset : Input := call "t" (.update "RegionOne" "f-1" ⟨Tracked.unset.set none, none, none⟩)

end Sample

/-- A list, an unset and a get: no call sets a name. -/
def Sample.calls : List Input :=
  [Sample.call "t" .list, Sample.unset, Sample.call "t" (.get "RegionOne" "f-1")]

theorem run_register_iff_sample :
    (∀ input ∈ Sample.calls, input.sets Sample.names = none) ∧
      ∀ t ∈ Run.transitions (step Designate.Sample.conf Sample.names) Sample.calls
        (Sample.world, Register.empty), Right Designate.Sample.conf Sample.names t := by
  have hsets : ∀ input ∈ Sample.calls, input.sets Sample.names = none := by decide
  have hnone : NoReverse Sample.world := fun r hr => absurd hr List.not_mem_nil
  exact ⟨hsets, (run_register_iff Designate.Sample.conf Sample.names Sample.calls Sample.world
    hnone).mpr hsets⟩

/-- A tenant that holds a floating IP sets a name for it, and gets no answer. -/
theorem name_not_set :
    ¬ ∀ (conf : Conf) (env : Env) (inputs : List Input) (w : World), NoReverse w →
      ∀ t ∈ Run.transitions (step conf env) inputs (w, Register.empty), Right conf env t := by
  intro h
  have hright := h Designate.Sample.conf Sample.names [Sample.set] Sample.world
    (fun r hr => absurd hr List.not_mem_nil) _ List.mem_cons_self
  have hset : Sample.set.sets Sample.names = some (Sample.fip, "www.example.com.") := by decide
  obtain ⟨shown, hanswer, -⟩ := hright.sets Sample.fip "www.example.com." hset
  exact sets_raises hset _ _ _ (Prod.ext hanswer rfl)

end FloatingIps

end Designate
