import Designate.Proof.Stable
import Designate.Run

/-!
# CNAME recordsets

A CNAME recordset is not at the apex, shares its name with no other recordset and has
one record at most. The first two are a matter of where recordsets are, which only
their creation decides, and that checks them. The last is checked at the creation too,
but an update adds records without a look at it.
-/

namespace Designate

open Exec

variable {ctx : Context} {conf : Conf} {zone : Zone} {recordset : RecordSet} {record : Record}
  {w w' : World} {row : RecordRow}

/-- The rules for CNAME recordsets. -/
structure World.CnameRules (w : World) : Prop where
  notApex : ∀ s ∈ w.db.recordsets, s.type = .CNAME →
    ∀ z ∈ w.db.zones, z.id = s.zoneId → s.name ≠ z.name
  alone : ∀ s ∈ w.db.recordsets, s.type = .CNAME →
    ∀ t ∈ w.db.recordsets, t.zoneId = s.zoneId → t.name = s.name → t.id = s.id
  single : ∀ s ∈ w.db.recordsets, s.type = .CNAME → (w.db.recordsOf s.id).length ≤ 1

/--
The invariant: the zones have tenants, as `create_zone` gives them. Without the links, a record
could turn up in a recordset it does not name.
-/
structure World.Exclusive (w : World) : Prop extends w.CnameRules where
  linked : w.Linked
  owned : ∀ z ∈ w.db.zones, z.tenantId ≠ none

/-! ## Where the recordsets are -/

/-- Recordsets that have gone or changed their ttl, and no second record of a CNAME. -/
theorem World.Exclusive.of_places (h : w.Exclusive) (hl : w'.Linked)
    (hz : w'.db.zones = w.db.zones)
    (hs : w'.db.recordsets.map RecordSetRow.place ⊆ w.db.recordsets.map RecordSetRow.place)
    (hr : ∀ s ∈ w.db.recordsets, s.type = .CNAME → (w'.db.recordsOf s.id).length ≤ 1) :
    w'.Exclusive := by
  have hback : ∀ s' ∈ w'.db.recordsets, ∃ s ∈ w.db.recordsets, s.id = s'.id ∧
      s.zoneId = s'.zoneId ∧ s.name = s'.name ∧ s.type = s'.type := by
    intro s' hs'
    obtain ⟨s, hm, he⟩ := mem_of_map_subset hs hs'
    simp only [RecordSetRow.place, Prod.mk.injEq] at he
    exact ⟨s, hm, he.1, he.2.1, he.2.2.2.1, he.2.2.2.2⟩
  refine ⟨⟨fun s' hs' ht z hm hid => ?_, fun s' hs' ht t' ht' hzone hname => ?_,
    fun s' hs' ht => ?_⟩, hl, hz ▸ h.owned⟩
  · obtain ⟨s, hm', -, h₂, h₃, h₄⟩ := hback s' hs'
    rw [← h₃]
    exact h.notApex s hm' (h₄.trans ht) z (hz ▸ hm) (hid.trans h₂.symm)
  · obtain ⟨s, hm, h₁, h₂, h₃, h₄⟩ := hback s' hs'
    obtain ⟨t, hm', i₁, i₂, i₃, -⟩ := hback t' ht'
    have := h.alone s hm (h₄.trans ht) t hm' (by rw [i₂, hzone, h₂]) (by rw [i₃, hname, h₃])
    rw [← i₁, this, h₁]
  · obtain ⟨s, hm, h₁, -, -, h₄⟩ := hback s' hs'
    rw [← h₁]
    exact hr s hm (h₄.trans ht)

/-- No more records than there were. -/
theorem World.Exclusive.of_fewer (h : w.Exclusive) (hl : w'.Linked)
    (hz : w'.db.zones = w.db.zones)
    (hs : w'.db.recordsets.map RecordSetRow.place ⊆ w.db.recordsets.map RecordSetRow.place)
    (hr : ∀ id, w'.db.records.countP (fun r => r.recordsetId == id) ≤
      w.db.records.countP fun r => r.recordsetId == id) : w'.Exclusive := by
  refine h.of_places hl hz hs fun s hm ht => ?_
  have hle := hr s.id
  have hone := h.single s hm ht
  unfold Db.recordsOf at hone ⊢
  rw [← List.countP_eq_length_filter] at hone ⊢
  exact Nat.le_trans hle hone

theorem shrinking_recordsOf (id : Nat) : Shrinking fun r => r.recordsetId == id := by
  intro row new hp _ h
  have hid : new.recordsetId = row.recordsetId := congrArg (fun p => p.2.2.1) hp
  dsimp only at h ⊢
  rw [← hid]
  exact h

theorem exclusive_stable : Stable World.Exclusive where
  linked h := h.linked
  still hs h := h.of_fewer (linked_stable.still hs h.linked) hs.zones
    (by rw [hs.recordsets]; exact List.Subset.refl _) fun _ => Nat.le_of_eq (by rw [hs.records])
  write new h hm hp hu := h.of_fewer (linked_stable.write new h.linked hm hp hu) rfl
    (List.Subset.refl _) fun id => (shrinking_recordsOf id).countP_withRecord h.linked hm hp hu
  drop id h := h.of_fewer (linked_stable.drop id h.linked) rfl (List.Subset.refl _)
    fun _ => List.Sublist.countP_le List.filter_sublist

theorem exclusive_removable : Removable World.Exclusive := fun _ id h =>
  h.of_fewer (h.linked.withoutRecordset id) rfl (List.map_subset _ (List.filter_subset_self _))
    fun _ => List.Sublist.countP_le List.filter_sublist

/-! ## What is inserted -/

/-- A record is added to a CNAME recordset if that has none. -/
theorem World.Exclusive.inserted (h : w.Exclusive) (hp : Placed zone.id recordset.id w)
    (hstores : Stores ctx conf zone recordset record w.db w.nextId row)
    (hfree : ∀ s ∈ w.db.recordsets, s.id = recordset.id → s.type = .CNAME →
      w.db.recordsOf s.id = []) : (w.inserted row).Exclusive := by
  refine h.of_places ((linked_steady ctx conf).insert h.linked hp hstores) rfl
    (List.Subset.refl _) fun s hs ht => ?_
  have hrow := hstores.inserted.recordsetId
  have happend : (w.inserted row).db.recordsOf s.id =
      w.db.recordsOf s.id ++ [row].filter fun r => r.recordsetId == s.id :=
    List.filter_append _ _
  rw [happend, List.length_append]
  -- it had none, so one is what it has now; the others have what they had
  by_cases hid : s.id = recordset.id
  · have hle : ([row].filter fun r => r.recordsetId == s.id).length ≤ 1 :=
      List.length_filter_le _ _
    rw [hfree s hs hid ht]
    simpa using hle
  · have hne : (row.recordsetId == s.id) = false :=
      beq_eq_false_iff_ne.mpr fun he => hid (he.symm.trans hrow)
    rw [List.filter_cons, hne]
    exact h.single s hs ht

/-- A recordset belongs to the tenant of its zone. -/
theorem World.Linked.tenant (h : w.Linked) (hz : zone ∈ w.db.zones) {s : RecordSetRow}
    (hs : s ∈ w.db.recordsets) (hid : s.zoneId = zone.id) : s.tenantId = zone.tenantId := by
  obtain ⟨z, hm, he, ht⟩ := h.zone s hs
  obtain rfl := Table.eq_of_key h.zoneIds hm hz (he.trans hid)
  exact ht.symm

/-- A zone that was found is live. -/
theorem liveZone_of_found {id : Nat} (hz : findZone ctx id w.db = .ok zone) :
    w.db.liveZone id = true := by
  obtain ⟨hm, hid, -, hlive⟩ := findZone_mem hz
  exact List.any_eq_true.mpr ⟨zone, hm, by simp [hid, hlive]⟩

/-- The checks of a new recordset look at every other one of the zone. -/
theorem isValidRecordsetPlacement_new {name : String} {type : RRType}
    (h : isValidRecordsetPlacement ctx zone name type none w.db = .ok ()) (hw : w.Exclusive)
    (hz : findZone ctx zone.id w.db = .ok zone) :
    ¬ (type = .CNAME ∧ name = zone.name) ∧ ∀ r ∈ w.db.recordsets, r.zoneId = zone.id →
      r.name = name → type ≠ .CNAME ∧ r.type ≠ .CNAME := by
  obtain ⟨hm, -, hsees, -⟩ := findZone_mem hz
  unfold isValidRecordsetPlacement at h
  split at h
  · exact absurd h (by simp)
  rename_i hapex
  refine ⟨hapex, fun r hr hzone hname => ?_⟩
  -- the tenant of the zone is the one of the request, or the request sees them all
  have howns : ctx.owns r.tenantId = true := by
    have hsome := hw.owned zone hm
    rw [hw.linked.tenant hm hr hzone]
    unfold Context.sees at hsees
    unfold Context.owns
    simpa [hsome] using hsees
  have hlive : w.db.liveZone zone.id = true := liveZone_of_found hz
  by_contra hcname
  have hfound : r ∈ findRecordsets ctx (fun r => r.zoneId == zone.id && r.name == name &&
      (type == .CNAME || r.type == .CNAME)) w.db := by
    refine List.mem_filter.mpr ⟨hr, ?_⟩
    have hone : type = .CNAME ∨ r.type = .CNAME := by
      by_contra hnone
      exact hcname (not_or.mp hnone)
    simp only [howns, hlive, Bool.and_true, hzone, hname, beq_self_eq_true, Bool.true_and]
    simpa using hone
  split at h
  · rename_i hnil
    rw [hnil] at hfound
    exact absurd hfound List.not_mem_nil
  · exact absurd h (by simp)
  · exact absurd h (by simp)

/-- A recordset that was let through can be added. -/
theorem World.Exclusive.withRecordset (h : w.Exclusive) {recordset : NewRecordSet}
    (hz : findZone ctx zone.id w.db = .ok zone)
    (hs : StoresRecordset ctx conf zone recordset w.db) :
    (w.withRecordsetRow (recordset.row zone w.nextId)).Exclusive := by
  obtain ⟨hm, -, -, -⟩ := findZone_mem hz
  obtain ⟨-, hplace, -, -⟩ := validateRecordset_ok hs.2.1
  obtain ⟨hapex, hfree⟩ := isValidRecordsetPlacement_new hplace h hz
  have hlinked : (w.withRecordsetRow (recordset.row zone w.nextId)).Linked :=
    h.linked.withRecordsetRow rfl ⟨zone, hm, rfl, rfl⟩
  have hzoneOf : ∀ z ∈ w.db.zones, z.id = zone.id → z = zone :=
    fun z hz' he => Table.eq_of_key h.linked.zoneIds hz' hm he
  refine ⟨⟨fun s hs' ht z hz' hid => ?_, fun s hs' ht t ht' hzone hname => ?_, fun s hs' ht => ?_⟩,
    hlinked, h.owned⟩
  · rcases List.mem_append.mp hs' with hs' | hs'
    · exact h.notApex s hs' ht z hz' hid
    · rw [List.mem_singleton.mp hs'] at ht hid ⊢
      rw [hzoneOf z hz' hid]
      exact fun hname => hapex ⟨ht, hname⟩
  · rcases List.mem_append.mp hs' with hs' | hs' <;> rcases List.mem_append.mp ht' with ht' | ht'
    · exact h.alone s hs' ht t ht' hzone hname
    · rw [List.mem_singleton.mp ht'] at hzone hname
      exact absurd ht (hfree s hs' hzone.symm hname.symm).2
    · rw [List.mem_singleton.mp hs'] at hzone hname ht
      exact absurd ht (hfree t ht' hzone hname).1
    · rw [List.mem_singleton.mp hs', List.mem_singleton.mp ht']
  · rcases List.mem_append.mp hs' with hs' | hs'
    · exact h.single s hs' ht
    · -- nothing refers to a recordset that is new
      have hnone : w.db.recordsOf w.nextId = [] := by
        refine List.filter_eq_nil_iff.mpr fun r hr he => ?_
        exact absurd (eq_of_beq he) (Nat.ne_of_lt (h.linked.recordsetId_lt hr))
      rw [List.mem_singleton.mp hs']
      have hlen : (w.db.recordsOf w.nextId).length = 0 := congrArg List.length hnone
      exact Nat.le_trans (Nat.le_of_eq hlen) (Nat.zero_le 1)

/-! ## Calls -/

/-- The recordset of a loop is in the zone, and has the type the object says. -/
def Typed (zone : Zone) (recordset : RecordSet) (w : World) : Prop :=
  Placed zone.id recordset.id w ∧
    ∀ s ∈ w.db.recordsets, s.id = recordset.id → s.type = recordset.type

theorem typed_stable (zone : Zone) (recordset : RecordSet) :
    Stable fun w => w.Linked ∧ Typed zone recordset w :=
  Stable.of_still fun _ _ _ hs h => ⟨h.1.of_places hs, fun s hm hid => by
    obtain ⟨s₀, hm₀, he⟩ := mem_of_map_eq hs hm
    simp only [RecordSetRow.place, Prod.mk.injEq] at he
    rw [← he.2.2.2.2]
    exact h.2 s₀ hm₀ (he.1.trans hid)⟩

/-- A recordset that was just stored. -/
theorem typed_stored (h : w.Linked) (recordset : NewRecordSet) :
    Typed zone (RecordSet.ofRow (recordset.row zone w.nextId) recordset.records)
      (w.withRecordsetRow (recordset.row zone w.nextId)) := by
  refine ⟨⟨_, List.mem_append_right _ (List.mem_singleton_self _), rfl, rfl⟩, fun s hs hid => ?_⟩
  rcases List.mem_append.mp hs with hs | hs
  · have hlt := h.recordsets s hs
    have hnew : s.id = w.nextId := hid
    omega
  · rw [List.mem_singleton.mp hs]
    rfl

/-- The invariant of a loop: a CNAME has had at most `k` records. -/
def Adding (zone : Zone) (recordset : RecordSet) (k : Nat) (w : World) : Prop :=
  (w.Exclusive ∧ w.Linked ∧ Typed zone recordset w) ∧
    w.Linked ∧ w.db.records.countP (fun r => r.recordsetId == recordset.id) ≤ k

theorem adding_counted (zone : Zone) (recordset : RecordSet) : Counted (Adding zone recordset) where
  stable k := (exclusive_stable.and (typed_stable zone recordset)).and
    (Stable.records_le k (shrinking_recordsOf recordset.id))
  mono _ _ h := ⟨h.1, h.2.1, Nat.le_succ_of_le h.2.2⟩

/-- A turn of the loop of a creation. -/
theorem Adding.inserted {k : Nat} (h : Adding zone recordset k w)
    (hstores : Stores ctx conf zone recordset record w.db w.nextId row)
    (hk : recordset.type = .CNAME → k = 0) : Adding zone recordset (k + 1) (w.inserted row) := by
  obtain ⟨⟨hexcl, hlinked, htyped⟩, -, hcount⟩ := h
  have hfree : ∀ s ∈ w.db.recordsets, s.id = recordset.id → s.type = .CNAME →
      w.db.recordsOf s.id = [] := by
    intro s hs hid ht
    have hzero := hk ((htyped.2 s hs hid).symm.trans ht)
    rw [hzero] at hcount
    rw [hid]
    refine List.filter_eq_nil_iff.mpr fun r hr => ?_
    exact List.countP_eq_zero.mp (Nat.le_zero.mp hcount) r hr
  have hnew := hexcl.inserted htyped.1 hstores hfree
  refine ⟨⟨hnew, hnew.linked, htyped⟩, hnew.linked, ?_⟩
  have happend : (w.inserted row).db.records = w.db.records ++ [row] := rfl
  have hle : [row].countP (fun r => r.recordsetId == recordset.id) ≤ 1 :=
    List.countP_le_length
  rw [happend, List.countP_append]
  omega

/-- An entry that adds a record to a CNAME recordset has its turn when there is none. -/
def RecordsetInput.AddsToNone (conf : Conf) (input : RecordsetInput) (w : World) : Prop :=
  ∀ plan zone recordset ttlChanged entries,
    input.call.Loops input.ctx w plan zone recordset ttlChanged entries → recordset.type = .CNAME →
    ∀ t ∈ turns input.ctx conf zone recordset ttlChanged plan entries w,
      t.entry.2.op = .create → t.before.db.recordsOf recordset.id = []

theorem createAll_exclusive (h : w.Exclusive) {recordset : NewRecordSet}
    (hz : findZone ctx zone.id w.db = .ok zone) (hs : StoresRecordset ctx conf zone recordset w.db)
    (plan : Nat → Faults) :
    (createAll ctx conf zone (RecordSet.ofRow (recordset.row zone w.nextId) recordset.records) plan
      recordset.records (w.withRecordsetRow (recordset.row zone w.nextId))).2.Exclusive := by
  obtain ⟨-, -, -, hrecords⟩ := validateRecordset_ok hs.2.1
  -- the check of the request: a CNAME has at most one record
  have hlen : recordset.type = .CNAME → recordset.records.length ≤ 1 := by
    intro ht
    unfold isValidRecordsetRecords at hrecords
    split at hrecords
    · exact absurd hrecords (by simp)
    · rename_i hmany
      have hnot : ¬ recordset.records.length > 1 := fun hgt => hmany ⟨hgt, ht⟩
      omega
  have hstored := h.withRecordset hz hs
  -- the recordset is new, so nothing is in it before the records are created
  have hnone : (w.withRecordsetRow (recordset.row zone w.nextId)).db.records.countP
      (fun r => r.recordsetId == w.nextId) = 0 := by
    refine List.countP_eq_zero.mpr fun r hr he => ?_
    exact absurd (eq_of_beq he) (Nat.ne_of_lt (h.linked.recordsetId_lt hr))
  have hstart : Adding zone (RecordSet.ofRow (recordset.row zone w.nextId) recordset.records) 0
      (w.withRecordsetRow (recordset.row zone w.nextId)) :=
    ⟨⟨hstored, hstored.linked, typed_stored h.linked recordset⟩, hstored.linked,
      Nat.le_of_eq hnone⟩
  refine ((adding_counted zone _).createAll (n := recordset.records.length)
    (fun k hk record _ w row hJ hs => hJ.inserted hs fun ht => ?_) plan
    (Nat.le_of_eq (Nat.zero_add _)) hstart).1.1
  have hone := hlen ht
  omega

theorem applyEntries_exclusive (h : w.Exclusive) {call : RecordsetCall} {plan : Nat → Faults}
    {ttlChanged : Bool} {entries : List (Record × Entry)}
    (hloops : call.Loops ctx w plan zone recordset ttlChanged entries)
    (hadds : recordset.type = .CNAME →
      ∀ t ∈ turns ctx conf zone recordset ttlChanged plan entries w, t.entry.2.op = .create →
        t.before.db.recordsOf recordset.id = []) :
    (applyEntries ctx conf zone recordset ttlChanged plan entries w).2.Exclusive := by
  -- the number of insertions does not matter here: each is asked for an empty recordset
  have hcounted : Counted fun _ w => w.Exclusive ∧ w.Linked ∧ Typed zone recordset w :=
    ⟨fun _ => exclusive_stable.and (typed_stable zone recordset), fun _ _ h => h⟩
  obtain ⟨s, -, -, hs, -, -, hid, htype, -⟩ := hloops.guards
  have hsm := (Table.find_mem hs).1
  have htyped : Typed zone recordset w :=
    ⟨hloops.placed, fun s' hm' hid' => by
      rw [Table.eq_of_key h.linked.recordsetIds hm' hsm (hid'.trans hid.symm), htype]⟩
  refine (hcounted.applyEntries (n := creates entries) plan (fun p hp => hloops.steadfast hp)
    (fun k _ t ht hop hJ row hstores => ?_) (Nat.le_of_eq (Nat.zero_add _))
    ⟨h, h.linked, htyped⟩).1
  obtain ⟨hexcl, -, htyped⟩ := hJ
  have hnew := hexcl.inserted htyped.1 hstores fun s hs hid hcname => by
    rw [hid]
    exact hadds ((htyped.2 s hs hid).symm.trans hcname) t ht hop
  exact ⟨hnew, hnew.linked, htyped⟩

/-- The default records are no CNAMEs. -/
theorem exclusive_admits {name : String} {type : RRType} {ttl : Option Nat} {data : String}
    (ht : type ≠ .CNAME) (h : w.Exclusive) (hz : findZone ctx zone.id w.db = .ok zone)
    (hs : StoresRecordset ctx conf zone
      { name := name, type := type, ttl := ttl, description := none
        records := [Record.newManaged data] } w.db) :
    ∃ J, Stable.Admits ctx conf zone
      { name := name, type := type, ttl := ttl, description := none
        records := [Record.newManaged data] } World.Exclusive w J := by
  refine ⟨_, exclusive_stable.and (typed_stable zone _), fun _ h => h.1,
    ⟨h.withRecordset hz hs, (h.withRecordset hz hs).linked, typed_stored h.linked _⟩,
    fun w' record row _ hJ hstores => ?_⟩
  have hnew := hJ.1.inserted hJ.2.2.1 hstores fun s hs hid hcname =>
    absurd ((hJ.2.2.2 s hs hid).symm.trans hcname) ht
  exact ⟨hnew, hnew.linked, hJ.2.2⟩

/-- A call that adds to a CNAME without records only keeps the rules. -/
theorem RecordsetInput.run_exclusive {input : RecordsetInput} (h : w.Exclusive)
    (hadds : input.AddsToNone conf w) : (input.run conf w).Exclusive := by
  refine RecordsetInput.run_keeps exclusive_stable exclusive_removable h
    (fun plan zone recordset hcreates => ?_) (fun plan zone recordset ttlChanged entries hloops => ?_)
    fun zone w name type data ht h hz hs => exclusive_admits ht h hz hs
  · obtain ⟨ctx, call⟩ := input
    cases call with
    | create plan' zoneId name type ttl description managed texts =>
      obtain ⟨-, -, hz, -, hs⟩ := hcreates
      exact createAll_exclusive h hz hs plan
    | _ => exact hcreates.elim
  · exact applyEntries_exclusive h hloops
      (hadds plan zone recordset ttlChanged entries hloops)

/--
**The rules hold along every run**, from tables in which they hold and every zone has a
tenant, if no update adds to a CNAME recordset that has a record.
-/
theorem run_cnameRules (conf : Conf) (inputs : List RecordsetInput) (w : World) (hw : w.Exclusive)
    (hadds : ∀ t ∈ Run.transitions (RecordsetInput.run conf) inputs w,
      t.input.AddsToNone conf t.before) :
    (∀ t ∈ Run.transitions (RecordsetInput.run conf) inputs w, t.before.CnameRules) ∧
      (Run.final (RecordsetInput.run conf) inputs w).CnameRules := by
  obtain ⟨hbefore, hfinal⟩ := Run.invariant (I := World.Exclusive)
    (G := fun (input : RecordsetInput) w => input.AddsToNone conf w)
    (fun _ _ h hadds => RecordsetInput.run_exclusive h hadds) hw hadds
  exact ⟨fun t ht => (hbefore t ht).toCnameRules, hfinal.toCnameRules⟩

/-! ## At the sample -/

theorem sample_exclusive : Sample.world.Exclusive where
  notApex := by decide
  alone := by decide
  single := by decide
  linked := sample_linked
  owned := by decide

/-- A CNAME recordset with one record. -/
def Sample.alias : RecordsetInput :=
  ⟨Sample.ctx, .create (fun _ => Faults.none) 2 "alias.example.com." .CNAME none none false
    ["a.example.net."]⟩

/-- A second record next to the one there is. -/
def Sample.second : RecordsetInput :=
  ⟨Sample.ctx, .update (fun _ => Faults.none) 2 11 none none
    [.made false ("nochange;" ++ Text.uuidText 12 ++ ";a.example.net."),
      .made false "create;;b.example.net."]⟩

/-- Another record in the place of the one there is, which is dropped before. -/
def Sample.movedList : List ListedRecord :=
  [.made false ("delete;" ++ Text.uuidText 12 ++ ";a.example.net."),
    .made false "create;;b.example.net."]

def Sample.moved : RecordsetInput :=
  ⟨Sample.ctx, .update (fun _ => Faults.none) 2 11 none none Sample.movedList⟩

/-- At the turn that creates the new record, the CNAME has none. -/
theorem moved_addsToNone (w : World) (hw : w = Sample.alias.run Sample.conf Sample.world) :
    Sample.moved.AddsToNone Sample.conf w := by
  intro plan zone recordset ttlChanged entries hloops hcname t ht hop
  obtain ⟨rfl, stored, hstored, rfl, hguard, hlist⟩ := hloops
  have hloop := loopOf_eq (fun stored => stored.relisted none none Sample.movedList) hstored hguard
    hlist
  have hnone : ∀ loop ∈ loopOf Sample.ctx (Sample.alias.run Sample.conf Sample.world) 2 11
      (fun stored => stored.relisted none none Sample.movedList), ∀ t ∈ turns Sample.ctx Sample.conf loop.2.1 loop.1 loop.2.2.1 (fun _ => Faults.none)
        loop.2.2.2 (Sample.alias.run Sample.conf Sample.world),
        t.entry.2.op = .create → t.before.db.recordsOf loop.1.id = [] := by
    decide +kernel
  subst hw
  exact hnone _ hloop t ht hop

theorem run_cnameRules_sample :
    (∀ t ∈ Run.transitions (RecordsetInput.run Sample.conf) [Sample.alias, Sample.moved]
      Sample.world, t.before.CnameRules) ∧
      (Run.final (RecordsetInput.run Sample.conf) [Sample.alias, Sample.moved]
        Sample.world).CnameRules :=
  run_cnameRules Sample.conf [Sample.alias, Sample.moved] Sample.world sample_exclusive
    fun t ht => by
      rcases List.mem_pair.mp ht with rfl | rfl
      · intro plan zone recordset ttlChanged entries hloops
        exact hloops.elim
      · exact moved_addsToNone _ rfl

/-- An update gives the CNAME its second record. -/
theorem cname_twice :
    ¬ ∀ (conf : Conf) (inputs : List RecordsetInput) (w : World), w.Exclusive →
      (∀ t ∈ Run.transitions (RecordsetInput.run conf) inputs w, t.before.CnameRules) ∧
        (Run.final (RecordsetInput.run conf) inputs w).CnameRules := by
  intro h
  have hfinal := (h Sample.conf [Sample.alias, Sample.second] Sample.world sample_exclusive).2
  have hrow : { Sample.wwwRow with
      id := 11, name := "alias.example.com.", type := .CNAME, ttl := none } ∈
      (Run.final (RecordsetInput.run Sample.conf) [Sample.alias, Sample.second]
        Sample.world).db.recordsets := by decide +kernel
  have hsingle := hfinal.single _ hrow rfl
  exact absurd hsingle (by decide +kernel)

end Designate
