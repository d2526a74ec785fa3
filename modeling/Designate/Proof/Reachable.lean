import Designate.Proof.Requests
import Designate.Run

/-!
# Links in every state of a run

The links between zones, recordsets and records hold all along every run of the
service, whatever fails: the objects of an update may carry anything but another zone
or another recordset.
-/

namespace Designate

open Exec

variable {ctx : Context} {conf : Conf} {record : Record} {w : World}

/-- The object leaves its row where it is. -/
def Record.Stays (record : Record) : Prop :=
  record.zoneId.changed = false ∧ record.recordsetId.changed = false

theorem World.Linked.write (h : w.Linked) {row : RecordRow}
    (hr : findRecordRow ctx record.id w.db = .ok row) (hs : record.Stays) :
    (w.withDb (w.db.withRecord (writtenRow conf record row))).Linked := by
  refine h.of_places rfl rfl ?_ (Nat.le_refl _)
  rw [World.withDb_db, withRecord_places hr (writtenRow_place hs.1 hs.2) h]

/-- `I` survives whatever is written from an object that leaves its row where it is. -/
def IgnoresStaying (ctx : Context) (conf : Conf) (I : World → Prop) : Prop :=
  ∀ (w : World) (record : Record) (row : RecordRow), I w →
    findRecordRow ctx record.id w.db = .ok row → record.Stays →
    I (w.withDb (w.db.withRecord (writtenRow conf record row)))

/-- The worker's action for such an object. -/
theorem Steady.staysKeptBy {scope : Scope} {I : World → Prop} (hI : Steady ctx conf scope I)
    (hwrite : IgnoresStaying ctx conf I) (action : Action) (hs : record.Stays) :
    KeptBy ctx conf action record I where
  quiet := hI.quiet
  ask {w} h := by
    have hstill : World.Still w (w.asked ⟨action, record.id⟩) := ⟨rfl, rfl, rfl, Nat.le_refl _⟩
    exact hI.still hstill h
  write _ h hr _ := hwrite _ record.settle _ h hr hs
  drop h hr := hI.drop h hr

theorem linked_keptBy (action : Action) (hs : record.Stays) :
    KeptBy ctx conf action record World.Linked :=
  (linked_steady ctx conf).staysKeptBy (fun _ _ _ h hr hs => h.write hr hs) action hs

/-- The record objects of a request: rows of the recordset, or new. -/
theorem parseRecordset_records {stored : RecordSet} {ttl : Option Nat} {description : Option String}
    {texts : List String} {zoneId recordsetId : Nat}
    (hstored : centralGetRecordset ctx zoneId recordsetId w = (.ok stored, w))
    (hm : record ∈ (parseRecordset stored ttl description texts).records) :
    (∃ row ∈ w.db.recordsOf recordsetId, record = Record.ofRow row ∧ row.data ∈ texts) ∨
      ∃ text ∈ texts, record = Record.new text := by
  obtain ⟨s, zone, -, -, -, rfl⟩ := centralGetRecordset_ok hstored
  rcases List.mem_append.mp hm with hm | hm
  · obtain ⟨hm, htext⟩ := List.mem_filter.mp hm
    obtain ⟨row, hrow, rfl⟩ := List.mem_map.mp hm
    obtain ⟨hrm, hp⟩ := List.mem_filter.mp hrow
    rw [Bool.and_eq_true] at hp
    have hdata : row.data ∈ texts := List.contains_iff_mem.mp htext
    exact Or.inl ⟨row, mem_recordsOf.mpr ⟨hrm, by simpa using hp.1⟩, rfl, hdata⟩
  · obtain ⟨text, htext, rfl⟩ := List.mem_map.mp hm
    exact Or.inr ⟨text, (List.mem_filter.mp htext).1, rfl⟩

theorem Request.Loops.entry {request : Request} {plan : Nat → Faults} {zone : Zone}
    {recordset : RecordSet} {ttlChanged : Bool} {entries : List (Record × Entry)}
    (h : request.Loops ctx w plan zone recordset ttlChanged entries) {p : Record × Entry}
    (hp : p ∈ entries) :
    (∃ row ∈ w.db.recordsOf recordset.id, p.1 = Record.ofRow row) ∨
      ∃ text, p.1 = Record.new text := by
  cases request with
  | updateRecordset plan' zoneId recordsetId ttl description texts =>
    obtain ⟨-, stored, hstored, rfl, -, hlist⟩ := h
    obtain ⟨-, -, hvalid⟩ := doUpdateGuard_ok hlist
    have hm : p.1 ∈ (parseRecordset stored ttl description texts).records := by
      rw [← (formatValidate_spec hvalid).1]
      exact List.mem_map_of_mem hp
    have hid : (parseRecordset stored ttl description texts).id = recordsetId := by
      obtain ⟨s, zone, hs, -, -, rfl⟩ := centralGetRecordset_ok hstored
      exact (Table.find_mem hs).2.1
    rcases parseRecordset_records hstored hm with ⟨row, hrow, he, -⟩ | ⟨text, -, he⟩
    · exact Or.inl ⟨row, hid ▸ hrow, he⟩
    · exact Or.inr ⟨text, he⟩
  | _ => exact h.elim

theorem Request.Loops.placed {request : Request} {plan : Nat → Faults} {zone : Zone}
    {recordset : RecordSet} {ttlChanged : Bool} {entries : List (Record × Entry)}
    (h : request.Loops ctx w plan zone recordset ttlChanged entries) :
    Placed zone.id recordset.id w := by
  cases request with
  | updateRecordset plan' zoneId recordsetId ttl description texts =>
    obtain ⟨-, stored, hstored, rfl, hguard, -⟩ := h
    obtain ⟨-, row, hg⟩ := updateRecordsetGuard_ok hguard
    obtain ⟨s, z, hs, hz, hzone, rfl⟩ := centralGetRecordset_ok hstored
    obtain ⟨-, hzid, -⟩ := findZone_mem hg.zoneFound
    exact ⟨s, (Table.find_mem hs).1, rfl, hzid.symm⟩
  | _ => exact h.elim

/-- The objects of an update stay where their rows are. -/
theorem Request.Loops.stays {request : Request} {plan : Nat → Faults} {zone : Zone}
    {recordset : RecordSet} {ttlChanged : Bool} {entries : List (Record × Entry)}
    (h : request.Loops ctx w plan zone recordset ttlChanged entries) {p : Record × Entry}
    (hp : p ∈ entries) : p.1.Stays := by
  rcases h.entry hp with ⟨row, -, he⟩ | ⟨text, he⟩ <;> rw [he] <;> exact ⟨rfl, rfl⟩

/-- The loop of an update keeps a steady invariant that does not look at what records say. -/
theorem Request.Loops.steady {scope : Scope} {I : World → Prop} {request : Request}
    (hI : Steady ctx conf scope I) (hwrite : IgnoresStaying ctx conf I) (hw : I w)
    {plan : Nat → Faults} {zone : Zone} {recordset : RecordSet} {ttlChanged : Bool}
    {entries : List (Record × Entry)}
    (hloops : request.Loops ctx w plan zone recordset ttlChanged entries) :
    I (applyEntries ctx conf zone recordset ttlChanged plan entries w).2 := by
  have hkept : ∀ p ∈ entries, EntryKept ctx conf zone recordset ttlChanged
      (fun w => I w ∧ Placed zone.id recordset.id w) p := by
    intro p hp
    refine ⟨fun _ _ hq hw => ⟨hI.quiet _ _ hq hw.1, hw.2.of_places hq.recordsets⟩,
      fun _ w row hw hstores => ⟨⟨hI.insert hw.1 hw.2 hstores, hw.2⟩,
        (hI.staysKeptBy hwrite .CREATE ⟨rfl, rfl⟩).placed _ _⟩, fun action object hs => ?_⟩
    have hstays : object.Stays := by
      rcases (Entry.sent_cases hs).2 with ⟨-, rfl⟩ | ⟨-, rfl⟩
      · exact hloops.stays hp
      · exact hloops.stays hp
    exact (hI.staysKeptBy hwrite action hstays).placed _ _
  exact (applyEntries_keeps hkept plan w ⟨hw, hloops.placed⟩).1

theorem IgnoresStaying.rewrites {I : World → Prop} (hwrite : IgnoresStaying ctx conf I) :
    Rewrites ctx conf I := by
  intro w row text serial h hr _
  have hs : (row.rewriting text serial).Stays := ⟨rfl, rfl⟩
  exact hwrite w _ row h hr hs

/--
**Every request keeps a steady invariant** that does not look at what the records say:
the objects of an update may carry anything but another zone or another recordset.
-/
theorem serve_steady {scope : Scope} {I : World → Prop} {input : Input}
    (hI : Steady input.ctx conf scope I) (hwrite : IgnoresStaying input.ctx conf I)
    (hzone : ∀ f : Zone → Zone, (∀ z, (f z).place = z.place) → scope.zone f)
    (hfresh : ∀ z, scope.fresh z) (htyped : input.request.Typed scope) (hw : I w) :
    I (serve conf input w) :=
  serve_keeps hI hwrite.rewrites hzone hfresh htyped hw
    fun _ _ _ _ _ hloops => hloops.steady hI hwrite hw

/-- **Every request keeps the links.** -/
theorem serve_linked (conf : Conf) (input : Input) (h : w.Linked) : (serve conf input w).Linked := by
  refine serve_steady (linked_steady input.ctx conf) (fun _ _ _ h hr hs => h.write hr hs)
    (fun f hf => hf) (fun _ => trivial) ?_ h
  cases input.request <;> exact by simp [Request.Typed, Scope.all]

/-- The links hold before every request of a run, and at its end. -/
theorem run_linked (conf : Conf) (inputs : List Input) (h : w.Linked) :
    (∀ t ∈ Run.transitions (serve conf) inputs w, t.before.Linked) ∧
      (Run.final (serve conf) inputs w).Linked :=
  Run.invariant (G := fun _ _ => True) (fun input _ h _ => serve_linked conf input h) h
    fun _ _ => trivial

end Designate
