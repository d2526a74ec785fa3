import Designate.Proof.Deepcopy
import Designate.Proof.ListFilters
import Designate.Sqlalchemy.ReverseNames

/-!
# When a criterion may be turned round

A criterion stands for a predicate on rows. With a star in front of the name, `_rname_check` takes
the condition on the name out of it and adds one on the reversed name at its end, so that all comes
down to what the two conditions say of a row whose name is reversed rightly.
-/

namespace Designate

namespace ReverseNames

open ListFilters (Binary)
open Text (likeParts)

variable {db : Database} {columns : List String} {criterion : Criterion} {value : String}

/-! ## The predicate of a criterion -/

/-- The predicate on rows that a criterion stands for. -/
def asks (db : Database) (columns : List String) : Criterion → Except Exc (Row → Bool)
  | [] => .ok fun _ => true
  | (name, value) :: criterion => do
    if name ∉ columns then .error .AttributeError
    else
      let holds ← condition db value
      let rest ← asks db columns criterion
      .ok fun row => holds (row name) && rest row

theorem applyCriterion_eq {α : Type} (of : α → Row) (query : List α) (criterion : Criterion) :
    applyCriterion db columns of query criterion =
      (asks db columns criterion).map fun p => query.filter fun a => p (of a) := by
  induction criterion generalizing query with
  | nil => simp [applyCriterion, asks, Except.map]
  | cons entry criterion ih =>
    obtain ⟨name, value⟩ := entry
    unfold applyCriterion asks
    by_cases hname : name ∉ columns
    · rw [if_pos hname, if_pos hname]
      rfl
    · rw [if_neg hname, if_neg hname]
      cases condition db value with
      | error e => rfl
      | ok holds =>
        change applyCriterion db columns of _ criterion = _
        rw [ih]
        cases asks db columns criterion with
        | error e => rfl
        | ok rest =>
          refine congrArg Except.ok ?_
          dsimp only
          rw [List.filter_filter]
          simp only [Bool.and_comm]

theorem asks_append (l r : Criterion) :
    asks db columns (l ++ r) = (do
      let p ← asks db columns l
      let q ← asks db columns r
      .ok fun row => p row && q row) := by
  induction l with
  | nil =>
    cases h : asks db columns r with
    | error e => simp [asks, h, bind, Except.bind]
    | ok q => simp [asks, h, bind, Except.bind]
  | cons entry l ih =>
    obtain ⟨name, value⟩ := entry
    rw [List.cons_append, asks, asks]
    -- a column that the table lacks raises on both sides, whatever follows it
    by_cases hname : name ∉ columns
    · rw [if_pos hname, if_pos hname]
      rfl
    · rw [if_neg hname, if_neg hname, ih]
      cases condition db value with
      -- the first condition that cannot be built is the one that is told
      | error e => rfl
      | ok holds =>
        cases asks db columns l with
        | error e => rfl
        | ok p =>
          cases asks db columns r with
          | error e => rfl
          | ok q => simp [bind, Except.bind, Bool.and_assoc]

theorem asks_one {name : String} {value : Value} {holds : Cell → Bool} (hname : name ∈ columns)
    (h : condition db value = .ok holds) :
    asks db columns [(name, value)] = .ok fun row => holds (row name) := by
  simp [asks, hname, h, bind, Except.bind]

/-! ## Criteria with a name that has a star in front -/

/-- The criterion asks for the name, and not for the reversed name. -/
structure Names (criterion : Criterion) (value : String) : Prop where
  once : (criterion.map Prod.fst).Nodup
  name : criterion.lookup "name" = some (.text value)
  noOwn : criterion.lookup "reverse_name" = none

/-- The criterion turned round. -/
def turned (criterion : Criterion) (value : String) : Criterion :=
  criterion.without ["name"] ++ [("reverse_name", .text (Text.reverse value))]

theorem lookup_without (criterion : Criterion) (names : List String) (name : String) :
    (criterion.without names).lookup name =
      if name ∉ names then criterion.lookup name else none := by
  have h := Objects.lookup_filter (fun key => decide (key ∉ names)) criterion name
  simp only [decide_eq_true_eq] at h
  exact h

theorem rnameCheck_turned (hstar : Text.startsWith value "*" = true) (h : Names criterion value) :
    rnameCheck criterion = .ok (turned criterion value) := by
  have hown : (criterion.without ["name"]).lookup "reverse_name" = none := by
    rw [lookup_without, if_pos (by decide), h.noOwn]
  unfold rnameCheck
  rw [h.name]
  dsimp only
  rw [if_pos hstar]
  unfold Criterion.set
  rw [hown]
  rfl

/-- Other names may be taken out before or after. -/
theorem Names.without (h : Names criterion value) {names : List String} (hname : "name" ∉ names) :
    Names (criterion.without names) value where
  once := h.once.sublist (List.Sublist.map _ List.filter_sublist)
  name := by rw [lookup_without, if_pos hname, h.name]
  noOwn := by
    rw [lookup_without, h.noOwn]
    exact ite_self _

theorem turned_without (criterion : Criterion) (value : String) {names : List String}
    (hreverse : "reverse_name" ∉ names) :
    (turned criterion value).without names = turned (criterion.without names) value := by
  unfold turned Criterion.without
  rw [List.filter_append, List.filter_filter, List.filter_filter]
  simp only [Bool.and_comm, List.filter_cons, List.filter_nil, decide_eq_true hreverse, if_true]

theorem lookup_turned (criterion : Criterion) (value : String) {name : String}
    (hname : name ≠ "name") (hreverse : name ≠ "reverse_name") :
    (turned criterion value).lookup name = criterion.lookup name := by
  unfold turned
  rw [List.lookup_append, lookup_without, if_pos (by simpa using hname)]
  have hlast : [("reverse_name", Value.text (Text.reverse value))].lookup name = none := by
    rw [List.lookup_cons, beq_false_of_ne hreverse]
    rfl
  rw [hlast, Option.or_none]

/-- What stands around the name in a criterion. -/
theorem Names.split (h : Names criterion value) :
    ∃ l r, criterion = l ++ ("name", .text value) :: r ∧ criterion.without ["name"] = l ++ r := by
  obtain ⟨l, r, rfl, -⟩ := List.lookup_eq_some_iff.mp h.name
  have honce := h.once
  rw [List.map_append, List.map_cons, List.nodup_append] at honce
  obtain ⟨-, hr, hlr⟩ := honce
  have hleft : ∀ entry ∈ l, entry.1 ≠ "name" := fun entry hmem =>
    hlr _ (List.mem_map_of_mem hmem) _ List.mem_cons_self
  have hright : ∀ entry ∈ r, entry.1 ≠ "name" := fun entry hmem he =>
    (List.nodup_cons.mp hr).1 (List.mem_map.mpr ⟨entry, hmem, he⟩)
  refine ⟨l, r, rfl, ?_⟩
  unfold Criterion.without
  rw [List.filter_append, List.filter_cons_of_neg (by simp)]
  rw [List.filter_eq_self.mpr fun entry hmem => by simpa using hleft entry hmem]
  rw [List.filter_eq_self.mpr fun entry hmem => by simpa using hright entry hmem]

/-! ## Turning a criterion round -/

/-- The conditions on the name and on the reversed name hold of the same rows in step. -/
def Agree (db : Database) (value : String) : Prop :=
  ∃ holds holds', condition db (.text value) = .ok holds ∧
    condition db (.text (Text.reverse value)) = .ok holds' ∧
    ∀ s, holds' (.text (Text.reverse s)) = holds (.text s)

/-- **Where the conditions agree, the criterion may be turned round.** -/
theorem applyCriterion_turned {α : Type} {of : α → Row} {query : List α} (h : Names criterion value)
    (hagree : Agree db value) (hname : "name" ∈ columns) (hreverse : "reverse_name" ∈ columns)
    (hstep : ∀ a ∈ query, InStep (of a)) :
    applyCriterion db columns of query (turned criterion value) =
      applyCriterion db columns of query criterion := by
  obtain ⟨holds, holds', hholds, hholds', hsame⟩ := hagree
  obtain ⟨l, r, hcriterion, hwithout⟩ := h.split
  have hone : asks db columns (("name", .text value) :: r) = (do
      let q ← asks db columns r
      .ok fun row => holds (row "name") && q row) := by
    rw [asks, if_neg (not_not.mpr hname), hholds]
    rfl
  rw [applyCriterion_eq, applyCriterion_eq]
  unfold turned
  rw [hwithout, hcriterion, asks_append, asks_append, asks_append, hone,
    asks_one hreverse hholds']
  cases asks db columns l with
  | error e => rfl
  | ok p =>
    cases asks db columns r with
    | error e => rfl
    | ok q =>
      refine congrArg Except.ok (List.filter_congr fun a ha => ?_)
      -- the row has the name the two conditions are asked about
      obtain ⟨s, hs, hreversed⟩ := hstep a ha
      dsimp only
      rw [hs, hreversed, hsame, Bool.and_assoc, Bool.and_comm (q (of a))]

theorem joinedRows_inStep {t : Tables} (ht : t.InStep) {filteringRecords : Bool} {row : Joined}
    (h : row ∈ joinedRows t filteringRecords) : InStep row.recordset := by
  unfold joinedRows at h
  obtain ⟨recordset, hrecordset, h⟩ := List.mem_flatMap.mp h
  obtain ⟨zone, -, h⟩ := List.mem_flatMap.mp h
  split at h
  · obtain ⟨record, -, rfl⟩ := List.mem_map.mp h
    exact ht.recordsets recordset hrecordset
  · rw [List.mem_singleton.mp h]
    exact ht.recordsets recordset hrecordset

theorem Names.withoutZonesDeleted (h : Names criterion value) :
    Names (withoutZonesDeleted criterion) value := by
  unfold ReverseNames.withoutZonesDeleted
  split
  · exact h.without (by decide)
  · exact h

theorem withoutZonesDeleted_turned (criterion : Criterion) (value : String) :
    withoutZonesDeleted (turned criterion value) = turned (withoutZonesDeleted criterion) value := by
  unfold withoutZonesDeleted
  rw [lookup_turned criterion value (by decide) (by decide)]
  split
  · exact turned_without criterion value (by decide)
  · rfl

theorem findRecordsetsWithRecords_turned {ctx : QueryContext} {t : Tables} (h : Names criterion value)
    (hagree : Agree db value) (ht : t.InStep) :
    findRecordsetsWithRecords db ctx t (turned criterion value) =
      findRecordsetsWithRecords db ctx t criterion := by
  unfold findRecordsetsWithRecords
  have hrest : Names (criterion.without ["data", "status"]) value := h.without (by decide)
  rw [lookup_turned criterion value (by decide) (by decide),
    lookup_turned criterion value (by decide) (by decide), turned_without criterion value (by decide)]
  dsimp only
  rw [applyCriterion_turned hrest hagree (by decide) (by decide)]
  intro row hrow
  exact joinedRows_inStep ht (List.mem_filter.mp hrow).1

/-- The queries come out the same, zones and recordsets alike. -/
theorem selectsSame_of_agree (hstar : Text.startsWith value "*" = true) (h : Names criterion value)
    (hagree : Agree db value) : SelectsSame db criterion := by
  intro ctx t ht
  unfold findZones findRecordsets
  rw [rnameCheck_turned hstar h]
  constructor
  · change (do
      let rows ← applyCriterion db zonesColumns (fun row => row) t.zones (turned criterion value)
      .ok _) = _
    rw [applyCriterion_turned h hagree (by decide) (by decide) ht.zones]
    rfl
  · change findRecordsetsWithRecords db ctx t (withoutZonesDeleted (turned criterion value)) = _
    rw [withoutZonesDeleted_turned, findRecordsetsWithRecords_turned h.withoutZonesDeleted hagree ht]
    rfl

/-! ## What the two conditions say of each other -/

theorem toList_reverse (s : String) : (Text.reverse s).toList = s.toList.reverse := by
  unfold Text.reverse
  rw [String.toList_ofList]

theorem reverse_reverse (s : String) : Text.reverse (Text.reverse s) = s := by
  unfold Text.reverse
  rw [String.toList_ofList, List.reverse_reverse, String.ofList_toList]

/-- What a text of a criterion asks of texts. -/
theorem condition_texts (db : Database) {p : String → Bool}
    (hp : textCriterion db.conf value = .ok p) :
    ∃ holds, condition db (.text value) = .ok holds ∧ ∀ s, holds (.text s) = p s := by
  rw [ListFilters.condition_text_map, hp]
  exact ⟨_, rfl, fun s => rfl⟩

/-- With a percent sign, a condition is a pattern. -/
theorem condition_like (db : Database) (hpercent : '%' ∈ value.toList) :
    ∃ holds, condition db (.text value) = .ok holds ∧
      ∀ s, holds (.text s) = db.conf.like value.toList s.toList := by
  refine condition_texts db ?_
  rw [textCriterion, if_pos (by simpa using hpercent)]

/-- A condition that does not raise comes from one on texts that does not. -/
theorem textCriterion_of_condition {holds : Cell → Bool}
    (h : condition db (.text value) = .ok holds) :
    ∃ p, textCriterion db.conf value = .ok p ∧ ∀ s, holds (.text s) = p s := by
  cases hp : textCriterion db.conf value with
  | error e =>
    rw [ListFilters.condition_text_map, hp] at h
    cases h
  | ok p =>
    obtain ⟨holds', hholds', hsame⟩ := condition_texts db hp
    obtain rfl := Except.ok.inj (h.symm.trans hholds')
    exact ⟨p, rfl, hsame⟩

/-- A star in front is no operator. -/
theorem plain_of_star (hstar : Text.startsWith value "*" = true) (hpercent : '%' ∉ value.toList) :
    plain value = true := by
  unfold Text.startsWith at hstar
  obtain ⟨rest, hrest⟩ := List.isPrefixOf_iff_prefix.mp hstar
  have hvalue : value.toList = '*' :: rest := hrest.symm
  unfold plain Text.startsWith
  rw [hvalue] at hpercent ⊢
  simp [List.isPrefixOf, List.not_mem_of_not_mem_cons hpercent]

/-- The condition on a name with a star in front never raises. -/
theorem condition_of_star (db : Database) (hstar : Text.startsWith value "*" = true) :
    ∃ holds, condition db (.text value) = .ok holds := by
  by_cases hpercent : '%' ∈ value.toList
  · obtain ⟨holds, h, -⟩ := condition_like db hpercent
    exact ⟨holds, h⟩
  · obtain ⟨holds, h, -⟩ :=
      condition_texts db (textCriterion_plain (plain_of_star hstar hpercent))
    exact ⟨holds, h⟩

theorem nontrivial_char : Nontrivial Char := ⟨'a', 'b', by decide⟩

/-- Of three letters, one is neither of two. -/
theorem exists_char (a b : Char) : ∃ d, d ≠ a ∧ d ≠ b := by
  by_cases ha : 'a' ≠ a ∧ 'a' ≠ b
  · exact ⟨'a', ha⟩
  · by_cases hb : 'b' ≠ a ∧ 'b' ≠ b
    · exact ⟨'b', hb⟩
    · refine ⟨'c', ?_, ?_⟩
      · rintro rfl
        grind
      · rintro rfl
        grind

/-! ## Patterns back to front -/

/-- A pattern reads back to front if nothing in it is an escape, as nothing is to sqlite. -/
theorem readsBack_of_noEscape {dialect : Text.Dialect} (hpercent : '%' ∈ value.toList)
    (h : dialect = .mysql → '\\' ∉ value.toList) : ReadsBack dialect value := by
  unfold ReadsBack
  rw [if_pos hpercent, Text.likeParts_eq_map h, Text.likeParts_eq_map fun hmysql hmem =>
    h hmysql (List.mem_reverse.mp hmem), List.map_reverse]

/-- **A pattern asks of reversed texts, itself reversed, what it asks of texts, if it reads back.** -/
theorem like_reverse_iff (hbinary : Binary db.conf) (hpercent : '%' ∈ value.toList) :
    (∀ s : String, db.conf.like value.toList.reverse s.toList.reverse =
        db.conf.like value.toList s.toList) ↔ ReadsBack db.conf.dialect value := by
  cases hdialect : db.conf.dialect with
  | mysql =>
    -- no letter is taken for another, so that the two patterns can be compared
    have hlike : ∀ p cs, db.conf.like p cs = Glob.accepts (likeParts .mysql p) cs := by
      intro p cs
      have hid : (Glob.Part.map id : Glob.Part Char → Glob.Part Char) = id :=
        funext fun part => by cases part <;> rfl
      rw [Conf.like, Text.like, hbinary.fold_eq, hdialect, if_neg (by decide), hid, List.map_id,
        List.map_id]
    have := nontrivial_char
    unfold ReadsBack
    rw [if_pos hpercent, ← Glob.accepts_eq_iff exists_char]
    constructor
    · intro h cs
      have hcs := h (String.ofList cs.reverse)
      rw [hlike, hlike, String.toList_ofList, List.reverse_reverse] at hcs
      rw [hcs, ← Glob.accepts_reverse, List.reverse_reverse]
    · intro h s
      rw [hlike, hlike, h, Glob.accepts_reverse]
  | sqlite =>
    -- nothing is an escape: either way round the pattern is read character by character
    have hnone : ∀ cs : List Char, db.conf.dialect = .mysql → '\\' ∉ cs := by
      intro cs hmysql
      rw [hdialect] at hmysql
      cases hmysql
    refine iff_of_true (fun s => ?_) (readsBack_of_noEscape hpercent nofun)
    rw [Conf.like, Conf.like, Text.like, Text.like, Text.likeParts_eq_map (hnone _),
      Text.likeParts_eq_map (hnone _), List.map_reverse, List.map_reverse, List.map_reverse,
      Glob.accepts_reverse]

/-- **The two conditions agree exactly where the value reads back to front.** -/
theorem agree_iff (hbinary : Binary db.conf) (hstar : Text.startsWith value "*" = true) :
    Agree db value ↔ ReadsBack db.conf.dialect value := by
  have hmem : '%' ∈ (Text.reverse value).toList ↔ '%' ∈ value.toList := by
    rw [toList_reverse, List.mem_reverse]
  -- with a percent sign both columns are asked with LIKE, without one by an operator
  by_cases hpercent : '%' ∈ value.toList
  · obtain ⟨holds, hholds, hlike⟩ := condition_like db hpercent
    obtain ⟨holds', hholds', hlike'⟩ := condition_like db (hmem.mpr hpercent)
    -- read from the back, the condition on the reversed name is one on the name itself
    have hsame : (∀ s, holds' (.text (Text.reverse s)) = holds (.text s)) ↔
        ∀ s : String, db.conf.like value.toList.reverse s.toList.reverse =
          db.conf.like value.toList s.toList := by
      refine forall_congr' fun s => ?_
      rw [hlike, hlike', toList_reverse, toList_reverse]
    rw [← like_reverse_iff hbinary hpercent, ← hsame]
    constructor
    · rintro ⟨p, p', hp, hp', h⟩
      rwa [hholds.symm.trans hp |> Except.ok.inj, hholds'.symm.trans hp' |> Except.ok.inj]
    · exact fun h => ⟨holds, holds', hholds, hholds', h⟩
  · unfold ReadsBack
    rw [if_neg hpercent]
    have hpercent' : '%' ∉ (Text.reverse value).toList := fun h => hpercent (hmem.mp h)
    obtain ⟨holds, hholds, hequal⟩ :=
      condition_texts db (textCriterion_plain (plain_of_star hstar hpercent))
    constructor
    · rintro ⟨p, p', hp, hp', h⟩
      obtain rfl := Except.ok.inj (hholds.symm.trans hp)
      obtain ⟨q, hq, hp'q⟩ := textCriterion_of_condition hp'
      -- an operator in front of the value stays in front when the value is turned: some name
      -- tells the two apart
      by_contra hplain
      obtain ⟨s, hs⟩ := ListFilters.operator_goes_wrong hbinary hpercent' (by simpa using hplain) hq
      have hback := h (Text.reverse s)
      rw [hp'q, hequal, reverse_reverse] at hback
      refine hs (hback.trans ?_)
      rw [Bool.eq_iff_iff, beq_iff_eq, decide_eq_true_eq]
      constructor
      · exact fun he => by rw [← he, reverse_reverse]
      · exact fun he => by rw [he, reverse_reverse]
    · intro hplain
      obtain ⟨holds', hholds', hequal'⟩ := condition_texts db (textCriterion_plain hplain)
      refine ⟨holds, holds', hholds, hholds', fun s => ?_⟩
      rw [hequal, hequal', Bool.eq_iff_iff, beq_iff_eq, beq_iff_eq]
      constructor
      · exact fun he => by rw [← reverse_reverse s, he, reverse_reverse]
      · exact fun he => by rw [he]

/-! ## Tables on which the queries differ -/

/-- A row whose name is `s`. -/
def rowOf (s : String) : Row := fun column =>
  if column = "name" then .text s
  else if column = "reverse_name" then .text (Text.reverse s)
  else .null

/-- The tables with one zone. -/
def oneZone (s : String) : Tables := ⟨[rowOf s], [], []⟩

theorem oneZone_inStep (s : String) : (oneZone s).InStep where
  zones row hrow := by
    rw [List.mem_singleton.mp hrow]
    exact ⟨s, rfl, rfl⟩
  recordsets row hrow := absurd hrow List.not_mem_nil

/-- A request that sees all zones. -/
def everything : QueryContext := { tenant := "", allTenants := true, showDeleted := true }

theorem findZones_oneZone (rewrite : Criterion → Except Exc Criterion) (criterion : Criterion)
    (s : String) :
    findZones db everything (oneZone s) rewrite criterion = (do
      let criterion ← rewrite criterion
      let p ← asks db zonesColumns criterion
      .ok ([rowOf s].filter p)) := by
  have hall : ∀ rows : List Row,
      rows.filter (fun row => ownedBy everything true row && notDeleted everything row) = rows :=
    fun rows => List.filter_eq_self.mpr fun row _ => rfl
  unfold findZones
  cases rewrite criterion with
  | error e => rfl
  | ok criterion =>
    change (do
      let rows ← applyCriterion db zonesColumns (fun row => row) [rowOf s] criterion
      .ok _) = (do
      let p ← asks db zonesColumns criterion
      .ok _)
    rw [applyCriterion_eq]
    simp only [hall]
    cases asks db zonesColumns criterion with
    | error e => rfl
    | ok p => rfl

/-- The criterion that asks for a name only. -/
theorem names_one (value : String) : Names [("name", .text value)] value where
  once := List.nodup_singleton _
  name := rfl
  noOwn := rfl

/-- From the request for a name only, the conditions agree. -/
theorem agree_of_selectsSame (hstar : Text.startsWith value "*" = true)
    (h : SelectsSame db [("name", .text value)]) : Agree db value := by
  obtain ⟨holds, hholds⟩ := condition_of_star db hstar
  -- asked of a table with a single zone, the request is its condition at that name
  have hzones : ∀ s, (do
      let p ← asks db zonesColumns [("reverse_name", .text (Text.reverse value))]
      .ok ([rowOf s].filter p)) = Except.ok ([rowOf s].filter fun row => holds (row "name")) := by
    intro s
    have hsame := (h everything (oneZone s) (oneZone_inStep s)).1
    rw [findZones_oneZone, findZones_oneZone, rnameCheck_turned hstar (names_one value)] at hsame
    change _ = (do
      let p ← asks db zonesColumns [("name", .text value)]
      .ok ([rowOf s].filter p)) at hsame
    rw [asks_one (by decide) hholds] at hsame
    exact hsame
  cases hreversed : condition db (.text (Text.reverse value)) with
  | error e =>
    -- the original does not raise, so the reversed condition cannot either
    have hraises := hzones ""
    rw [asks, if_neg (by decide), hreversed] at hraises
    cases hraises
  | ok holds' =>
    refine ⟨holds, holds', hholds, hreversed, fun s => ?_⟩
    have hrow := hzones s
    rw [asks_one (by decide) hreversed] at hrow
    have hfilter : [rowOf s].filter (fun row => holds' (row "reverse_name")) =
        [rowOf s].filter fun row => holds (row "name") := Except.ok.inj hrow
    have hmem := congrArg (rowOf s ∈ ·) hfilter
    simp only [List.mem_filter, List.mem_singleton, true_and, eq_iff_iff] at hmem
    exact Bool.eq_iff_iff.mpr hmem

/-- With an entry of its own for the reversed name, a criterion loses that entry. -/
theorem not_selectsSame_of_own (db : Database) (hstar : Text.startsWith value "*" = true) :
    ∃ own, ¬ SelectsSame db [("name", .text value), ("reverse_name", own)] := by
  obtain ⟨holds, hholds⟩ := condition_of_star db hstar
  have hturned : ∀ own, rnameCheck [("name", .text value), ("reverse_name", own)] =
      .ok [("reverse_name", .text (Text.reverse value))] := by
    intro own
    unfold rnameCheck
    change (if Text.startsWith value "*" = true then _ else _) = _
    rw [if_pos hstar]
    rfl
  have hasks : ∀ own, asks db zonesColumns [("name", .text value), ("reverse_name", own)] =
      (condition db own).map fun q row => holds (row "name") && q (row "reverse_name") := by
    intro own
    rw [asks, if_neg (by decide), hholds, asks, if_neg (by decide)]
    cases condition db own with
    | error e => rfl
    | ok q => simp [asks, bind, Except.bind, Except.map]
  have hsame : ∀ own, SelectsSame db [("name", .text value), ("reverse_name", own)] →
      (do
        let p ← asks db zonesColumns [("reverse_name", .text (Text.reverse value))]
        Except.ok ([rowOf ""].filter p)) = (do
        let p ← (condition db own).map fun q row => holds (row "name") && q (row "reverse_name")
        Except.ok ([rowOf ""].filter p)) := by
    intro own h
    have hzones := (h everything (oneZone "") (oneZone_inStep "")).1
    rw [findZones_oneZone, findZones_oneZone, hturned] at hzones
    rw [← hasks]
    exact hzones
  cases hreversed : condition db (.text (Text.reverse value)) with
  | error e =>
    -- the criterion itself asks for rows without a reversed name
    refine ⟨.none, fun h => ?_⟩
    have hzones := hsame _ h
    rw [asks, if_neg (by decide), hreversed] at hzones
    cases hzones
  | ok holds' =>
    -- the criterion itself raises
    refine ⟨.text "BETWEEN", fun h => ?_⟩
    have hzones := hsame _ h
    rw [asks_one (by decide) hreversed] at hzones
    cases hzones

/--
**When a criterion may be turned round.** Among the criteria with one name, those without an entry
of their own for the reversed name are, as long as the name reads back to front; the others are not.
-/
theorem turned_round_iff (hbinary : Binary db.conf) (hstar : Text.startsWith value "*" = true)
    (own : Bool) :
    (∀ criterion : Criterion, (criterion.map Prod.fst).Nodup →
      criterion.lookup "name" = some (.text value) →
      (criterion.lookup "reverse_name").isSome = own → SelectsSame db criterion) ↔
      own = false ∧ ReadsBack db.conf.dialect value := by
  constructor
  · intro h
    cases own with
    | false =>
      have hone := h [("name", .text value)] (names_one value).once rfl rfl
      exact ⟨rfl, (agree_iff hbinary hstar).mp (agree_of_selectsSame hstar hone)⟩
    | true =>
      obtain ⟨own, hown⟩ := not_selectsSame_of_own db hstar
      exact absurd (h _ (by simp) rfl rfl) hown
  · rintro ⟨rfl, hback⟩ criterion honce hname hown
    have hnone := Option.isNone_iff_eq_none.mp (Option.isSome_eq_false_iff.mp hown)
    exact selectsSame_of_agree hstar ⟨honce, hname, hnone⟩ ((agree_iff hbinary hstar).mpr hback)

end ReverseNames

end Designate
