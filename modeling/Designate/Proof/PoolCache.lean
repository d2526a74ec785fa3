import Designate.PoolManager.Cache
import Designate.Run
import Mathlib.Data.List.Forall2
import Mathlib.Data.List.Induction
import Mathlib.Data.List.Pairwise

/-!
# Where the two caches are alike

What can be retrieved is a function from the three names to a status and a serial number, or to
nothing, and with memcache every store and clear is one change of that function. With the table
it is the same change only if the row is there that the object stands for: an object without an
identifier must not find a row of its names, one with an identifier must find its own row, and
what has not changed in the object must be what the row has.

Values that expire do so under their own keys and at their own times. Still what is retrieved is
what was last stored under the three names, as a whole, and nothing once a part of it is too old.
-/

namespace Designate

namespace PoolCache

open Lockstep

/-! ## What is kept -/

/-- What a retrieval comes to. -/
def outcome : Option (Option UpdateStatus × Nat) → Outcome
  | some (status, serialNumber) => .found status serialNumber
  | none => .raised .PoolManagerStatusNotFound

theorem outcome_inj {k k' : Option (Option UpdateStatus × Nat)} (h : outcome k = outcome k') :
    k = k' := by
  cases k with
  | none =>
    cases k' with
    | none => rfl
    | some p => exact absurd h (by simp [outcome])
  | some p =>
    cases k' with
    | none => exact absurd h (by simp [outcome])
    | some p' =>
      obtain ⟨hstatus, hserial⟩ := Outcome.found.inj h
      exact congrArg some (Prod.ext hstatus hserial)

/-- What two values of memcache stand for. -/
def readValues : Option Value → Option Value → Option (Option UpdateStatus × Nat)
  | some (.text status), some (.number serialNumber) => some (statusOf status, serialNumber)
  | _, _ => none

/-- What memcache keeps. -/
def Memcache.kept (cache : Memcache) (key : Key) : Option (Option UpdateStatus × Nat) :=
  readValues (cache (statusKey key "status")) (cache (statusKey key "serial_number"))

/-- What the table keeps. -/
def Table.kept (table : Table) (key : Key) : Option (Option UpdateStatus × Nat) :=
  match table.rows.filter fun row => row.key == key with
  | [row] => some (row.status, row.serialNumber)
  | _ => none

/-- The object that memcache builds of what is kept. -/
def retrieved (key : Key) : Option (Option UpdateStatus × Nat) → Except Fault StatusObject
  | some (status, serialNumber) =>
    .ok { key, status, serialNumber, statusChanged := true, serialChanged := true }
  | none => .error .PoolManagerStatusNotFound

theorem memcache_retrieve (cache : Memcache) (key : Key) :
    memcache.retrieve key cache = retrieved key (cache.kept key) := by
  unfold Memcache.kept
  simp only [memcache]
  cases cache (statusKey key "status") with
  | none => rfl
  | some value =>
    cases value with
    | number => rfl
    | text status =>
      cases cache (statusKey key "serial_number") with
      | none => rfl
      | some value => cases value <;> rfl

theorem memcache_found (cache : Memcache) (key : Key) :
    memcache.found cache key = outcome (cache.kept key) := by
  unfold Cache.found
  rw [memcache_retrieve]
  cases cache.kept key <;> rfl

theorem sqlalchemy_found (largest : Nat) (table : Table) (key : Key) :
    (sqlalchemy largest).found table key = outcome (table.kept key) := by
  unfold Cache.found Table.kept
  simp only [sqlalchemy, findOne]
  generalize (table.rows.filter fun row => row.key == key) = rows
  cases rows with
  | nil => rfl
  | cons row rows => cases rows <;> rfl

/-! ## memcache -/

/-- The names in a key can be told, because identifiers are of one length. -/
theorem statusKey_inj {key key' : Key} {tail tail' : String}
    (h : statusKey key tail = statusKey key' tail') :
    key.nameserverId = key'.nameserverId ∧ key.zoneId = key'.zoneId ∧
      key.action.text ++ "-" ++ tail = key'.action.text ++ "-" ++ tail' := by
  -- a dash may stand in an identifier too, so the parts are told apart by how long they are
  have hlength : ∀ u u' : Uuid, u.text.toList.length = u'.text.toList.length := by
    intro u u'
    rw [String.length_toList, String.length_toList, u.length, u'.length]
  have hlist := congrArg String.toList h
  simp only [statusKey, String.toList_append, List.append_assoc] at hlist
  obtain ⟨hnameserver, hlist⟩ := List.append_inj hlist (hlength _ _)
  obtain ⟨-, hlist⟩ := List.append_inj hlist rfl
  obtain ⟨hzone, hlist⟩ := List.append_inj hlist (hlength _ _)
  obtain ⟨-, hlist⟩ := List.append_inj hlist rfl
  have huuid : ∀ u u' : Uuid, u.text.toList = u'.text.toList → u = u' := by
    intro u u' heq
    cases u
    cases u'
    simpa [String.toList_inj] using heq
  refine ⟨huuid _ _ hnameserver, huuid _ _ hzone, ?_⟩
  rw [← String.toList_inj]
  simp only [String.toList_append, List.append_assoc]
  exact hlist

theorem statusKey_inj_iff (key key' : Key) :
    (statusKey key "status" = statusKey key' "status" ↔ key = key') ∧
    (statusKey key "serial_number" = statusKey key' "serial_number" ↔ key = key') ∧
    statusKey key "status" ≠ statusKey key' "serial_number" := by
  -- no action is the front of another with its dash, so the tails can be told as well
  have haction : ∀ a a' : UpdateAction,
      (a.text ++ "-" ++ "status" = a'.text ++ "-" ++ "status" → a = a') ∧
      (a.text ++ "-" ++ "serial_number" = a'.text ++ "-" ++ "serial_number" → a = a') ∧
      a.text ++ "-" ++ "status" ≠ a'.text ++ "-" ++ "serial_number" := by
    intro a a'
    cases a <;> cases a' <;> decide
  have hkey : key.nameserverId = key'.nameserverId → key.zoneId = key'.zoneId →
      key.action = key'.action → key = key' := by
    cases key
    cases key'
    simp_all
  refine ⟨⟨fun h => ?_, fun h => h ▸ rfl⟩, ⟨fun h => ?_, fun h => h ▸ rfl⟩, fun h => ?_⟩
  · obtain ⟨hnameserver, hzone, htext⟩ := statusKey_inj h
    exact hkey hnameserver hzone ((haction _ _).1 htext)
  · obtain ⟨hnameserver, hzone, htext⟩ := statusKey_inj h
    exact hkey hnameserver hzone ((haction _ _).2.1 htext)
  · obtain ⟨_, _, htext⟩ := statusKey_inj h
    exact (haction _ _).2.2 htext

theorem statusOf_text (status : Option UpdateStatus) : statusOf (statusText status) = status := by
  cases status with
  | none => rfl
  | some status => cases status <;> rfl

/-- What is set under the keys of three names is what is kept of them. -/
theorem set_kept (cache : Memcache) (key other : Key) (status serialNumber : Option Value) :
    Memcache.kept (Function.update (Function.update cache (statusKey key "status") status)
        (statusKey key "serial_number") serialNumber) other =
      Function.update cache.kept key
        (readValues status serialNumber) other := by
  obtain ⟨hstatus, hserial, hne⟩ := statusKey_inj_iff other key
  obtain ⟨_, _, hne'⟩ := statusKey_inj_iff key other
  unfold Memcache.kept
  by_cases hkey : other = key
  · subst hkey
    rw [Function.update_of_ne hne, Function.update_self, Function.update_self,
      Function.update_self]
  · rw [Function.update_of_ne hne, Function.update_of_ne (mt hstatus.mp hkey),
      Function.update_of_ne (mt hserial.mp hkey), Function.update_of_ne hne'.symm,
      Function.update_of_ne hkey]

/-- A store changes what is kept of the three names, and nothing else. -/
theorem memcache_store (o : StatusObject) (cache : Memcache) :
    (memcache.store o cache).1 = .ok o ∧
      (memcache.store o cache).2.kept =
        Function.update cache.kept o.key (some (o.status, o.serialNumber)) := by
  refine ⟨rfl, funext fun key => ?_⟩
  refine (set_kept cache o.key key _ _).trans ?_
  rw [readValues, statusOf_text]

theorem memcache_clear (o : StatusObject) (cache : Memcache) :
    (memcache.clear o cache).1 = .ok o ∧
      (memcache.clear o cache).2.kept = Function.update cache.kept o.key none := by
  refine ⟨rfl, funext fun key => ?_⟩
  exact set_kept cache o.key key none none

/-! ## The table -/

/-- The constraints of the table. -/
structure Table.Ok (table : Table) : Prop where
  keys : table.rows.Pairwise fun row row' => row.key ≠ row'.key
  ids : table.rows.Pairwise fun row row' => row.id ≠ row'.id
  next : ∀ row ∈ table.rows, row.id < table.next

variable {table : Table}

theorem filter_key_nil {rows : List Row} {key : Key} (h : ∀ row ∈ rows, row.key ≠ key) :
    rows.filter (fun row => row.key == key) = [] :=
  List.filter_eq_nil_iff.mpr fun row hrow => by simpa using h row hrow

theorem Table.Ok.row_eq (hok : table.Ok) {row row' : Row} (hrow : row ∈ table.rows)
    (hrow' : row' ∈ table.rows) (hid : row.id = row'.id) : row = row' := by
  by_contra hne
  have hsymm : Std.Symm fun row row' : Row => row.id ≠ row'.id := ⟨fun _ _ h => h.symm⟩
  exact hok.ids.forall hrow hrow' hne hid

theorem Table.Ok.row_eq_of_key (hok : table.Ok) {row row' : Row} (hrow : row ∈ table.rows)
    (hrow' : row' ∈ table.rows) (hkey : row.key = row'.key) : row = row' := by
  by_contra hne
  have hsymm : Std.Symm fun row row' : Row => row.key ≠ row'.key := ⟨fun _ _ h => h.symm⟩
  exact hok.keys.forall hrow hrow' hne hkey

/-- There is one row at most for each key. -/
theorem Table.Ok.filter_key (hok : table.Ok) {row : Row} (hrow : row ∈ table.rows) :
    table.rows.filter (fun other => other.key == row.key) = [row] := by
  obtain ⟨before, after, hrows⟩ := List.append_of_mem hrow
  have hkeys := hok.keys
  rw [hrows, List.pairwise_append, List.pairwise_cons] at hkeys
  obtain ⟨_, ⟨hafter, _⟩, hbefore⟩ := hkeys
  rw [hrows, List.filter_append, List.filter_cons_of_pos (by simp),
    filter_key_nil fun other hother => hbefore other hother row List.mem_cons_self,
    filter_key_nil fun other hother => (hafter other hother).symm]
  rfl

/-- What is kept is what the row has. -/
theorem Table.Ok.kept_eq_some (hok : table.Ok) {row : Row} (hrow : row ∈ table.rows) :
    table.kept row.key = some (row.status, row.serialNumber) := by
  unfold Table.kept
  rw [hok.filter_key hrow]

theorem Table.kept_eq_none {key : Key} (h : ∀ row ∈ table.rows, row.key ≠ key) :
    table.kept key = none := by
  unfold Table.kept
  rw [filter_key_nil h]

/-- What is kept is told by the rows. -/
theorem Table.Ok.kept_eq (hok : table.Ok) {kept : Key → Option (Option UpdateStatus × Nat)}
    (hrow : ∀ row ∈ table.rows, kept row.key = some (row.status, row.serialNumber))
    (hnone : ∀ key, (∀ row ∈ table.rows, row.key ≠ key) → kept key = none) :
    table.kept = kept := by
  funext key
  by_cases h : ∃ row ∈ table.rows, row.key = key
  · obtain ⟨row, hmem, rfl⟩ := h
    rw [hok.kept_eq_some hmem, hrow row hmem]
  · have hnot : ∀ row ∈ table.rows, row.key ≠ key := fun row hmem heq => h ⟨row, hmem, heq⟩
    rw [Table.kept_eq_none hnot, hnone key hnot]

/-- Rows of a later table have the keys they had, or are new. -/
structure Table.Later (table table' : Table) : Prop where
  next : table.next ≤ table'.next
  rows : ∀ row' ∈ table'.rows,
    (∃ row ∈ table.rows, row.id = row'.id ∧ row.key = row'.key) ∨ table.next ≤ row'.id

/--
What a change of the table comes to. Both caches are compared by what is kept under each key, and
a change concerns one key.
-/
structure Table.Changes (table table' : Table) (key : Key)
    (entry : Option (Option UpdateStatus × Nat)) : Prop where
  ok : table'.Ok
  later : table.Later table'
  kept : table'.kept = Function.update table.kept key entry

/-- A row of a new key is inserted. -/
theorem Table.Ok.insert (hok : table.Ok) {key : Key} (hnew : ∀ row ∈ table.rows, row.key ≠ key)
    (status : Option UpdateStatus) (serialNumber : Nat) :
    table.Changes ⟨table.rows ++ [⟨table.next, key, status, serialNumber⟩], table.next + 1⟩ key
      (some (status, serialNumber)) := by
  -- no row has the new key, and none the identifier that is the next one
  have hok' : Table.Ok ⟨table.rows ++ [⟨table.next, key, status, serialNumber⟩],
      table.next + 1⟩ := by
    refine ⟨?_, ?_, ?_⟩
    · refine List.pairwise_append.mpr ⟨hok.keys, List.pairwise_singleton _ _, ?_⟩
      intro row hrow row' hrow'
      obtain rfl := List.mem_singleton.mp hrow'
      exact hnew row hrow
    · refine List.pairwise_append.mpr ⟨hok.ids, List.pairwise_singleton _ _, ?_⟩
      intro row hrow row' hrow'
      obtain rfl := List.mem_singleton.mp hrow'
      exact Nat.ne_of_lt (hok.next row hrow)
    · intro row hrow
      obtain hrow | hrow := List.mem_append.mp hrow
      · exact Nat.lt_succ_of_lt (hok.next row hrow)
      · obtain rfl := List.mem_singleton.mp hrow
        exact Nat.lt_succ_self _
  refine ⟨hok', ⟨Nat.le_succ _, ?_⟩, hok'.kept_eq ?_ ?_⟩
  · intro row hrow
    obtain hrow | hrow := List.mem_append.mp hrow
    · exact .inl ⟨row, hrow, rfl, rfl⟩
    · obtain rfl := List.mem_singleton.mp hrow
      exact .inr (Nat.le_refl _)
  · intro row hrow
    obtain hrow | hrow := List.mem_append.mp hrow
    · rw [Function.update_of_ne (hnew row hrow), hok.kept_eq_some hrow]
    · obtain rfl := List.mem_singleton.mp hrow
      exact Function.update_self _ _ _
  · intro other hnone
    have hne : other ≠ key := fun heq =>
      hnone ⟨table.next, key, status, serialNumber⟩ (by simp) heq.symm
    rw [Function.update_of_ne hne]
    exact Table.kept_eq_none fun row hrow => hnone row (List.mem_append_left _ hrow)

/-- A row is written, whose key stays. -/
theorem Table.Ok.update (hok : table.Ok) {row : Row} (hrow : row ∈ table.rows) (o : StatusObject) :
    table.Changes
      { table with rows := table.rows.map fun r => if r.id = row.id then r.write o else r } row.key
      (some ((row.write o).status, (row.write o).serialNumber)) := by
  -- the row is replaced in its place; the others are what they were
  have hmem : ∀ row' ∈ table.rows.map (fun r => if r.id = row.id then r.write o else r),
      row' = row.write o ∨ row' ∈ table.rows ∧ row'.id ≠ row.id := by
    intro row' hrow'
    obtain ⟨r, hr, rfl⟩ := List.mem_map.mp hrow'
    by_cases hid : r.id = row.id
    · rw [if_pos hid, hok.row_eq hr hrow hid]
      exact .inl rfl
    · rw [if_neg hid]
      exact .inr ⟨hr, hid⟩
  have hok' : Table.Ok
      { table with rows := table.rows.map fun r => if r.id = row.id then r.write o else r } := by
    refine ⟨?_, ?_, ?_⟩
    · refine List.pairwise_map.mpr (hok.keys.imp fun h => ?_)
      split <;> split <;> exact h
    · refine List.pairwise_map.mpr (hok.ids.imp fun h => ?_)
      split <;> split <;> exact h
    · intro row' hrow'
      obtain rfl | ⟨hrow', _⟩ := hmem row' hrow'
      · exact hok.next row hrow
      · exact hok.next row' hrow'
  refine ⟨hok', ⟨Nat.le_refl _, ?_⟩, hok'.kept_eq ?_ ?_⟩
  · intro row' hrow'
    obtain rfl | ⟨hrow', _⟩ := hmem row' hrow'
    · exact .inl ⟨row, hrow, rfl, rfl⟩
    · exact .inl ⟨row', hrow', rfl, rfl⟩
  · intro row' hrow'
    obtain rfl | ⟨hrow', hid⟩ := hmem row' hrow'
    · exact Function.update_self _ _ _
    · -- another row has another key
      have hne : row'.key ≠ row.key := fun hkey =>
        hid (congrArg Row.id (hok.row_eq_of_key hrow' hrow hkey))
      rw [Function.update_of_ne hne, hok.kept_eq_some hrow']
  · intro other hnone
    have hne : other ≠ row.key := fun heq =>
      hnone (row.write o) (List.mem_map.mpr ⟨row, hrow, if_pos rfl⟩) heq.symm
    rw [Function.update_of_ne hne]
    refine Table.kept_eq_none fun r hr => ?_
    have hwritten := hnone _ (List.mem_map_of_mem hr)
    revert hwritten
    split <;> exact fun h => h

/-- A row is deleted. -/
theorem Table.Ok.delete (hok : table.Ok) {row : Row} (hrow : row ∈ table.rows) :
    table.Changes { table with rows := table.rows.filter fun r => r.id != row.id } row.key none := by
  have hmem : ∀ {r : Row}, r ∈ table.rows.filter (fun r => r.id != row.id) ↔
      r ∈ table.rows ∧ r.id ≠ row.id := by
    intro r
    simp
  have hok' : Table.Ok { table with rows := table.rows.filter fun r => r.id != row.id } :=
    ⟨hok.keys.filter _, hok.ids.filter _, fun r hr => hok.next r (hmem.mp hr).1⟩
  -- another row has another key, so nothing else is forgotten
  have hkeys : ∀ {r : Row}, r ∈ table.rows → r.id ≠ row.id → r.key ≠ row.key :=
    fun hr hid hkey => hid (congrArg Row.id (hok.row_eq_of_key hr hrow hkey))
  refine ⟨hok', ⟨Nat.le_refl _, fun r hr => .inl ⟨r, (hmem.mp hr).1, rfl, rfl⟩⟩,
    hok'.kept_eq ?_ ?_⟩
  · intro r hr
    obtain ⟨hr, hid⟩ := hmem.mp hr
    rw [Function.update_of_ne (hkeys hr hid), hok.kept_eq_some hr]
  · intro other hnone
    by_cases heq : other = row.key
    · rw [heq, Function.update_self]
    · rw [Function.update_of_ne heq]
      refine Table.kept_eq_none fun r hr => ?_
      by_cases hid : r.id = row.id
      · rw [hok.row_eq hr hrow hid]
        exact Ne.symm heq
      · exact hnone r (hmem.mpr ⟨hr, hid⟩)

/-! ## One call -/

/--
Two objects that stand for the same in the two worlds. One that has an identifier leads to a row
under its own key, or to none; one that has none has both marks set, so that an INSERT writes all
of it.
-/
structure Twin (table : Table) (o p : StatusObject) : Prop where
  key : p.key = o.key
  status : p.status = o.status
  serialNumber : p.serialNumber = o.serialNumber
  new : p.id = none → p.statusChanged = true ∧ p.serialChanged = true
  old : ∀ id, p.id = some id →
    id < table.next ∧ ∀ row ∈ table.rows, row.id = id → row.key = p.key

/-- The worlds keep the same, and have objects that stand for the same. -/
structure Related (w : World Memcache) (v : World Table) : Prop where
  ok : v.cache.Ok
  kept : w.cache.kept = v.cache.kept
  objects : List.Forall₂ (Twin v.cache) w.objects v.objects

/--
The condition under which a call is answered alike. What is stored must have a serial number that
the column takes, or one that is not written. Without an identifier it must have no row; with one
it must have its row, which differs from it only where it has been changed. What is cleared with
an identifier must have its row, or no row of its names is there.
-/
def Fits (largest : Nat) (table : Table) (objects : List StatusObject) : Call → Prop
  | .store o => ∀ p, objects[o]? = some p →
    (p.serialChanged = true → p.serialNumber ≤ largest) ∧
    (p.id = none → ∀ row ∈ table.rows, row.key ≠ p.key) ∧
    ∀ id, p.id = some id → ∃ row ∈ table.rows, row.id = id ∧
      (p.statusChanged = true ∨ row.status = p.status) ∧
      (p.serialChanged = true ∨ row.serialNumber = p.serialNumber)
  | .clear o => ∀ p, objects[o]? = some p → ∀ id, p.id = some id →
    (∃ row ∈ table.rows, row.id = id) ∨ ∀ row ∈ table.rows, row.key ≠ p.key
  | _ => True

theorem Twin.later {table table' : Table} {o p : StatusObject} (htwin : Twin table o p)
    (hlater : table.Later table') : Twin table' o p := by
  refine ⟨htwin.key, htwin.status, htwin.serialNumber, htwin.new, fun id hid => ?_⟩
  obtain ⟨hlt, hrows⟩ := htwin.old id hid
  refine ⟨Nat.lt_of_lt_of_le hlt hlater.next, fun row' hrow' hid' => ?_⟩
  obtain ⟨row, hrow, heq, hkey⟩ | hle := hlater.rows row' hrow'
  · exact hkey.symm.trans (hrows row hrow (heq.trans hid'))
  · omega

/-- An object that is read from a row of the table. -/
theorem Twin.load {table : Table} (hok : table.Ok) {row : Row} (hrow : row ∈ table.rows)
    {o : StatusObject} (hkey : row.key = o.key) (hstatus : row.status = o.status)
    (hserial : row.serialNumber = o.serialNumber) : Twin table o row.load := by
  refine ⟨hkey, hstatus, hserial, fun h => absurd h (by simp [Row.load]), fun id hid => ?_⟩
  obtain rfl := Option.some.inj hid
  refine ⟨hok.next row hrow, fun row' hrow' hid' => ?_⟩
  rw [hok.row_eq hrow' hrow hid']
  rfl

theorem forall₂_get {α β : Type} {R : α → β → Prop} {l : List α} {m : List β}
    (h : List.Forall₂ R l m) (n : Nat) :
    (l[n]? = none ∧ m[n]? = none) ∨ ∃ a b, l[n]? = some a ∧ m[n]? = some b ∧ R a b := by
  induction h generalizing n with
  | nil => exact .inl ⟨rfl, rfl⟩
  | cons hab _ ih =>
    cases n with
    | zero => exact .inr ⟨_, _, rfl, rfl, hab⟩
    | succ n => exact ih n

theorem forall₂_set {α β : Type} {R S : α → β → Prop} {l : List α} {m : List β}
    (h : List.Forall₂ R l m) (himp : ∀ a b, R a b → S a b) (n : Nat) {a : α} {b : β}
    (hab : S a b) : List.Forall₂ S (l.set n a) (m.set n b) := by
  induction h generalizing n with
  | nil => exact .nil
  | cons hfirst hrest ih =>
    cases n with
    | zero => exact .cons hab (hrest.imp himp)
    | succ n => exact .cons (himp _ _ hfirst) (ih n)

theorem forall₂_modify {α β : Type} {R : α → β → Prop} {l : List α} {m : List β}
    (h : List.Forall₂ R l m) {f : α → α} {g : β → β} (hfg : ∀ a b, R a b → R (f a) (g b)) (n : Nat) :
    List.Forall₂ R (l.modify n f) (m.modify n g) := by
  induction h generalizing n with
  | nil => simp
  | cons hfirst hrest ih =>
    cases n with
    | zero => exact .cons (hfg _ _ hfirst) hrest
    | succ n => exact .cons hfirst (ih n)

theorem forall₂_concat {α β : Type} {R : α → β → Prop} {l : List α} {m : List β}
    (h : List.Forall₂ R l m) {a : α} {b : β} (hab : R a b) :
    List.Forall₂ R (l ++ [a]) (m ++ [b]) :=
  List.rel_append h (.cons hab .nil)

theorem writable_iff {largest : Nat} {o : StatusObject} :
    o.writable largest = true ↔ (o.serialChanged = true → o.serialNumber ≤ largest) := by
  unfold StatusObject.writable
  cases o.serialChanged <;> simp

/-- The worlds show the same exactly if they keep the same. -/
theorem seen_eq_iff (largest : Nat) (w : World Memcache) (v : World Table) :
    memcache.machine.seen w = (sqlalchemy largest).machine.seen v ↔ w.cache.kept = v.cache.kept := by
  constructor
  · intro h
    funext key
    have hkey := congrFun h key
    change memcache.found w.cache key = (sqlalchemy largest).found v.cache key at hkey
    rw [memcache_found, sqlalchemy_found] at hkey
    exact outcome_inj hkey
  · intro h
    funext key
    change memcache.found w.cache key = (sqlalchemy largest).found v.cache key
    rw [memcache_found, sqlalchemy_found, h]

variable {largest : Nat} {w : World Memcache} {v : World Table}

/-- The same change in both, to the same object. -/
theorem Related.changed (hrelated : Related w v) {cache : Memcache} {table : Table} {key : Key}
    {entry : Option (Option UpdateStatus × Nat)}
    (hcache : cache.kept = Function.update w.cache.kept key entry)
    (hchanges : v.cache.Changes table key entry) (n : Nat) {o p : StatusObject}
    (htwin : Twin table o p) :
    Related ⟨cache, w.objects.set n o⟩ ⟨table, v.objects.set n p⟩ := by
  refine ⟨hchanges.ok, ?_, ?_⟩
  · exact (hcache.trans (hrelated.kept ▸ rfl)).trans hchanges.kept.symm
  · exact forall₂_set hrelated.objects (fun _ _ h => h.later hchanges.later) n htwin

theorem alike_iff (largest : Nat) (w : World Memcache) (v : World Table) (call : Call) :
    Alike memcache.machine (sqlalchemy largest).machine w v call ↔
      (memcache.call w call).1 = ((sqlalchemy largest).call v call).1 ∧
        (memcache.call w call).2.cache.kept = ((sqlalchemy largest).call v call).2.cache.kept :=
  and_congr_right fun _ => seen_eq_iff _ _ _

/-- The answer is the same and what is kept is, or it does not fit. -/
def Decided (largest : Nat) (w : World Memcache) (v : World Table) (call : Call) : Prop :=
  (Alike memcache.machine (sqlalchemy largest).machine w v call ↔ Fits largest v.cache v.objects call) ∧
    (Fits largest v.cache v.objects call →
      Related (memcache.call w call).2 ((sqlalchemy largest).call v call).2)

/-- A call that fits and leaves the worlds related. -/
theorem Decided.of_related {call : Call} (hfits : Fits largest v.cache v.objects call)
    (hout : (memcache.call w call).1 = ((sqlalchemy largest).call v call).1)
    (hnext : Related (memcache.call w call).2 ((sqlalchemy largest).call v call).2) : Decided largest w v call :=
  ⟨iff_of_true ((alike_iff largest w v call).mpr ⟨hout, hnext.kept⟩) hfits, fun _ => hnext⟩

/-- A call that does not fit and is not answered alike. -/
theorem Decided.of_not {call : Call} (hfits : ¬ Fits largest v.cache v.objects call)
    (hnot : (memcache.call w call).1 = ((sqlalchemy largest).call v call).1 →
      (memcache.call w call).2.cache.kept ≠ ((sqlalchemy largest).call v call).2.cache.kept) :
    Decided largest w v call := by
  refine ⟨iff_of_false ?_ hfits, fun h => absurd h hfits⟩
  rw [alike_iff]
  exact fun h => hnot h.1 h.2

/-- A call that does not fit, which memcache answers and the table raises over. -/
theorem Decided.of_raised {call : Call} {fault : Fault}
    (hfits : ¬ Fits largest v.cache v.objects call) (hw : (memcache.call w call).1 = .done)
    (hv : ((sqlalchemy largest).call v call).1 = .raised fault) : Decided largest w v call := by
  refine Decided.of_not hfits ?_
  intro hout
  rw [hw, hv] at hout
  exact absurd hout (by simp)

/-- The row of an identifier. -/
theorem find_row (id : Nat) (table : Table) :
    (table.rows.find? (fun row => row.id == id) = none ∧ ∀ row ∈ table.rows, row.id ≠ id) ∨
      ∃ row ∈ table.rows, row.id = id ∧
        table.rows.find? (fun row => row.id == id) = some row := by
  cases hfind : table.rows.find? fun row => row.id == id with
  | none =>
    refine .inl ⟨rfl, fun row hrow => ?_⟩
    have hnot := List.find?_eq_none.mp hfind row hrow
    simpa using hnot
  | some row =>
    have hid := List.find?_some hfind
    exact .inr ⟨row, List.mem_of_find?_eq_some hfind, by simpa using hid, rfl⟩

theorem delete_row {table : Table} {row : Row} (hrow : row ∈ table.rows) :
    delete table row.id = .ok { table with rows := table.rows.filter fun r => r.id != row.id } :=
  if_pos (List.any_eq_true.mpr ⟨row, hrow, beq_self_eq_true row.id⟩)

theorem delete_none {table : Table} {id : Nat} (h : ∀ row ∈ table.rows, row.id ≠ id) :
    delete table id = .error .PoolManagerStatusNotFound := by
  refine if_neg fun hany => ?_
  obtain ⟨row, hrow, hid⟩ := List.any_eq_true.mp hany
  exact h row hrow (by simpa using hid)

theorem set_same {α : Type} {l : List α} {n : Nat} {a : α} (h : l[n]? = some a) : l.set n a = l := by
  obtain ⟨hlt, rfl⟩ := List.getElem?_eq_some_iff.mp h
  exact List.set_getElem_self hlt

/-- Calls that only make or change objects are always answered alike. -/
theorem object_decided (hrelated : Related w v) {call : Call} {ws vs : List StatusObject}
    (hw : memcache.call w call = (.done, { w with objects := ws }))
    (hv : (sqlalchemy largest).call v call = (.done, { v with objects := vs }))
    (hfits : Fits largest v.cache v.objects call) (hobjects : List.Forall₂ (Twin v.cache) ws vs) :
    Decided largest w v call := by
  refine Decided.of_related hfits ?_ ?_
  · rw [hw, hv]
  · rw [hw, hv]
    exact ⟨hrelated.ok, hrelated.kept, hobjects⟩

/-! ## Storing an object -/

section

variable {n : Nat} {o p : StatusObject}

theorem memcache_call_store (ho : w.objects[n]? = some o) : memcache.call w (.store n) =
    (.done, ⟨(memcache.store o w.cache).2, w.objects.set n o⟩) := by
  simp [Cache.call, ho, memcache]

theorem memcache_kept_store (htwin : Twin v.cache o p) : (memcache.store o w.cache).2.kept =
    Function.update w.cache.kept p.key (some (p.status, p.serialNumber)) := by
  rw [htwin.key, htwin.status, htwin.serialNumber]
  exact (memcache_store o w.cache).2

theorem fits_store_iff (hp : v.objects[n]? = some p) : Fits largest v.cache v.objects (.store n) ↔
    (p.serialChanged = true → p.serialNumber ≤ largest) ∧
    (p.id = none → ∀ row ∈ v.cache.rows, row.key ≠ p.key) ∧
    ∀ id, p.id = some id → ∃ row ∈ v.cache.rows, row.id = id ∧
      (p.statusChanged = true ∨ row.status = p.status) ∧
      (p.serialChanged = true ∨ row.serialNumber = p.serialNumber) := by
  constructor
  · intro h
    exact h p hp
  · intro h q hq
    obtain rfl := Option.some.inj (hp.symm.trans hq)
    exact h

/-- An object without an identifier is inserted, if its names have no row and the column takes it. -/
theorem store_new_decided (hrelated : Related w v) (ho : w.objects[n]? = some o)
    (hp : v.objects[n]? = some p) (htwin : Twin v.cache o p) (hid : p.id = none) :
    Decided largest w v (.store n) := by
  have hw := memcache_call_store ho
  have hkept : (memcache.store o w.cache).2.kept = _ := memcache_kept_store htwin
  have hfits : Fits largest v.cache v.objects (.store n) ↔ _ := fits_store_iff hp
  obtain ⟨hstatus, hserial⟩ := htwin.new hid
  by_cases hdup : ∃ row ∈ v.cache.rows, row.key = p.key
  · -- the names have a row already
    have hv : (sqlalchemy largest).call v (.store n) = (.raised .DuplicatePoolManagerStatus, v) := by
      simp [Cache.call, hp, sqlalchemy, hid, hdup]
    refine Decided.of_raised ?_ (congrArg Prod.fst hw) (congrArg Prod.fst hv)
    rw [hfits]
    intro ⟨_, hnew, _⟩
    obtain ⟨row, hrow, hkey⟩ := hdup
    exact hnew hid row hrow hkey
  by_cases hlarge : p.serialNumber ≤ largest
  · have hnew : ∀ row ∈ v.cache.rows, row.key ≠ p.key :=
      fun row hrow hkey => hdup ⟨row, hrow, hkey⟩
    have hchanges := hrelated.ok.insert hnew p.status p.serialNumber
    have hv : (sqlalchemy largest).call v (.store n) = (.done,
        ⟨⟨v.cache.rows ++ [⟨v.cache.next, p.key, p.status, p.serialNumber⟩],
          v.cache.next + 1⟩, v.objects.set n
          (Row.load ⟨v.cache.next, p.key, p.status, p.serialNumber⟩)⟩) := by
      simp [Cache.call, hp, sqlalchemy, hid, hdup, hstatus, hserial, StatusObject.writable, hlarge]
    refine Decided.of_related ?_ ?_ ?_
    · rw [hfits]
      exact ⟨fun _ => hlarge, fun _ => hnew, fun id h => absurd (hid.symm.trans h) (by simp)⟩
    · rw [hw, hv]
    · rw [hw, hv]
      refine hrelated.changed hkept hchanges n (Twin.load hchanges.ok (by simp) ?_ ?_ ?_)
      · exact htwin.key
      · exact htwin.status
      · exact htwin.serialNumber
  · -- the serial number is none that the column takes
    have hv : (sqlalchemy largest).call v (.store n) = (.raised .DBError, v) := by
      simp [Cache.call, hp, sqlalchemy, hid, hdup, hserial, StatusObject.writable, hlarge]
    refine Decided.of_raised ?_ (congrArg Prod.fst hw) (congrArg Prod.fst hv)
    rw [hfits]
    intro ⟨hfit, _⟩
    exact hlarge (hfit hserial)

/-- The row is left with what the object has, unless it differs where nothing has changed. -/
theorem write_agrees_iff {row : Row} : ((row.write p).status = p.status ∧
      (row.write p).serialNumber = p.serialNumber) ↔
    (p.statusChanged = true ∨ row.status = p.status) ∧
      (p.serialChanged = true ∨ row.serialNumber = p.serialNumber) := by
  unfold Row.write
  cases p.statusChanged <;> cases p.serialChanged <;> simp

/-- An object that is written fits exactly if its row is left with what it has. -/
theorem fits_written_iff (hok : v.cache.Ok) (hp : v.objects[n]? = some p) {row : Row}
    (hrow : row ∈ v.cache.rows) (hid : p.id = some row.id)
    (hwritable : p.writable largest = true) :
    Fits largest v.cache v.objects (.store n) ↔
      (row.write p).status = p.status ∧ (row.write p).serialNumber = p.serialNumber := by
  rw [fits_store_iff hp, write_agrees_iff]
  constructor
  · intro ⟨_, _, hold⟩
    obtain ⟨row', hrow', hid', hagrees⟩ := hold row.id hid
    rwa [hok.row_eq hrow' hrow hid'] at hagrees
  · intro hagrees
    refine ⟨writable_iff.mp hwritable, fun h => absurd (h.symm.trans hid) (by simp), fun id h => ?_⟩
    obtain rfl := Option.some.inj (hid.symm.trans h)
    exact ⟨row, hrow, rfl, hagrees⟩

/-- An object with an identifier updates its row, if that is there and the column takes it. -/
theorem store_known_decided (hrelated : Related w v) (ho : w.objects[n]? = some o)
    (hp : v.objects[n]? = some p) (htwin : Twin v.cache o p) {id : Nat} (hid : p.id = some id) :
    Decided largest w v (.store n) := by
  have hw := memcache_call_store ho
  have hkept : (memcache.store o w.cache).2.kept = _ := memcache_kept_store htwin
  obtain ⟨hfind, hnone⟩ | ⟨row, hrow, rfl, hfind⟩ := find_row id v.cache
  · -- the row has been cleared
    have hv : (sqlalchemy largest).call v (.store n) = (.raised .PoolManagerStatusNotFound, v) := by
      simp [Cache.call, hp, sqlalchemy, hid, hfind]
    refine Decided.of_raised ?_ (congrArg Prod.fst hw) (congrArg Prod.fst hv)
    rw [fits_store_iff hp]
    intro ⟨_, _, hold⟩
    obtain ⟨row, hrow, hid', _⟩ := hold id hid
    exact hnone row hrow hid'
  cases hwritable : p.writable largest with
  | false =>
    have hv : (sqlalchemy largest).call v (.store n) = (.raised .DBError, v) := by
      simp [Cache.call, hp, sqlalchemy, hid, hfind, hwritable]
    refine Decided.of_raised ?_ (congrArg Prod.fst hw) (congrArg Prod.fst hv)
    rw [fits_store_iff hp]
    intro ⟨hfit, _⟩
    exact absurd (writable_iff.mpr hfit) (by simp [hwritable])
  | true =>
    have hkey : row.key = p.key := (htwin.old row.id hid).2 row hrow rfl
    have hchanges := hrelated.ok.update hrow p
    have hv : (sqlalchemy largest).call v (.store n) = (.done,
        ⟨{ v.cache with rows := v.cache.rows.map fun r =>
            if r.id = row.id then r.write p else r }, v.objects.set n (row.write p).load⟩) := by
      simp [Cache.call, hp, sqlalchemy, hid, hfind, hwritable]
    have hfits := fits_written_iff hrelated.ok hp hrow hid hwritable
    by_cases hagrees : (row.write p).status = p.status ∧
        (row.write p).serialNumber = p.serialNumber
    · refine Decided.of_related (hfits.mpr hagrees) ?_ ?_
      · rw [hw, hv]
      · rw [hw, hv]
        rw [hkey, hagrees.1, hagrees.2] at hchanges
        refine hrelated.changed hkept hchanges n
          (Twin.load hchanges.ok (List.mem_map.mpr ⟨row, hrow, if_pos rfl⟩) ?_ ?_ ?_)
        · exact hkey.trans htwin.key
        · exact hagrees.1.trans htwin.status
        · exact hagrees.2.trans htwin.serialNumber
    · -- both are done with it, and keep different things under the key
      refine Decided.of_not (fun h => hagrees (hfits.mp h)) ?_
      intro _ hsame
      rw [hw, hv] at hsame
      have hentry := congrFun (hkept.symm.trans (hsame.trans hchanges.kept)) p.key
      rw [hkey, Function.update_self, Function.update_self] at hentry
      obtain ⟨hstatus, hserial⟩ := Prod.mk.inj (Option.some.inj hentry)
      exact hagrees ⟨hstatus.symm, hserial.symm⟩

/-- A store is decided. -/
theorem store_decided (hrelated : Related w v) (n : Nat) : Decided largest w v (.store n) := by
  obtain ⟨ho, hp⟩ | ⟨o, p, ho, hp, htwin⟩ := forall₂_get hrelated.objects n
  · -- there is no such object
    refine object_decided hrelated (by simp [Cache.call, ho]) (by simp [Cache.call, hp]) ?_
      hrelated.objects
    exact fun q hq => absurd (hp.symm.trans hq) (by simp)
  · cases hid : p.id with
    | none => exact store_new_decided hrelated ho hp htwin hid
    | some id => exact store_known_decided hrelated ho hp htwin hid

/-! ## Clearing an object -/

theorem memcache_call_clear (ho : w.objects[n]? = some o) : memcache.call w (.clear n) =
    (.done, ⟨(memcache.clear o w.cache).2, w.objects.set n o⟩) := by
  simp [Cache.call, ho, memcache]

theorem memcache_kept_clear (htwin : Twin v.cache o p) :
    (memcache.clear o w.cache).2.kept = Function.update w.cache.kept p.key none := by
  rw [htwin.key]
  exact (memcache_clear o w.cache).2

/-- With no row of the names there is nothing to be deleted in either. -/
theorem clear_nothing (hrelated : Related w v) (ho : w.objects[n]? = some o)
    (hp : v.objects[n]? = some p) (htwin : Twin v.cache o p)
    (hv : (sqlalchemy largest).call v (.clear n) = (.done, v))
    (hnone : ∀ row ∈ v.cache.rows, row.key ≠ p.key)
    (hfits : Fits largest v.cache v.objects (.clear n)) : Decided largest w v (.clear n) := by
  have hw := memcache_call_clear ho
  refine Decided.of_related hfits ?_ ?_
  · rw [hw, hv]
  · rw [hw, hv]
    refine ⟨hrelated.ok, ?_, ?_⟩
    · have hentry : v.cache.kept p.key = none := Table.kept_eq_none hnone
      show (memcache.clear o w.cache).2.kept = v.cache.kept
      rw [memcache_kept_clear htwin, hrelated.kept, ← hentry, Function.update_eq_self]
    · have hsame := forall₂_set hrelated.objects (fun _ _ h => h) n htwin
      rwa [set_same hp] at hsame

/-- An object without an identifier is cleared by its names. -/
theorem clear_new_decided (hrelated : Related w v) (ho : w.objects[n]? = some o)
    (hp : v.objects[n]? = some p) (htwin : Twin v.cache o p) (hid : p.id = none) :
    Decided largest w v (.clear n) := by
  have hfits : Fits largest v.cache v.objects (.clear n) := by
    intro q hq id hid'
    obtain rfl := Option.some.inj (hp.symm.trans hq)
    exact absurd (hid.symm.trans hid') (by simp)
  by_cases hrow : ∃ row ∈ v.cache.rows, row.key = p.key
  · obtain ⟨row, hrow, hkey⟩ := hrow
    have hchanges := hrelated.ok.delete hrow
    have hfound : findOne v.cache p.key = .ok row := by
      unfold findOne
      rw [← hkey, hrelated.ok.filter_key hrow]
    have hv : (sqlalchemy largest).call v (.clear n) = (.done,
        ⟨{ v.cache with rows := v.cache.rows.filter fun r => r.id != row.id },
          v.objects.set n p⟩) := by
      simp only [Cache.call, hp, sqlalchemy, hid, hfound, delete_row hrow]
    have hw := memcache_call_clear ho
    refine Decided.of_related hfits ?_ ?_
    · rw [hw, hv]
    · rw [hw, hv]
      rw [hkey] at hchanges
      exact hrelated.changed (memcache_kept_clear htwin) hchanges n (htwin.later hchanges.later)
  · have hnone : ∀ row ∈ v.cache.rows, row.key ≠ p.key :=
      fun row hrow' hkey => hrow ⟨row, hrow', hkey⟩
    have hfound : findOne v.cache p.key = .error .PoolManagerStatusNotFound := by
      unfold findOne
      rw [filter_key_nil hnone]
    have hv : (sqlalchemy largest).call v (.clear n) = (.done, v) := by
      simp only [Cache.call, hp, sqlalchemy, hid, hfound]
    exact clear_nothing hrelated ho hp htwin hv hnone hfits

/-- An object with an identifier is cleared by that, whatever row its names have by then. -/
theorem clear_known_decided (hrelated : Related w v) (ho : w.objects[n]? = some o)
    (hp : v.objects[n]? = some p) (htwin : Twin v.cache o p) {id : Nat} (hid : p.id = some id) :
    Decided largest w v (.clear n) := by
  have hw := memcache_call_clear ho
  have hkept : (memcache.clear o w.cache).2.kept = _ := memcache_kept_clear htwin
  have hfits : Fits largest v.cache v.objects (.clear n) ↔
      (∃ row ∈ v.cache.rows, row.id = id) ∨ ∀ row ∈ v.cache.rows, row.key ≠ p.key := by
    constructor
    · intro h
      exact h p hp id hid
    · intro h q hq id' hid'
      obtain rfl := Option.some.inj (hp.symm.trans hq)
      obtain rfl := Option.some.inj (hid.symm.trans hid')
      exact h
  obtain ⟨_, hnone⟩ | ⟨row, hrow, rfl, _⟩ := find_row id v.cache
  · have hv : (sqlalchemy largest).call v (.clear n) = (.done, v) := by
      simp only [Cache.call, hp, sqlalchemy, hid, delete_none hnone]
    by_cases hkey : ∀ row ∈ v.cache.rows, row.key ≠ p.key
    · exact clear_nothing hrelated ho hp htwin hv hkey (hfits.mpr (.inr hkey))
    · -- the row of the names is another one, and stays
      refine Decided.of_not ?_ ?_
      · rw [hfits]
        intro h
        obtain ⟨row, hrow, hid'⟩ | h := h
        · exact hnone row hrow hid'
        · exact hkey h
      · intro _ hsame
        rw [hw, hv] at hsame
        obtain ⟨row, hrow, hkey⟩ : ∃ row ∈ v.cache.rows, row.key = p.key := by
          simpa using hkey
        have hentry := congrFun (hkept.symm.trans hsame) p.key
        rw [Function.update_self, ← hkey, hrelated.ok.kept_eq_some hrow] at hentry
        exact absurd hentry (by simp)
  · have hkey : row.key = p.key := (htwin.old row.id hid).2 row hrow rfl
    have hchanges := hrelated.ok.delete hrow
    have hv : (sqlalchemy largest).call v (.clear n) = (.done,
        ⟨{ v.cache with rows := v.cache.rows.filter fun r => r.id != row.id },
          v.objects.set n p.resetChanges⟩) := by
      simp only [Cache.call, hp, sqlalchemy, hid, delete_row hrow]
    refine Decided.of_related (hfits.mpr (.inl ⟨row, hrow, rfl⟩)) ?_ ?_
    · rw [hw, hv]
    · rw [hw, hv]
      rw [hkey] at hchanges
      refine hrelated.changed hkept hchanges n ?_
      have hlater := htwin.later hchanges.later
      exact ⟨hlater.key, hlater.status, hlater.serialNumber,
        fun h => absurd (hid.symm.trans h) (by simp), hlater.old⟩

/-- A clear is decided. -/
theorem clear_decided (hrelated : Related w v) (n : Nat) : Decided largest w v (.clear n) := by
  obtain ⟨ho, hp⟩ | ⟨o, p, ho, hp, htwin⟩ := forall₂_get hrelated.objects n
  · refine object_decided hrelated (by simp [Cache.call, ho]) (by simp [Cache.call, hp]) ?_
      hrelated.objects
    exact fun q hq => absurd (hp.symm.trans hq) (by simp)
  · cases hid : p.id with
    | none => exact clear_new_decided hrelated ho hp htwin hid
    | some id => exact clear_known_decided hrelated ho hp htwin hid

end

/-- A retrieval is decided. -/
theorem retrieve_decided (hrelated : Related w v) (key : Key) : Decided largest w v (.retrieve key) := by
  have hkept : w.cache.kept key = v.cache.kept key := congrFun hrelated.kept key
  -- the table has a row of the key or it has none, and memcached keeps what the table does
  by_cases hrow : ∃ row ∈ v.cache.rows, row.key = key
  · obtain ⟨row, hrow, rfl⟩ := hrow
    have hfound : findOne v.cache row.key = .ok row := by
      unfold findOne
      rw [hrelated.ok.filter_key hrow]
    have hv : (sqlalchemy largest).call v (.retrieve row.key) = (.found row.status row.serialNumber,
        { v with objects := v.objects ++ [row.load] }) := by
      simp only [Cache.call, sqlalchemy, hfound]
      rfl
    rw [hrelated.ok.kept_eq_some hrow] at hkept
    have hw : memcache.call w (.retrieve row.key) = (.found row.status row.serialNumber,
        { w with objects := w.objects ++ [⟨none, row.key, row.status, row.serialNumber, true,
          true⟩] }) := by
      simp only [Cache.call, memcache_retrieve, hkept]
      rfl
    refine Decided.of_related trivial ?_ ?_
    · rw [hw, hv]
    · rw [hw, hv]
      exact ⟨hrelated.ok, hrelated.kept,
        forall₂_concat hrelated.objects (Twin.load hrelated.ok hrow rfl rfl rfl)⟩
  · have hnone : ∀ row ∈ v.cache.rows, row.key ≠ key :=
      fun row hrow' hkey => hrow ⟨row, hrow', hkey⟩
    have hfound : findOne v.cache key = .error .PoolManagerStatusNotFound := by
      unfold findOne
      rw [filter_key_nil hnone]
    have hv : (sqlalchemy largest).call v (.retrieve key) = (.raised .PoolManagerStatusNotFound, v) := by
      simp only [Cache.call, sqlalchemy, hfound]
      rfl
    have hw : memcache.call w (.retrieve key) = (.raised .PoolManagerStatusNotFound, w) := by
      rw [Table.kept_eq_none hnone] at hkept
      simp only [Cache.call, memcache_retrieve, hkept]
      rfl
    refine Decided.of_related trivial ?_ ?_
    · rw [hw, hv]
    · rw [hw, hv]
      exact hrelated

/-- Every call is decided. -/
theorem call_decided (hrelated : Related w v) (call : Call) : Decided largest w v call := by
  cases call with
  | build key =>
    refine object_decided hrelated rfl rfl trivial (forall₂_concat hrelated.objects ?_)
    exact ⟨rfl, rfl, rfl, fun _ => ⟨rfl, rfl⟩, fun _ h => absurd h (by simp [buildStatusObject])⟩
  -- an assignment marks what it changes in both worlds alike
  | setStatus n status =>
    refine object_decided hrelated rfl rfl trivial (forall₂_modify hrelated.objects ?_ n)
    intro o p htwin
    refine ⟨htwin.key, rfl, htwin.serialNumber, fun h => ?_, htwin.old⟩
    obtain ⟨hstatus, hserial⟩ := htwin.new h
    exact ⟨by simp [StatusObject.setStatus, hstatus], hserial⟩
  | setSerialNumber n serialNumber =>
    refine object_decided hrelated rfl rfl trivial (forall₂_modify hrelated.objects ?_ n)
    intro o p htwin
    refine ⟨htwin.key, htwin.status, rfl, fun h => ?_, htwin.old⟩
    obtain ⟨hstatus, hserial⟩ := htwin.new h
    exact ⟨hstatus, by simp [StatusObject.setSerialNumber, hserial]⟩
  | store n => exact store_decided hrelated n
  | clear n => exact clear_decided hrelated n
  | retrieve key => exact retrieve_decided hrelated key

/-- Both caches empty, and no objects. -/
theorem related_empty : Related ⟨fun _ => none, []⟩ ⟨{}, []⟩ :=
  ⟨⟨.nil, .nil, fun _ h => absurd h List.not_mem_nil⟩, rfl, .nil⟩

/--
From empty caches on, all calls are answered alike, with the same to be retrieved after each of
them, exactly if each fits the table and the objects there are before it.
-/
theorem caches_alike_iff (largest : Nat) (calls : List Call) :
    AllAlike memcache.machine (sqlalchemy largest).machine ⟨fun _ => none, []⟩ ⟨{}, []⟩ calls ↔
      AllMeet memcache.machine (sqlalchemy largest).machine
        (fun _ v call => Fits largest v.cache v.objects call) ⟨fun _ => none, []⟩ ⟨{}, []⟩ calls :=
  allAlike_iff (R := Related) (fun _ _ call h => (call_decided h call).1)
    (fun _ _ call h => (call_decided h call).2) related_empty calls

/-- Some names. -/
def someKey : Key :=
  ⟨⟨"5a2d8f6e-0f3c-4a51-9a39-0c5b6a7f1f01", by decide⟩,
    ⟨"7c1e2b90-6d4f-4c1b-8e57-3f2a9d6b4c02", by decide⟩, .CREATE⟩

/-- A second object built for the same names is not stored. -/
theorem second_store_raises :
    ¬ AllAlike memcache.machine (sqlalchemy 2147483647).machine ⟨fun _ => none, []⟩ ⟨{}, []⟩
      [.build someKey, .store 0, .build someKey, .store 1] := by
  intro h
  obtain ⟨_, _, _, hstore, _⟩ := h
  exact absurd hstore.1 (by decide)

/-! ## What has expired -/

namespace Memorycache

/-- A value that is kept for a time, from this moment on, is still kept. -/
def Lasts (expiration since now : Nat) : Prop := expiration = 0 ∨ now < since + expiration

/-- What a value is kept with. -/
def kept (expiration since : Nat) (value : Value) : Nat × Value :=
  (if expiration = 0 then 0 else since + expiration, value)

theorem expired_kept_iff (expiration since now : Nat) (value : Value) :
    expired now (kept expiration since value) = true ↔ ¬ Lasts expiration since now := by
  unfold expired kept Lasts
  by_cases hzero : expiration = 0
  · simp [hzero]
  · simp [hzero]

/-- The client has this, or has had it and dropped it when it had expired. -/
def Client.Has (client : Client) (now : Nat) (key : String) (entry : Nat × Value) : Prop :=
  client key = some entry ∨ client key = none ∧ expired now entry = true

section

variable {client : Client} {now now' : Nat} {key : String} {entry : Nat × Value}

theorem expired_mono (hle : now ≤ now') (h : expired now entry = true) :
    expired now' entry = true := by
  unfold expired at h ⊢
  simp only [Bool.and_eq_true, decide_eq_true_iff] at h ⊢
  exact ⟨h.1, Nat.le_trans h.2 hle⟩

theorem Client.Has.later (h : client.Has now key entry) (hle : now ≤ now') :
    client.Has now' key entry :=
  h.imp_right fun hnone => ⟨hnone.1, expired_mono hle hnone.2⟩

/-- What is asked for, of whatever key, drops nothing that has not expired. -/
theorem Client.Has.get (h : client.Has now key entry) (other : String) :
    (client.get now other).2.Has now key entry := by
  unfold Client.Has Client.get
  dsimp only
  rcases h with h | ⟨h, hexpired⟩
  · rw [h]
    by_cases hexpired : expired now entry = true
    · exact .inr ⟨by simp [hexpired], hexpired⟩
    · exact .inl (by simp [hexpired])
  · rw [h]
    exact .inr ⟨rfl, hexpired⟩

/-- A value is given out as long as it has not expired. -/
theorem Client.Has.value (h : client.Has now key entry) :
    (client.get now key).1 = if expired now entry then none else some entry.2 := by
  unfold Client.get
  dsimp only
  rcases h with h | ⟨h, hexpired⟩
  · rw [h, Option.filter_some]
    by_cases hexpired : expired now entry = true
    · simp [hexpired]
    · simp [hexpired]
  · rw [h, if_pos hexpired]
    rfl

theorem Client.get_none (h : client key = none) (now : Nat) (other : String) :
    (client.get now other).2 key = none ∧ (client.get now key).1 = none := by
  unfold Client.get
  dsimp only
  rw [h]
  exact ⟨rfl, rfl⟩

theorem Client.Has.of_eq (h : client.Has now key entry) {client' : Client}
    (heq : client' key = client key) : client'.Has now key entry := by
  unfold Client.Has
  rw [heq]
  exact h

end

/-! ## What was last stored -/

/-- The names that are stored or cleared. -/
def Event.target : Event → Option Key
  | .store o _ => some o.key
  | .clear key => some key
  | _ => none

/-- The client keeps an object since this moment, and its serial number since a little later. -/
structure Keeps (expiration : Nat) (o : StatusObject) (since between : Nat) (s : State) : Prop where
  since_le : since + between ≤ s.now
  status : s.client.Has s.now (statusKey o.key "status")
    (kept expiration since (.text (statusText o.status)))
  serial : s.client.Has s.now (statusKey o.key "serial_number")
    (kept expiration (since + between) (.number o.serialNumber))

/-- Nothing is kept under the names. -/
structure Lacks (key : Key) (s : State) : Prop where
  status : s.client (statusKey key "status") = none
  serial : s.client (statusKey key "serial_number") = none

section

variable {expiration since between : Nat} {o : StatusObject} {key : Key} {s : State}

/-- The other keys are left alone by what is stored or cleared. -/
theorem step_other (expiration : Nat) (s : State) {event : Event} (htarget : event.target ≠ some key)
    (hretrieve : ∀ k b, event ≠ .retrieve k b) :
    (step expiration event s).client (statusKey key "status") =
        s.client (statusKey key "status") ∧
      (step expiration event s).client (statusKey key "serial_number") =
        s.client (statusKey key "serial_number") := by
  -- what is written stands under the two names of its own key, which are none of these
  have hkeys := statusKey_inj_iff key
  cases event with
  | wait seconds => exact ⟨rfl, rfl⟩
  | retrieve k b => exact absurd rfl (hretrieve k b)
  | clear k =>
    have hne : key ≠ k := fun h => htarget (congrArg some h.symm)
    obtain ⟨hstatus, hserial, hcross⟩ := hkeys k
    have hcross' := (statusKey_inj_iff k key).2.2
    unfold step clear Client.delete
    dsimp only
    rw [Function.update_of_ne hcross, Function.update_of_ne (mt hstatus.mp hne),
      Function.update_of_ne (mt hserial.mp hne), Function.update_of_ne (Ne.symm hcross')]
    exact ⟨rfl, rfl⟩
  | store o b =>
    have hne : key ≠ o.key := fun h => htarget (congrArg some h.symm)
    obtain ⟨hstatus, hserial, hcross⟩ := hkeys o.key
    have hcross' := (statusKey_inj_iff o.key key).2.2
    unfold step store Client.set
    dsimp only
    rw [Function.update_of_ne hcross, Function.update_of_ne (mt hstatus.mp hne),
      Function.update_of_ne (mt hserial.mp hne), Function.update_of_ne (Ne.symm hcross')]
    exact ⟨rfl, rfl⟩

/-- A retrieval takes its time, and loses nothing but what has expired. -/
theorem retrieve_keeps (key : Key) (between : Nat) (s : State) :
    s.now ≤ (retrieve key between s).2.now ∧
      (∀ k entry, s.client.Has s.now k entry →
        (retrieve key between s).2.client.Has (retrieve key between s).2.now k entry) ∧
      ∀ k, s.client k = none → (retrieve key between s).2.client k = none := by
  have hle : s.now ≤ s.now + between := Nat.le_add_right _ _
  have hhas := fun (k : String) (entry : Nat × Value) (h : s.client.Has s.now k entry) =>
    h.get (statusKey key "status")
  have hnone := fun (k : String) (h : s.client k = none) =>
    (Client.get_none h s.now (statusKey key "status")).1
  unfold retrieve
  cases hfirst : s.client.get s.now (statusKey key "status") with
  | mk status client =>
    rw [hfirst] at hhas hnone
    cases status with
    | none => exact ⟨Nat.le_refl _, hhas, hnone⟩
    | some status =>
      -- the second look drops what has expired in between
      have hhas' := fun k entry h =>
        ((hhas k entry h).later hle).get (statusKey key "serial_number")
      have hnone' := fun k h => (Client.get_none (hnone k h) (s.now + between)
        (statusKey key "serial_number")).1
      dsimp only
      split
      · next hsecond =>
        rw [hsecond] at hhas' hnone'
        exact ⟨hle, hhas', hnone'⟩
      · next hsecond =>
        rw [hsecond] at hhas' hnone'
        exact ⟨hle, hhas', hnone'⟩

/-- **What is kept under the names stays until they are stored or cleared.** -/
theorem Keeps.step {event : Event} (h : Keeps expiration o since between s)
    (htarget : event.target ≠ some o.key) :
    Keeps expiration o since between (Memorycache.step expiration event s) := by
  by_cases hretrieve : ∃ k b, event = .retrieve k b
  · obtain ⟨k, b, rfl⟩ := hretrieve
    obtain ⟨hle, hhas, -⟩ := retrieve_keeps k b s
    exact ⟨Nat.le_trans h.since_le hle, hhas _ _ h.status, hhas _ _ h.serial⟩
  · obtain ⟨hstatus, hserial⟩ := step_other expiration s htarget
      fun k b hevent => hretrieve ⟨k, b, hevent⟩
    have hle : s.now ≤ (Memorycache.step expiration event s).now := by
      cases event with
      | wait seconds => exact Nat.le_add_right _ _
      | store o b => exact Nat.le_add_right _ _
      | clear k => exact Nat.le_refl _
      | retrieve k b => exact absurd ⟨k, b, rfl⟩ hretrieve
    exact ⟨Nat.le_trans h.since_le hle, (h.status.of_eq hstatus).later hle,
      (h.serial.of_eq hserial).later hle⟩

theorem Lacks.step {event : Event} (h : Lacks key s) (htarget : event.target ≠ some key) :
    Lacks key (Memorycache.step expiration event s) := by
  by_cases hretrieve : ∃ k b, event = .retrieve k b
  · obtain ⟨k, b, rfl⟩ := hretrieve
    obtain ⟨-, -, hnone⟩ := retrieve_keeps k b s
    exact ⟨hnone _ h.status, hnone _ h.serial⟩
  · obtain ⟨hstatus, hserial⟩ := step_other expiration s htarget
      fun k b hevent => hretrieve ⟨k, b, hevent⟩
    exact ⟨hstatus.trans h.status, hserial.trans h.serial⟩

/-- What has just been stored is kept. -/
theorem keeps_store (expiration : Nat) (o : StatusObject) (between : Nat) (s : State) :
    Keeps expiration o s.now between (store expiration o between s) := by
  have hcross := (statusKey_inj_iff o.key o.key).2.2
  refine ⟨Nat.le_refl _, .inl ?_, .inl ?_⟩
  · unfold store Client.set
    dsimp only
    rw [Function.update_of_ne hcross, Function.update_self]
    rfl
  · unfold store Client.set
    dsimp only
    rw [Function.update_self]
    rfl

theorem lacks_clear (key : Key) (s : State) : Lacks key (clear key s) := by
  have hcross := (statusKey_inj_iff key key).2.2
  constructor
  · unfold clear Client.delete
    dsimp only
    rw [Function.update_of_ne hcross, Function.update_self]
  · exact Function.update_self _ _ _

/-- The object that a retrieval makes of a stored one. -/
def reloaded (o : StatusObject) : StatusObject :=
  { o with id := none, statusChanged := true, serialChanged := true }

/-- **What is kept is retrieved as long as both of its values last.** -/
theorem Keeps.retrieve_iff (h : Keeps expiration o since between s) (delay : Nat)
    (found : StatusObject) :
    (retrieve o.key delay s).1 = .ok found ↔
      Lasts expiration since s.now ∧ Lasts expiration (since + between) (s.now + delay) ∧
        found = reloaded o := by
  -- the two values are read one after the other, and time may pass in between
  have hstatus := h.status.value
  have hserial := ((h.serial.get (statusKey o.key "status")).later
    (Nat.le_add_right s.now delay)).value
  unfold retrieve
  cases hfirst : s.client.get s.now (statusKey o.key "status") with
  | mk status client =>
    rw [hfirst] at hstatus hserial
    by_cases hlasts : Lasts expiration since s.now
    · rw [if_neg (fun he => (expired_kept_iff _ _ _ _).mp he hlasts)] at hstatus
      obtain rfl : status = some (.text (statusText o.status)) := hstatus
      dsimp only
      cases hsecond : client.get (s.now + delay) (statusKey o.key "serial_number") with
      | mk serial client' =>
        rw [hsecond] at hserial
        by_cases hlasts' : Lasts expiration (since + between) (s.now + delay)
        · rw [if_neg (fun he => (expired_kept_iff _ _ _ _).mp he hlasts')] at hserial
          obtain rfl : serial = some (.number o.serialNumber) := hserial
          dsimp only
          rw [statusOf_text]
          constructor
          · intro hfound
            cases hfound
            exact ⟨hlasts, hlasts', rfl⟩
          · rintro ⟨-, -, rfl⟩
            rfl
        · -- the serial has expired in the meantime
          rw [if_pos ((expired_kept_iff _ _ _ _).mpr hlasts')] at hserial
          obtain rfl : serial = none := hserial
          exact iff_of_false (by simp) fun hfound => hlasts' hfound.2.1
    · rw [if_pos ((expired_kept_iff _ _ _ _).mpr hlasts)] at hstatus
      obtain rfl : status = none := hstatus
      exact iff_of_false (by simp) fun hfound => hlasts hfound.1

theorem Lacks.retrieve (h : Lacks key s) (delay : Nat) :
    (Memorycache.retrieve key delay s).1 = .error .PoolManagerStatusNotFound := by
  unfold Memorycache.retrieve
  have hget := (Client.get_none h.status s.now (statusKey key "status")).2
  cases hfirst : s.client.get s.now (statusKey key "status") with
  | mk status client =>
    rw [hfirst] at hget
    cases hget
    rfl

end

/-! ## Runs -/

/-- The last event that changes what is kept under the names is this store. -/
structure LastStored (key : Key) (events pre : List Event) (o : StatusObject) (between : Nat)
    (post : List Event) : Prop where
  split : events = pre ++ .store o between :: post
  names : o.key = key
  rest : ∀ event ∈ post, event.target ≠ some key

section

variable {expiration between : Nat} {key : Key} {events pre post : List Event} {o : StatusObject}

/-- What was last stored is kept at the end of the run. -/
theorem keeps_run (h : LastStored key events pre o between post) (s : State) :
    Keeps expiration o (Run.final (step expiration) pre s).now between
      (Run.final (step expiration) events s) := by
  rw [h.split, Run.final_append]
  have hguard : ∀ t ∈ Run.transitions (step expiration) post
      (store expiration o between (Run.final (step expiration) pre s)),
      t.input.target ≠ some o.key := by
    intro t ht
    rw [h.names]
    exact h.rest _ (Run.input_mem ht)
  exact (Run.invariant (G := fun event _ => event.target ≠ some o.key)
    (fun _ _ hkeeps htarget => hkeeps.step htarget) (keeps_store expiration o between _) hguard).2

/--
Nothing is kept if nothing was stored, or it was cleared since. By induction from the last
event on, which is a store of the names, clears them or leaves them as they are.
-/
theorem lacks_run {s : State} (hs : Lacks key s)
    (hnone : ∀ pre o between post, ¬ LastStored key events pre o between post) :
    Lacks key (Run.final (step expiration) events s) := by
  induction events using List.reverseRecOn with
  | nil => exact hs
  | append_singleton events event ih =>
    rw [Run.final_append]
    by_cases htarget : event.target = some key
    · cases event with
      | wait seconds => exact absurd htarget (by simp [Event.target])
      | retrieve k b => exact absurd htarget (by simp [Event.target])
      | clear k =>
        obtain rfl : k = key := Option.some.inj htarget
        exact lacks_clear _ _
      | store o b =>
        exact absurd ⟨rfl, Option.some.inj htarget, fun _ h => absurd h List.not_mem_nil⟩
          (hnone events o b [])
    · -- an event of another key: a store before it that is not undone by it is the last one still
      refine (ih fun pre o between post h => ?_).step htarget
      refine hnone pre o between (post ++ [event]) ⟨?_, h.names, ?_⟩
      · rw [h.split, List.append_assoc, List.cons_append]
      · intro e he
        rcases List.mem_append.mp he with he | he
        · exact h.rest e he
        · rw [List.mem_singleton.mp he]
          exact htarget

/--
**What is retrieved is what was last stored under the three names, whole, and only as long as
both of its values last.** Whatever else is stored, cleared and retrieved, and whenever.
-/
theorem run_retrieved (expiration : Nat) (events : List Event) (now : Nat) (key : Key)
    (delay : Nat) (found : StatusObject) :
    let final := fun events => Run.final (step expiration) events ⟨fun _ => none, now⟩
    (retrieve key delay (final events)).1 = .ok found ↔
      ∃ pre o between post, LastStored key events pre o between post ∧ found = reloaded o ∧
        Lasts expiration (final pre).now (final events).now ∧
        Lasts expiration ((final pre).now + between) ((final events).now + delay) := by
  intro final
  constructor
  · intro hfound
    -- something has been stored under the names and not cleared since, or nothing is kept there
    by_cases hstored : ∃ pre o between post, LastStored key events pre o between post
    · obtain ⟨pre, o, between, post, h⟩ := hstored
      refine ⟨pre, o, between, post, h, ?_⟩
      obtain rfl := h.names
      obtain ⟨hlasts, hlasts', heq⟩ := ((keeps_run h ⟨fun _ => none, now⟩).retrieve_iff delay
        found).mp hfound
      exact ⟨heq, hlasts, hlasts'⟩
    · have hlacks : Lacks key (final events) := lacks_run ⟨rfl, rfl⟩
        fun pre o between post h => hstored ⟨pre, o, between, post, h⟩
      rw [hlacks.retrieve delay] at hfound
      exact absurd hfound (by simp)
  · rintro ⟨pre, o, between, post, h, heq, hlasts, hlasts'⟩
    obtain rfl := h.names
    exact ((keeps_run h ⟨fun _ => none, now⟩).retrieve_iff delay found).mpr ⟨hlasts, hlasts', heq⟩

end

end Memorycache

end PoolCache

end Designate
