import Designate.Proof.Shards

/-!
# The slices of a partitioner

Slices of one size lie one behind the other and cover the list. Their size is a quotient rounded
up, so a list may end before the last members have had a slice: how many members that happens
to depends on what the quotient leaves over.
-/

namespace Designate

namespace Shards

variable {α : Type}

/-! ## What the slices are to be -/

/-- The slices of all members, in the order of the list. -/
structure Law (members : List String) (partitions : List α) (slices : List (List α)) : Prop where
  assigned : members.map (fun me => partition members me partitions) = slices.map some
  whole : slices.flatten = partitions
  /-- A slice is what follows the ones before it. -/
  contiguous : ∀ k (hk : k < slices.length), slices[k] =
    (partitions.drop (slices.take k).flatten.length).take slices[k].length
  disjoint : partitions.Nodup → slices.Pairwise List.Disjoint
  /-- `_my_range` takes the first and the last element. -/
  nonempty : members.length ≤ partitions.length → ∀ slice ∈ slices, slice ≠ []

def PartitionLaw (members : List String) (partitions : List α) : Prop :=
  ∃ slices, Law members partitions slices

/-! ## Slices of one size -/

/-- The slices laid end to end. -/
theorem flatten_slices (l : List α) (size n : Nat) :
    ((List.range n).map fun k => (l.drop (size * k)).take size).flatten = l.take (size * n) := by
  induction n with
  | zero => simp
  | succ n ih =>
    rw [List.range_succ, List.map_append, List.flatten_append, ih, List.map_singleton,
      List.flatten_singleton, Nat.mul_succ, List.take_add]

/-- A slice begins where the ones before it end. -/
theorem slice_place {l : List α} {size k : Nat} :
    (l.drop (l.take (size * k)).length).take ((l.drop (size * k)).take size).length =
      (l.drop (size * k)).take size := by
  rw [List.length_take, List.length_take, List.length_drop]
  rcases Nat.le_total (size * k) l.length with h | h
  · rw [Nat.min_eq_left h, ← List.length_drop, List.take_eq_take_iff, List.length_drop]
    omega
  · rw [Nat.min_eq_right h, List.drop_length, List.drop_eq_nil_of_le h, List.take_nil, List.take_nil]

theorem slice_ne_nil {l : List α} {size k : Nat} (hsize : 0 < size) :
    (l.drop (size * k)).take size ≠ [] ↔ size * k < l.length := by
  rw [← List.length_pos_iff, List.length_take, List.length_drop]
  omega

/-- No two slices of a list of distinct elements share one. -/
theorem pairwise_disjoint_of_flatten {ss : List (List α)} (h : ss.flatten.Nodup) :
    ss.Pairwise List.Disjoint :=
  (List.nodup_flatten.mp h).2

/-! ## The size -/

/-- The quotient, rounded up. -/
theorem partitionSize_eq (c : Nat) {n : Nat} (hn : 0 < n) :
    partitionSize c n = if c % n = 0 then c / n else c / n + 1 := by
  have hdiv := Nat.div_add_mod c n
  have hmod := Nat.mod_lt c hn
  unfold partitionSize
  split
  · rename_i h
    refine Nat.div_eq_of_lt_le ?_ ?_
    · rw [Nat.mul_comm]
      omega
    · rw [Nat.succ_mul, Nat.mul_comm]
      omega
  · refine Nat.div_eq_of_lt_le ?_ ?_
    · rw [Nat.succ_mul, Nat.mul_comm]
      omega
    · rw [Nat.succ_mul, Nat.succ_mul, Nat.mul_comm]
      omega

/-- **When the last of as many slices as members has something in it.** -/
theorem last_slice_iff {c n : Nat} (hn : 0 < n) (hle : n ≤ c) :
    partitionSize c n * (n - 1) < c ↔ c % n = 0 ∨ n ≤ c / n + c % n := by
  have hdiv := Nat.div_add_mod c n
  have hmod := Nat.mod_lt c hn
  have hquot : 0 < c / n := Nat.div_pos hle hn
  have hpred : ∀ q, q * (n - 1) + q = n * q := by
    intro q
    rw [← Nat.mul_succ, Nat.succ_eq_add_one, Nat.sub_add_cancel hn, Nat.mul_comm]
  rw [partitionSize_eq c hn]
  split
  · rename_i h
    have := hpred (c / n)
    exact iff_of_true (by omega) (Or.inl h)
  · rename_i h
    have hsucc := hpred (c / n + 1)
    rw [Nat.mul_succ] at hsucc
    omega

/-! ## The law -/

section

variable {members : List String} {partitions : List α}

/-- The slices by the places of the members. -/
def slicesOf (members : List String) (partitions : List α) : List (List α) :=
  (List.range members.length).map fun k =>
    (partitions.drop (partitionSize partitions.length members.length * k)).take
      (partitionSize partitions.length members.length)

theorem partition_getElem (hnodup : members.Nodup) {k : Nat} (hk : k < members.length) :
    partition members members[k] partitions =
      some ((partitions.drop (partitionSize partitions.length members.length * k)).take
        (partitionSize partitions.length members.length)) := by
  have hne : members.isEmpty = false := by
    rw [List.isEmpty_eq_false_iff]
    exact List.ne_nil_of_length_pos (Nat.zero_lt_of_lt hk)
  have hplace : members.idxOf? members[k] = some k := by
    rw [List.idxOf?_eq_some_iff]
    refine ⟨hk, rfl, fun j hj he => ?_⟩
    have := hnodup.getElem_inj_iff.mp he
    omega
  unfold partition
  rw [hne, hplace]
  simp only [Bool.false_eq_true, if_false, Option.bind_eq_bind, Option.bind_some,
    Nat.add_sub_cancel_left]
  rfl

theorem assigned_slicesOf (hnodup : members.Nodup) :
    members.map (fun me => partition members me partitions) =
      (slicesOf members partitions).map some := by
  refine List.ext_getElem (by simp [slicesOf]) fun k hk _ => ?_
  rw [List.length_map] at hk
  rw [List.getElem_map, partition_getElem hnodup hk]
  simp [slicesOf]

theorem flatten_slicesOf (hne : members ≠ []) : (slicesOf members partitions).flatten = partitions := by
  unfold slicesOf
  rw [flatten_slices, List.take_of_length_le]
  exact le_partitionSize_mul partitions.length (List.length_pos_iff.mpr hne)

theorem slicesOf_contiguous {k : Nat} (hk : k < (slicesOf members partitions).length) :
    (slicesOf members partitions)[k] =
      (partitions.drop ((slicesOf members partitions).take k).flatten.length).take
        (slicesOf members partitions)[k].length := by
  have hmembers : k < members.length := by simpa [slicesOf] using hk
  have hbefore : ((slicesOf members partitions).take k).flatten =
      partitions.take (partitionSize partitions.length members.length * k) := by
    unfold slicesOf
    rw [← List.map_take, List.take_range, Nat.min_eq_left hmembers.le, flatten_slices]
  have hslice : (slicesOf members partitions)[k] =
      (partitions.drop (partitionSize partitions.length members.length * k)).take
        (partitionSize partitions.length members.length) := by
    simp [slicesOf]
  rw [hslice, hbefore, slice_place]

/-- All slices have something in them when the last one has. -/
theorem slicesOf_nonempty_iff (hne : members ≠ []) (hle : members.length ≤ partitions.length) :
    (∀ slice ∈ slicesOf members partitions, slice ≠ []) ↔
      partitionSize partitions.length members.length * (members.length - 1) < partitions.length := by
  have hpos : 0 < members.length := List.length_pos_iff.mpr hne
  have hsize : 0 < partitionSize partitions.length members.length := by
    refine Nat.pos_of_ne_zero fun h => ?_
    have := le_partitionSize_mul partitions.length hpos
    rw [h] at this
    omega
  have hlast : members.length - 1 < members.length := Nat.sub_lt hpos Nat.one_pos
  unfold slicesOf
  rw [List.forall_mem_map]
  constructor
  · intro h
    exact (slice_ne_nil hsize).mp (h _ (List.mem_range.mpr hlast))
  · intro h k hk
    rw [List.mem_range] at hk
    have hbelow := Nat.mul_le_mul_left (partitionSize partitions.length members.length)
      (Nat.le_sub_one_of_lt hk)
    exact (slice_ne_nil hsize).mpr (Nat.lt_of_le_of_lt hbelow h)

/--
**When the slices of a group are what they are to be.** For distinct members, they are exactly if
the partitions are fewer than the members, or go up into them, or the quotient and what it
leaves over are together no fewer than the members.
-/
theorem partition_law_iff (hne : members ≠ []) (hnodup : members.Nodup) (partitions : List α) :
    PartitionLaw members partitions ↔
      (members.length ≤ partitions.length → partitions.length % members.length = 0 ∨
        members.length ≤ partitions.length / members.length + partitions.length % members.length) := by
  have hpos : 0 < members.length := List.length_pos_iff.mpr hne
  constructor
  · intro hlaw hle
    obtain ⟨slices, hlaw⟩ := hlaw
    have hslices : slices = slicesOf members partitions :=
      List.map_injective_iff.mpr (Option.some_injective _)
        (hlaw.assigned.symm.trans (assigned_slicesOf hnodup))
    rw [← last_slice_iff hpos hle, ← slicesOf_nonempty_iff hne hle, ← hslices]
    exact hlaw.nonempty hle
  · intro h
    refine ⟨slicesOf members partitions, assigned_slicesOf hnodup, flatten_slicesOf hne,
      fun k hk => slicesOf_contiguous hk, fun hpartitions => ?_, fun hle => ?_⟩
    · exact pairwise_disjoint_of_flatten ((flatten_slicesOf hne).symm ▸ hpartitions)
    · rw [slicesOf_nonempty_iff hne hle, last_slice_iff hpos hle]
      exact h hle

end

theorem partition_law_iff_sample : PartitionLaw ["a", "b", "c"] (List.range 11) :=
  (partition_law_iff (by decide) (by decide) (List.range 11)).mpr (by decide)

/-- Five partitions in slices of two: the fourth member has none. -/
theorem slice_empty :
    ¬ ∀ (members : List String) (partitions : List Nat), members ≠ [] → members.Nodup →
      PartitionLaw members partitions := by
  intro h
  obtain ⟨slices, hlaw⟩ := h ["a", "b", "c", "d"] (List.range 5) (by decide) (by decide)
  have hassigned : ["a", "b", "c", "d"].map
      (fun me => partition ["a", "b", "c", "d"] me (List.range 5)) =
        [[0, 1], [2, 3], [4], []].map some := by decide
  have hslices : slices = [[0, 1], [2, 3], [4], []] :=
    List.map_injective_iff.mpr (Option.some_injective _) (hlaw.assigned.symm.trans hassigned)
  exact hlaw.nonempty (by decide) [] (by rw [hslices]; decide) rfl

end Shards

end Designate
