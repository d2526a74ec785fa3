import Mathlib.Algebra.Group.Nat.Defs
import Designate.Producer.Shards

/-!
# Every shard but the last is looked after once

The slices of one size, laid one after the other, cover the partitions without overlap,
and the range of a slice says of a shard what the slice itself says: the numbers survive
their way through the text of the criterion. The partitions end at 4094, the shards at
4095.
-/

namespace Designate

namespace Text

/-! ## Texts without blanks -/

theorem dropWhile_blank_of_not_mem {cs : List Char} (h : ' ' ∉ cs) :
    cs.dropWhile (· == ' ') = cs := by
  cases cs with
  | nil => rfl
  | cons c cs =>
    have hc : (c == ' ') = false := by
      rw [beq_eq_false_iff_ne]
      intro e
      exact h (e ▸ List.mem_cons_self)
    rw [List.dropWhile_cons, hc]
    rfl

/-- There is nothing to strip from a text without blanks. -/
theorem strip_of_not_mem {cs : List Char} (h : ' ' ∉ cs) : strip cs = cs := by
  have hrev : ' ' ∉ cs.reverse := by
    rw [List.mem_reverse]
    exact h
  unfold strip
  rw [dropWhile_blank_of_not_mem h, dropWhile_blank_of_not_mem hrev, List.reverse_reverse]

/-! ## Hexadecimal digits -/

theorem hexDigit_of_mem_toDigits {n : Nat} {c : Char} (h : c ∈ Nat.toDigits 16 n) :
    ∃ d < 16, hexDigit c = some d := by
  induction n using Nat.strongRecOn with
  | ind n ih =>
    rcases Nat.lt_or_ge n 16 with hn | hn
    · rw [Nat.toDigits_of_lt_base hn, List.mem_singleton] at h
      exact ⟨n, hn, h ▸ hexDigit_digitChar hn⟩
    · rw [Nat.toDigits_of_base_le (by omega) hn, List.mem_append, List.mem_singleton] at h
      have hlast : n % 16 < 16 := Nat.mod_lt _ (by omega)
      rcases h with h | h
      · exact ih (n / 16) (by omega) h
      · exact ⟨n % 16, hlast, h ▸ hexDigit_digitChar hlast⟩

/-- A text of `k` digits reads as a number below `16 ^ k`. -/
theorem hexValue_lt {cs : List Char} (acc : Nat) (h : ∀ c ∈ cs, ∃ d < 16, hexDigit c = some d) :
    ∃ v, hexValue acc cs = some v ∧ v < (acc + 1) * 16 ^ cs.length := by
  induction cs generalizing acc with
  | nil => exact ⟨acc, rfl, by simp⟩
  | cons c cs ih =>
    obtain ⟨d, hd, hc⟩ := h c List.mem_cons_self
    obtain ⟨v, hv, hlt⟩ := ih (acc * 16 + d) fun c hc => h c (List.mem_cons_of_mem _ hc)
    refine ⟨v, by rw [hexValue, hc, Option.bind_some, hv], ?_⟩
    rw [List.length_cons, Nat.pow_succ]
    calc v < (acc * 16 + d + 1) * 16 ^ cs.length := hlt
      _ ≤ ((acc + 1) * 16) * 16 ^ cs.length := Nat.mul_le_mul_right _ (by omega)
      _ = (acc + 1) * (16 ^ cs.length * 16) := by rw [Nat.mul_assoc, Nat.mul_comm 16]

/-- The first digits of an identifier. -/
theorem take_uuidText {n k : Nat} (hk : k ≤ 8) :
    ((uuidText n).toList.take k) = ((Nat.toDigits 16 n).leftpad 32 '0').take k := by
  have hlen : k ≤ (((Nat.toDigits 16 n).leftpad 32 '0').take 8).length := by
    rw [List.length_take, List.length_leftpad]
    omega
  unfold uuidText
  simp only [String.toList_ofList]
  rw [List.take_append_of_le_length hlen, List.take_take, Nat.min_eq_left hk]

end Text

namespace Shards

/-- A zone has a shard, and it is no more than three hexadecimal digits. -/
theorem defaultShard_lt (id : Nat) : ∃ shard, defaultShard id = some shard ∧ shard < 4096 := by
  unfold defaultShard
  rw [Text.take_uuidText (by omega)]
  have hdigits : ∀ c ∈ ((Nat.toDigits 16 id).leftpad 32 '0').take 3,
      ∃ d < 16, Text.hexDigit c = some d := by
    intro c hc
    have hmem := List.mem_of_mem_take hc
    rw [List.leftpad, List.mem_append, List.mem_replicate] at hmem
    rcases hmem with ⟨-, rfl⟩ | hmem
    · exact ⟨0, by omega, by decide⟩
    · exact Text.hexDigit_of_mem_toDigits hmem
  obtain ⟨v, hv, hlt⟩ := Text.hexValue_lt 0 hdigits
  refine ⟨v, hv, Nat.lt_of_lt_of_le hlt ?_⟩
  have hlen : (((Nat.toDigits 16 id).leftpad 32 '0').take 3).length ≤ 3 := List.length_take_le _ _
  calc (0 + 1) * 16 ^ (((Nat.toDigits 16 id).leftpad 32 '0').take 3).length
      = 16 ^ (((Nat.toDigits 16 id).leftpad 32 '0').take 3).length := Nat.one_mul _
    _ ≤ 16 ^ 3 := Nat.pow_le_pow_right (by omega) hlen

/-! ## The range of a slice, and back from its text -/

theorem decimal_toString (n : Nat) : decimal (toString n) = some n := by
  have hlist : (toString n).toList = Nat.toDigits 10 n := Nat.toList_repr
  have hall : (Nat.toDigits 10 n).all Char.isDigit = true := by
    rw [List.all_eq_true]
    intro c hc
    exact Nat.isDigit_of_mem_toDigits (by omega) (by omega) hc
  unfold decimal
  rw [hlist, hall]
  have hne : (Nat.toDigits 10 n).isEmpty = false := by
    rw [List.isEmpty_eq_false_iff]
    exact Nat.toDigits_ne_nil
  rw [hne, Nat.ofDigitChars_ten_toDigits]
  rfl

/-- The storage reads the bounds back that `_filter_between` has written. -/
theorem betweenBounds_text (a b : Nat) :
    betweenBounds ("BETWEEN " ++ toString a ++ "," ++ toString b) =
      some (toString a, toString b) := by
  have hbegins : "BETWEEN ".toList = ['B', 'E', 'T', 'W', 'E', 'E', 'N', ' '] := rfl
  have hcomma : ",".toList = [','] := rfl
  have hlist : ("BETWEEN " ++ toString a ++ "," ++ toString b).toList =
      'B' :: 'E' :: 'T' :: 'W' :: 'E' :: 'E' :: 'N' :: ' ' ::
        ((toString a).toList ++ ',' :: (toString b).toList) := by
    rw [String.toList_append, String.toList_append, String.toList_append, hbegins, hcomma]
    simp
  have hblank : ∀ n : Nat, ' ' ∉ (toString n).toList := fun n => Text.not_mem_decimal (by decide)
  have hrest : ' ' ∉ (toString a).toList ++ ',' :: (toString b).toList := by
    rw [List.mem_append, List.mem_cons]
    rintro (h | h | h)
    · exact hblank a h
    · exact absurd h (by decide)
    · exact hblank b h
  -- no earlier branch takes the text
  have hpattern : ("BETWEEN " ++ toString a ++ "," ++ toString b).toList.contains '%' = false := by
    have hpercent : ∀ n : Nat, '%' ∉ Nat.toDigits 10 n := by
      intro n
      have h := Text.not_mem_decimal (n := n) (c := '%') (by decide)
      simpa using h
    rw [hlist]
    simp [hpercent]
  have hoperator : (["!", "<", ">"].any
      (Text.startsWith ("BETWEEN " ++ toString a ++ "," ++ toString b))) = false := by
    simp only [List.any_cons, List.any_nil, Text.startsWith, hlist]
    rfl
  have hbetween : Text.startsWith ("BETWEEN " ++ toString a ++ "," ++ toString b) "BETWEEN" =
      true := by
    simp only [Text.startsWith, hlist]
    rfl
  have hdrop : ('B' :: 'E' :: 'T' :: 'W' :: 'E' :: 'E' :: 'N' :: ' ' ::
      ((toString a).toList ++ ',' :: (toString b).toList)).dropWhile (· != ' ') =
      ' ' :: ((toString a).toList ++ ',' :: (toString b).toList) := rfl
  have hsplit : Text.splitChars ',' ((toString a).toList ++ ',' :: (toString b).toList) =
      [(toString a).toList, (toString b).toList] := by
    rw [Text.splitChars_append_sep (Text.not_mem_decimal (by decide)),
      Text.splitChars_of_not_mem (Text.not_mem_decimal (by decide))]
  unfold betweenBounds
  rw [hpattern, hoperator, hbetween, hlist, hdrop]
  simp only [Bool.or_self, Bool.false_eq_true, if_false, if_true]
  rw [Text.strip_of_not_mem hrest, hsplit]
  simp only [List.map_cons, List.map_nil, Text.strip_of_not_mem (hblank a),
    Text.strip_of_not_mem (hblank b), String.ofList_toList]

theorem between_toString (a b shard : Nat) :
    between (toString a, toString b) shard = true ↔ a ≤ shard ∧ shard ≤ b := by
  unfold between
  rw [decimal_toString, decimal_toString]
  simp

/-! ## The slices -/

/-- As many slices as there are members reach past the last partition. -/
theorem le_partitionSize_mul (c : Nat) {n : Nat} (hn : 0 < n) : c ≤ partitionSize c n * n := by
  unfold partitionSize
  have hdiv := Nat.div_add_mod (c + n - 1) n
  have hmod := Nat.mod_lt (c + n - 1) hn
  rw [Nat.mul_comm] at hdiv
  omega

/-- The slice at place `k`, and its range if it has one. -/
theorem myRange_slice (c size k : Nat) :
    myRange (((List.range c).drop (size * k)).take (size * k + size - size * k)) =
      if size * k < c ∧ 0 < size then some (size * k, min (size * k + size) c - 1) else none := by
  have hslice : ((List.range c).drop (size * k)).take (size * k + size - size * k) =
      List.range' (size * k) (min size (c - size * k)) := by
    rw [List.range_eq_range', List.drop_range', Nat.add_sub_cancel_left]
    rcases Nat.le_total (c - size * k) size with h | h
    · rw [List.take_range'_of_length_le h, Nat.min_eq_right h]
      simp
    · rw [List.take_range'_of_length_ge h, Nat.min_eq_left h]
      simp
  rw [hslice]
  unfold myRange
  rw [List.head?_range', List.getLast?_range']
  by_cases h : size * k < c ∧ 0 < size
  · have hne : min size (c - size * k) ≠ 0 := by omega
    rw [if_neg hne, if_neg hne, if_pos h]
    show some (size * k, size * k + min size (c - size * k) - 1) = _
    have hlast : size * k + min size (c - size * k) = min (size * k + size) c := by omega
    rw [hlast]
  · have he : min size (c - size * k) = 0 := by omega
    rw [if_pos he, if_neg h]
    rfl

section

variable {members : List String} {me : String} {id shard k : Nat}

/-- The slice of the producer at place `k`, written out. -/
theorem updatePartitions_place (hk : (members.mergeSort fun a b => decide (a ≤ b)).idxOf? me = some k) :
    updatePartitions members me partitions = some
      ((partitions.drop (partitionSize 4095 members.length * k)).take
        (partitionSize 4095 members.length * k + partitionSize 4095 members.length -
          partitionSize 4095 members.length * k)) := by
  have hlen : (members.mergeSort fun a b => decide (a ≤ b)).length = members.length :=
    (List.mergeSort_perm members _).length_eq
  have hne : (members.mergeSort fun a b => decide (a ≤ b)).isEmpty = false := by
    cases hs : members.mergeSort fun a b => decide (a ≤ b) with
    | nil => rw [hs] at hk; exact absurd hk (by simp)
    | cons m ms => rfl
  have hparts : partitions.length = 4095 := List.length_range
  unfold updatePartitions partition
  rw [hne, hk, hlen, hparts]
  rfl

/-- **The producer at place `k` handles the shards of the slice at place `k`.** -/
theorem handles_iff (hshard : defaultShard id = some shard)
    (hk : (members.mergeSort fun a b => decide (a ≤ b)).idxOf? me = some k) :
    handles members me id = true ↔
      partitionSize 4095 members.length * k ≤ shard ∧
        shard < partitionSize 4095 members.length * k + partitionSize 4095 members.length ∧
        shard < 4095 := by
  have hrange := myRange_slice 4095 (partitionSize 4095 members.length) k
  unfold handles
  rw [updatePartitions_place hk, hshard]
  generalize partitionSize 4095 members.length = size at hrange ⊢
  simp only [Option.bind_eq_bind, Option.bind_some, filterBetween, partitions, hrange]
  by_cases h : size * k < 4095 ∧ 0 < size
  · rw [if_pos h]
    simp only [Option.map_some, Option.bind_some, betweenBounds_text]
    show between (_, _) shard = true ↔ _
    rw [between_toString]
    omega
  · rw [if_neg h]
    -- an empty slice: the tasks of this producer raise
    refine iff_of_false (by simp) ?_
    omega

/--
**A zone is handled by exactly one of the producers exactly if its identifier does not
begin with `fff`.** Whatever the members are, as long as there is one and their names are
distinct.
-/
theorem handled_once_iff (hne : members ≠ []) (hnodup : members.Nodup) (id : Nat) :
    (∃! me, me ∈ members ∧ handles members me id = true) ↔ defaultShard id ≠ some 0xfff := by
  obtain ⟨shard, hshard, hlt⟩ := defaultShard_lt id
  have hperm := List.mergeSort_perm members fun a b => decide (a ≤ b)
  have hpos : 0 < members.length := List.length_pos_iff.mpr hne
  have hcover : 4095 ≤ partitionSize 4095 members.length * members.length :=
    le_partitionSize_mul 4095 hpos
  have hplace : ∀ me ∈ members, ∃ k,
      (members.mergeSort fun a b => decide (a ≤ b)).idxOf? me = some k := by
    intro me hme
    exact Option.isSome_iff_exists.mp (List.isSome_idxOf?.mpr (hperm.mem_iff.mpr hme))
  rw [hshard]
  constructor
  · rintro ⟨me, ⟨hme, hhandles⟩, -⟩ he
    obtain ⟨k, hk⟩ := hplace me hme
    have hbounds := (handles_iff hshard hk).mp hhandles
    have := Option.some.inj he
    omega
  · intro hlast
    have hshard' : shard < 4095 := by
      have : shard ≠ 0xfff := fun e => hlast (congrArg some e)
      omega
    -- the slice that the shard falls into
    have hsize : 0 < partitionSize 4095 members.length := by
      rcases Nat.eq_zero_or_pos (partitionSize 4095 members.length) with h | h
      · rw [h] at hcover; omega
      · exact h
    have hk : shard / partitionSize 4095 members.length <
        (members.mergeSort fun a b => decide (a ≤ b)).length := by
      rw [hperm.length_eq, Nat.div_lt_iff_lt_mul hsize, Nat.mul_comm]
      omega
    have hlow := Nat.div_mul_le_self shard (partitionSize 4095 members.length)
    have hhigh := Nat.lt_div_mul_add (a := shard) hsize
    have hsorted : (members.mergeSort fun a b => decide (a ≤ b)).Nodup := hperm.nodup_iff.mpr hnodup
    generalize hs : (members.mergeSort fun a b => decide (a ≤ b)) = sorted at *
    have hidx : (members.mergeSort fun a b => decide (a ≤ b)).idxOf?
        sorted[shard / partitionSize 4095 members.length] =
        some (shard / partitionSize 4095 members.length) := by
      rw [hs, List.idxOf?_eq_some_iff]
      refine ⟨hk, rfl, fun j hj he => ?_⟩
      have := (hsorted.getElem_inj_iff).mp he
      omega
    refine ⟨sorted[shard / partitionSize 4095 members.length], ⟨?_, ?_⟩, ?_⟩
    · exact hperm.mem_iff.mp (List.getElem_mem hk)
    · rw [handles_iff hshard hidx, Nat.mul_comm]
      exact ⟨hlow, hhigh, hshard'⟩
    · rintro other ⟨hother, hhandles⟩
      obtain ⟨j, hj⟩ := hplace other hother
      obtain ⟨hle, hltj, -⟩ := (handles_iff hshard (hs.symm ▸ hj)).mp hhandles
      -- a shard falls into one slice only
      have hplacej : shard / partitionSize 4095 members.length = j :=
        Nat.div_eq_of_lt_le (by rw [Nat.mul_comm]; exact hle)
          (by rw [Nat.add_mul, Nat.one_mul, Nat.mul_comm]; exact hltj)
      obtain ⟨hjlt, hget, -⟩ := List.idxOf?_eq_some_iff.mp hj
      subst hplacej
      exact hget.symm

end

theorem handled_once_iff_sample :
    (∃! me, me ∈ ["a", "b", "c"] ∧ handles ["a", "b", "c"] me 0 = true) :=
  (handled_once_iff (by decide) (by decide) 0).mpr (by decide)

/-- No producer handles the last shard, however many there are. -/
theorem last_shard_unhandled :
    ¬ ∃! me, me ∈ ["a"] ∧ handles ["a"] me 0xfff00000000000000000000000000000 = true := by
  rintro ⟨me, ⟨hme, hhandles⟩, -⟩
  obtain rfl := List.mem_singleton.mp hme
  exact absurd hhandles (by decide +kernel)

end Shards

end Designate
