import Designate.Proof.Formats
import Designate.Proof.Labels
import Designate.Proof.Requests

/-!
# Zones below a zone, by a pattern

`_is_superzone` asks for the names that are like `%.` and the name of the zone. A name may have
underscores, and to `LIKE` an underscore is any one character: with one in it, the search finds
zones below other names too. So it does where `LIKE` takes a letter of either case for the same,
as it does by default in both databases. Nothing else in a name means anything to it. Only where
no zone can be below, since names have at most 254 characters, does neither do any harm.
-/

namespace Designate

open Exec

/-- A character of a name that `LIKE` tells from all others is taken for itself only. -/
theorem Conf.eq_of_fold_eq {conf : Conf} {a b : Char} (ha : conf.mindsCase = true ∨ a.isAlpha = false)
    (h : conf.fold b = conf.fold a) : b = a := by
  unfold Conf.fold at h
  split at h
  · exact h
  · next hminds => exact Text.eq_of_toLower_eq (ha.resolve_left hminds) h

namespace Text

variable {dialect : Dialect} {fold : Char → Char}

/-- A character of a pattern without a percent sign, next to the one it stands for. -/
def Fits (fold : Char → Char) (p c : Char) : Prop := p = '_' ∨ fold p = fold c

/-- A pattern without a percent sign has the length of what it fits. -/
theorem accepts_iff_fits {ps : List Char} (hpercent : '%' ∉ ps) (s : List Char) :
    Glob.accepts ((ps.map likePart).map (Glob.Part.map fold)) (s.map fold) = true ↔
      List.Forall₂ (Fits fold) ps s := by
  induction ps generalizing s with
  | nil =>
    cases s with
    | nil => exact iff_of_true rfl .nil
    | cons c s => exact iff_of_false Bool.false_ne_true (fun h => nomatch h)
  | cons p ps ih =>
    rw [List.mem_cons, not_or] at hpercent
    -- only a percent sign takes more or less than one character
    have hpart : p ≠ '%' := Ne.symm hpercent.1
    cases s with
    | nil =>
      refine iff_of_false ?_ (fun h => nomatch h)
      rw [List.map_cons, List.map_cons, likePart, if_neg hpart]
      split <;> exact Bool.false_ne_true
    | cons c s =>
      rw [List.forall₂_cons, ← ih hpercent.2, List.map_cons, List.map_cons, likePart, if_neg hpart]
      by_cases hblank : p = '_'
      · rw [if_pos hblank]
        exact ⟨fun h => ⟨.inl hblank, h⟩, fun h => h.2⟩
      · rw [if_neg hblank, List.map_cons, Glob.Part.map, Glob.accepts, Bool.and_eq_true,
          decide_eq_true_iff]
        refine and_congr_left fun _ => ?_
        exact ⟨.inr, fun h => h.resolve_left hblank⟩

/-- After a percent sign the rest of the pattern fits some end of the text. -/
theorem like_percent {ps : List Char} (hpercent : '%' ∉ ps) (hescape : '\\' ∉ ps) (s : List Char) :
    like dialect fold ('%' :: ps) s = true ↔ ∃ t, t <:+ s ∧ List.Forall₂ (Fits fold) ps t := by
  rw [like, likeParts, likeParts_eq_map fun _ => hescape, List.map_cons, Glob.Part.map,
    Glob.accepts_gap_map, List.any_eq_true]
  constructor
  · rintro ⟨t, ht, hlike⟩
    exact ⟨t, (List.mem_tails t s).mp ht, (accepts_iff_fits hpercent t).mp hlike⟩
  · rintro ⟨t, ht, hfits⟩
    exact ⟨t, (List.mem_tails t s).mpr ht, (accepts_iff_fits hpercent t).mpr hfits⟩

theorem fits_refl (ps : List Char) : List.Forall₂ (Fits fold) ps ps :=
  List.forall₂_same.mpr fun _ _ => .inr rfl

/-- A pattern each character of which stands for itself only fits itself only. -/
theorem eq_of_fits {ps s : List Char} (hown : ∀ p ∈ ps, ∀ c, Fits fold p c → p = c)
    (h : List.Forall₂ (Fits fold) ps s) : ps = s := by
  induction h with
  | nil => rfl
  | @cons p c ps s hfit _ ih =>
    rw [hown p List.mem_cons_self c hfit, ih fun p hp => hown p (List.mem_cons_of_mem _ hp)]

end Text

/-! ## The search -/

/-- The live zones of the pool below the name. -/
def descendants (name : String) (poolId : Nat) (db : Db) : List Zone :=
  db.zones.filter fun z => decide (Below z.name name) && z.poolId == poolId && !z.deleted

/-- All names of zones have the format of one. -/
def Db.Admitted (db : Db) : Prop := ∀ z ∈ db.zones, Format.isZonename z.name = true

/-- `create_zone` of a zone of this name minds the zones below it, and no others. -/
structure MindsDescendants (conf : Conf) (name : String) : Prop where
  search : ∀ (db : Db) (poolId : Nat), db.Admitted →
    isSuperzone conf name poolId db = descendants name poolId db
  refused : ∀ (ctx : Context) (zone : NewZone) (w w' : World), zone.name = name →
    w.db.Admitted → createZoneChecks ctx conf zone w = (.error .IllegalParentZone, w') →
    ∃ z ∈ descendants name conf.poolId w.db, z.tenantId ≠ zone.tenantId
  adopted : ∀ (ctx : Context) (zone : NewZone) (parent : Option Nat)
    (subzones : List Zone) (w w' : World), zone.name = name → w.db.Admitted →
    createZoneChecks ctx conf zone w = (.ok (parent, subzones), w') →
    ∀ z ∈ subzones, z ∈ descendants name conf.poolId w.db

/-- To `LIKE` each character of the name stands for itself only. -/
def Literal (conf : Conf) (name : String) : Prop :=
  '_' ∉ name.toList ∧ (conf.mindsCase = true ∨ ∀ c ∈ name.toList, c.isAlpha = false)

instance (conf : Conf) (name : String) : Decidable (Literal conf name) :=
  inferInstanceAs (Decidable (_ ∧ _))

variable {conf : Conf} {name : String}

theorem like_superzone_iff (hname : Format.isZonename name = true) (s : List Char) :
    conf.like ('%' :: '.' :: name.toList) s = true ↔
      ∃ t, t <:+ s ∧ List.Forall₂ (Text.Fits conf.fold) ('.' :: name.toList) t := by
  refine Text.like_percent ?_ ?_ s
  · rw [List.mem_cons, not_or]
    exact ⟨by decide, Format.not_mem_zonename hname (by decide) (by decide)⟩
  · rw [List.mem_cons, not_or]
    exact ⟨by decide, Format.not_mem_zonename hname (by decide) (by decide)⟩

/-- A dot stands for itself, whatever the database. -/
theorem dot_of_fits {c : Char} (h : Text.Fits conf.fold '.' c) : c = '.' := by
  rcases h with heq | heq
  · exact absurd heq (by decide)
  · exact Conf.eq_of_fold_eq (.inr (by decide)) heq.symm

theorem Literal.own (h : Literal conf name) {p : Char} (hp : p ∈ '.' :: name.toList) (c : Char)
    (hfits : Text.Fits conf.fold p c) : p = c := by
  rcases List.mem_cons.mp hp with rfl | hp
  · exact (dot_of_fits hfits).symm
  · rcases hfits with heq | heq
    · exact absurd (heq ▸ hp) h.1
    · exact (Conf.eq_of_fold_eq (h.2.imp_right fun hletters => hletters p hp) heq.symm).symm

/-- Where no name that fits is another one, the search finds what is below. -/
theorem like_iff_below (hname : Format.isZonename name = true)
    (hexact : Literal conf name ∨ 252 < name.toList.length) {z : String}
    (hz : Format.isZonename z = true) :
    conf.like ('%' :: '.' :: name.toList) z.toList = true ↔ Below z name := by
  rw [like_superzone_iff hname, below_iff]
  constructor
  · rintro ⟨t, ht, hfits⟩
    rcases hexact with hliteral | hlong
    · have heq : '.' :: name.toList = t := Text.eq_of_fits (fun p hp => hliteral.own hp) hfits
      exact heq ▸ ht
    · -- a dot and the name leave no room for a label in front
      exfalso
      obtain ⟨front, hfront⟩ := ht
      have hlen := hfits.length_eq
      have hshort := (Format.isZonename_iff.mp hz).1
      have htotal := congrArg List.length hfront
      rw [List.length_append] at htotal
      rw [List.length_cons] at hlen
      obtain rfl : front = [] := List.length_eq_zero_iff.mp (by omega)
      rw [List.nil_append] at hfront
      cases hfits with
      | @cons _ c _ cs hfit _ =>
        obtain rfl := dot_of_fits hfit
        exact Format.isZonename_head hz cs hfront.symm
  · intro h
    exact ⟨_, h, Text.fits_refl _⟩

theorem isSuperzone_exact (hname : Format.isZonename name = true)
    (hexact : Literal conf name ∨ 252 < name.toList.length) {db : Db} (hdb : db.Admitted)
    (poolId : Nat) : isSuperzone conf name poolId db = descendants name poolId db := by
  unfold isSuperzone descendants
  refine List.filter_congr fun z hz => ?_
  have hlike : conf.like ('%' :: '.' :: name.toList) z.name.toList =
      decide (Below z.name name) := by
    rw [Bool.eq_iff_iff, decide_eq_true_iff]
    exact like_iff_below hname hexact (hdb z hz)
  rw [hlike]

/-! ## Names that only look like ones below -/

/-- A character of the name that stands for another one, too, which may be in its place. -/
structure Ambiguous (conf : Conf) (name : String) (a b : Char) : Prop where
  mem : a ∈ name.toList
  ne : b ≠ a
  fits : Text.Fits conf.fold a b
  exchange : Format.Exchange a b

/-- A name that is not literal has such a character: an underscore, or a letter. -/
theorem exists_ambiguous (h : ¬ Literal conf name) : ∃ a b, Ambiguous conf name a b := by
  by_cases hblank : '_' ∈ name.toList
  · exact ⟨'_', 'a', hblank, by decide, .inl rfl, by decide, by decide, by decide, by decide⟩
  · have hletter : ¬ (conf.mindsCase = true ∨ ∀ c ∈ name.toList, c.isAlpha = false) :=
      fun hor => h ⟨hblank, hor⟩
    rw [not_or] at hletter
    obtain ⟨hminds, hletter⟩ := hletter
    push Not at hletter
    obtain ⟨a, ha, halpha⟩ := hletter
    have halpha : a.isAlpha = true := Bool.eq_true_of_not_eq_false halpha
    obtain ⟨b, hne, hsame, hb⟩ := Text.exists_otherCase halpha
    have hlabel : ∀ c : Char, c.isAlpha = true → Format.labelChar c = true ∧ c ≠ '-' := by
      intro c hc
      refine ⟨?_, ?_⟩
      · unfold Format.labelChar Char.isAlphanum
        rw [hc]
        rfl
      · rintro rfl
        exact absurd hc (by decide)
    refine ⟨a, b, ha, hne, .inr ?_, ⟨(hlabel a halpha).1, (hlabel b hb).1, (hlabel a halpha).2,
      (hlabel b hb).2⟩⟩
    unfold Conf.fold
    rw [if_neg hminds, hsame]

/-- The pattern fits a name that is below another one. -/
theorem Ambiguous.like {a b : Char} (h : Ambiguous conf name a b)
    (hname : Format.isZonename name = true) :
    conf.like ('%' :: '.' :: name.toList)
        ('a' :: '.' :: name.toList.map (Format.instead a b)) = true ∧
      ¬ '.' :: name.toList <:+ 'a' :: '.' :: name.toList.map (Format.instead a b) := by
  constructor
  · refine (like_superzone_iff hname _).mpr ⟨_, List.suffix_cons 'a' _, ?_⟩
    refine .cons (.inr rfl) ?_
    rw [List.forall₂_map_right_iff, List.forall₂_same]
    intro c _
    unfold Format.instead
    split
    · next hc => exact hc ▸ h.fits
    · exact .inr rfl
  · intro hsuffix
    have heq := List.IsSuffix.eq_of_length
      (List.suffix_of_suffix_length_le hsuffix (List.suffix_cons 'a' _) (by simp)) (by simp)
    have hmem := h.mem
    rw [(List.cons.inj heq).2] at hmem
    obtain ⟨c, -, hc⟩ := List.mem_map.mp hmem
    unfold Format.instead at hc
    split at hc
    · exact h.ne hc
    · next hne => exact hne hc

/-! ## The checks of `create_zone` -/

/-- Only the zones that are found below make `create_zone` refuse to be their parent. -/
theorem createZoneChecks_refused {ctx : Context} {conf : Conf} {zone : NewZone} {w w' : World}
    (h : createZoneChecks ctx conf zone w = (.error .IllegalParentZone, w')) :
    ∃ z ∈ isSuperzone conf zone.name conf.poolId w.db, z.tenantId ≠ zone.tenantId := by
  rcases bind_eq_error.mp h with h | ⟨_, w₁, h₁, h⟩
  -- the checks before it have errors of their own
  · have hquota : enforceZoneQuota ctx conf zone.tenantId w.db = .error .IllegalParentZone :=
      congrArg Prod.fst h
    unfold enforceZoneQuota limitCheck at hquota
    split at hquota <;> exact absurd hquota (by simp)
  obtain rfl : w = w₁ := congrArg Prod.snd h₁
  rcases bind_eq_error.mp h with h | ⟨_, w₁, h₁, h⟩
  · have hvalid : isValidZoneName conf zone.name = .error .IllegalParentZone := congrArg Prod.fst h
    unfold isValidZoneName at hvalid
    repeat' split at hvalid
    all_goals exact absurd hvalid (by simp)
  obtain rfl : w = w₁ := congrArg Prod.snd h₁
  rcases bind_eq_error.mp h with h | ⟨_, w₁, h₁, h⟩
  · have httl := congrArg Prod.fst h
    simp only [check, Exec.read_apply] at httl
    unfold isValidTtl at httl
    repeat' split at httl
    all_goals exact absurd httl (by simp)
  obtain rfl : w = w₁ := congrArg Prod.snd h₁
  rcases bind_eq_error.mp h with h | ⟨_, w₁, h₁, h⟩
  · have hparent : parentZoneId zone.name zone.tenantId conf.poolId w.db =
        .error .IllegalParentZone := congrArg Prod.fst h
    unfold parentZoneId at hparent
    repeat' split at hparent
    all_goals exact absurd hparent (by simp)
  obtain rfl : w = w₁ := congrArg Prod.snd h₁
  rcases bind_eq_error.mp h with h | ⟨subzones, w₁, h₁, h⟩
  · exact absurd (congrArg Prod.fst h) (by simp)
  obtain ⟨hsubzones, rfl⟩ := Prod.mk.inj h₁
  obtain rfl := Except.ok.inj hsubzones
  rcases bind_eq_error.mp h with h | ⟨_, w₁, h₁, h⟩
  · cases hany : (isSuperzone conf zone.name conf.poolId w.db).any
        fun z => z.tenantId ≠ zone.tenantId with
    | false => rw [hany] at h; exact absurd (congrArg Prod.fst h) (by simp)
    | true =>
      obtain ⟨z, hz, hne⟩ := List.any_eq_true.mp hany
      exact ⟨z, hz, of_decide_eq_true hne⟩
  · rcases bind_eq_error.mp h with h | ⟨_, w₂, _, h⟩
    · cases hempty : conf.poolNsRecords.isEmpty with
      | false => rw [hempty] at h; exact absurd (congrArg Prod.fst h) (by simp)
      | true => rw [hempty] at h; exact absurd (congrArg Prod.fst h) (by simp)
    · exact absurd (congrArg Prod.fst h) (by simp)

/--
**The search for zones below is exact for the names that are literal to `LIKE`**: those without an
underscore, and unless it minds the case, without a letter. So it is for those that are too long to
have a zone below them. For every other name there is a zone elsewhere that it takes for one below.
-/
theorem mindsDescendants_iff (conf : Conf) (hname : Format.isZonename name = true) :
    MindsDescendants conf name ↔ Literal conf name ∨ 252 < name.toList.length := by
  constructor
  · intro h
    by_contra hnot
    rw [not_or, not_lt] at hnot
    obtain ⟨hliteral, hshort⟩ := hnot
    -- a zone `a.` in front of the name, but for one character
    obtain ⟨a, b, hab⟩ := exists_ambiguous hliteral
    obtain ⟨hlike, hbelow⟩ := hab.like hname
    let z : Zone :=
      { id := 0, tenantId := none
        name := String.ofList ('a' :: '.' :: name.toList.map (Format.instead a b))
        type := .PRIMARY, ttl := 0, serial := 1, action := .NONE, status := .ACTIVE, poolId := 0
        viewId := none, parentZoneId := none, deleted := false }
    have hadmitted : Db.Admitted { zones := [z] } := by
      intro z' hz'
      rw [List.mem_singleton.mp hz']
      exact hab.exchange.isZonename hname hshort
    have hsearch := h.search { zones := [z] } 0 hadmitted
    have hfound : z ∈ isSuperzone conf name 0 { zones := [z] } := by
      refine List.mem_filter.mpr ⟨List.mem_cons_self, ?_⟩
      simp only [z, String.toList_ofList, hlike]
      rfl
    rw [hsearch] at hfound
    have hbelow' := (List.mem_filter.mp hfound).2
    simp only [Bool.and_eq_true, decide_eq_true_iff] at hbelow'
    have := below_iff.mp hbelow'.1.1
    simp only [z, String.toList_ofList] at this
    exact hbelow this
  · intro hexact
    refine ⟨fun db poolId hdb => isSuperzone_exact hname hexact hdb poolId, ?_, ?_⟩
    · rintro ctx zone w w' rfl hdb h
      obtain ⟨z, hz, hne⟩ := createZoneChecks_refused h
      exact ⟨z, isSuperzone_exact hname hexact hdb conf.poolId ▸ hz, hne⟩
    · rintro ctx zone parent subzones w w' rfl hdb h z hz
      rw [createZoneChecks_subzones h] at hz
      exact isSuperzone_exact hname hexact hdb conf.poolId ▸ hz

theorem mindsDescendants_sample : MindsDescendants {} "example.com." :=
  (mindsDescendants_iff {} (by decide)).mpr (.inl (by decide))

/-- A zone of another tenant, of a name that only looks like one below. -/
def misleading (name : String) : World :=
  { db := { zones := [{ id := 0, tenantId := some "other", name, type := .PRIMARY
                        ttl := 3600, serial := 1, action := .NONE, status := .ACTIVE, poolId := 0
                        viewId := some 0, parentZoneId := none, deleted := false }] } }

/-- What `create_zone` says to a tenant where another one has a zone. -/
def creating (conf : Conf) (other name : String) : Except Exc Unit :=
  ((createZoneChecks { tenant := "t" } { conf with poolNsRecords := ["ns1."] }
    { name, tenantId := some "t", type := .PRIMARY, ttl := none, serial := none
      viewId := some 0 } (misleading other)).1).map fun _ => ()

/--
A zone with a letter where the new one has an underscore is taken for one below, and so is, where
`LIKE` does not mind the case, a zone below the same name in capital letters.
-/
theorem superzone_misled :
    (misleading "x.axb.com.").db.Admitted ∧ Format.isZonename "a_b.com." = true ∧
      isSuperzone {} "a_b.com." 0 (misleading "x.axb.com.").db =
        (misleading "x.axb.com.").db.zones ∧
      descendants "a_b.com." 0 (misleading "x.axb.com.").db = [] ∧
      creating {} "x.axb.com." "a_b.com." = .error .IllegalParentZone ∧
      (misleading "x.EXAMPLE.com.").db.Admitted ∧
      descendants "example.com." 0 (misleading "x.EXAMPLE.com.").db = [] ∧
      creating { dialect := .sqlite } "x.EXAMPLE.com." "example.com." = .error .IllegalParentZone := by
  refine ⟨?_, by decide, by decide, by decide, by rfl, ?_, by decide, by rfl⟩
  · intro z hz
    rw [List.mem_singleton.mp hz]
    decide
  · intro z hz
    rw [List.mem_singleton.mp hz]
    decide

end Designate
