import Designate.Objects.RdataText
import Designate.Proof.Formats

/-!
# Writing records and reading them again

No part of a record that its schema accepts has a blank in it, so the text is split where it was
put together, and a number is read back from its digits. One class writes two of its parts the
other way round.
-/

namespace Designate

open Adapters (Json)

/-- Python reads the digits of a number for what they are, and a dot for nothing of a number. -/
structure Lib.Ascii (lib : Lib) : Prop where
  digit : ∀ d < 10, lib.decimal (Nat.digitChar d) = some d
  digit_space : ∀ d < 10, lib.isSpace (Nat.digitChar d) = false
  dot : lib.decimal '.' = none
  dot_space : lib.isSpace '.' = false

theorem Lib.ascii_default : ({} : Lib).Ascii where
  digit := by decide
  digit_space := by decide
  dot := by decide
  dot_space := by decide

/-! ## Numbers -/

namespace Lib

variable {lib : Lib}

/-- A digit more, if it is one. -/
def digit (lib : Lib) (n : Option Nat) (c : Char) : Option Nat :=
  n.bind fun n => (lib.decimal c).map fun d => n * 10 + d

theorem foldl_digit_none (lib : Lib) (cs : List Char) : cs.foldl lib.digit none = none := by
  induction cs with
  | nil => rfl
  | cons c cs ih => exact ih

/-- The digits of a number are read for the number. -/
theorem foldl_toDigits (h : lib.Ascii) (n : Nat) :
    (Nat.toDigits 10 n).foldl lib.digit (some 0) = some n := by
  induction n using Nat.strongRecOn with
  | ind n ih =>
    rcases Nat.lt_or_ge n 10 with hlt | hge
    · rw [Nat.toDigits_of_lt_base hlt]
      simp [digit, h.digit n hlt]
    · have hlast : n % 10 < 10 := Nat.mod_lt _ (by omega)
      rw [Nat.toDigits_of_base_le (by omega) hge, List.foldl_append, ih (n / 10) (by omega)]
      simp only [List.foldl_cons, List.foldl_nil, digit, Option.bind_some, h.digit _ hlast,
        Option.map_some]
      exact congrArg some (by omega)

theorem toDigits_digitChar {n : Nat} {c : Char} (hc : c ∈ Nat.toDigits 10 n) :
    ∃ d < 10, c = Nat.digitChar d := by
  induction n using Nat.strongRecOn with
  | ind n ih =>
    rcases Nat.lt_or_ge n 10 with hlt | hge
    · rw [Nat.toDigits_of_lt_base hlt, List.mem_singleton] at hc
      exact ⟨n, hlt, hc⟩
    · rw [Nat.toDigits_of_base_le (by omega) hge, List.mem_append, List.mem_singleton] at hc
      rcases hc with hc | hc
      · exact ih (n / 10) (by omega) hc
      · exact ⟨n % 10, Nat.mod_lt _ (by omega), hc⟩

/-- Nothing is stripped where no blank is at either end. -/
theorem dropWhile_ends {p : Char → Bool} {cs : List Char} (h : ∀ c ∈ cs, p c = false) :
    ((cs.dropWhile p).reverse.dropWhile p).reverse = cs := by
  have hkeep : ∀ ds : List Char, (∀ c ∈ ds, p c = false) → ds.dropWhile p = ds := by
    intro ds hds
    cases ds with
    | nil => rfl
    | cons d ds => rw [List.dropWhile_cons, hds d List.mem_cons_self]; rfl
  rw [hkeep cs h, hkeep cs.reverse fun c hc => h c (List.mem_reverse.mp hc), List.reverse_reverse]

/-- What is left of a text without the blanks around it. -/
def stripped (lib : Lib) (s : String) : List Char :=
  ((s.toList.dropWhile lib.isSpace).reverse.dropWhile lib.isSpace).reverse

/-- A number that has digits. -/
def digits (lib : Lib) (cs : List Char) : Option Int :=
  (if cs.isEmpty then none else cs.foldl lib.digit (some 0)).map fun n => (n : Int)

theorem int_eq (lib : Lib) (s : String) :
    lib.int s =
      match lib.stripped s with
      | '-' :: cs => (lib.digits cs).map fun n => -n
      | '+' :: cs => lib.digits cs
      | cs => lib.digits cs := by
  have hcast : ∀ o : Option Nat, (o.bind fun a => some (a : Int)) = o.map fun n => (n : Int) := by
    intro o
    cases o <;> rfl
  unfold int
  change (match lib.stripped s with
    | '-' :: cs => _
    | '+' :: cs => _
    | cs => _) = _
  split
  · exact congrArg (Option.map _) (hcast _)
  · exact (congrArg (Option.map fun n : Int => n) (hcast _)).trans Option.map_id'
  · exact (congrArg (Option.map fun n : Int => n) (hcast _)).trans Option.map_id'

/-- **A number is read back from its text.** -/
theorem int_toString (h : lib.Ascii) (n : Nat) : lib.int (toString n) = some (n : Int) := by
  have hlist : (toString n).toList = Nat.toDigits 10 n := Nat.toList_repr
  have hspace : ∀ c ∈ Nat.toDigits 10 n, lib.isSpace c = false := by
    intro c hc
    obtain ⟨d, hd, rfl⟩ := toDigits_digitChar hc
    exact h.digit_space d hd
  have hstripped : lib.stripped (toString n) = Nat.toDigits 10 n := by
    unfold stripped
    rw [hlist]
    exact dropWhile_ends hspace
  have hdigits : lib.digits (Nat.toDigits 10 n) = some (n : Int) := by
    have hempty : (Nat.toDigits 10 n).isEmpty = false :=
      List.isEmpty_eq_false_iff.mpr Nat.toDigits_ne_nil
    unfold digits
    rw [hempty, if_neg Bool.false_ne_true, foldl_toDigits h]
    rfl
  have hne : ∀ d < 10, Nat.digitChar d ≠ '-' ∧ Nat.digitChar d ≠ '+' := by decide
  rw [int_eq, hstripped]
  -- a number that is written as its digits has no sign
  split
  · rename_i cs he
    obtain ⟨d, hd, hc⟩ := toDigits_digitChar (n := n) (c := '-') (he ▸ List.mem_cons_self)
    exact absurd hc.symm (hne d hd).1
  · rename_i cs he
    obtain ⟨d, hd, hc⟩ := toDigits_digitChar (n := n) (c := '+') (he ▸ List.mem_cons_self)
    exact absurd hc.symm (hne d hd).2
  · exact hdigits

theorem plainInt_toString (h : lib.Ascii) (n : Nat) : lib.plainInt (toString n) = some (n : Int) := by
  unfold plainInt
  rw [int_toString h]
  exact if_pos (beq_self_eq_true _)

theorem mem_dropWhile {p : Char → Bool} {cs : List Char} {c : Char} (hc : c ∈ cs)
    (hp : p c = false) : c ∈ cs.dropWhile p := by
  induction cs with
  | nil => exact absurd hc List.not_mem_nil
  | cons d cs ih =>
    rw [List.dropWhile_cons]
    split
    · rename_i hd
      rcases List.mem_cons.mp hc with rfl | hmem
      · rw [hp] at hd
        exact absurd hd Bool.false_ne_true
      · exact ih hmem
    · exact hc

theorem foldl_dot (h : lib.Ascii) {cs : List Char} (hc : '.' ∈ cs) (n : Option Nat) :
    cs.foldl lib.digit n = none := by
  induction cs generalizing n with
  | nil => exact absurd hc List.not_mem_nil
  | cons d cs ih =>
    rcases List.mem_cons.mp hc with rfl | hmem
    · have hnone : lib.digit n '.' = none := by
        unfold digit
        rw [h.dot]
        cases n <;> rfl
      rw [List.foldl_cons, hnone]
      exact foldl_digit_none lib cs
    · exact ih hmem (lib.digit n d)

/-- **A text with a dot in it is no number.** -/
theorem int_dot (h : lib.Ascii) {s : String} (hs : '.' ∈ s.toList) : lib.int s = none := by
  -- a dot is no blank, so stripping keeps it, and no digit, so nothing with it is a number
  have hmem : '.' ∈ lib.stripped s := by
    unfold stripped
    rw [List.mem_reverse]
    exact mem_dropWhile (List.mem_reverse.mpr (mem_dropWhile hs h.dot_space)) h.dot_space
  have hdigits : ∀ cs : List Char, '.' ∈ cs → lib.digits cs = none := by
    intro cs hc
    unfold digits
    split
    · rfl
    · rw [foldl_dot h hc]
      rfl
  rw [int_eq]
  split
  · rename_i cs he
    rw [he] at hmem
    rw [hdigits cs (by simpa using hmem)]
    rfl
  · rename_i cs he
    rw [he] at hmem
    exact hdigits cs (by simpa using hmem)
  · exact hdigits _ hmem

end Lib

/-! ## What is in a field -/

namespace RdataClass

variable {lib : Lib} {cls : RdataClass} {values : Parts} {f : FieldDef}

/-- A field that is required has a value, which fails nothing of the schema. -/
theorem Accepts.required (h : cls.Accepts lib values) (hf : f ∈ cls.fields)
    (hreq : f.required = true) : ∃ v, values.lookup f.name = some v ∧ f.schema.failed lib v = [] := by
  have hfield := h f hf
  unfold FieldDef.accepts at hfield
  split at hfield
  · rw [hreq] at hfield
    exact absurd hfield Bool.false_ne_true
  · rename_i v hv
    exact ⟨v, hv, List.isEmpty_iff.mp hfield⟩

theorem passes_of_failed {schema : FieldSchema} {v : Json} (h : schema.failed lib v = [])
    {k : Keyword} (hk : k ∈ schema) : k.passes lib v = true := by
  by_contra hfails
  have hmem : k ∈ schema.failed lib v := List.mem_filter.mpr ⟨hk, by simpa using hfails⟩
  rw [h] at hmem
  exact List.not_mem_nil hmem

/-- A number that is not negative. -/
theorem Accepts.integer (h : cls.Accepts lib values) {name : String} {minimum maximum : Int}
    (hmin : 0 ≤ minimum)
    (hf : { name := name, schema := integer minimum maximum, required := true } ∈ cls.fields) :
    ∃ n : Nat, values.lookup name = some (.int n) := by
  obtain ⟨v, hv, hfailed⟩ := h.required hf rfl
  have htype : (Keyword.type [.integer]).passes lib v = true :=
    passes_of_failed hfailed List.mem_cons_self
  have hbound : (Keyword.minimum minimum).passes lib v = true :=
    passes_of_failed hfailed (List.mem_cons_of_mem _ List.mem_cons_self)
  cases v with
  | int n =>
    have hle : minimum ≤ n := by
      have hnot : ¬ (n : ℚ) < (minimum : ℚ) := by
        simpa [Keyword.passes, Keyword.number, Keyword.below] using hbound
      by_contra hlt
      exact hnot (Rat.intCast_lt_intCast.mpr (by omega))
    obtain ⟨m, rfl⟩ := Int.eq_ofNat_of_zero_le (Int.le_trans hmin hle)
    exact ⟨m, hv⟩
  | _ => exact absurd htype (by simp [Keyword.passes, JsonType.holds])

/-- A text that its format accepts. -/
theorem Accepts.text (h : cls.Accepts lib values) {name : String} {format : Format}
    {rest : List Keyword}
    (hf : { name := name, schema := .type [.string] :: .format format :: rest, required := true } ∈
      cls.fields) :
    ∃ s : String, values.lookup name = some (.str s) ∧ format.check lib s = true := by
  obtain ⟨v, hv, hfailed⟩ := h.required hf rfl
  have htype : (Keyword.type [.string]).passes lib v = true :=
    passes_of_failed hfailed List.mem_cons_self
  have hformat : (Keyword.format format).passes lib v = true :=
    passes_of_failed hfailed (List.mem_cons_of_mem _ List.mem_cons_self)
  cases v with
  | str s => exact ⟨s, hv, hformat⟩
  | _ => exact absurd htype (by simp [Keyword.passes, JsonType.holds])

/-- The values of the fields, in their order. -/
def ordered (cls : RdataClass) (values : Parts) : Parts :=
  cls.fields.map fun f => (f.name, get values f.name)

theorem lookup_map_fields {fields : List FieldDef} {f : FieldDef} (hf : f ∈ fields)
    (values : Parts) :
    (fields.map fun f => (f.name, get values f.name)).lookup f.name = some (get values f.name) := by
  induction fields with
  | nil => exact absurd hf List.not_mem_nil
  | cons g fields ih =>
    rw [List.map_cons, List.lookup_cons]
    by_cases hname : f.name = g.name
    · rw [hname, beq_self_eq_true]
    · rw [beq_false_of_ne hname]
      rcases List.mem_cons.mp hf with rfl | hmem
      · exact absurd rfl hname
      · exact ih hmem

theorem lookup_ordered (hf : f ∈ cls.fields) :
    (cls.ordered values).lookup f.name = some (get values f.name) :=
  lookup_map_fields hf values

end RdataClass

/-- Every field of a class is required. -/
theorem RRType.fields_required (t : RRType) : ∀ f ∈ t.rdata.fields, f.required = true := by
  cases t <;> decide

/-- What has been written can be read, and gives the same fields. -/
def RRType.RoundTrips (lib : Lib) (str : Json → String) (t : RRType) (values : Parts) : Prop :=
  ∃ values', t.rdata.fromString lib (t.toText str values) = .ok values' ∧
    ∀ f ∈ t.rdata.fields, values'.lookup f.name = values.lookup f.name

namespace RdataClass

variable {lib : Lib} {str : Json → String} {values : Parts}

theorem no_blank_decimal (n : Nat) : ' ' ∉ (toString n).toList := Text.not_mem_decimal (by decide)

theorem no_blank_sshfp {s : String} (h : Format.isSshfp s = true) : ' ' ∉ s.toList := by
  unfold Format.isSshfp at h
  rw [Bool.and_eq_true] at h
  intro hmem
  exact absurd (List.all_eq_true.mp h.1 ' ' hmem) (by decide)

/-- The text of some parts is taken apart into them. -/
theorem parts_intercalate {ws : List String} (hne : ws ≠ []) (h : ∀ w ∈ ws, ' ' ∉ w.toList) :
    parts (.str (" ".intercalate ws)) = .ok ws :=
  congrArg Except.ok (Text.split_intercalate hne h)

theorem MX.reads (hlib : lib.Ascii) (h : MX.Accepts lib values) :
    MX.fromString lib (MX.toText str values) = .ok (MX.ordered values) := by
  obtain ⟨priority, hpriority⟩ := h.integer (Int.le_refl 0) (.head _)
  obtain ⟨exchange, hexchange, hname⟩ := h.text (.tail _ (.head _))
  have htext : MX.toText str values = .str (" ".intercalate [toString priority, exchange]) := by
    simp only [MX.toText, format, get, List.map_cons, List.map_nil, hpriority, hexchange,
      Option.getD_some, percentS]
    rfl
  have hordered : MX.ordered values =
      [("priority", .int priority), ("exchange", .str exchange)] := by
    simp only [ordered, MX, get, List.map_cons, List.map_nil, hpriority, hexchange,
      Option.getD_some]
  rw [htext, hordered]
  dsimp only [MX]
  rw [parts_intercalate (List.cons_ne_nil _ _) (List.forall_mem_cons.mpr ⟨no_blank_decimal _,
    List.forall_mem_singleton.mpr (Format.no_blank_zonename hname)⟩)]
  dsimp only [bind, Except.bind]
  rw [Lib.plainInt_toString hlib]
  rfl

theorem SSHFP.reads (hlib : lib.Ascii) (h : SSHFP.Accepts lib values) :
    SSHFP.fromString lib (SSHFP.toText str values) = .ok (SSHFP.ordered values) := by
  obtain ⟨algorithm, halgorithm⟩ := h.integer (Int.le_refl 0) (.head _)
  obtain ⟨fpType, hfpType⟩ := h.integer (Int.le_refl 0) (.tail _ (.head _))
  obtain ⟨fingerprint, hfingerprint, hhex⟩ := h.text (.tail _ (.tail _ (.head _)))
  -- the three fields, in the order of the format and of the reader
  have htext : SSHFP.toText str values =
      .str (" ".intercalate [toString algorithm, toString fpType, fingerprint]) := by
    simp only [SSHFP.toText, format, get, List.map_cons, List.map_nil, halgorithm, hfpType,
      hfingerprint, Option.getD_some, percentS]
    rfl
  have hordered : SSHFP.ordered values =
      [("algorithm", .int algorithm), ("fp_type", .int fpType),
        ("fingerprint", .str fingerprint)] := by
    simp only [ordered, SSHFP, get, List.map_cons, List.map_nil, halgorithm, hfpType, hfingerprint,
      Option.getD_some]
  rw [htext, hordered]
  dsimp only [SSHFP]
  rw [parts_intercalate (List.cons_ne_nil _ _) (List.forall_mem_cons.mpr ⟨no_blank_decimal _,
    List.forall_mem_cons.mpr ⟨no_blank_decimal _,
      List.forall_mem_singleton.mpr (no_blank_sshfp hhex)⟩⟩)]
  dsimp only [bind, Except.bind]
  rw [Lib.plainInt_toString hlib, Lib.plainInt_toString hlib]
  rfl

theorem SOA.reads (hlib : lib.Ascii) (h : SOA.Accepts lib values) :
    SOA.fromString lib (SOA.toText str values) = .ok (SOA.ordered values) := by
  obtain ⟨mname, hmname, hmz⟩ := h.text (.head _)
  obtain ⟨rname, hrname, hrz⟩ := h.text (.tail _ (.head _))
  obtain ⟨serial, hserial⟩ := h.integer Int.one_nonneg (.tail _ (.tail _ (.head _)))
  obtain ⟨refresh, hrefresh⟩ :=
    h.integer (Int.le_refl 0) (.tail _ (.tail _ (.tail _ (.head _))))
  obtain ⟨retry, hretry⟩ :=
    h.integer (Int.le_refl 0) (.tail _ (.tail _ (.tail _ (.tail _ (.head _)))))
  obtain ⟨expire, hexpire⟩ :=
    h.integer (Int.le_refl 0) (.tail _ (.tail _ (.tail _ (.tail _ (.tail _ (.head _))))))
  obtain ⟨minimum, hminimum⟩ :=
    h.integer (Int.le_refl 0) (.tail _ (.tail _ (.tail _ (.tail _ (.tail _ (.tail _ (.head _)))))))
  -- the seven fields, in the order of the format and of the reader
  have htext : SOA.toText str values = .str (" ".intercalate [mname, rname, toString serial,
      toString refresh, toString retry, toString expire, toString minimum]) := by
    simp only [SOA.toText, format, get, List.map_cons, List.map_nil, hmname, hrname, hserial,
      hrefresh, hretry, hexpire, hminimum, Option.getD_some, percentS]
    rfl
  have hordered : SOA.ordered values =
      [("mname", .str mname), ("rname", .str rname), ("serial", .int serial),
        ("refresh", .int refresh), ("retry", .int retry), ("expire", .int expire),
        ("minimum", .int minimum)] := by
    simp only [ordered, SOA, get, List.map_cons, List.map_nil, hmname, hrname, hserial, hrefresh,
      hretry, hexpire, hminimum, Option.getD_some]
  rw [htext, hordered]
  dsimp only [SOA]
  -- names and numbers have no blank, so splitting undoes the joining
  rw [parts_intercalate (List.cons_ne_nil _ _) (List.forall_mem_cons.mpr ⟨Format.no_blank_zonename hmz,
    List.forall_mem_cons.mpr ⟨Format.no_blank_zonename hrz, by
      simp only [List.forall_mem_cons, no_blank_decimal]
      simp⟩⟩)]
  dsimp only [bind, Except.bind]
  simp only [Lib.int_toString hlib]
  rfl

/-- **The port is read where the target was written**, and a name of a target is no number. -/
theorem SRV.not_read (hlib : lib.Ascii) (h : SRV.Accepts lib values) :
    SRV.fromString lib (SRV.toText str values) = .error .ValueError := by
  obtain ⟨priority, hpriority⟩ := h.integer (Int.le_refl 0) (.head _)
  obtain ⟨weight, hweight⟩ := h.integer (Int.le_refl 0) (.tail _ (.head _))
  obtain ⟨port, hport⟩ := h.integer (Int.le_refl 0) (.tail _ (.tail _ (.head _)))
  obtain ⟨target, htarget, hname⟩ := h.text (.tail _ (.tail _ (.tail _ (.head _))))
  have htext : SRV.toText str values =
      .str (" ".intercalate [toString priority, toString weight, target, toString port]) := by
    simp only [SRV.toText, format, get, List.map_cons, List.map_nil, hpriority, hweight, hport,
      htarget, Option.getD_some, percentS]
    rfl
  rw [htext]
  dsimp only [SRV]
  rw [parts_intercalate (List.cons_ne_nil _ _) (List.forall_mem_cons.mpr ⟨no_blank_decimal _,
    List.forall_mem_cons.mpr ⟨no_blank_decimal _, List.forall_mem_cons.mpr
      ⟨Format.no_blank_zonename hname, List.forall_mem_singleton.mpr (no_blank_decimal _)⟩⟩⟩)]
  dsimp only [bind, Except.bind]
  rw [Lib.int_toString hlib, Lib.int_toString hlib, Lib.int_dot hlib (Format.dot_mem_zonename hname)]
  rfl

/-! ## What has been read -/

theorem parts_bind {v : Json} {f : List String → Except Unparsed Parts}
    (h : (parts v >>= f) = .ok values) : ∃ ws, f ws = .ok values := by
  cases hparts : parts v with
  | error e =>
    rw [hparts] at h
    exact absurd h nofun
  | ok ws =>
    rw [hparts] at h
    exact ⟨ws, h⟩

theorem number_bind {n : Option Int} {f : Json → Except Unparsed Parts}
    (h : (number n >>= f) = .ok values) : ∃ v, f v = .ok values := by
  cases n with
  | none => exact absurd h nofun
  | some n => exact ⟨.int n, h⟩

end RdataClass

open RdataClass in
/-- A text comes apart into the fields of the class, in their order. -/
theorem RRType.eq_ordered {lib : Lib} {t : RRType} {v : Json} {values : Parts}
    (h : t.rdata.fromString lib v = .ok values) : values = t.rdata.ordered values := by
  cases t with
  -- one case a class that reads several fields
  | MX =>
    obtain ⟨ws, h⟩ := parts_bind h
    split at h
    · obtain ⟨priority, h⟩ := number_bind h
      rw [← Except.ok.inj h]
      rfl
    · exact absurd h nofun
  | SRV =>
    obtain ⟨ws, h⟩ := parts_bind h
    split at h
    · obtain ⟨priority, h⟩ := number_bind h
      obtain ⟨weight, h⟩ := number_bind h
      obtain ⟨port, h⟩ := number_bind h
      rw [← Except.ok.inj h]
      rfl
    · exact absurd h nofun
  | SSHFP =>
    obtain ⟨ws, h⟩ := parts_bind h
    split at h
    · obtain ⟨algorithm, h⟩ := number_bind h
      obtain ⟨fpType, h⟩ := number_bind h
      rw [← Except.ok.inj h]
      rfl
    · exact absurd h nofun
  | SOA =>
    obtain ⟨ws, h⟩ := parts_bind h
    split at h
    · obtain ⟨serial, h⟩ := number_bind h
      obtain ⟨refresh, h⟩ := number_bind h
      obtain ⟨retry, h⟩ := number_bind h
      obtain ⟨expire, h⟩ := number_bind h
      obtain ⟨minimum, h⟩ := number_bind h
      rw [← Except.ok.inj h]
      rfl
    · exact absurd h nofun
  -- the other classes take the text as their one field
  | _ =>
    rw [← Except.ok.inj h]
    rfl

/-- What a record of any class but `SRV` is written as is read for its fields. -/
theorem RRType.reads {lib : Lib} (hlib : lib.Ascii) (str : Json → String) {t : RRType}
    {values : Parts} (ht : t ≠ .SRV) (h : t.rdata.Accepts lib values) :
    t.rdata.fromString lib (t.toText str values) = .ok (t.rdata.ordered values) := by
  cases t with
  | SRV => exact absurd rfl ht
  | MX => exact RdataClass.MX.reads hlib h
  | SSHFP => exact RdataClass.SSHFP.reads hlib h
  | SOA => exact RdataClass.SOA.reads hlib h
  | _ => rfl

theorem RRType.roundTrips_iff {lib : Lib} (hlib : lib.Ascii) (str : Json → String) (t : RRType)
    {values : Parts} (h : t.rdata.Accepts lib values) :
    t.RoundTrips lib str values ↔ t ≠ .SRV := by
  constructor
  · rintro ⟨values', hread, -⟩ rfl
    exact absurd ((RdataClass.SRV.not_read hlib h).symm.trans hread) nofun
  · intro ht
    refine ⟨t.rdata.ordered values, RRType.reads hlib str ht h, fun f hf => ?_⟩
    obtain ⟨v, hv, -⟩ := h.required hf (t.fields_required f hf)
    rw [RdataClass.lookup_ordered hf, RdataClass.get, hv]
    rfl

/--
**What a record is written as is read for the same fields exactly where the type is not `SRV`.**
So it is with every record that its schema accepts, and with every text that is read for one:
written and read again, it is what it was.
-/
theorem rdata_round_trip_iff (lib : Lib) (hlib : lib.Ascii) (str : Json → String) (t : RRType) :
    (∀ values, t.rdata.Accepts lib values → (t.RoundTrips lib str values ↔ t ≠ .SRV)) ∧
      ∀ (text : String) (values : Parts), t.rdata.fromString lib (.str text) = .ok values →
        t.rdata.Accepts lib values →
        (t.rdata.fromString lib (t.toText str values) = .ok values ↔ t ≠ .SRV) := by
  refine ⟨fun values h => RRType.roundTrips_iff hlib str t h, fun text values hread h => ?_⟩
  constructor
  · intro hagain ht
    subst ht
    exact absurd ((RdataClass.SRV.not_read hlib h).symm.trans hagain) nofun
  · intro ht
    rw [RRType.reads hlib str ht h, ← RRType.eq_ordered hread]

theorem rdata_round_trip_sample :
    RRType.MX.RoundTrips {} (fun _ => "")
      [("exchange", .str "mail.example.org."), ("priority", .int 10)] :=
  ((rdata_round_trip_iff {} Lib.ascii_default (fun _ => "") .MX).1 _ (by decide)).mpr nofun

/-- The target `a.` where the port should be. -/
theorem srv_not_read :
    ¬ ∀ (t : RRType) (values : Parts), t.rdata.Accepts {} values →
      t.RoundTrips {} (fun _ => "") values := by
  intro h
  have haccepts : RRType.SRV.rdata.Accepts {} [("priority", .int 1), ("weight", .int 2),
      ("port", .int 443), ("target", .str "a.")] := by decide
  obtain ⟨values, hread, -⟩ := h .SRV _ haccepts
  exact absurd ((RdataClass.SRV.not_read Lib.ascii_default haccepts).symm.trans hread) nofun

end Designate
