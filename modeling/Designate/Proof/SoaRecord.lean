import Designate.Central.SoaRecord
import Designate.Proof.Formats
import Designate.Proof.Shards

/-!
# Mail addresses there and back

The dot that has been the at-sign is the first one only where no dot comes before it: a local
part with a dot in it is cut in two, and its end becomes a part of the domain.
-/

namespace Designate

/-- What comes before the at-sign. -/
def localPart (email : String) : List Char := email.toList.takeWhile (· ≠ '@')

namespace Text

theorem takeWhile_ne {c : Char} {l rest : List Char} (h : c ∉ l) :
    (l ++ c :: rest).takeWhile (· ≠ c) = l := by
  rw [List.takeWhile_append_of_pos fun x hx => ?_, List.takeWhile_cons_of_neg (by simp),
    List.append_nil]
  exact decide_eq_true fun he => h (he ▸ hx)

theorem dropWhile_ne {c : Char} {l rest : List Char} (h : c ∉ l) :
    (l ++ c :: rest).dropWhile (· ≠ c) = c :: rest := by
  rw [List.dropWhile_append_of_pos fun x hx => ?_, List.dropWhile_cons_of_neg (by simp)]
  exact decide_eq_true fun he => h (he ▸ hx)

/-- A character that is not there is not replaced. -/
theorem map_replace_of_not_mem {c d : Char} {l : List Char} (h : c ∉ l) :
    l.map (fun x => if x = c then d else x) = l := by
  refine (List.map_congr_left fun x hx => ?_).trans (List.map_id _)
  exact if_neg fun he : x = c => h (he ▸ hx)

end Text

/-- An address has one at-sign, in the middle of it. -/
theorem isEmail_split {email : String} (h : Format.isEmail email = true) :
    ∃ domain, email.toList = localPart email ++ '@' :: domain ∧ '@' ∉ localPart email ∧
      '@' ∉ domain := by
  unfold Format.isEmail at h
  rw [Bool.and_eq_true] at h
  have hcount : email.toList.count '@' = 1 := eq_of_beq h.1
  have hmem : '@' ∈ email.toList := List.count_pos_iff.mp (by omega)
  obtain ⟨l, domain, hsplit, hl⟩ := List.eq_append_cons_of_mem hmem
  have hlocal : localPart email = l := by
    unfold localPart
    rw [hsplit, Text.takeWhile_ne hl]
  refine ⟨domain, by rw [hlocal, hsplit], by rwa [hlocal], fun hdomain => ?_⟩
  -- a second at-sign would be counted
  rw [hsplit, List.count_append, List.count_cons_self] at hcount
  have hpos := List.count_pos_iff.mpr hdomain
  omega

/-- The name for an address: its parts with dots behind them. -/
theorem rnameOfEmail_toList {email : String} (h : Format.isEmail email = true) {domain : List Char}
    (hsplit : email.toList = localPart email ++ '@' :: domain) (hdomain : '@' ∉ domain) :
    (rnameOfEmail email).toList = localPart email ++ '.' :: domain ++ ['.'] := by
  obtain ⟨-, -, hlocal, -⟩ := isEmail_split h
  have hdot : ".".toList = ['.'] := rfl
  unfold rnameOfEmail Text.replace
  rw [String.toList_append, String.toList_ofList, hdot, hsplit, List.map_append, List.map_cons,
    if_pos rfl, Text.map_replace_of_not_mem hlocal, Text.map_replace_of_not_mem hdomain]

/-- So dnspython reads it as it is. -/
theorem rnameOfEmail_valid {email : String} (h : Format.isEmail email = true) :
    Format.isZonename (rnameOfEmail email) = true := by
  obtain ⟨domain, hsplit, hlocal, hdomain⟩ := isEmail_split h
  have hrname := h
  unfold Format.isEmail at hrname
  rw [Bool.and_eq_true] at hrname
  have hsame : Text.replaceFirst email '@' '.' ++ "." = rnameOfEmail email := by
    refine String.toList_injective ?_
    have hdot : ".".toList = ['.'] := rfl
    rw [rnameOfEmail_toList h hsplit hdomain]
    unfold Text.replaceFirst
    rw [String.toList_append, String.toList_ofList, hdot, hsplit, Text.takeWhile_ne hlocal,
      Text.dropWhile_ne hlocal]
  rw [← hsame]
  exact hrname.2

/-- The address that is read from the name: its first dot is taken for the at-sign. -/
theorem emailOfRname_rname {email : String} {l rest : List Char} (hl : '.' ∉ l)
    (hname : (rnameOfEmail email).toList = l ++ '.' :: rest ++ ['.']) :
    emailOfRname (rnameOfEmail email) = String.ofList (l ++ '@' :: rest) := by
  have hlong : 1 < (l ++ '.' :: rest ++ ['.']).length := by
    simp only [List.length_append, List.length_cons, List.length_nil]
    omega
  have hlast : (l ++ '.' :: rest ++ ['.']).getLast? = some '.' := List.getLast?_concat
  unfold emailOfRname
  dsimp only
  rw [hname, hlast, decide_eq_true hlong, beq_self_eq_true, Bool.and_true, if_pos rfl,
    List.dropLast_concat, Text.takeWhile_ne hl, Text.dropWhile_ne hl]

/-- **The address comes back exactly if there is no dot before its at-sign.** -/
theorem emailOfRname_iff {email : String} (h : Format.isEmail email = true) :
    emailOfRname (rnameOfEmail email) = email ↔ '.' ∉ localPart email := by
  obtain ⟨domain, hsplit, hlocal, hdomain⟩ := isEmail_split h
  have hname := rnameOfEmail_toList h hsplit hdomain
  constructor
  · intro hback hdot
    obtain ⟨l, more, hl, hfirst⟩ := List.eq_append_cons_of_mem hdot
    have hname' : (rnameOfEmail email).toList = l ++ '.' :: (more ++ '.' :: domain) ++ ['.'] := by
      rw [hname, hl, List.append_assoc l, List.cons_append]
    rw [emailOfRname_rname hfirst hname'] at hback
    -- the at-sign would stand at two places
    have hchars := congrArg String.toList hback
    rw [String.toList_ofList, hsplit] at hchars
    have hat : '@' ∉ l := fun hmem => hlocal (hl ▸ List.mem_append_left _ hmem)
    have hsame := (Text.append_sep_inj hat hlocal hchars).1
    rw [hl] at hsame
    exact absurd (congrArg List.length hsame) (by simp)
  · intro hdot
    rw [emailOfRname_rname hdot hname, ← hsplit, String.ofList_toList]

/--
**A zone that is read with the SOA that has been built has the same mail address exactly if there
is no dot in the local part.**
-/
theorem mail_round_trip_iff (conf : Conf) {readSoa : String → Option Rdata}
    (hreads : ReadsSoa readSoa) (zone : SoaValues) (hostname : String) (more : List String)
    (hhost : Format.isZonename hostname = true) {text : String}
    (hbuild : buildSoaRecord zone (hostname :: more) = .ok text) (received : DnsZone)
    (soa : Rdataset) (hsoa : received.nodes.find? (Rdataset.isSoa received.origin) = some soa)
    (hread : soa.rdatas.head? = readSoa text) :
    (∃ z, fromDnspythonZone conf received = .ok z ∧ z.email = zone.email) ↔
      '.' ∉ localPart zone.email := by
  -- the numbers of a zone are within 32 bits, so the reader takes the record that was built
  have htext : readSoa text = some (.soa hostname (rnameOfEmail zone.email) zone.serial zone.refresh
      zone.retry zone.expire zone.minimum) := by
    rw [← Except.ok.inj hbuild]
    have h₁ := zone.serial_le
    have h₂ := zone.refresh_le
    have h₃ := zone.retry_le
    have h₄ := zone.expire_le
    have h₅ := zone.minimum_le
    exact hreads _ _ _ _ _ _ _ hhost (rnameOfEmail_valid zone.email_valid) (by omega) (by omega)
      (by omega) (by omega) (by omega)
  rw [htext] at hread
  obtain ⟨rdatas, hrdatas⟩ := List.head?_eq_some_iff.mp hread
  -- the address that is read is the one written as a name and back
  have hzone : ∃ z, fromDnspythonZone conf received = .ok z ∧
      z.email = emailOfRname (rnameOfEmail zone.email) := by
    unfold fromDnspythonZone
    rw [hsoa]
    dsimp only
    rw [hrdatas]
    exact ⟨_, rfl, rfl⟩
  obtain ⟨z, hz, hemail⟩ := hzone
  rw [← emailOfRname_iff zone.email_valid]
  constructor
  · rintro ⟨z', hz', hemail'⟩
    rw [hz] at hz'
    rw [← hemail, Except.ok.inj hz', hemail']
  · intro hback
    exact ⟨z, hz, hemail.trans hback⟩

/-! ## At the sample -/

namespace Sample

/-- An SOA of plain names, taken apart at its blanks. -/
def readSoa (text : String) : Option Rdata :=
  match Text.split text ' ' with
  | [mname, rname, serial, refresh, retry, expire, minimum] => do
    some (.soa mname rname (← Shards.decimal serial) (← Shards.decimal refresh)
      (← Shards.decimal retry) (← Shards.decimal expire) (← Shards.decimal minimum))
  | _ => none

theorem readsSoa_sample : ReadsSoa readSoa := by
  intro mname rname serial refresh retry expire minimum hmname hrname _ _ _ _ _
  have hdecimal : ∀ n : Nat, ' ' ∉ (toString n).toList := fun n => Text.not_mem_decimal (by decide)
  have hblank : ∀ w ∈ [mname, rname, toString serial, toString refresh, toString retry,
      toString expire, toString minimum], ' ' ∉ w.toList := by
    simp only [List.forall_mem_cons, hdecimal]
    exact ⟨Format.no_blank_zonename hmname, Format.no_blank_zonename hrname, by simp⟩
  unfold readSoa Rdata.toText
  rw [Text.split_intercalate (List.cons_ne_nil _ _) hblank]
  simp only [Shards.decimal_toString]
  rfl

/-- A zone with a mail address. -/
def soaValues (email : String) (h : Format.isEmail email = true) : SoaValues where
  email := email
  serial := 1
  refresh := 3600
  retry := 600
  expire := 86400
  minimum := 3600
  email_valid := h
  serial_le := by decide
  refresh_le := by decide
  retry_le := by decide
  expire_le := by decide
  minimum_le := by decide

/-- A zone with this SOA only. -/
def soaOnly (rdata : Rdata) : DnsZone where
  origin := "example.org."
  nodes := [{ name := "example.org.", type := .known .SOA, ttl := some 3600, rdatas := [rdata] }]
  distinct := by simp [RdType.stored]

end Sample

/-- An address without a dot in its local part. -/
theorem mail_round_trip_sample :
    ∃ z, fromDnspythonZone {} (Sample.soaOnly
        (.soa "ns.example.org." "first_last.example.com." 1 3600 600 86400 3600)) = .ok z ∧
      z.email = "first_last@example.com" :=
  (mail_round_trip_iff {} Sample.readsSoa_sample
    (Sample.soaValues "first_last@example.com" (by decide)) "ns.example.org." [] (by decide) rfl
    (Sample.soaOnly (.soa "ns.example.org." "first_last.example.com." 1 3600 600 86400 3600)) _ rfl
    (by decide)).mpr (by decide)

/-- The address `first.last@example.com`, which comes back as `first@last.example.com`. -/
theorem mail_misread :
    ¬ ∀ (zone : SoaValues) (text : String) (received : DnsZone) (soa : Rdataset),
      buildSoaRecord zone ["ns.example.org."] = .ok text →
      received.nodes.find? (Rdataset.isSoa received.origin) = some soa →
      soa.rdatas.head? = Sample.readSoa text →
      ∃ z, fromDnspythonZone {} received = .ok z ∧ z.email = zone.email := by
  intro h
  obtain ⟨z, hz, hemail⟩ := h (Sample.soaValues "first.last@example.com" (by decide)) _
    (Sample.soaOnly (.soa "ns.example.org." "first.last.example.com." 1 3600 600 86400 3600)) _
    rfl rfl (by decide)
  have hmisread : z.email = "first@last.example.com" := by
    rw [← Except.ok.inj hz]
    decide
  rw [hmisread] at hemail
  exact absurd hemail (by decide)

end Designate
