import Designate.Objects.ZoneMaster
import Designate.Proof.RdataText

/-!
# Masters written and read again

A host without a colon comes back as it was. An IPv6 address does not: what is read is the text
as a whole or the part before the first colon of the address. A zone with such a master misses at
least the shortest of these addresses.
-/

namespace Designate

/-! ## Splitting a host from its port -/

namespace ZoneMaster

variable {lib : Lib}

theorem splitHostPort_of_not_mem {host port : String} (h : ':' ∉ host.toList) {n : Int}
    (hport : lib.int port = some n) : splitHostPort lib (host ++ ":" ++ port) = (host, n) := by
  have hlist : (host ++ ":" ++ port).toList = host.toList ++ ':' :: port.toList := by simp
  have hspan : (host.toList ++ ':' :: port.toList).span (fun c => decide (c ≠ ':')) =
      (host.toList, ':' :: port.toList) := by
    rw [List.span_eq_takeWhile_dropWhile]
    have hall : ∀ c ∈ host.toList, decide (c ≠ ':') = true := by
      intro c hc
      exact decide_eq_true fun he => h (he ▸ hc)
    rw [List.takeWhile_append_of_pos hall, List.dropWhile_append_of_pos hall]
    simp
  unfold splitHostPort Adapters.splitHostPort
  rw [hlist, hspan]
  simp only [String.ofList_toList, hport]

/-- What is taken for the host has no colon, or it is the whole text. -/
theorem splitHostPort_host (lib : Lib) (s : String) :
    (splitHostPort lib s).1 = s ∨ ':' ∉ (splitHostPort lib s).1.toList := by
  have hbefore : ':' ∉ (s.toList.span fun c => decide (c ≠ ':')).1 := by
    rw [List.span_eq_takeWhile_dropWhile]
    intro hmem
    have hne := List.all_eq_true.mp (List.all_takeWhile (p := fun c => decide (c ≠ ':'))) _ hmem
    exact of_decide_eq_true hne rfl
  unfold splitHostPort Adapters.splitHostPort
  split
  rename_i host rest hspan
  rw [hspan] at hbefore
  split
  · split
    · right
      rw [String.toList_ofList]
      exact hbefore
    · exact .inl rfl
  · exact .inl rfl

theorem length_lt_toData (m : ZoneMaster) : m.host.length < m.toData.length := by
  unfold toData
  simp only [String.length_append]
  have hcolon : ":".length = 1 := rfl
  omega

/-! ## Which hosts have a colon -/

theorem Accepted.ipv6_iff (hnetaddr : ∀ s, lib.ipv6 s = true → ':' ∈ s.toList) {m : ZoneMaster}
    (h : m.Accepted lib) : lib.ipv6 m.host = true ↔ ':' ∈ m.host.toList := by
  constructor
  · exact hnetaddr m.host
  · intro hcolon
    have hhost := h.host
    unfold Format.isIpOrHost at hhost
    rw [Bool.or_eq_true, Bool.or_eq_true] at hhost
    rcases hhost with (hname | hipv4) | hipv6
    · exact absurd hcolon (Format.no_colon_zonename hname)
    · exact absurd hcolon (Format.no_colon_ipv4 hipv4)
    · exact hipv6

/-! ## Reading what was written -/

theorem Accepted.splitHostPort_toData (hlib : lib.Ascii) {m : ZoneMaster} (h : m.Accepted lib)
    (hcolon : ':' ∉ m.host.toList) : splitHostPort lib m.toData = (m.host, m.port) := by
  obtain ⟨n, hn⟩ := Int.eq_ofNat_of_zero_le h.port
  have hport : lib.int (toString m.port) = some m.port := by
    rw [hn]
    exact Lib.int_toString hlib n
  exact splitHostPort_of_not_mem hcolon hport

/-- A host with a colon never comes back. -/
theorem splitHostPort_ne {m : ZoneMaster} (hcolon : ':' ∈ m.host.toList) :
    (splitHostPort lib m.toData).1 ≠ m.host := by
  intro he
  rcases splitHostPort_host lib m.toData with hall | hnone
  · have hlen := length_lt_toData m
    rw [← hall, he] at hlen
    omega
  · rw [he] at hnone
    exact hnone hcolon

theorem fromData_toData_iff (hlib : lib.Ascii) {m : ZoneMaster} (h : m.Accepted lib) :
    fromData lib m.toData = m ↔ ':' ∉ m.host.toList := by
  constructor
  · intro he hcolon
    exact splitHostPort_ne hcolon (congrArg ZoneMaster.host he)
  · intro hcolon
    unfold fromData
    rw [h.splitHostPort_toData hlib hcolon]

end ZoneMaster

/-! ## Looking for a master -/

open ZoneMaster

theorem getMasterByIp_isSome {lib : Lib} {masters : List ZoneMaster} {address : String} :
    (getMasterByIp lib masters address).isSome ↔
      ∃ m ∈ masters, (splitHostPort lib m.toData).1 = address := by
  unfold getMasterByIp
  rw [List.find?_isSome]
  simp only [decide_eq_true_eq, eq_comm (a := address)]

/-- In a list whose hosts are all found, no host has a colon: it could only be found through a
shorter one. -/
theorem no_colon_of_found {lib : Lib} (hlib : lib.Ascii) {masters : List ZoneMaster}
    (haccepted : ∀ m ∈ masters, m.Accepted lib)
    (h : ∀ m ∈ masters, (getMasterByIp lib masters m.host).isSome) :
    ∀ n, ∀ m ∈ masters, m.host.length = n → ':' ∉ m.host.toList := by
  intro n
  induction n using Nat.strongRecOn with
  | ind n ih =>
    intro m hm hlen hcolon
    obtain ⟨m', hm', he⟩ := getMasterByIp_isSome.mp (h m hm)
    rcases splitHostPort_host lib m'.toData with hall | hnone
    · have hcolon' : ':' ∈ m'.host.toList := by
        by_contra hno
        rw [(haccepted m' hm').splitHostPort_toData hlib hno] at he
        have hhost : m'.host = m.host := he
        exact hno (hhost ▸ hcolon)
      have hlt := length_lt_toData m'
      rw [← hall, he, hlen] at hlt
      exact ih _ hlt m' hm' rfl hcolon'
    · rw [he] at hnone
      exact hnone hcolon

theorem found_iff_no_colon {lib : Lib} (hlib : lib.Ascii) {masters : List ZoneMaster}
    (haccepted : ∀ m ∈ masters, m.Accepted lib) :
    (∀ address, (getMasterByIp lib masters address).isSome ↔ ∃ m ∈ masters, m.host = address) ↔
      ∀ m ∈ masters, ':' ∉ m.host.toList := by
  constructor
  · intro h m hm
    exact no_colon_of_found hlib haccepted (fun m hm => (h m.host).mpr ⟨m, hm, rfl⟩) _ m hm rfl
  · intro h address
    have hhost : ∀ m ∈ masters, (splitHostPort lib m.toData).1 = m.host := by
      intro m hm
      rw [(haccepted m hm).splitHostPort_toData hlib (h m hm)]
    rw [getMasterByIp_isSome]
    constructor
    · intro hfound
      obtain ⟨m, hm, he⟩ := hfound
      exact ⟨m, hm, (hhost m hm).symm.trans he⟩
    · intro hlisted
      obtain ⟨m, hm, he⟩ := hlisted
      exact ⟨m, hm, (hhost m hm).trans he⟩

/-- **Masters come back from what is written of them, and a zone finds the masters that are
listed, exactly when none of them is an IPv6 address.** Each such master is lost by itself, and
each list with one of them is searched wrongly. -/
theorem masters_kept_iff (lib : Lib) (hlib : lib.Ascii)
    (hnetaddr : ∀ s, lib.ipv6 s = true → ':' ∈ s.toList) (masters : List ZoneMaster)
    (haccepted : ∀ m ∈ masters, m.Accepted lib) :
    (∀ m ∈ masters, fromData lib m.toData = m ↔ lib.ipv6 m.host = false) ∧
      ((∀ address, (getMasterByIp lib masters address).isSome ↔ ∃ m ∈ masters, m.host = address) ↔
        ∀ m ∈ masters, lib.ipv6 m.host = false) := by
  have hcolon : ∀ m ∈ masters, ':' ∉ m.host.toList ↔ lib.ipv6 m.host = false := by
    intro m hm
    rw [← (haccepted m hm).ipv6_iff hnetaddr, Bool.not_eq_true]
  constructor
  · intro m hm
    rw [fromData_toData_iff hlib (haccepted m hm), hcolon m hm]
  · rw [found_iff_no_colon hlib haccepted]
    exact forall₂_congr hcolon

/-- A master with a name, and one with an IPv4 address. -/
theorem masters_kept_sample :
    fromData {} (toData ⟨"192.0.2.1", 5354⟩) = ⟨"192.0.2.1", 5354⟩ ∧
      (getMasterByIp {} [⟨"ns.example.org.", 53⟩, ⟨"192.0.2.1", 5354⟩] "192.0.2.1").isSome := by
  have haccepted : ∀ m ∈ [(⟨"ns.example.org.", 53⟩ : ZoneMaster), ⟨"192.0.2.1", 5354⟩],
      m.Accepted {} := by
    simp only [List.forall_mem_cons]
    exact ⟨⟨by decide, by decide⟩, ⟨by decide, by decide⟩, by simp⟩
  have hkept := masters_kept_iff {} Lib.ascii_default (fun _ hs => List.contains_iff_mem.mp hs) _
    haccepted
  exact ⟨(hkept.1 _ (by simp)).mpr (by decide),
    (hkept.2.mpr (by decide) "192.0.2.1").mpr ⟨⟨"192.0.2.1", 5354⟩, by simp, rfl⟩⟩

/-- The master `::1` at port 5354: what is read is the host `::1:5354` at port 53. -/
theorem master_misread :
    ¬ ∀ m : ZoneMaster, m.Accepted {} → fromData {} m.toData = m := by
  intro h
  have hback := h ⟨"::1", 5354⟩ ⟨by decide, by decide⟩
  have hread : fromData {} (toData ⟨"::1", 5354⟩) = ⟨"::1:5354", 53⟩ := by decide
  rw [hread] at hback
  exact absurd hback (by decide)

end Designate
