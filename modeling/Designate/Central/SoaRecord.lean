import Mathlib.Algebra.Group.Nat.Defs
import Designate.Dnsutils
import Designate.Schema.Format

/-!
# The mail address in the SOA

An SOA has no mail address but a name: the at-sign becomes a dot when the record is built, and
the first dot becomes an at-sign when a zone is read.
-/

namespace Designate

/-- `s.replace(c, d, 1)`. -/
def Text.replaceFirst (s : String) (c d : Char) : String :=
  String.ofList (s.toList.takeWhile (· ≠ c) ++
    match s.toList.dropWhile (· ≠ c) with
    | [] => []
    | _ :: rest => d :: rest)

/-- `is_email`. -/
def Format.isEmail (s : String) : Bool :=
  Text.count s '@' == 1 && isZonename (Text.replaceFirst s '@' '.' ++ ".")

/-- What `_build_soa_record` takes from a zone, as far as the schema of zones lets it through. -/
structure SoaValues where
  email : String
  serial : Nat
  refresh : Nat
  retry : Nat
  expire : Nat
  minimum : Nat
  email_valid : Format.isEmail email = true
  serial_le : serial ≤ 4294967295
  refresh_le : refresh ≤ 2147483647
  retry_le : retry ≤ 2147483647
  expire_le : expire ≤ 2147483647
  minimum_le : minimum ≤ 2147483647

/-- The name for a mail address: `zone['email'].replace("@", ".")`, and a dot. -/
def rnameOfEmail (email : String) : String := Text.replace email '@' '.' ++ "."

/-- `_build_soa_record`, with the host names of the NS records. -/
def buildSoaRecord (zone : SoaValues) (nsRecords : List String) : Except Exc String :=
  match nsRecords with
  | [] => .error .IndexError
  | hostname :: _ =>
    .ok (" ".intercalate [hostname, rnameOfEmail zone.email, toString zone.serial,
      toString zone.refresh, toString zone.retry, toString zone.expire, toString zone.minimum])

/--
dnspython reads an SOA from its text, where its names are names of labels without any character
that would have to be escaped and its numbers fit the record.
-/
def ReadsSoa (readSoa : String → Option Rdata) : Prop :=
  ∀ (mname rname : String) (serial refresh retry expire minimum : Nat),
    Format.isZonename mname = true → Format.isZonename rname = true → serial < 2 ^ 32 →
    refresh < 2 ^ 32 → retry < 2 ^ 32 → expire < 2 ^ 32 → minimum < 2 ^ 32 →
    readSoa (Rdata.soa mname rname serial refresh retry expire minimum).toText =
      some (.soa mname rname serial refresh retry expire minimum)

end Designate
