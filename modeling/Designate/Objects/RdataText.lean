import Designate.Objects.Rdata

/-!
# Records as texts

How a record of each class is written: `_to_string`. What is in a field is written as `%s` writes
it; a class of one field hands the value out as it is.
-/

namespace Designate

open Adapters (Json)

/-- The field is not required or it has a value, and its schema accepts the value. -/
def FieldDef.accepts (lib : Lib) (f : FieldDef) (values : Parts) : Bool :=
  match values.lookup f.name with
  | none => !f.required
  | some v => (f.schema.failed lib v).isEmpty

/-- What the schemas of a class accept. -/
def RdataClass.Accepts (lib : Lib) (cls : RdataClass) (values : Parts) : Prop :=
  ∀ f ∈ cls.fields, f.accepts lib values = true

instance (lib : Lib) (cls : RdataClass) (values : Parts) : Decidable (cls.Accepts lib values) :=
  inferInstanceAs (Decidable (∀ f ∈ cls.fields, f.accepts lib values = true))

namespace RdataClass

section

variable (str : Json → String) (values : Parts)

/-- `self.name`. -/
def get (name : String) : Json := (values.lookup name).getD .null

/-- `'%s' % value`, with what `str` makes of values other than texts and numbers. -/
def percentS : Json → String
  | .str s => s
  | .int n => toString n
  | v => str v

/-- `'%(…)s %(…)s' % self`. -/
def format (names : List String) : Json :=
  .str (" ".intercalate (names.map fun name => percentS str (get values name)))

def MX.toText : Json := format str values ["priority", "exchange"]

def SOA.toText : Json :=
  format str values ["mname", "rname", "serial", "refresh", "retry", "expire", "minimum"]

def SRV.toText : Json := format str values ["priority", "weight", "target", "port"]

def SSHFP.toText : Json := format str values ["algorithm", "fp_type", "fingerprint"]

end

end RdataClass

/-- `_to_string` of the class of a type. -/
def RRType.toText (str : Json → String) (values : Parts) : RRType → Json
  | .A => RdataClass.get values "address"
  | .AAAA => RdataClass.get values "address"
  | .CNAME => RdataClass.get values "cname"
  | .MX => RdataClass.MX.toText str values
  | .SRV => RdataClass.SRV.toText str values
  | .TXT => RdataClass.get values "txt_data"
  | .SPF => RdataClass.get values "txt_data"
  | .NS => RdataClass.get values "nsdname"
  | .PTR => RdataClass.get values "ptrdname"
  | .SSHFP => RdataClass.SSHFP.toText str values
  | .SOA => RdataClass.SOA.toText str values

end Designate
