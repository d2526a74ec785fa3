import Designate.Objects.Rdata
import Designate.Objects.ZoneAdapter

/-!
# The masters of a zone

A master is written as its host and its port with a colon between them, and read by splitting at
the first colon. A zone looks for a master by the host of that text.
-/

namespace Designate

/-- The object `ZoneMaster`, with what its schema requires. -/
structure ZoneMaster where
  host : String
  port : Int
  deriving DecidableEq, Repr

namespace ZoneMaster

variable (lib : Lib)

/-- A host that the schema accepts, and any number of a port. -/
structure Accepted (master : ZoneMaster) : Prop where
  host : Format.isIpOrHost lib master.host = true
  port : 0 ≤ master.port

/-- `to_data`. -/
def toData (master : ZoneMaster) : String := master.host ++ ":" ++ toString master.port

/-- `utils.split_host_port`. -/
def splitHostPort (string : String) : String × Int := Adapters.splitHostPort lib.int string

/-- `from_data`. -/
def fromData (data : String) : ZoneMaster :=
  let (host, port) := splitHostPort lib data
  { host := host, port := port }

end ZoneMaster

/-- `Zone.get_master_by_ip`, with the masters of the zone. -/
def getMasterByIp (lib : Lib) (masters : List ZoneMaster) (host : String) : Option ZoneMaster :=
  masters.find? fun srv => decide (host = (ZoneMaster.splitHostPort lib srv.toData).1)

end Designate
