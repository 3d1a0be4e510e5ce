/-
Where a server listens: a host and a port. The host is kept the way it stands in
front of the port, so that two addresses are the same exactly when their texts
are.
-/
import ServerProbe.Text.Numeral

set_option autoImplicit false

namespace ServerProbe

/-- Where a server listens. -/
structure Address where
  /-- The host as it is written before the port: an address of the newer kind in
  brackets. -/
  host : String
  port : UInt16
  deriving Repr, DecidableEq

namespace Address

/-- An address in one text. -/
def text (a : Address) : String := a.host ++ ":" ++ Text.decimalText a.port.toNat

end Address

end ServerProbe
