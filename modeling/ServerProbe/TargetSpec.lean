/-
How a server is named on the command line: `PROTOCOL:HOST[:PORT]`. The protocol
reaches to the first colon. A host in brackets may hold colons; outside brackets,
what follows the only colon is a port, and with several colons the whole is a host
without one, as addresses of the newer kind are written.
-/
import ServerProbe.Protocol
import ServerProbe.Text.Cut
import ServerProbe.Text.Numeral

set_option autoImplicit false

namespace ServerProbe

/-- A server to query, as named. -/
structure TargetSpec where
  protocol : Protocol
  host : String
  port : UInt16
  deriving Repr, DecidableEq

/-- Why a name is none. -/
inductive SpecError where
  /-- There is no colon. -/
  | noProtocol
  /-- There is no protocol of that name. -/
  | unknownProtocol (id : String)
  /-- A bracket is not closed. -/
  | unclosedBracket
  /-- A closed bracket is followed by something other than a port. -/
  | textAfterBracket
  | missingHost
  | badPort
  deriving Repr, DecidableEq

namespace TargetSpec

/-- Host and port, apart. -/
def splitAddress (address : List Char) : Except SpecError (List Char × Option (List Char)) :=
  match Text.stripHead? '[' address with
  | some rest =>
    match Text.cutFirst? ']' rest with
    | none => .error .unclosedBracket
    | some (host, tail) =>
      match tail with
      | [] => .ok (host, none)
      | ':' :: port => .ok (host, some port)
      | _ => .error .textAfterBracket
  | none =>
    match Text.cutLast? ':' address with
    | some (host, port) => if host.contains ':' then .ok (address, none) else .ok (host, some port)
    | none => .ok (address, none)

/-- The port that is written, or else the usual one. -/
def portOr (usual : UInt16) : Option (List Char) → Except SpecError UInt16
  | none => .ok usual
  | some digits =>
    match Text.uint16? digits with
    | some port => .ok port
    | none => .error .badPort

/-- The server that a text names. -/
def ofText (text : String) : Except SpecError TargetSpec :=
  match Text.cutFirst? ':' text.toList with
  | none => .error .noProtocol
  | some (id, address) =>
    match Protocol.ofId? (String.ofList id) with
    | none => .error (.unknownProtocol (String.ofList id))
    | some protocol => do
      let (host, port) ← splitAddress address
      if host.isEmpty then .error .missingHost
      else return ⟨protocol, String.ofList host, ← portOr protocol.defaultPort port⟩

end TargetSpec

end ServerProbe
