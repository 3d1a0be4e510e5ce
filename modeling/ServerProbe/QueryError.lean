/-
Why a caller cannot be served: a name that is none, a target that is there
already or not any more, or a transport that failed. Each cause has one message.
-/
import ServerProbe.Report
import ServerProbe.TargetSpec
import ServerProbe.Text.Quoted

set_option autoImplicit false

namespace ServerProbe

/-! ## Transport errors -/

/-- The ways in which a transport fails. -/
inductive TransportErrorKind where
  | connectionRefused
  | connectionReset
  | permissionDenied
  | wouldBlock
  | timedOut
  | invalidInput
  | other
  deriving Repr, DecidableEq

/-- A way of failing, in words. -/
def TransportErrorKind.message : TransportErrorKind → String
  | connectionRefused => "connection refused"
  | connectionReset => "connection reset"
  | permissionDenied => "permission denied"
  | wouldBlock => "operation would block"
  | timedOut => "timed out"
  | invalidInput => "invalid input parameter"
  | other => "other error"

/-- A failure of the transport, with a text of its own or without. -/
structure TransportError where
  kind : TransportErrorKind
  text : Option String := none
  deriving Repr, DecidableEq

/-- The text shown for a failure of the transport. -/
def TransportError.message (e : TransportError) : String := e.text.getD e.kind.message

/-! ## Errors of a query -/

/-- Why a name is none, in words. -/
def SpecError.reason : SpecError → String
  | noProtocol => "expected PROTOCOL:HOST[:PORT]"
  | unknownProtocol id => "unknown protocol " ++ Text.quoted id
  | unclosedBracket => "unclosed '[' in host"
  | textAfterBracket => "unexpected text after ']'"
  | missingHost => "missing host"
  | badPort => "bad port"

/-- Why a caller cannot be served. -/
inductive QueryError where
  | unknownProtocol (id : String)
  | invalidTarget (spec reason : String)
  /-- The host of a target has no address. -/
  | unresolved (host : String)
  | duplicateTarget (address : Address)
  | unknownTarget (id : Nat)
  | transport (error : TransportError)
  deriving Repr, DecidableEq

namespace QueryError

/-- The error of a name that is none. -/
def ofSpec (spec : String) : SpecError → QueryError
  | .unknownProtocol id => unknownProtocol id
  | error => invalidTarget spec error.reason

/-- The text shown for an error. -/
def message : QueryError → String
  | unknownProtocol id => "unknown protocol " ++ Text.quoted id
  | invalidTarget spec reason => "invalid target " ++ Text.quoted spec ++ ": " ++ reason
  | unresolved host => "no address found for " ++ host
  | duplicateTarget address => address.text ++ " is already being queried"
  | unknownTarget id => "no active target " ++ idText id
  | transport error => error.message

end QueryError

end ServerProbe
