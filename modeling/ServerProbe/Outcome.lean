/-
What became of one payload, and what can be wrong with one. A `Fault` is a cause
with the text that explains it; the four `ErrorKind`s are what a caller reacts
to. Only an ordering error is harmless: the payload answers something that is no
longer asked, so it is noted and the query goes on.
-/
import ServerProbe.Phase
import ServerProbe.Reader

set_option autoImplicit false

namespace ServerProbe

/-! ## Kinds of error -/

/-- The kinds of error a query can meet. -/
inductive ErrorKind where
  /-- The payload breaks the rules of its format, or ends too early. -/
  | malformedPacket
  /-- A limit on what is kept per server is exceeded. -/
  | outOfMemory
  /-- The payload is of no kind that is understood. -/
  | protocolError
  /-- A reply to a phase that is not being asked. -/
  | orderingError
  deriving Repr, DecidableEq

namespace ErrorKind

/-- Whether an error of this kind ends the query. -/
def isFatal : ErrorKind → Bool
  | orderingError => false
  | _ => true

/-- The kind in words. -/
def message : ErrorKind → String
  | malformedPacket => "malformed packet"
  | outOfMemory => "out of memory"
  | protocolError => "protocol error"
  | orderingError => "ordering error"

/-- The kind as one word, as reports write it. -/
def label : ErrorKind → String
  | malformedPacket => "malformed_packet"
  | outOfMemory => "out_of_memory"
  | protocolError => "protocol_error"
  | orderingError => "ordering_error"

end ErrorKind

/-! ## Outcomes -/

/-- What became of one payload. -/
inductive Outcome where
  /-- More is expected. -/
  | inProgress
  /-- A phase is answered; when `sealing`, later replies to it are refused. -/
  | done (sealing : Bool)
  | error (kind : ErrorKind)
  deriving Repr, DecidableEq

namespace Outcome

/-- Whether a phase is answered. -/
def isDone : Outcome → Bool
  | done _ => true
  | _ => false

/-- Whether nothing more is expected for the phase: it is answered, or the error
ends the query. -/
def isTerminal : Outcome → Bool
  | inProgress => false
  | done _ => true
  | error kind => kind.isFatal

/-- The kind of error, if it is one. -/
def errorKind? : Outcome → Option ErrorKind
  | error kind => some kind
  | _ => none

end Outcome

/-! ## Faults -/

/-- What is wrong with a payload, or with asking for one. -/
inductive Fault where
  /-- The payload could not be read on. -/
  | unreadable (error : ReadError)
  /-- A type octet that no reply has. -/
  | unknownType (code : UInt8)
  /-- Something that the protocol does not provide for. -/
  | unsupported (text : String)
  /-- A field that breaks the rules of the format. -/
  | malformed (text : String)
  /-- A reply to a phase that is not being asked. -/
  | unexpected (phase : Phase)
  /-- More of something than is kept. -/
  | overLimit (text : String)
  deriving Repr, DecidableEq

namespace Fault

/-- The kind of error that a fault is. -/
def kind : Fault → ErrorKind
  | unreadable _ => .malformedPacket
  | malformed _ => .malformedPacket
  | unknownType _ => .protocolError
  | unsupported _ => .protocolError
  | unexpected _ => .orderingError
  | overLimit _ => .outOfMemory

/-- The text shown for a fault. -/
def message : Fault → String
  | unreadable error => error.message
  | unknownType code => "unknown packet type 0x" ++ Text.octetHex code
  | unsupported text => text
  | malformed text => text
  | unexpected phase => "response for " ++ phase.name ++ " was not expected"
  | overLimit text => "result limit exceeded: " ++ text

/-- A fault as an outcome. -/
def outcome (fault : Fault) : Outcome := .error fault.kind

theorem kind_eq_orderingError_iff {fault : Fault} :
    fault.kind = .orderingError ↔ ∃ phase, fault = unexpected phase := by
  cases fault <;> simp [kind]

end Fault

end ServerProbe
