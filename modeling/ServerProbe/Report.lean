/-
What is handed out about a target: a diagnostic for each fault, if they are
wanted, and one report when it is finished.
-/
import ServerProbe.Address
import ServerProbe.Protocol

set_option autoImplicit false

namespace ServerProbe

/-! ## Diagnostics -/

/-- The text of a target's id. -/
def idText (id : Nat) : String := "#" ++ Text.decimalText id

/-- One fault met with a target. -/
structure Diagnostic where
  target : Nat
  address : Address
  protocol : Protocol
  kind : ErrorKind
  message : String
  deriving Repr, DecidableEq

/-- A diagnostic on one line. -/
def Diagnostic.text (d : Diagnostic) : String :=
  idText d.target ++ " " ++ d.address.text ++ " (" ++ d.protocol.id ++ "): " ++ d.kind.message
    ++ ": " ++ d.message

/-! ## Reports -/

/-- How the query of a target ended. -/
inductive TargetStatus where
  | ok
  /-- The host refused. -/
  | down
  /-- Nothing useful came while there was time. -/
  | timeout
  | error (kind : ErrorKind)
  deriving Repr, DecidableEq

/-- A status in words. -/
def TargetStatus.text : TargetStatus → String
  | ok => "ok"
  | down => "down"
  | timeout => "timeout"
  | error kind => "error: " ++ kind.message

/-- The report on one target. -/
structure Report where
  id : Nat
  /-- The broadcast that found the server. -/
  parent : Option Nat
  protocol : Protocol
  address : Address
  status : TargetStatus
  /-- The mean round trip in nanoseconds. -/
  ping : Option Nat
  retries : Nat
  error : Option String
  server : Server
  deriving Repr, DecidableEq

/-- Nanoseconds as milliseconds. Whole seconds and the rest are converted apart, so
that a long time loses no more than the last place. -/
def milliseconds (nanoseconds : Nat) : Float :=
  ((nanoseconds / 1000000000).toUInt64.toFloat
    + (nanoseconds % 1000000000).toUInt64.toFloat / 1000000000.0) * 1000.0

/-- The mean round trip in milliseconds. -/
def Report.pingMs (r : Report) : Option Float := r.ping.map milliseconds

end ServerProbe
