/-
One server that is being queried: the exchange with it, the machine that says
when to ask, and what has gone wrong so far. A broadcast target also keeps the
addresses that answered it, since each of them becomes a target of its own once.
-/
import ServerProbe.Address
import ServerProbe.Machine
import ServerProbe.Receipt
import ServerProbe.Report

set_option autoImplicit false

namespace ServerProbe

/-- Who answers a target. -/
inductive TargetMode where
  /-- The address that was asked. -/
  | unicast
  /-- Any address on the port that was asked. -/
  | broadcast
  deriving Repr, DecidableEq

/-- A server that is being queried. -/
structure Target where
  id : Nat
  address : Address
  mode : TargetMode
  /-- The broadcast that found it. -/
  parent : Option Nat := none
  protocol : Protocol
  config : Config
  exchange : Exchange := {}
  machine : Machine
  /-- The addresses that have become targets because they answered. -/
  responders : List Address := []
  lastError : Option String := none
  sendErrors : Nat := 0
  deriving Repr, DecidableEq

namespace Target

/-- A target that has not been asked. -/
def fresh (id : Nat) (address : Address) (mode : TargetMode) (protocol : Protocol)
    (config : Config) (nonce : UInt32) : Target where
  id := id
  address := address
  mode := mode
  protocol := protocol
  config := config
  exchange := { session := protocol.prepare nonce {} }
  machine := Machine.ofConfig protocol.capabilities config

/-- The target for a host that answered a broadcast. It goes on from where the
broadcast is, so that its round trip counts from the broadcast's request. -/
def child (parent : Target) (id : Nat) (address : Address) : Target where
  id := id
  address := address
  mode := .unicast
  parent := some parent.id
  protocol := parent.protocol
  config := parent.config
  exchange := { session := parent.exchange.session }
  machine := parent.machine

/-- Whether the server answered some phase beyond the challenge, or told a fact. -/
def hasReceived (t : Target) : Bool := t.machine.answeredAny || !t.exchange.server.isEmpty

/-- The status of a target that ended without an error. -/
def plainStatus (t : Target) : TargetStatus := if t.hasReceived then .ok else .timeout

/-- The report on a target that ended with `status`. What was planned and not
answered is marked as missing. -/
def report (t : Target) (status : TargetStatus) : Report :=
  let missing := t.machine.missing
  { id := t.id
    parent := t.parent
    protocol := t.protocol
    address := t.address
    status
    ping := t.machine.ping?
    retries := t.machine.retryCount
    error := t.lastError
    server :=
      { t.exchange.server with
        missingStatus := missing.contains .status
        missingRules := missing.contains .rules
        missingPlayers := missing.contains .players } }

end Target

end ServerProbe
