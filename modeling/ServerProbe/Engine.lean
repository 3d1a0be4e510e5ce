/-
Many queries at once. The engine holds the active targets and decides; it sends
and receives nothing itself. Whoever drives it hands in datagrams, the passing of
time and failures to send, and carries out what it queues: datagrams to send,
reports and diagnostics to pass on. Every instant is given by the driver.

Payloads wait in a queue, and a reply that a piece made whole goes through the
same queue as a datagram from outside. So a reply that was split, even one that
consists of pieces again, is handled like any other, one payload at a time.

Targets are kept in the order of their ids, and ids are given in ascending order;
"the first target such that" is therefore the one with the least id.
-/
import ServerProbe.QueryError
import ServerProbe.Target

set_option autoImplicit false

namespace ServerProbe

/-- A datagram to send. -/
structure Transmit where
  target : Nat
  address : Address
  payload : List UInt8
  deriving Repr, DecidableEq

/-- Many queries at once. -/
structure Engine where
  /-- The active targets, in the order of their ids. -/
  targets : List Target := []
  /-- The active unicast target at an address. -/
  byAddress : List (Address × Nat) := []
  nextId : Nat := 1
  /-- What is to be sent, next first. -/
  outbox : List Transmit := []
  /-- Payloads that wait for their target. -/
  pending : List (Nat × List UInt8) := []
  /-- Reports that have not been taken. -/
  completed : List Report := []
  /-- Diagnostics that have not been taken. -/
  diagnostics : List Diagnostic := []
  deriving Repr, DecidableEq

namespace Engine

/-! ## Targets -/

/-- The active target of an id. -/
def target? (e : Engine) (id : Nat) : Option Target := e.targets.find? fun t => t.id == id

/-- The active unicast target at an address. -/
def idAt? (e : Engine) (address : Address) : Option Nat :=
  (e.byAddress.find? fun entry => entry.1 == address).map Prod.snd

/-- Puts a target in the place of the active one with its id. -/
def put (e : Engine) (t : Target) : Engine :=
  { e with targets := e.targets.map fun other => if other.id = t.id then t else other }

/-- Adds a target under the next id. A unicast target can be found by its address. -/
def insert (e : Engine) (t : Target) : Engine :=
  { e with
    targets := e.targets ++ [t]
    byAddress := if t.mode = .unicast then e.byAddress ++ [(t.address, t.id)] else e.byAddress
    nextId := e.nextId + 1 }

/-- Takes a target out, with all that waits for it. -/
def remove (e : Engine) (t : Target) : Engine :=
  { e with
    targets := e.targets.filter fun other => other.id != t.id
    byAddress :=
      if e.idAt? t.address = some t.id then e.byAddress.filter fun entry => entry.1 != t.address
      else e.byAddress
    pending := e.pending.filter fun entry => entry.1 != t.id }

/-- Ends a target, with the status that follows from what arrived if none is given. A
broadcast that just ends is not reported: its answers are targets of their own. -/
def finalize (e : Engine) (id : Nat) (status : Option TargetStatus) : Engine :=
  match e.target? id with
  | none => e
  | some t =>
    let removed := e.remove t
    if t.mode = .broadcast ∧ status = none then removed
    else { removed with completed := removed.completed ++ [t.report (status.getD t.plainStatus)] }

/-! ## Faults -/

/-- Passes a fault on, if the target's options ask for it. -/
def diagnose (e : Engine) (t : Target) (kind : ErrorKind) (message : String) : Engine :=
  if t.config.showErrors then
    { e with
      diagnostics := e.diagnostics ++ [⟨t.id, t.address, t.protocol, kind, message⟩] }
  else e

/-- Passes a fault on and ends the target with it. -/
def abort (e : Engine) (t : Target) (kind : ErrorKind) (message : String) : Engine :=
  ((e.diagnose t kind message).put { t with lastError := some message }).finalize t.id
    (some (.error kind))

/-! ## Sending -/

/-- Queues a datagram to a target. -/
def transmit (e : Engine) (t : Target) (payload : List UInt8) : Engine :=
  { e with outbox := e.outbox ++ [⟨t.id, t.address, payload⟩] }

/-- Asks for the phase a target is at, after timing out what has nothing left to spend;
ends the target if there is nothing left to ask. -/
def sendCurrent (e : Engine) (id : Nat) (now : Instant) : Engine :=
  match e.target? id with
  | none => e
  | some t =>
    match t.machine.nextRequest with
    | (machine, none) => (e.put { t with machine }).finalize id none
    | (machine, some phase) =>
      match t.protocol.request phase t.exchange.session t.config.requestParams with
      | .ok payload =>
        (e.put { t with machine := machine.recordSend now }).transmit t payload
      | .error fault => (e.put { t with machine }).abort { t with machine } fault.kind fault.message

/-- Asks again because the server wants it. The first time is free for each phase;
after that it is charged. -/
def resendCurrent (e : Engine) (id : Nat) (now : Instant) : Engine :=
  match e.target? id with
  | none => e
  | some t =>
    match t.machine.currentPhase? with
    | none => e
    | some phase =>
      if !t.machine.freeResendAvailable then e.sendCurrent id now
      else match t.protocol.request phase t.exchange.session t.config.requestParams with
        | .ok payload =>
          (e.put { t with machine := t.machine.recordFreeResend now }).transmit t payload
        | .error _ => e

/-! ## Receiving -/

/-- The phases that a reply counts for: those it answers, or the current one if it names
none. -/
def credited (answered : PhaseSet) (current : Option Phase) : PhaseSet :=
  if answered.isEmpty then PhaseSet.ofList current.toList else answered

/-- Goes on with a target one of whose phases has been answered. -/
def proceed (e : Engine) (t : Target) (answered : PhaseSet) (sealing : Bool) (now : Instant) :
    Engine :=
  let before := t.machine.currentPhase?
  let machine := t.machine.complete (credited answered before) sealing now
  let e' := e.put { t with machine }
  if machine.isFinished then e'.finalize t.id none
  else if machine.currentPhase?.isSome ∧ machine.currentPhase? ≠ before then
    e'.sendCurrent t.id now
  else e'

/-- Handles one payload for a target. -/
def process (e : Engine) (id : Nat) (payload : List UInt8) (now : Instant) : Engine :=
  match e.target? id with
  | none => e
  | some t =>
    let (exchange, receipt) := t.exchange.receive t.protocol t.config.requestParams
      t.machine.currentPhase? t.machine.sealedPhases payload
    let t' := { t with exchange }
    let completed := receipt.completed.map fun whole => (id, whole)
    let e' := { e.put t' with pending := e.pending ++ completed }
    match receipt.outcome with
    | .inProgress => if receipt.resend then e'.resendCurrent id now else e'
    | .done sealing => e'.proceed t' receipt.answered sealing now
    | .error kind =>
      let message := receipt.message.getD kind.message
      if kind.isFatal then e'.abort t' kind message else e'.diagnose t' kind message

/-- Handles waiting payloads until there is none, `fuel` at most. -/
def drainWithin (now : Instant) : Nat → Engine → Engine
  | 0, e => e
  | fuel + 1, e =>
    match e.pending with
    | [] => e
    | (id, payload) :: rest =>
      drainWithin now fuel ({ e with pending := rest }.process id payload now)

/-- How many payloads can have to be handled before none waits. A piece of a reply is
longer than what it adds to the reply, so every payload that makes one whole uses
up octets that wait or are held. -/
def drainBound (e : Engine) : Nat :=
  e.pending.length + total (e.pending.map fun entry => entry.2.length)
    + total (e.targets.map fun t => t.exchange.fragments.buffered)

/-- Handles waiting payloads until there is none. -/
def drain (e : Engine) (now : Instant) : Engine := drainWithin now e.drainBound e

/-- Finds the target of a datagram. An address that no target has may be answering a
broadcast on its port; the first time it does, it becomes a target of its own. -/
def route (e : Engine) (sender : Address) : Engine × Option Nat :=
  match e.idAt? sender with
  | some id => (e, some id)
  | none =>
    match e.targets.find? fun t => t.mode == .broadcast && t.address.port == sender.port with
    | none => (e, none)
    | some parent =>
      if parent.responders.contains sender then (e, none)
      else
        let noted := e.put { parent with responders := parent.responders ++ [sender] }
        (noted.insert (parent.child e.nextId sender), some e.nextId)

/-! ## What a driver does -/

/-- Starts to query a server; the first request is queued at once. Where the protocol
wants the client to choose an id, it is taken from `nonce`. -/
def add (e : Engine) (mode : TargetMode) (protocol : String) (address : Address) (config : Config)
    (nonce : UInt32) (now : Instant) : Engine × Except QueryError Nat :=
  match Protocol.ofId? protocol with
  | none => (e, .error (.unknownProtocol protocol))
  | some p =>
    if mode = .unicast ∧ (e.idAt? address).isSome then (e, .error (.duplicateTarget address))
    else
      let id := e.nextId
      ((e.insert (.fresh id address mode p config nonce)).sendCurrent id now, .ok id)

/-- Starts to query the server at an address. -/
def addTarget (e : Engine) : String → Address → Config → UInt32 → Instant →
    Engine × Except QueryError Nat :=
  e.add .unicast

/-- Starts to query whoever answers at a broadcast address. -/
def addBroadcast (e : Engine) : String → Address → Config → UInt32 → Instant →
    Engine × Except QueryError Nat :=
  e.add .broadcast

/-- Takes in a datagram. -/
def receive (e : Engine) (sender : Address) (payload : List UInt8) (now : Instant) : Engine :=
  match e.route sender with
  | (e', none) => e'
  | (e', some id) => { e' with pending := e'.pending ++ [(id, payload)] }.drain now

/-- Takes in a payload that is known to be for a target. -/
def deliver (e : Engine) (id : Nat) (payload : List UInt8) (now : Instant) :
    Engine × Except QueryError Unit :=
  match e.target? id with
  | none => (e, .error (.unknownTarget id))
  | some _ => ({ e with pending := e.pending ++ [(id, payload)] }.drain now, .ok ())

/-- Lets time pass for one target. -/
def tickTarget (now : Instant) (e : Engine) (id : Nat) : Engine :=
  match e.target? id with
  | none => e
  | some t =>
    if t.machine.isLingering then
      if t.machine.lingerExpired now then
        (e.put { t with machine := t.machine.stopLingering }).finalize id none
      else e
    else if t.machine.isDue now then e.sendCurrent id now
    else e

/-- Lets time pass: asks again what is due and ends what has no time left. -/
def tick (e : Engine) (now : Instant) : Engine :=
  (e.targets.map Target.id).foldl (tickTarget now) e

/-- Takes in that a queued datagram could not be sent. A refusal ends the target: as
down, unless it has already told something. Anything else is left to the clock. -/
def sendFailed (e : Engine) (id : Nat) (error : TransportError) : Engine :=
  match e.target? id with
  | none => e
  | some t =>
    let t' := { t with sendErrors := t.sendErrors + 1 }
    if error.kind = .connectionRefused then
      (e.put { t' with lastError := some error.message }).finalize id
        (if t'.hasReceived then none else some .down)
    else e.put t'

/-- The next datagram to send. -/
def poll (e : Engine) : Engine × Option Transmit :=
  match e.outbox with
  | [] => (e, none)
  | next :: rest => ({ e with outbox := rest }, some next)

/-- All datagrams to send. -/
def takeOutbox (e : Engine) : Engine × List Transmit := ({ e with outbox := [] }, e.outbox)

/-- The reports on the targets that ended since the last time, in the order of their
ids. -/
def takeCompleted (e : Engine) : Engine × List Report :=
  ({ e with completed := [] }, e.completed.mergeSort fun a b => a.id ≤ b.id)

/-- The diagnostics since the last time. -/
def takeDiagnostics (e : Engine) : Engine × List Diagnostic :=
  ({ e with diagnostics := [] }, e.diagnostics)

/-- When time next matters. -/
def deadline? (e : Engine) : Option Instant :=
  (e.targets.filterMap fun t => t.machine.deadline?).min?

/-- Whether no target is active and nothing is left to send. -/
def isFinished (e : Engine) : Bool := e.targets.isEmpty && e.outbox.isEmpty

end Engine

end ServerProbe
