/-
One query in time: which phases it goes through, how often each may still be
asked, and when.

The plan is fixed at the start. The status is always in it; rules and players are
if they are wanted and the status reply does not bring them; the challenge is if
some phase of the plan needs one. The machine stands at the first phase that is
not settled, and a phase once settled never becomes unsettled, so it only moves
forward.

A phase may be asked a fixed number of times. Asking when none is left settles the
phase as timed out, and a challenge that times out takes the phases that need it
along. A server that wants a request again gets it once per phase without a
charge; after that it pays like everybody else. The round trip of a phase counts
once, from its first request to the reply that answered it.
-/
import ServerProbe.Config
import ServerProbe.Protocol
import ServerProbe.Total

set_option autoImplicit false

namespace ServerProbe

/-! ## The legs of a query -/

/-- Where one phase of a query stands. -/
inductive LegStatus where
  /-- Not asked yet. -/
  | idle
  /-- Asked. -/
  | waiting
  /-- Answered; when `sealing`, later replies are refused. -/
  | done (sealing : Bool)
  /-- Asked as often as allowed, in vain. -/
  | timedOut
  /-- Not asked, because the challenge for it timed out. -/
  | skipped
  deriving Repr, DecidableEq

namespace LegStatus

/-- Whether the phase is answered. -/
def isDone : LegStatus → Bool
  | done _ => true
  | _ => false

/-- Whether the phase will not be asked any more. -/
def isSettled : LegStatus → Bool
  | idle => false
  | waiting => false
  | _ => true

end LegStatus

/-- One phase of a query. -/
structure Leg where
  phase : Phase
  /-- How often it may still be asked. -/
  budget : Nat
  /-- How often it has been asked, free ones left out. -/
  attempts : Nat := 0
  firstSent : Option Instant := none
  lastSent : Option Instant := none
  freeResendUsed : Bool := false
  status : LegStatus := .idle
  deriving Repr, DecidableEq

/-- What to do next. -/
inductive Decision where
  /-- Ask for this phase. -/
  | send (phase : Phase)
  /-- This phase has just timed out. -/
  | exhausted (phase : Phase)
  /-- There is nothing left to ask. -/
  | finished
  deriving Repr, DecidableEq

/-! ## The machine -/

/-- A query in time. -/
structure Machine where
  plan : List Leg
  /-- How many legs are behind. -/
  current : Nat := 0
  /-- The phases that may be asked only after a challenge. -/
  gated : PhaseSet
  retryInterval : Nat
  /-- The round trips so far, added up. -/
  pingTotal : Nat := 0
  /-- How many there are. -/
  pingCount : Nat := 0
  /-- Until when late replies are waited for, once every phase is settled. -/
  lingerUntil : Option Instant := none
  deriving Repr, DecidableEq

namespace Machine

/-! ### The plan -/

/-- The phases that are asked with a request of their own, the challenge left out. -/
def separatePhases (c : Capabilities) (config : Config) : PhaseSet where
  status := true
  rules := config.wantRules && !c.includes.contains .rules
  players := config.wantPlayers && !c.includes.contains .players

/-- The phases of the plan. -/
def plannedPhases (c : Capabilities) (config : Config) : PhaseSet :=
  let separate := separatePhases c config
  if c.gates.intersects separate then separate.insert .challenge else separate

/-- A query that has not started. -/
def ofConfig (c : Capabilities) (config : Config) : Machine where
  plan := (plannedPhases c config).toList.map fun phase => { phase, budget := config.sendsPerPhase }
  gated := c.gates
  retryInterval := config.retryInterval

/-- The leg of a phase, if it is planned. -/
def leg? (m : Machine) (phase : Phase) : Option Leg := m.plan.find? fun leg => leg.phase == phase

/-- The leg the query is at. -/
def currentLeg? (m : Machine) : Option Leg := m.plan[m.current]?

/-- The phase the query is at. -/
def currentPhase? (m : Machine) : Option Phase := m.currentLeg?.map Leg.phase

/-- The planned phases that satisfy a condition on their leg. -/
def phasesWhere (m : Machine) (p : Leg → Bool) : PhaseSet :=
  PhaseSet.ofList ((m.plan.filter p).map Leg.phase)

/-- The phases to which replies are refused. -/
def sealedPhases (m : Machine) : PhaseSet := m.phasesWhere fun leg => leg.status == .done true

/-- The planned phases that are not answered, for whatever reason. -/
def missing (m : Machine) : PhaseSet := m.phasesWhere fun leg => !leg.status.isDone

/-- Whether the status is answered. -/
def statusDone (m : Machine) : Bool := (m.leg? .status).any fun leg => leg.status.isDone

/-- Whether a phase other than the challenge is answered. -/
def answeredAny (m : Machine) : Bool :=
  m.plan.any fun leg => leg.phase != .challenge && leg.status.isDone

/-! ### Moving on -/

/-- Passes the settled legs in front. -/
def advance (m : Machine) : Machine :=
  { m with
    current := m.current
      + ((m.plan.drop m.current).takeWhile fun leg => leg.status.isSettled).length }

/-- Changes the leg the query is at. -/
def changeCurrent (m : Machine) (change : Leg → Leg) : Machine :=
  { m with plan := m.plan.modify m.current change }

/-- Gives up those legs that need the challenge and are not settled. -/
def skipGated (m : Machine) : Machine :=
  { m with
    plan := m.plan.map fun leg =>
      if m.gated.contains leg.phase && !leg.status.isSettled then { leg with status := .skipped }
      else leg }

/-- Decides what to do next. With nothing left to spend, the phase times out, and a
challenge takes the phases that need it along. -/
def nextSend (m : Machine) : Machine × Decision :=
  match m.currentLeg? with
  | none => (m, .finished)
  | some leg =>
    if 0 < leg.budget then (m, .send leg.phase)
    else
      let timedOut := m.changeCurrent fun leg => { leg with status := .timedOut }
      let skipped := if leg.phase = .challenge then timedOut.skipGated else timedOut
      (skipped.advance, .exhausted leg.phase)

/-- Decides until there is a phase to ask or nothing left, within `fuel` decisions. -/
def nextRequestWithin : Nat → Machine → Machine × Option Phase
  | 0, m => (m, none)
  | fuel + 1, m =>
    match m.nextSend with
    | (m', .send phase) => (m', some phase)
    | (m', .exhausted _) => nextRequestWithin fuel m'
    | (m', .finished) => (m', none)

/-- The phase to ask next, phases without anything left to spend being timed out on
the way. Each of them moves the machine forward, so one decision per leg and one
to find the end are enough. -/
def nextRequest (m : Machine) : Machine × Option Phase :=
  nextRequestWithin (m.plan.length + 1) m

/-- Notes a request for the current phase. -/
def recordSend (m : Machine) (now : Instant) : Machine :=
  m.changeCurrent fun leg =>
    { leg with
      budget := leg.budget - 1
      attempts := leg.attempts + 1
      firstSent := leg.firstSent.or (some now)
      lastSent := some now
      status := .waiting }

/-- Whether the current phase still has its free request. -/
def freeResendAvailable (m : Machine) : Bool :=
  m.currentLeg?.any fun leg => !leg.freeResendUsed

/-- Notes a request that the server wanted again. It costs nothing and leaves the
first one to count for the round trip. -/
def recordFreeResend (m : Machine) (now : Instant) : Machine :=
  m.changeCurrent fun leg =>
    { leg with lastSent := some now, freeResendUsed := true, status := .waiting }

/-- Whether a reply that answers `answered` answers a leg for the first time. -/
def answersFirst (answered : PhaseSet) (leg : Leg) : Bool :=
  answered.contains leg.phase && !leg.status.isDone

/-- The round trips that end with a reply: those of the legs it answers for the first
time, from their first request. A clock that went backwards gives none. -/
def roundTrips (m : Machine) (answered : PhaseSet) (now : Instant) : List Nat :=
  (m.plan.filter (answersFirst answered)).filterMap fun leg => leg.firstSent.map (now - ·)

/-- Notes a reply that answers `answered`. When it settles the last phase without
sealing, late replies are waited for during one interval, which a further reply
does not lengthen. -/
def complete (m : Machine) (answered : PhaseSet) (sealing : Bool) (now : Instant) : Machine :=
  let trips := m.roundTrips answered now
  let m' := advance
    { m with
      plan := m.plan.map fun leg =>
        if answersFirst answered leg then { leg with status := .done sealing } else leg
      pingTotal := m.pingTotal + total trips
      pingCount := m.pingCount + trips.length }
  if m'.plan.length ≤ m'.current then
    { m' with
      lingerUntil :=
        if sealing then none else m'.lingerUntil.or (some (now + m'.retryInterval)) }
  else m'

/-- Waits for late replies no longer. -/
def stopLingering (m : Machine) : Machine := { m with lingerUntil := none }

/-! ### The clock -/

/-- Whether every phase is settled. -/
def isSettled (m : Machine) : Bool := m.plan.length ≤ m.current

/-- Whether the current phase is to be asked: it never was, or a whole interval has
passed since. -/
def isDue (m : Machine) (now : Instant) : Bool :=
  m.currentLeg?.any fun leg =>
    match leg.status, leg.lastSent with
    | .waiting, some sent => sent + m.retryInterval ≤ now
    | .idle, _ => true
    | _, _ => false

/-- Whether only late replies are waited for. -/
def isLingering (m : Machine) : Bool := m.isSettled && m.lingerUntil.isSome

/-- Whether late replies have been waited for long enough. -/
def lingerExpired (m : Machine) (now : Instant) : Bool := m.lingerUntil.any (· ≤ now)

/-- Whether there is nothing left to do. -/
def isFinished (m : Machine) : Bool := m.isSettled && m.lingerUntil.isNone

/-- When the machine next needs attention. -/
def deadline? (m : Machine) : Option Instant :=
  match m.lingerUntil with
  | some limit => some limit
  | none =>
    match m.currentLeg? with
    | some { status := .waiting, lastSent := some sent, .. } => some (sent + m.retryInterval)
    | _ => none

/-! ### Figures -/

/-- The mean round trip in nanoseconds, rounded down. -/
def ping? (m : Machine) : Option Nat :=
  if m.pingCount = 0 then none else some (m.pingTotal / m.pingCount)

/-- How often a phase was asked again, over all phases. The figure is a word of 32 bits and
wraps around. -/
def retryCount (m : Machine) : Nat := (wordTotal (m.plan.map fun leg => leg.attempts - 1)).toNat

end Machine

end ServerProbe
