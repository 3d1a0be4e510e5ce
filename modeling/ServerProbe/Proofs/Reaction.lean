/-
What one target does by itself.

The engine looks a target up, changes it, puts it back and queues what is to be sent.
Here the part in the middle stands alone: a `Cue` is what can happen to a target, and
`Target.react` is the `Reaction` to it, which depends on the target and the cue and on
nothing else. What a reaction can do to the machine is said once, by `react_path`: it
follows a path of decisions and answers and queues one request at most, at the end.

A payload may make a reply whole, which is then a payload again. `Target.digest` is the
whole sequence of moments that one payload leads to.
-/
import ServerProbe.Engine
import ServerProbe.Proofs.Exchange

set_option autoImplicit false

namespace ServerProbe

/-! ## Cues and reactions -/

/-- What can happen to a target. -/
inductive Cue where
  /-- It is to ask, for the first time or because a reply is overdue. -/
  | ask (now : Instant)
  /-- A payload has come for it. -/
  | hear (payload : List UInt8) (now : Instant)
  /-- Late replies have been waited for long enough. -/
  | linger
  /-- A datagram to it could not be sent. -/
  | unsent (error : TransportError)
  deriving Repr, DecidableEq

/-- A request that a target queues. -/
structure Request where
  phase : Phase
  payload : List UInt8
  /-- Whether it is the one that costs nothing. -/
  free : Bool
  deriving Repr, DecidableEq

/-- Whether a target is still active. -/
inductive Fate where
  | goesOn
  /-- It has ended, with this status or with the one that follows from what arrived. -/
  | over (status : Option TargetStatus)
  deriving Repr, DecidableEq

/-- What a target does. -/
structure Reaction where
  /-- The target afterwards. -/
  target : Target
  request : Option Request := none
  /-- A reply that has been made whole. -/
  joined : Option (List UInt8) := none
  /-- A fault to pass on. -/
  fault : Option (ErrorKind × String) := none
  fate : Fate := .goesOn
  deriving Repr, DecidableEq

/-- The payload that waits for a target after its reaction. -/
def Reaction.waiting? (r : Reaction) : Option (List UInt8) :=
  match r.fate with
  | .goesOn => r.joined
  | .over _ => none

theorem Reaction.goesOn_of_waiting {r : Reaction} {whole : List UInt8}
    (h : r.waiting? = some whole) : r.fate = .goesOn ∧ r.joined = some whole := by
  unfold Reaction.waiting? at h
  rcases hfate : r.fate with _ | status
  · rw [hfate] at h
    exact ⟨rfl, h⟩
  · rw [hfate] at h
    cases h

/-- The report on a target that its reaction has ended. -/
def Reaction.report? (r : Reaction) : Option Report :=
  match r.fate with
  | .goesOn => none
  | .over status =>
    if r.target.mode = .broadcast ∧ status = none then none
    else some (r.target.report (status.getD r.target.plainStatus))

namespace Target

/-! ## Asking -/

/-- Ends with a fault. -/
def fail (t : Target) (kind : ErrorKind) (message : String) : Reaction where
  target := { t with lastError := some message }
  fault := some (kind, message)
  fate := .over (some (.error kind))

/-- Asks for the phase it is at. -/
def ask (t : Target) (now : Instant) : Reaction :=
  match t.machine.nextRequest with
  | (machine, none) => { target := { t with machine }, fate := .over none }
  | (machine, some phase) =>
    match t.protocol.request phase t.exchange.session with
    | .ok payload =>
      { target := { t with machine := machine.recordSend now },
        request := some ⟨phase, payload, false⟩ }
    | .error fault => { t with machine }.fail fault.kind fault.message

/-- Asks again because the server wants it. -/
def askAgain (t : Target) (now : Instant) : Reaction :=
  match t.machine.currentPhase? with
  | none => { target := t }
  | some phase =>
    if !t.machine.freeResendAvailable then t.ask now
    else match t.protocol.request phase t.exchange.session with
      | .ok payload =>
        { target := { t with machine := t.machine.recordFreeResend now },
          request := some ⟨phase, payload, true⟩ }
      | .error _ => { target := t }

/-! ## Hearing -/

/-- Goes on after a reply. -/
def goOn (t : Target) (answered : PhaseSet) (sealing : Bool) (now : Instant) : Reaction :=
  let before := t.machine.currentPhase?
  let machine := t.machine.complete (Engine.credited answered before) sealing now
  if machine.isFinished then { target := { t with machine }, fate := .over none }
  else if machine.currentPhase?.isSome ∧ machine.currentPhase? ≠ before then
    { t with machine }.ask now
  else { target := { t with machine } }

/-- What a payload does to the exchange. -/
def exchanged (t : Target) (payload : List UInt8) : Exchange × Receipt :=
  t.exchange.receive t.protocol t.config.requestParams t.machine.currentPhase?
    t.machine.sealedPhases payload

/-- Acts on a receipt. -/
def follow (t : Target) (receipt : Receipt) (now : Instant) : Reaction :=
  match receipt.outcome with
  | .inProgress => if receipt.resend then t.askAgain now else { target := t }
  | .done sealing => t.goOn receipt.answered sealing now
  | .error kind =>
    let message := receipt.message.getD kind.message
    if kind.isFatal then t.fail kind message
    else { target := t, fault := some (kind, message) }

/-- Takes in a payload. -/
def hear (t : Target) (payload : List UInt8) (now : Instant) : Reaction :=
  let (exchange, receipt) := t.exchanged payload
  { { t with exchange }.follow receipt now with joined := receipt.joined }

/-! ## Reacting -/

/-- The reaction to a cue. -/
def react (t : Target) : Cue → Reaction
  | .ask now => t.ask now
  | .hear payload now => t.hear payload now
  | .linger =>
    { target := { t with machine := t.machine.stopLingering }, fate := .over none }
  | .unsent error =>
    let t' := { t with sendErrors := t.sendErrors + 1 }
    if error.kind = .connectionRefused then
      { target := { t' with lastError := some error.message }
        fate := .over (if t'.hasReceived then none else some .down) }
    else { target := t' }

/-! ## What stays -/

theorem ask_target (t : Target) (now : Instant) :
    ∃ m l, (t.ask now).target = { t with machine := m, lastError := l } := by
  unfold ask
  rcases t.machine.nextRequest with ⟨machine, _ | phase⟩
  · exact ⟨_, _, rfl⟩
  · dsimp only
    split <;> exact ⟨_, _, rfl⟩

theorem askAgain_target (t : Target) (now : Instant) :
    ∃ m l, (t.askAgain now).target = { t with machine := m, lastError := l } := by
  unfold askAgain
  split
  · exact ⟨_, _, rfl⟩
  · split
    · exact t.ask_target now
    · split <;> exact ⟨_, _, rfl⟩

theorem goOn_target (t : Target) (answered : PhaseSet) (sealing : Bool) (now : Instant) :
    ∃ m l, (t.goOn answered sealing now).target = { t with machine := m, lastError := l } := by
  unfold goOn
  dsimp only
  split
  · exact ⟨_, _, rfl⟩
  · split
    · exact ask_target _ now
    · exact ⟨_, _, rfl⟩

theorem follow_target (t : Target) (receipt : Receipt) (now : Instant) :
    ∃ m l, (t.follow receipt now).target = { t with machine := m, lastError := l } := by
  unfold follow
  split
  · split
    · exact t.askAgain_target now
    · exact ⟨_, _, rfl⟩
  · exact t.goOn_target _ _ now
  · dsimp only
    split <;> exact ⟨_, _, rfl⟩

theorem hear_target (t : Target) (payload : List UInt8) (now : Instant) :
    ∃ m l, (t.hear payload now).target
      = { t with exchange := (t.exchanged payload).1, machine := m, lastError := l } :=
  follow_target { t with exchange := (t.exchanged payload).1 } (t.exchanged payload).2 now

/-- A reaction changes the exchange, the machine and what has gone wrong. -/
theorem react_target (t : Target) (cue : Cue) :
    ∃ x m l n, (t.react cue).target
      = { t with exchange := x, machine := m, lastError := l, sendErrors := n } := by
  cases cue with
  | ask now =>
    obtain ⟨m, l, h⟩ := t.ask_target now
    exact ⟨_, m, l, _, h⟩
  | hear payload now =>
    obtain ⟨m, l, h⟩ := t.hear_target payload now
    exact ⟨_, m, l, _, h⟩
  | linger => exact ⟨_, _, _, _, rfl⟩
  | unsent error =>
    unfold react
    dsimp only
    split <;> exact ⟨_, _, _, _, rfl⟩

section Kept

variable (t : Target) (cue : Cue)

@[simp] theorem react_id : (t.react cue).target.id = t.id := by
  obtain ⟨x, m, l, n, h⟩ := t.react_target cue
  rw [h]

@[simp] theorem react_address : (t.react cue).target.address = t.address := by
  obtain ⟨x, m, l, n, h⟩ := t.react_target cue
  rw [h]

@[simp] theorem react_mode : (t.react cue).target.mode = t.mode := by
  obtain ⟨x, m, l, n, h⟩ := t.react_target cue
  rw [h]

@[simp] theorem react_protocol : (t.react cue).target.protocol = t.protocol := by
  obtain ⟨x, m, l, n, h⟩ := t.react_target cue
  rw [h]

end Kept

theorem ask_exchange (t : Target) (now : Instant) : (t.ask now).target.exchange = t.exchange := by
  obtain ⟨m, l, h⟩ := t.ask_target now
  rw [h]

@[simp] theorem hear_exchange (t : Target) (payload : List UInt8) (now : Instant) :
    (t.hear payload now).target.exchange = (t.exchanged payload).1 := by
  obtain ⟨m, l, h⟩ := t.hear_target payload now
  rw [h]

@[simp] theorem hear_joined (t : Target) (payload : List UInt8) (now : Instant) :
    (t.hear payload now).joined = (t.exchanged payload).2.joined := rfl

/-- Only a payload changes the exchange. -/
theorem react_exchange (t : Target) (cue : Cue) :
    (t.react cue).target.exchange = t.exchange ∨
      ∃ payload now, cue = .hear payload now ∧
        (t.react cue).target.exchange = (t.exchanged payload).1 := by
  cases cue with
  | ask now => exact .inl (t.ask_exchange now)
  | hear payload now => exact .inr ⟨payload, now, rfl, t.hear_exchange payload now⟩
  | linger => exact .inl rfl
  | unsent error =>
    left
    unfold react
    dsimp only
    split <;> rfl

end Target

/-! ## The path of the machine -/

namespace Machine

/-- The ways a machine can take during one reaction: it decides, it counts replies to
phases that satisfy `credit`, it stops waiting; and at the end it may note a request,
which `p` makes from the session `s`. -/
inductive Path (p : Protocol) (s : Session) (credit : PhaseSet → Prop) (start : Machine) :
    Machine → Option Request → Prop where
  | start : Path p s credit start start none
  | decide {m : Machine} : Path p s credit start m none → Path p s credit start m.nextSend.1 none
  | complete {m : Machine} (answered : PhaseSet) (sealing : Bool) (now : Instant) :
      credit answered → Path p s credit start m none →
      Path p s credit start (m.complete answered sealing now) none
  | stop {m : Machine} : Path p s credit start m none → Path p s credit start m.stopLingering none
  | send {m : Machine} {leg : Leg} {payload : List UInt8} (now : Instant) :
      Path p s credit start m none → m.currentLeg? = some leg → 0 < leg.budget →
      p.request leg.phase s = .ok payload →
      Path p s credit start (m.recordSend now) (some ⟨leg.phase, payload, false⟩)
  | resend {m : Machine} {leg : Leg} {payload : List UInt8} (now : Instant) :
      Path p s credit start m none → m.currentLeg? = some leg → leg.freeResendUsed = false →
      p.request leg.phase s = .ok payload →
      Path p s credit start (m.recordFreeResend now) (some ⟨leg.phase, payload, true⟩)

variable {p : Protocol} {s : Session} {credit : PhaseSet → Prop} {start : Machine}

theorem Path.nextRequestWithin {m : Machine} (h : Path p s credit start m none) (fuel : Nat) :
    Path p s credit start (Machine.nextRequestWithin fuel m).1 none := by
  -- each round of the search is one decision
  induction fuel generalizing m with
  | zero => exact h
  | succ fuel ih =>
    have hnext := h.decide
    unfold Machine.nextRequestWithin
    rcases hdecision : m.nextSend with ⟨m', phase | phase | _⟩
    · rw [hdecision] at hnext
      exact hnext
    · rw [hdecision] at hnext
      exact ih hnext
    · rw [hdecision] at hnext
      exact hnext

theorem nextSend_send {m m' : Machine} {phase : Phase} (h : m.nextSend = (m', .send phase)) :
    m' = m ∧ ∃ leg, m.currentLeg? = some leg ∧ leg.phase = phase ∧ 0 < leg.budget := by
  unfold nextSend at h
  rcases hleg : m.currentLeg? with _ | leg
  · rw [hleg] at h
    cases h
  · rw [hleg] at h
    dsimp only at h
    split at h
    case isTrue hbudget =>
      cases h
      exact ⟨rfl, leg, rfl, rfl, hbudget⟩
    case isFalse => cases h

/-- A phase that is to be asked is the current one, and something is left to spend. -/
theorem nextRequest_some {m m' : Machine} {phase : Phase}
    (h : m.nextRequest = (m', some phase)) :
    ∃ leg, m'.currentLeg? = some leg ∧ leg.phase = phase ∧ 0 < leg.budget := by
  -- the search ends at a phase with a budget; each round before it gave one phase up
  have within : ∀ (fuel : Nat) (m : Machine), nextRequestWithin fuel m = (m', some phase) →
      ∃ leg, m'.currentLeg? = some leg ∧ leg.phase = phase ∧ 0 < leg.budget := by
    intro fuel
    induction fuel with
    | zero => intro m h; cases h
    | succ fuel ih =>
      intro m h
      unfold nextRequestWithin at h
      rcases hdecision : m.nextSend with ⟨m₁, asked | asked | _⟩
      · rw [hdecision] at h
        cases h
        obtain ⟨rfl, hleg⟩ := nextSend_send hdecision
        exact hleg
      · rw [hdecision] at h
        exact ih m₁ h
      · rw [hdecision] at h
        cases h
  exact within _ m h

end Machine

namespace Target

/-- The sets of phases that a cue counts for. -/
def Credits (t : Target) : Cue → PhaseSet → Prop
  | .hear payload _, answered =>
    ∃ sealing, (t.exchanged payload).2.outcome = .done sealing ∧
      answered = Engine.credited (t.exchanged payload).2.answered t.machine.currentPhase?
  | _, _ => False

section Path

variable {s : Session} {credit : PhaseSet → Prop} {start : Machine}

theorem ask_path {t : Target} (h : Machine.Path t.protocol t.exchange.session credit start t.machine
      none) (now : Instant) :
    Machine.Path t.protocol t.exchange.session credit start (t.ask now).target.machine
      (t.ask now).request := by
  have hwithin := h.nextRequestWithin (t.machine.plan.length + 1)
  unfold ask
  rcases hnext : t.machine.nextRequest with ⟨machine, _ | phase⟩
  · rw [← Machine.nextRequest, hnext] at hwithin
    exact hwithin
  · rw [← Machine.nextRequest, hnext] at hwithin
    obtain ⟨leg, hleg, rfl, hbudget⟩ := Machine.nextRequest_some hnext
    dsimp only
    -- a request that cannot be made ends the target, and the machine has only decided
    split
    case h_1 payload hpayload => exact .send now hwithin hleg hbudget hpayload
    case h_2 => exact hwithin

theorem askAgain_path {t : Target}
    (h : Machine.Path t.protocol t.exchange.session credit start t.machine none) (now : Instant) :
    Machine.Path t.protocol t.exchange.session credit start (t.askAgain now).target.machine
      (t.askAgain now).request := by
  unfold askAgain
  rcases hphase : t.machine.currentPhase? with _ | phase
  · exact h
  · obtain ⟨leg, hleg, rfl⟩ := Option.map_eq_some_iff.mp hphase
    dsimp only
    split
    case isTrue => exact ask_path h now
    case isFalse hfree =>
      -- the free request of the leg is what makes the request free
      have hunused : leg.freeResendUsed = false := by
        simpa [Machine.freeResendAvailable, hleg] using hfree
      split
      case h_1 payload hpayload => exact .resend now h hleg hunused hpayload
      case h_2 => exact h

theorem goOn_path {t : Target} {answered : PhaseSet}
    (hcredit : credit (Engine.credited answered t.machine.currentPhase?)) (sealing : Bool)
    (now : Instant) (h : Machine.Path t.protocol t.exchange.session credit start t.machine none) :
    Machine.Path t.protocol t.exchange.session credit start
      (t.goOn answered sealing now).target.machine (t.goOn answered sealing now).request := by
  unfold goOn
  dsimp only
  generalize hmachine : t.machine.complete _ sealing now = machine
  -- the reply is counted first; only if that moves the machine on does it ask
  have hcomplete : Machine.Path t.protocol t.exchange.session credit start machine none :=
    hmachine ▸ h.complete _ sealing now hcredit
  split
  · exact hcomplete
  · split
    · exact ask_path (t := { t with machine }) hcomplete now
    · exact hcomplete

theorem follow_path {t : Target} {receipt : Receipt}
    (hcredit : ∀ sealing, receipt.outcome = .done sealing →
      credit (Engine.credited receipt.answered t.machine.currentPhase?))
    (h : Machine.Path t.protocol t.exchange.session credit start t.machine none) (now : Instant) :
    Machine.Path t.protocol t.exchange.session credit start (t.follow receipt now).target.machine
      (t.follow receipt now).request := by
  unfold follow
  rcases houtcome : receipt.outcome with _ | sealing | kind
  · dsimp only
    split
    · exact askAgain_path h now
    · exact h
  · exact goOn_path (hcredit sealing houtcome) sealing now h
  · dsimp only
    split <;> exact h

/-- **What a reaction does to the machine.** -/
theorem react_path (t : Target) (cue : Cue) :
    Machine.Path t.protocol (t.react cue).target.exchange.session (t.Credits cue) t.machine
      (t.react cue).target.machine (t.react cue).request := by
  cases cue with
  | ask now =>
    have hpath := ask_path (t := t) (.start : Machine.Path t.protocol t.exchange.session
      (t.Credits (.ask now)) t.machine t.machine none) now
    obtain ⟨m, l, h⟩ := t.ask_target now
    rw [show t.react (.ask now) = t.ask now from rfl]
    rwa [h] at hpath ⊢
  | hear payload now =>
    rw [show t.react (.hear payload now) = t.hear payload now from rfl, t.hear_exchange]
    -- a reply counts for what the receipt says it answered
    have hcredit : ∀ sealing, (t.exchanged payload).2.outcome = .done sealing →
        t.Credits (.hear payload now)
          (Engine.credited (t.exchanged payload).2.answered t.machine.currentPhase?) :=
      fun sealing h => ⟨sealing, h, rfl⟩
    exact follow_path (t := { t with exchange := (t.exchanged payload).1 }) hcredit .start now
  | linger => exact .stop .start
  | unsent error =>
    unfold react
    dsimp only
    split <;> exact .start

end Path

end Target

/-! ## Moments -/

/-- Something happens to a target. -/
structure Moment where
  /-- The target before. -/
  target : Target
  cue : Cue
  deriving Repr, DecidableEq

/-- What the target does then. -/
def Moment.reaction (m : Moment) : Reaction := m.target.react m.cue

theorem Moment.reaction_id (m : Moment) : m.reaction.target.id = m.target.id :=
  m.target.react_id m.cue

theorem Moment.reaction_protocol (m : Moment) : m.reaction.target.protocol = m.target.protocol :=
  m.target.react_protocol m.cue

namespace Target

/-- What waits after a payload, and what is held then, are shorter than the payload and
what was held before: the head of the piece that made the reply whole is gone. -/
theorem hear_waiting_le {t : Target} {payload whole : List UInt8} {now : Instant}
    (h : (t.hear payload now).waiting? = some whole) :
    whole.length + (t.hear payload now).target.exchange.fragments.buffered + 9
      ≤ payload.length + t.exchange.fragments.buffered := by
  have hjoined : (t.exchanged payload).2.joined = some whole :=
    (Reaction.goesOn_of_waiting h).2
  rw [t.hear_exchange]
  exact (t.exchange.receive_cases t.protocol t.config.requestParams t.machine.currentPhase?
    t.machine.sealedPhases payload).length_joined_le hjoined

theorem hear_waiting_lt {t : Target} {payload whole : List UInt8} {now : Instant}
    (h : (t.hear payload now).waiting? = some whole) :
    whole.length + (t.hear payload now).target.exchange.fragments.buffered
      < payload.length + t.exchange.fragments.buffered := by
  have hle := hear_waiting_le h
  omega

/-- The moments that one payload leads to: its own, and those of the replies that it and
they make whole. -/
def digest (t : Target) (payload : List UInt8) (now : Instant) : List Moment :=
  ⟨t, .hear payload now⟩ ::
    match _h : (t.hear payload now).waiting? with
    | none => []
    | some whole => (t.hear payload now).target.digest whole now
termination_by payload.length + t.exchange.fragments.buffered
decreasing_by exact hear_waiting_lt _h

theorem digest_of_none {t : Target} {payload : List UInt8} {now : Instant}
    (h : (t.hear payload now).waiting? = none) :
    t.digest payload now = [⟨t, .hear payload now⟩] := by
  rw [digest]
  split
  · rfl
  · simp_all

theorem digest_of_some {t : Target} {payload whole : List UInt8} {now : Instant}
    (h : (t.hear payload now).waiting? = some whole) :
    t.digest payload now
      = ⟨t, .hear payload now⟩ :: (t.hear payload now).target.digest whole now := by
  rw [digest]
  split
  · simp_all
  · simp_all

/-- Induction on a payload and what it leads to: the payload is the last one, or it makes a
reply whole, which the target goes on to hear. -/
@[elab_as_elim]
theorem digest_induction (now : Instant) {motive : Target → List UInt8 → Prop}
    (last : ∀ t payload, (t.hear payload now).waiting? = none → motive t payload)
    (more : ∀ t payload whole, (t.hear payload now).waiting? = some whole →
      motive (t.hear payload now).target whole → motive t payload)
    (t : Target) (payload : List UInt8) : motive t payload := by
  induction hsize : payload.length + t.exchange.fragments.buffered using Nat.strong_induction_on
    generalizing t payload with
  | h size ih =>
    rcases hwaiting : (t.hear payload now).waiting? with _ | whole
    · exact last t payload hwaiting
    · have hlt := hear_waiting_lt hwaiting
      exact more t payload whole hwaiting (ih _ (hsize ▸ hlt) _ whole rfl)

/-- **A payload has few moments.** Each but the first uses up nine octets of what came in or
was held. -/
theorem length_digest_le (t : Target) (payload : List UInt8) (now : Instant) :
    (t.digest payload now).length
      ≤ 1 + (payload.length + t.exchange.fragments.buffered) / 9 := by
  induction t, payload using digest_induction now with
  | last t payload hwaiting =>
    rw [digest_of_none hwaiting, List.length_singleton]
    exact Nat.le_add_right 1 _
  | more t payload whole hwaiting ih =>
    have hle := hear_waiting_le hwaiting
    rw [digest_of_some hwaiting, List.length_cons]
    omega

/-- What the passing of time means to a target. -/
def clockCue? (t : Target) (now : Instant) : Option Cue :=
  if t.machine.isLingering then if t.machine.lingerExpired now then some .linger else none
  else if t.machine.isDue now then some (.ask now) else none

end Target

end ServerProbe
