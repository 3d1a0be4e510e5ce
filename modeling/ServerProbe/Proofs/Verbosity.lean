/-
Options that change nothing but what is shown.

Whether faults are shown, and the options by name, are part of what a query is started with, but
nothing that is sent or reported depends on them. To see this, all of it is blotted out: the two
options in every target and the diagnostics of the engine (`Engine.hushed`). Every call does the
same to what is left, whether they are blotted out before or after it, and hands out the same
(`perform_hushed`). So two runs that look alike when the options are blotted out queue and report
the same.
-/
import ServerProbe.Proofs.Journal
import ServerProbe.Proofs.Parse

set_option autoImplicit false

namespace ServerProbe

/-! ## Blotting out -/

/-- The options without those that only matter to whoever watches. -/
def Config.hushed (c : Config) : Config := { c with showErrors := false, params := [] }

/-- A target that shows nothing. -/
def Target.hushed (t : Target) : Target := { t with config := t.config.hushed }

namespace Engine

/-- An engine whose targets show nothing. -/
def hushed (e : Engine) : Engine :=
  { e with targets := e.targets.map Target.hushed, diagnostics := [] }

/-- A call without the options that only matter to whoever watches. -/
def Call.hushed : Call → Call
  | .add mode protocol address config nonce now =>
    .add mode protocol address config.hushed nonce now
  | call => call

/-! ## Targets -/

variable (e : Engine) (t : Target) (id : Nat)

theorem target?_hushed : e.hushed.target? id = (e.target? id).map Target.hushed := by
  rw [target?, target?, hushed, List.find?_map]
  rfl

theorem idAt?_hushed (address : Address) : e.hushed.idAt? address = e.idAt? address := rfl

theorem put_hushed : (e.put t).hushed = e.hushed.put t.hushed := by
  simp only [put, hushed, List.map_map, Engine.mk.injEq, and_true]
  refine List.map_congr_left fun other _ => ?_
  show Target.hushed (if other.id = t.id then t else other)
    = if other.id = t.id then t.hushed else other.hushed
  split
  · rfl
  · rfl

theorem insert_hushed : (e.insert t).hushed = e.hushed.insert t.hushed := by
  unfold insert hushed
  rw [List.map_append]
  rfl

theorem remove_hushed : (e.remove t).hushed = e.hushed.remove t.hushed := by
  unfold remove hushed
  rw [List.filter_map]
  rfl

theorem finalize_hushed (status : Option TargetStatus) :
    (e.finalize id status).hushed = e.hushed.finalize id status := by
  unfold finalize
  rw [target?_hushed]
  rcases e.target? id with _ | t
  · rfl
  · dsimp only [Option.map_some]
    rw [← remove_hushed]
    by_cases hsilent : t.mode = .broadcast ∧ status = none
    · rw [if_pos hsilent]
      exact (if_pos hsilent).symm
    · rw [if_neg hsilent]
      exact (if_neg hsilent).symm

/-! ## Faults -/

/-- What is shown is blotted out, and what shows nothing shows nothing. -/
theorem diagnose_hushed (kind : ErrorKind) (message : String) :
    (e.diagnose t kind message).hushed = e.hushed.diagnose t.hushed kind message := by
  have hnone : e.hushed.diagnose t.hushed kind message = e.hushed := rfl
  rw [hnone]
  unfold diagnose
  split
  · rfl
  · rfl

theorem abort_hushed (kind : ErrorKind) (message : String) :
    (e.abort t kind message).hushed = e.hushed.abort t.hushed kind message := by
  rw [abort, finalize_hushed, put_hushed, diagnose_hushed]
  rfl

/-! ## Sending -/

theorem transmit_hushed (payload : List UInt8) :
    (e.transmit t payload).hushed = e.hushed.transmit t.hushed payload := rfl

theorem request_hushed (phase : Phase) :
    t.protocol.request phase t.exchange.session t.config.hushed.requestParams
      = t.protocol.request phase t.exchange.session t.config.requestParams := by
  rw [t.protocol.request_params, ← t.protocol.request_params _ _ t.config.requestParams]

theorem sendCurrent_hushed (now : Instant) :
    (e.sendCurrent id now).hushed = e.hushed.sendCurrent id now := by
  unfold sendCurrent
  rw [target?_hushed]
  rcases e.target? id with _ | t
  · rfl
  · dsimp only [Option.map_some, Target.hushed]
    rcases t.machine.nextRequest with ⟨machine, _ | phase⟩
    · dsimp only
      rw [finalize_hushed, put_hushed]
      rfl
    · dsimp only
      rw [request_hushed]
      rcases t.protocol.request phase t.exchange.session t.config.requestParams
        with fault | payload
      · dsimp only
        rw [abort_hushed, put_hushed]
        rfl
      · dsimp only
        rw [transmit_hushed, put_hushed]
        rfl

theorem resendCurrent_hushed (now : Instant) :
    (e.resendCurrent id now).hushed = e.hushed.resendCurrent id now := by
  unfold resendCurrent
  rw [target?_hushed]
  rcases e.target? id with _ | t
  · rfl
  · dsimp only [Option.map_some, Target.hushed]
    rcases t.machine.currentPhase? with _ | phase
    · rfl
    · dsimp only
      split
      · exact sendCurrent_hushed e id now
      · rw [request_hushed]
        rcases t.protocol.request phase t.exchange.session t.config.requestParams
          with fault | payload
        · rfl
        · dsimp only
          rw [transmit_hushed, put_hushed]
          rfl

/-! ## Receiving -/

theorem proceed_hushed (answered : PhaseSet) (sealing : Bool) (now : Instant) :
    (e.proceed t answered sealing now).hushed
      = e.hushed.proceed t.hushed answered sealing now := by
  unfold proceed
  dsimp only [Target.hushed]
  split
  · rw [finalize_hushed, put_hushed]
    rfl
  · split
    · rw [sendCurrent_hushed, put_hushed]
      rfl
    · rw [put_hushed]
      rfl

theorem process_hushed (payload : List UInt8) (now : Instant) :
    (e.process id payload now).hushed = e.hushed.process id payload now := by
  unfold process
  rw [target?_hushed]
  rcases e.target? id with _ | t
  · rfl
  · have hexchanged : t.hushed.exchange.receive t.hushed.protocol t.hushed.config.requestParams
        t.hushed.machine.currentPhase? t.hushed.machine.sealedPhases payload
        = t.exchange.receive t.protocol t.config.requestParams t.machine.currentPhase?
          t.machine.sealedPhases payload :=
      t.exchange.receive_params t.protocol
        (show t.hushed.config.requestParams.rulePolicy = t.config.requestParams.rulePolicy from rfl)
        _ _ payload
    dsimp only [Option.map_some]
    rw [hexchanged]
    rcases t.exchange.receive t.protocol t.config.requestParams t.machine.currentPhase?
      t.machine.sealedPhases payload with ⟨exchange, receipt⟩
    dsimp only
    -- the payload has been taken in, and what it made whole waits
    generalize hwaits : receipt.completed.map (fun whole => (id, whole)) = completed
    have htaken :
        ({ e.put { t with exchange } with pending := e.pending ++ completed } : Engine).hushed
        = { e.hushed.put { t.hushed with exchange } with
          pending := e.hushed.pending ++ completed } := by
      have hput := put_hushed e { t with exchange }
      exact congrArg (fun e' : Engine => { e' with pending := e.pending ++ completed }) hput
    rcases receipt.outcome with _ | sealing | kind
    · dsimp only
      split
      · rw [resendCurrent_hushed, htaken]
      · exact htaken
    · dsimp only
      rw [proceed_hushed, htaken]
      rfl
    · dsimp only
      split
      · rw [abort_hushed, htaken]
        rfl
      · rw [diagnose_hushed, htaken]
        rfl

theorem drainWithin_hushed (now : Instant) (fuel : Nat) :
    (drainWithin now fuel e).hushed = drainWithin now fuel e.hushed := by
  induction fuel generalizing e with
  | zero => rfl
  | succ fuel ih =>
    unfold drainWithin
    rw [show e.hushed.pending = e.pending from rfl]
    rcases e.pending with _ | ⟨⟨id, payload⟩, rest⟩
    · rfl
    · dsimp only
      rw [ih, process_hushed]
      rfl

theorem drainBound_hushed : e.hushed.drainBound = e.drainBound := by
  unfold drainBound hushed
  rw [List.map_map]
  rfl

theorem drain_hushed (now : Instant) : (e.drain now).hushed = e.hushed.drain now := by
  rw [drain, drain, drainWithin_hushed, drainBound_hushed]

theorem route_hushed (sender : Address) :
    e.hushed.route sender = ((e.route sender).1.hushed, (e.route sender).2) := by
  have hfind :
      e.hushed.targets.find? (fun t => t.mode == .broadcast && t.address.port == sender.port)
      = (e.targets.find? fun t => t.mode == .broadcast && t.address.port == sender.port).map
          Target.hushed := by
    rw [hushed, List.find?_map]
    rfl
  unfold route
  rw [idAt?_hushed, hfind]
  generalize e.targets.find? (fun t => t.mode == .broadcast && t.address.port == sender.port)
    = found
  rcases e.idAt? sender with _ | id
  · rcases found with _ | parent
    · rfl
    · dsimp only [Option.map_some]
      by_cases hknown : parent.responders.contains sender = true
      · rw [if_pos hknown]
        exact if_pos hknown
      · rw [if_neg hknown]
        refine (if_neg hknown).trans ?_
        rw [insert_hushed, put_hushed]
        rfl
  · rfl

/-! ## What a driver does -/

theorem add_hushed (mode : TargetMode) (protocol : String) (address : Address) (config : Config)
    (nonce : UInt32) (now : Instant) :
    e.hushed.add mode protocol address config.hushed nonce now
      = ((e.add mode protocol address config nonce now).1.hushed,
        (e.add mode protocol address config nonce now).2) := by
  unfold add
  rw [idAt?_hushed]
  rcases Protocol.ofId? protocol with _ | p
  · rfl
  · dsimp only
    split
    · rfl
    · rw [sendCurrent_hushed, insert_hushed]
      rfl

theorem receive_hushed (sender : Address) (payload : List UInt8) (now : Instant) :
    (e.receive sender payload now).hushed = e.hushed.receive sender payload now := by
  unfold receive
  rw [route_hushed]
  rcases e.route sender with ⟨e', _ | id⟩
  · rfl
  · dsimp only
    rw [drain_hushed]
    rfl

theorem deliver_hushed (payload : List UInt8) (now : Instant) :
    e.hushed.deliver id payload now
      = ((e.deliver id payload now).1.hushed, (e.deliver id payload now).2) := by
  unfold deliver
  rw [target?_hushed]
  rcases e.target? id with _ | t
  · rfl
  · dsimp only [Option.map_some]
    rw [drain_hushed]
    rfl

theorem tickTarget_hushed (now : Instant) :
    (tickTarget now e id).hushed = tickTarget now e.hushed id := by
  unfold tickTarget
  rw [target?_hushed]
  rcases e.target? id with _ | t
  · rfl
  · dsimp only [Option.map_some, Target.hushed]
    split
    · split
      · rw [finalize_hushed, put_hushed]
        rfl
      · rfl
    · split
      · exact sendCurrent_hushed e id now
      · rfl

theorem foldl_tickTarget_hushed (now : Instant) (ids : List Nat) :
    (ids.foldl (tickTarget now) e).hushed = ids.foldl (tickTarget now) e.hushed := by
  induction ids generalizing e with
  | nil => rfl
  | cons id rest ih => rw [List.foldl_cons, List.foldl_cons, ih, tickTarget_hushed]

theorem tick_hushed (now : Instant) : (e.tick now).hushed = e.hushed.tick now := by
  have hids : e.hushed.targets.map Target.id = e.targets.map Target.id := by
    rw [hushed, List.map_map]
    rfl
  rw [tick, tick, hids, foldl_tickTarget_hushed]

theorem sendFailed_hushed (error : TransportError) :
    (e.sendFailed id error).hushed = e.hushed.sendFailed id error := by
  unfold sendFailed
  rw [target?_hushed]
  rcases e.target? id with _ | t
  · rfl
  · dsimp only [Option.map_some]
    split
    · rw [finalize_hushed, put_hushed]
      rfl
    · exact put_hushed e _

theorem poll_hushed : e.hushed.poll = (e.poll.1.hushed, e.poll.2) := by
  unfold poll
  rw [show e.hushed.outbox = e.outbox from rfl]
  rcases e.outbox with _ | ⟨next, rest⟩
  · rfl
  · rfl

/-- **Every call is blind to what is blotted out.** It does the same to the rest and hands out the
same. -/
theorem perform_hushed (call : Call) :
    e.hushed.perform call.hushed = ((e.perform call).1.hushed, (e.perform call).2) := by
  cases call with
  | add mode protocol address config nonce now =>
    unfold perform Call.hushed
    dsimp only
    rw [add_hushed]
    rcases e.add mode protocol address config nonce now with ⟨e', error | id⟩
    · rfl
    · rfl
  | receive sender payload now => exact congrArg (·, _) (receive_hushed e sender payload now).symm
  | deliver id payload now =>
    unfold perform Call.hushed
    dsimp only
    rw [deliver_hushed]
    rcases e.deliver id payload now with ⟨e', error | ⟨⟩⟩
    · rfl
    · rfl
  | tick now => exact congrArg (·, _) (tick_hushed e now).symm
  | sendFailed id error => exact congrArg (·, _) (sendFailed_hushed e id error).symm
  | poll => exact congrArg (fun polled => (polled.1, Answer.next polled.2)) (poll_hushed e)
  | takeCompleted => rfl

/-! ## Runs -/

theorem run_hushed (calls : List Call) : run (calls.map Call.hushed) = (run calls).hushed := by
  induction calls using List.reverseRecOn with
  | nil => rfl
  | append_singleton calls call ih =>
    rw [List.map_append, List.map_singleton, run_concat, run_concat, ih, after, perform_hushed,
      after]

/-- What a run collects is the same if every call gives the same. -/
theorem collect_hushed {α : Type} {f : Engine → Call → List α}
    (hf : ∀ e call, f e.hushed call.hushed = f e call) (calls : List Call) :
    collect f {} (calls.map Call.hushed) = collect f {} calls := by
  induction calls using List.reverseRecOn with
  | nil => rfl
  | append_singleton calls call ih =>
    rw [List.map_append, List.map_singleton, collect_concat, collect_concat, ih, run_hushed, hf]

theorem polled_hushed (e : Engine) (call : Call) :
    polled e.hushed call.hushed = polled e call := by
  rw [polled, polled, perform_hushed]

theorem taken_hushed (e : Engine) (call : Call) : taken e.hushed call.hushed = taken e call := by
  rw [taken, taken, perform_hushed]

theorem queued_hushed (calls : List Call) : queued (calls.map Call.hushed) = queued calls := by
  rw [queued, queued, run_hushed, collect_hushed polled_hushed]
  rfl

theorem reported_hushed (calls : List Call) :
    reported (calls.map Call.hushed) = reported calls := by
  rw [reported, reported, run_hushed, collect_hushed taken_hushed]
  rfl

/-- The answers to the calls of a run, in order. -/
def answers (calls : List Call) : List Answer :=
  collect (fun e call => [(e.perform call).2]) {} calls

theorem answers_hushed (calls : List Call) : answers (calls.map Call.hushed) = answers calls :=
  collect_hushed (fun e call => by rw [perform_hushed]) calls

/-- **What is shown changes nothing.** Runs whose calls differ only in whether faults are shown
and in the options by name get the same answers, queue the same and report the same. -/
theorem run_alike {calls calls' : List Call}
    (h : calls.map Call.hushed = calls'.map Call.hushed) :
    answers calls = answers calls' ∧ queued calls = queued calls' ∧
      reported calls = reported calls' := by
  refine ⟨?_, ?_, ?_⟩
  · rw [← answers_hushed, h, answers_hushed]
  · rw [← queued_hushed, h, queued_hushed]
  · rw [← reported_hushed, h, reported_hushed]

end Engine

end ServerProbe
