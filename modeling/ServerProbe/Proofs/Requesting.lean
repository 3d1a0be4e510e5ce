/-
A request can always be built.

At one moment a target has one request built at most: because it is due, or because the
server wants it again. Which phase it is for can be told beforehand (`Moment.wants?`), and a
target that is ready to ask can make that request; so whatever is wanted is queued
(`Moment.built`), and no target ends because of a request.

In particular the first request of a target is queued when the target is added. A query that
is refused leaves no trace.
-/
import ServerProbe.Proofs.Ending
import ServerProbe.Proofs.Indexing

set_option autoImplicit false

namespace ServerProbe

/-! ## What is wanted -/

/-- What becomes of a request that is wanted: it can be built, and is queued. -/
inductive Built (p : Protocol) (s : Session) : Option Phase → Option Request → Prop where
  /-- None is wanted, and none is queued. -/
  | nothing : Built p s none none
  | queued {phase : Phase} {payload : List UInt8} (free : Bool) :
      p.request phase s = .ok payload → Built p s (some phase) (some ⟨phase, payload, free⟩)

namespace Target

variable (t : Target)

/-- The phase that a target has a request built for when one is due: the first that has
something left to spend. -/
def wants? : Option Phase := t.machine.nextRequest.2

/-- The phase that it has a request built for when the server wants it again. -/
def wantsAgain? : Option Phase :=
  if t.machine.freeResendAvailable then t.machine.currentPhase? else t.wants?

/-- The target when a payload has been taken in and what it answers counted. -/
def heeding (payload : List UInt8) (now : Instant) : Target :=
  { t with exchange := (t.exchanged payload).1, machine := t.counted payload now }

end Target

/-- The phase that a request is built for at a moment. After a reply that is done with the
current phase it is the next one. -/
def Moment.wants? (m : Moment) : Option Phase :=
  match m.cue with
  | .ask _ => m.target.wants?
  | .hear payload now =>
    let heeding := m.target.heeding payload now
    match (m.target.exchanged payload).2.outcome with
    | .inProgress => if (m.target.exchanged payload).2.resend then heeding.wantsAgain? else none
    | .done _ =>
      if heeding.machine.isFinished then none
      else if heeding.machine.currentPhase?.isSome
          ∧ heeding.machine.currentPhase? ≠ m.target.machine.currentPhase? then heeding.wants?
      else none
    | .error _ => none
  | .linger => none
  | .unsent _ => none

/-! ## What is wanted is built -/

theorem Built.of_some {p : Protocol} {s : Session} {phase : Phase} {request : Option Request}
    (h : Built p s (some phase) request) :
    ∃ payload free, p.request phase s = .ok payload ∧ request = some ⟨phase, payload, free⟩ := by
  cases h with
  | queued free hpayload => exact ⟨_, free, hpayload, rfl⟩

namespace Target.Ready

variable {t : Target} (h : t.Ready) (now : Instant)
include h

theorem ask_built :
    Built t.protocol t.exchange.session t.wants? (t.ask now).request := by
  unfold ask wants?
  rcases hnext : t.machine.nextRequest with ⟨machine, _ | phase⟩
  · exact .nothing
  · obtain ⟨payload, hpayload⟩ := h.next_ok hnext
    dsimp only
    rw [hpayload]
    exact .queued false hpayload

theorem askAgain_built :
    Built t.protocol t.exchange.session t.wantsAgain? (t.askAgain now).request := by
  unfold askAgain wantsAgain?
  rcases hleg : t.machine.currentLeg? with _ | leg
  · -- where nothing is asked, nothing is due either
    have hnothing : t.machine.nextRequest = (t.machine, none) := by
      rw [Machine.nextRequest, Machine.nextRequestWithin, Machine.nextSend, hleg]
    simp only [Machine.currentPhase?, Machine.freeResendAvailable, hleg, Option.map_none,
      Option.any_none, Bool.false_eq_true, if_false, wants?, hnothing]
    exact .nothing
  · have hphase : t.machine.currentPhase? = some leg.phase := by
      rw [Machine.currentPhase?, hleg, Option.map_some]
    rw [hphase]
    dsimp only
    rcases hfree : t.machine.freeResendAvailable with _ | _
    · exact h.ask_built now
    · obtain ⟨payload, hpayload⟩ := h.request_ok (s := t.exchange.session) .start hleg
      rw [hpayload]
      exact .queued true hpayload

theorem hear_built (payload : List UInt8) :
    Built t.protocol (t.exchanged payload).1.session (Moment.wants? ⟨t, .hear payload now⟩)
      (t.hear payload now).request := by
  have hready : (t.heeding payload now).Ready := h.counted payload now
  unfold heeding Target.counted at hready
  unfold Moment.wants? heeding Target.counted hear follow
  dsimp only
  rcases houtcome : (t.exchanged payload).2.outcome with _ | sealing | kind
  · rw [houtcome] at hready
    dsimp only at hready ⊢
    split
    · exact hready.askAgain_built now
    · exact .nothing
  · rw [houtcome] at hready
    dsimp only at hready ⊢
    unfold goOn
    dsimp only
    split
    · exact .nothing
    · split
      · exact hready.ask_built now
      · exact .nothing
  · dsimp only
    split
    · exact .nothing
    · exact .nothing

end Target.Ready

/-- **What is wanted is built,** with the session of the moment, and queued. -/
theorem Moment.built {m : Moment} (h : m.target.Ready) :
    Built m.target.protocol m.reaction.target.exchange.session m.wants? m.reaction.request := by
  obtain ⟨t, cue⟩ := m
  change Built t.protocol (t.react cue).target.exchange.session _ (t.react cue).request
  cases cue with
  | ask now =>
    change Built _ (t.ask now).target.exchange.session _ (t.ask now).request
    rw [t.ask_exchange now]
    exact h.ask_built now
  | hear payload now =>
    change Built _ (t.hear payload now).target.exchange.session _ (t.hear payload now).request
    rw [t.hear_exchange]
    exact h.hear_built now payload
  | linger => exact .nothing
  | unsent error =>
    unfold Target.react
    dsimp only
    split
    · exact .nothing
    · exact .nothing

/-! ## The first request -/

namespace Machine

/-- A phase that something is left to spend on is the next one to be asked. -/
theorem nextRequest_of_budget {m : Machine} {leg : Leg} (hleg : m.currentLeg? = some leg)
    (hbudget : 0 < leg.budget) : m.nextRequest = (m, some leg.phase) := by
  have hnext : m.nextSend = (m, .send leg.phase) := by
    unfold nextSend
    rw [hleg]
    exact if_pos hbudget
  rw [nextRequest, nextRequestWithin, hnext]

theorem nextRequest_ofConfig (c : Capabilities) (config : Config) :
    ∃ phase, (plannedPhases c config).toList.head? = some phase ∧
      (ofConfig c config).nextRequest = (ofConfig c config, some phase) := by
  -- the status is planned, so there is a first phase, and nothing has been spent on it
  obtain ⟨phase, rest, hphases⟩ : ∃ phase rest, (plannedPhases c config).toList = phase :: rest :=
    List.exists_cons_of_ne_nil (List.ne_nil_of_mem (PhaseSet.mem_toList.mpr
      status_mem_plannedPhases))
  have hleg : (ofConfig c config).currentLeg? = some { phase, budget := config.sendsPerPhase } := by
    rw [currentLeg?, ofConfig, hphases]
    rfl
  have hbudget : 0 < config.sendsPerPhase := by
    have hsize : 1 < UInt32.size := by decide
    unfold Config.sendsPerPhase
    omega
  exact ⟨phase, by rw [hphases]; rfl, nextRequest_of_budget hleg hbudget⟩

end Machine

namespace Target

/-- A target that has not been asked is ready to ask. -/
theorem Ready.fresh (id : Nat) (address : Address) (mode : TargetMode) (p : Protocol)
    (config : Config) (nonce : UInt32) : (Target.fresh id address mode p config nonce).Ready where
  sound := Machine.sound_ofConfig p.capabilities config
  planned := .fresh id address mode p config nonce
  gated := rfl
  token := by
    intro leg hleg _ hdone
    obtain ⟨phase, -, rfl⟩ := List.mem_map.mp hleg
    cases hdone

/-- It asks for the first phase of its plan. -/
theorem ask_fresh (id : Nat) (address : Address) (mode : TargetMode) (p : Protocol)
    (config : Config) (nonce : UInt32) (now : Instant) :
    ∃ phase payload, (Machine.plannedPhases p.capabilities config).toList.head? = some phase ∧
      p.request phase (p.prepare nonce {}) = .ok payload ∧
      (Target.fresh id address mode p config nonce).ask now =
        { target :=
            { Target.fresh id address mode p config nonce with
              machine := (Machine.ofConfig p.capabilities config).recordSend now }
          request := some ⟨phase, payload, false⟩ } := by
  obtain ⟨phase, hfirst, hnext⟩ := Machine.nextRequest_ofConfig p.capabilities config
  have hbuilt := (Ready.fresh id address mode p config nonce).ask_built now
  have hwants : (Target.fresh id address mode p config nonce).wants? = some phase :=
    congrArg Prod.snd hnext
  rw [hwants] at hbuilt
  obtain ⟨payload, -, hpayload, -⟩ := hbuilt.of_some
  have hnext' : (Target.fresh id address mode p config nonce).machine.nextRequest
    = ((Target.fresh id address mode p config nonce).machine, some phase) := hnext
  refine ⟨phase, payload, hfirst, hpayload, ?_⟩
  unfold ask
  rw [hnext']
  dsimp only
  rw [hpayload]
  rfl

end Target

namespace Engine

section Adding

variable {mode : TargetMode} {protocol : String} {address : Address} {config : Config}
  {nonce : UInt32} {now : Instant}

/-- A query that starts has asked for the first phase of its plan, and has not ended. -/
theorem WellKept.asked_of_added {e : Engine} (h : e.WellKept) {id : Nat}
    (hadded : (e.perform (.add mode protocol address config nonce now)).2 = .added id) :
    ∃ p phase payload, Protocol.ofId? protocol = some p ∧
      (Machine.plannedPhases p.capabilities config).toList.head? = some phase ∧
      p.request phase (p.prepare nonce {}) = .ok payload ∧
      (e.after (.add mode protocol address config nonce now)).target? id
        = some
          { Target.fresh id address mode p config nonce with
            machine := (Machine.ofConfig p.capabilities config).recordSend now } ∧
      (e.after (.add mode protocol address config nonce now)).outbox
        = e.outbox ++ [⟨id, address, payload⟩] := by
  obtain ⟨p, hp, hid, -, hstory⟩ := story_of_added hadded
  obtain ⟨phase, payload, hfirst, hpayload, hask⟩ :=
    Target.ask_fresh id address mode p config nonce now
  -- the call adds the target, and the target asks
  have hcourse := course_story h (.add mode protocol address config nonce now)
  have houtbox := hcourse.outbox
  rw [hstory] at hcourse houtbox
  obtain ⟨hadds, hrest⟩ := hcourse.of_cons
  obtain ⟨hasks, hend⟩ := hrest.of_cons
  refine ⟨p, phase, payload, hp, hfirst, hpayload, ?_, ?_⟩
  · have hfound := target?_tell_reacted ((h.take _).tell hadds) hasks
    rw [← hend.of_nil] at hfound
    refine hfound.trans ?_
    rw [Moment.after?, Moment.reaction, Target.react, hask, if_pos rfl]
  · have hsent : Event.transmit? (.reacted ⟨.fresh id address mode p config nonce, .ask now⟩)
        = some ⟨id, address, payload⟩ := by
      change Moment.transmit? _ = _
      rw [Moment.transmit?, Moment.reaction, Target.react, hask]
      rfl
    rw [houtbox, List.filterMap_cons_none rfl, List.filterMap_cons_some hsent, List.filterMap_nil]
    rfl

/-- A query is refused for a protocol that is not known, or for an address at which a server is
being queried, and then nothing has changed. -/
theorem WellKept.refused {e : Engine} (h : e.WellKept) {error : QueryError}
    (hrefused : (e.perform (.add mode protocol address config nonce now)).2 = .refused error) :
    e.after (.add mode protocol address config nonce now) = e ∧
      ((Protocol.ofId? protocol = none ∧ error = .unknownProtocol protocol) ∨
      (mode = .unicast ∧ (∃ t ∈ e.targets, t.mode = .unicast ∧ t.address = address) ∧
        error = .duplicateTarget address)) := by
  rcases hp : Protocol.ofId? protocol with _ | p
  · simp only [perform, add, hp, Answer.refused.injEq] at hrefused
    refine ⟨?_, .inl ⟨rfl, hrefused.symm⟩⟩
    simp only [Engine.after, perform, add, hp]
  · by_cases htaken : mode = .unicast ∧ (e.idAt? address).isSome
    · simp only [perform, add, hp, if_pos htaken, Answer.refused.injEq] at hrefused
      refine ⟨?_, .inr ⟨htaken.1, (h.isSome_idAt?_iff address).mp htaken.2, hrefused.symm⟩⟩
      simp only [Engine.after, perform, add, hp, if_pos htaken]
    · simp only [perform, add, hp, if_neg htaken] at hrefused
      cases hrefused

end Adding

/-- **A request can always be built.** In every run, and after it:

* whenever something happens to a target, a host that answered a broadcast among them, the
  request that is wanted then can be built, and it is queued; and a target that ends with an
  error has heard a broken payload;
* a query that starts has the next id, is active, has noted one request and has queued that
  one datagram, for the first phase of its plan;
* a query that is refused leaves everything as it was; the protocol is not known, or a server
  is being queried at the address. -/
theorem requests_built (calls : List Call) :
    (∀ m, .reacted m ∈ journal calls →
      Built m.target.protocol m.reaction.target.exchange.session m.wants? m.reaction.request ∧
      ∀ kind, m.reaction.fate = .over (some (.error kind)) → m.Breaks kind) ∧
    ∀ mode protocol address config nonce now,
      let call := .add mode protocol address config nonce now
      (∀ id, ((run calls).perform call).2 = .added id → ∃ p phase payload,
        Protocol.ofId? protocol = some p ∧
        (Machine.plannedPhases p.capabilities config).toList.head? = some phase ∧
        p.request phase (p.prepare nonce {}) = .ok payload ∧
        (run (calls ++ [call])).target? id = some
          { Target.fresh id address mode p config nonce with
            machine := (Machine.ofConfig p.capabilities config).recordSend now } ∧
        (run (calls ++ [call])).outbox = (run calls).outbox ++ [⟨id, address, payload⟩]) ∧
      ∀ error, ((run calls).perform call).2 = .refused error →
        run (calls ++ [call]) = run calls ∧
        ((Protocol.ofId? protocol = none ∧ error = .unknownProtocol protocol) ∨
        (mode = .unicast ∧ (∃ t ∈ (run calls).targets, t.mode = .unicast ∧ t.address = address) ∧
          error = .duplicateTarget address)) := by
  have hkept := (told_journal calls).wellKept
  refine ⟨fun m hm => ?_, fun mode protocol address config nonce now => ⟨?_, ?_⟩⟩
  · have hready := ready_of_journal hm
    refine ⟨Moment.built hready, fun kind hover => ?_⟩
    rcases Moment.over_cases hready hover with hnone | ⟨broken, hbreaks, hstatus⟩ | ⟨-, hstatus⟩
    · cases hnone
    · obtain rfl : kind = broken := by simpa using hstatus
      exact hbreaks
    · cases hstatus
  · intro id hadded
    rw [run_concat]
    exact hkept.asked_of_added hadded
  · intro error hrefused
    rw [run_concat]
    exact hkept.refused hrefused

/-- A broadcast in the fourth GameSpy query, and a host that answers its challenge. -/
def tokenFromBroadcast : List Call :=
  [.add .broadcast "gs4" ⟨"192.0.2.255", 25565⟩ {} 7 0,
    .receive ⟨"192.0.2.7", 25565⟩ [0x09, 0, 0, 0, 7, 0x31, 0x32, 0x00] 1]

/-- The host goes on from the middle of the conversation, so it is asked for the status with
the token. Its address is taken then; at another one a query starts with the challenge. -/
theorem requests_built_spawned :
    (∃ m, .reacted m ∈ journal tokenFromBroadcast ∧ m.target.parent = some 1 ∧
      ∃ payload free, m.reaction.request = some ⟨.status, payload, free⟩) ∧
    run (tokenFromBroadcast ++ [.add .unicast "gs4" ⟨"192.0.2.7", 25565⟩ {} 7 2])
      = run tokenFromBroadcast ∧
    ∃ payload, (run (tokenFromBroadcast
        ++ [.add .unicast "gs4" ⟨"192.0.2.8", 25565⟩ {} 7 2])).outbox
      = (run tokenFromBroadcast).outbox ++ [⟨3, ⟨"192.0.2.8", 25565⟩, payload⟩] := by
  obtain ⟨hbuilt, hadds⟩ := requests_built tokenFromBroadcast
  have hlast : (moments 2 (journal tokenFromBroadcast)).map
      (fun m => (m.target.parent, m.wants?)) = [(some 1, some .status)] := by decide +kernel
  obtain ⟨m, hm, hpair⟩ := List.mem_map.mp (hlast ▸ List.mem_singleton_self _)
  obtain ⟨hparent, hwants⟩ := Prod.mk.inj hpair
  obtain ⟨hevent, -⟩ := mem_moments.mp hm
  have hrequest := (hbuilt m hevent).1
  rw [hwants] at hrequest
  obtain ⟨payload, free, -, hqueued⟩ := hrequest.of_some
  refine ⟨⟨m, hevent, hparent, payload, free, hqueued⟩, ?_, ?_⟩
  · exact ((hadds .unicast "gs4" ⟨"192.0.2.7", 25565⟩ {} 7 2).2
      (.duplicateTarget ⟨"192.0.2.7", 25565⟩) (by decide +kernel)).1
  · obtain ⟨p, phase, first, -, -, -, -, houtbox⟩ :=
      (hadds .unicast "gs4" ⟨"192.0.2.8", 25565⟩ {} 7 2).1 3 (by decide +kernel)
    exact ⟨first, houtbox⟩

end Engine

end ServerProbe
