/-
How a target ends.

A machine stands at a phase that was planned, and the planned phases are those that the
protocol has a request for. The one request that also needs a token, the full status of the
fourth GameSpy query, is made at a phase that needs the challenge; the machine stands there
only if the challenge was answered, and the reply that answered it left a token. So a request
can always be made (`Target.Ready.request_ok`).

That leaves three ways to end (`Moment.over_cases`): there is nothing left to ask or to wait
for, and the status follows from what arrived; or a payload was broken; or the host refused a
datagram and had told nothing before. A report has its status from one of these
(`Moment.status_cases`).
-/
import ServerProbe.Proofs.Sealing
import ServerProbe.Proofs.Sequencing

set_option autoImplicit false

namespace ServerProbe

/-! ## Planned phases -/

namespace Machine

variable {c : Capabilities} {config : Config} {phase : Phase}

/-- Beyond the challenge, what is planned is what has a request of its own. -/
theorem mem_plannedPhases (h : phase ≠ .challenge) :
    phase ∈ plannedPhases c config ↔ phase ∈ separatePhases c config := by
  unfold plannedPhases
  dsimp only
  split
  · simp [h]
  · exact Iff.rfl

theorem status_mem_plannedPhases : .status ∈ plannedPhases c config :=
  (mem_plannedPhases (by nofun)).mpr rfl

theorem rules_mem_plannedPhases :
    .rules ∈ plannedPhases c config ↔ config.wantRules = true ∧ .rules ∉ c.includes := by
  rw [mem_plannedPhases (by nofun), PhaseSet.mem_iff, PhaseSet.mem_iff]
  simp [PhaseSet.contains, separatePhases]

theorem players_mem_plannedPhases :
    .players ∈ plannedPhases c config ↔ config.wantPlayers = true ∧ .players ∉ c.includes := by
  rw [mem_plannedPhases (by nofun), PhaseSet.mem_iff, PhaseSet.mem_iff]
  simp [PhaseSet.contains, separatePhases]

end Machine

/-- The request for a planned phase can be made, with a token if the phase needs one. -/
theorem Protocol.request_ok {p : Protocol} {config : Config} {phase : Phase}
    (hplanned : phase ∈ Machine.plannedPhases p.capabilities config) {s : Session}
    (htoken : phase ∈ p.capabilities.gates → phase ≠ .challenge → s.challenge ≠ none) :
    ∃ payload, p.request phase s = .ok payload := by
  -- rules and players come with the status in every protocol but one
  have hseparate : p ≠ .a2s → phase ≠ .rules ∧ phase ≠ .players := by
    intro hp
    refine ⟨?_, ?_⟩
    · rintro rfl
      refine (Machine.rules_mem_plannedPhases.mp hplanned).2 ?_
      cases p <;> first | exact absurd rfl hp | decide
    · rintro rfl
      refine (Machine.players_mem_plannedPhases.mp hplanned).2 ?_
      cases p <;> first | exact absurd rfl hp | decide
  -- and a challenge is planned only where some phase needs one
  have hchallenge : p.capabilities.gates = ∅ → phase ≠ .challenge := by
    rintro hgates rfl
    unfold Machine.plannedPhases at hplanned
    rw [hgates] at hplanned
    cases hplanned
  cases p with
  | a2s => exact ⟨_, rfl⟩
  | gamespy =>
    obtain ⟨hrules, hplayers⟩ := hseparate (by nofun)
    cases phase with
    | status => exact ⟨_, rfl⟩
    | challenge => exact absurd rfl (hchallenge rfl)
    | rules => exact absurd rfl hrules
    | players => exact absurd rfl hplayers
  | q3 =>
    obtain ⟨hrules, hplayers⟩ := hseparate (by nofun)
    cases phase with
    | status => exact ⟨_, rfl⟩
    | challenge => exact absurd rfl (hchallenge rfl)
    | rules => exact absurd rfl hrules
    | players => exact absurd rfl hplayers
  | gs4 =>
    obtain ⟨hrules, hplayers⟩ := hseparate (by nofun)
    cases phase with
    | challenge => exact ⟨_, rfl⟩
    | status =>
      obtain ⟨token, hheld⟩ := Option.ne_none_iff_exists'.mp (htoken (by decide) (by nofun))
      rcases hrequest : Protocol.gs4.request .status s with fault | payload
      · change GameSpy4.request .status {} s = _ at hrequest
        unfold GameSpy4.request at hrequest
        rw [hheld] at hrequest
        cases hrequest
      · exact ⟨payload, rfl⟩
    | rules => exact absurd rfl hrules
    | players => exact absurd rfl hplayers

/-- Whether a reaction passes no fault on and, if it ends the target, leaves it to what arrived
how it has ended. -/
structure Reaction.Calm (r : Reaction) : Prop where
  fault : r.fault = none
  fate : ∀ status, r.fate = .over status → status = none

/-! ## Targets that are ready to ask -/

namespace Target

/-- Whether the plan is the one that the protocol and the options ask for. -/
def Planned (t : Target) : Prop :=
  t.machine.plan.map Leg.phase = (Machine.plannedPhases t.protocol.capabilities t.config).toList

theorem Planned.fresh (id : Nat) (address : Address) (mode : TargetMode) (p : Protocol)
    (config : Config) (nonce : UInt32) :
    (Target.fresh id address mode p config nonce).Planned := by
  rw [Planned, Target.fresh, Machine.ofConfig, List.map_map]
  exact List.map_id _

theorem Planned.react {t : Target} (h : t.Planned) (cue : Cue) :
    (t.react cue).target.Planned := by
  have hidentity := t.react_identity cue
  have hprotocol : (t.react cue).target.protocol = t.protocol :=
    congrArg Identity.protocol hidentity
  have hconfig : (t.react cue).target.config = t.config := congrArg Identity.config hidentity
  rw [Planned, hprotocol, hconfig]
  exact (t.react_path cue).phases.trans h

theorem Planned.mem_iff {t : Target} (h : t.Planned) {phase : Phase} :
    (∃ leg ∈ t.machine.plan, leg.phase = phase)
      ↔ phase ∈ Machine.plannedPhases t.protocol.capabilities t.config := by
  rw [← PhaseSet.mem_toList, ← h, List.mem_map]

/-- Whether a target can make every request that it may come to. -/
structure Ready (t : Target) : Prop where
  sound : t.machine.Sound
  planned : t.Planned
  /-- It has to ask a challenge for what its protocol says. -/
  gated : t.machine.gated = t.protocol.capabilities.gates
  /-- If its challenge was answered, it has a token. -/
  token : ∀ c ∈ t.machine.plan, c.phase = .challenge → c.status.isDone = true →
    t.exchange.session.challenge ≠ none

/-- A token that was granted was stored, and another one may have taken its place. -/
theorem Traced.ready {t : Target} {past : List Moment} (h : t.Traced past) (hplanned : t.Planned) :
    t.Ready where
  sound := h.sound
  planned := hplanned
  gated := h.gated
  token := by
    intro c hc hchallenge hdone
    obtain ⟨m, hm, -, token, _, _, -, -, hstored⟩ := h.granted c hc hchallenge hdone
    rw [h.token, latestToken, ne_eq, List.getLast?_eq_none_iff]
    exact List.ne_nil_of_mem (List.mem_filterMap.mpr ⟨m, hm, hstored⟩)

/-- A target is as ready when a payload has been taken in and what it answers counted. -/
theorem Ready.counted {t : Target} (h : t.Ready) (payload : List UInt8) (now : Instant) :
    { t with exchange := (t.exchanged payload).1, machine := t.counted payload now }.Ready := by
  have htokens := react_challenge ⟨t, .hear payload now⟩
  change (t.hear payload now).target.exchange.session.challenge = _ at htokens
  rw [t.hear_exchange] at htokens
  refine ⟨counted_sound payload now h.sound, ?_, ?_, ?_⟩
  · exact (t.hear_path payload now).phases.symm.trans
      ((t.react_path (.hear payload now)).phases.trans h.planned)
  · exact (t.hear_path payload now).forward.2.symm.trans
      ((t.react_path (.hear payload now)).forward.2.trans h.gated)
  · intro c hc hchallenge hdone
    change (t.exchanged payload).1.session.challenge ≠ none
    rw [htokens]
    -- the challenge was answered before, when there was a token, or by this payload
    have hcases : c ∈ t.machine.plan ∨ ∃ answered, t.Credits (.hear payload now) answered ∧
        c.phase ∈ answered := by
      unfold Target.counted at hc
      split at hc
      · next sealing houtcome =>
        rcases Machine.complete_done hc with hold | hanswered
        · exact .inl hold
        · exact .inr ⟨_, ⟨sealing, houtcome, rfl⟩, hanswered⟩
      · exact .inl hc
    rcases hcases with hold | ⟨answered, hcredit, hanswered⟩
    · obtain ⟨token, htoken⟩ := Option.ne_none_iff_exists'.mp (h.token c hold hchallenge hdone)
      rw [htoken]
      rcases Moment.stored? ⟨t, .hear payload now⟩ with _ | stored
      · nofun
      · nofun
    · obtain ⟨-, token, _, _, -, -, hstored⟩ :=
        grants_of_credits hcredit (hchallenge ▸ hanswered)
      rw [hstored]
      nofun

/-- **A request can always be made,** wherever giving up phases takes the machine. -/
theorem Ready.request_ok {t : Target} (h : t.Ready) {s : Session} {m : Machine} {leg : Leg}
    (hpath : Machine.Path t.protocol s (fun _ => False) t.machine m none)
    (hleg : m.currentLeg? = some leg) :
    ∃ payload, t.protocol.request leg.phase t.exchange.session = .ok payload := by
  have hplan : leg.phase ∈ t.machine.plan.map Leg.phase := by
    rw [← hpath.phases]
    exact List.mem_map_of_mem (List.mem_of_getElem? hleg)
  refine Protocol.request_ok (h.planned.mem_iff.mp (List.mem_map.mp hplan)) ?_
  intro hneeds hphase
  have hgated : leg.phase ∈ m.gated := by
    rw [hpath.forward.2, h.gated]
    exact hneeds
  obtain ⟨c, hc, hchallenge, hdone⟩ := (hpath.sound h.sound).challenge_done hleg hgated hphase
  -- giving up answers nothing, so the challenge had been answered before
  rcases hpath.done_cases hc hdone with hold | ⟨_, hcredit, -⟩
  · exact h.token c hold hchallenge hdone
  · exact hcredit.elim

/-- In particular the request that is due next. -/
theorem Ready.next_ok {t : Target} (h : t.Ready) {machine : Machine} {phase : Phase}
    (hnext : t.machine.nextRequest = (machine, some phase)) :
    ∃ payload, t.protocol.request phase t.exchange.session = .ok payload := by
  have hpath := (Machine.Path.start : Machine.Path t.protocol t.exchange.session (fun _ => False)
    t.machine t.machine none).nextRequestWithin (t.machine.plan.length + 1)
  rw [← Machine.nextRequest, hnext] at hpath
  obtain ⟨leg, hleg, rfl, -⟩ := Machine.nextRequest_some hnext
  exact h.request_ok hpath hleg

/-! ## Ways to end -/

/-- A datagram that could not be sent tells nothing about the host. -/
theorem hasReceived_unsent (t : Target) :
    { t with sendErrors := t.sendErrors + 1 }.hasReceived = t.hasReceived := rfl

/-- Asking does not go wrong. -/
theorem Ready.ask_calm {t : Target} (h : t.Ready) (now : Instant) : (t.ask now).Calm := by
  unfold ask
  rcases hnext : t.machine.nextRequest with ⟨machine, _ | phase⟩
  · exact ⟨rfl, fun status hover => (Fate.over.inj hover).symm⟩
  · obtain ⟨payload, hpayload⟩ := h.next_ok hnext
    dsimp only
    rw [hpayload]
    exact ⟨rfl, nofun⟩

/-- A payload in which nothing is wrong does no harm. -/
theorem Ready.hear_calm {t : Target} (h : t.Ready) {payload : List UInt8} {now : Instant}
    (hintact : ∀ kind, (t.exchanged payload).2.outcome ≠ .error kind) :
    (t.hear payload now).Calm := by
  have hready := h.counted payload now
  unfold Target.counted at hready
  unfold hear
  rcases hexchanged : t.exchanged payload with ⟨exchange, receipt⟩
  rw [hexchanged] at hintact hready
  dsimp only at hintact hready ⊢
  unfold follow
  rcases houtcome : receipt.outcome with _ | sealing | kind
  · rw [houtcome] at hready
    have hcalm := hready.ask_calm now
    dsimp only at hcalm ⊢
    split
    · -- it asks again, for free or not
      unfold askAgain
      split
      · exact ⟨rfl, nofun⟩
      · split
        · exact ⟨hcalm.fault, hcalm.fate⟩
        · split
          · exact ⟨rfl, nofun⟩
          · exact ⟨rfl, nofun⟩
    · exact ⟨rfl, nofun⟩
  · rw [houtcome] at hready
    have hcalm := hready.ask_calm now
    dsimp only at hcalm ⊢
    unfold goOn
    dsimp only
    split
    · exact ⟨rfl, fun status hover => (Fate.over.inj hover).symm⟩
    · split
      · exact ⟨hcalm.fault, hcalm.fate⟩
      · exact ⟨rfl, nofun⟩
  · exact absurd houtcome (hintact kind)

/-- A target ends with an error at a payload only if the payload is broken. -/
theorem Ready.hear_over {t : Target} (h : t.Ready) {payload : List UInt8} {now : Instant}
    {status : Option TargetStatus} (hover : (t.hear payload now).fate = .over status) :
    status = none ∨ ∃ kind, (t.exchanged payload).2.outcome = .error kind ∧
      kind.isFatal = true ∧ status = some (.error kind) := by
  by_cases hwrong : ∃ kind, (t.exchanged payload).2.outcome = .error kind
  · obtain ⟨kind, houtcome⟩ := hwrong
    rw [(hear_error houtcome).2.1] at hover
    split at hover
    · next hfatal => exact .inr ⟨kind, houtcome, hfatal, (Fate.over.inj hover).symm⟩
    · cases hover
  · exact .inl ((h.hear_calm (not_exists.mp hwrong)).fate status hover)

end Target

namespace Moment

/-- Whether a moment is that of a broken payload. -/
def Breaks (m : Moment) (kind : ErrorKind) : Prop :=
  ∃ payload now, m.cue = .hear payload now ∧
    (m.target.exchanged payload).2.outcome = .error kind ∧ kind.isFatal = true

/-- Whether a moment is that of a refusal, by a host that has told nothing. -/
def Refuses (m : Moment) : Prop :=
  ∃ error, m.cue = .unsent error ∧ error.kind = .connectionRefused ∧ m.target.hasReceived = false

theorem Breaks.over {m : Moment} {kind : ErrorKind} (h : m.Breaks kind) :
    m.reaction.fate = .over (some (.error kind)) := by
  obtain ⟨t, cue⟩ := m
  obtain ⟨payload, now, rfl, houtcome, hfatal⟩ := h
  exact Target.hear_fatal hfatal houtcome

/-- A target that goes on has not heard a broken payload. -/
theorem not_breaks_of_goesOn {m : Moment} (h : m.reaction.fate = .goesOn) (kind : ErrorKind) :
    ¬m.Breaks kind := by
  intro hbreaks
  cases h.symm.trans hbreaks.over

/-- A refusal ends a target that has told nothing. -/
theorem Refuses.over {m : Moment} (h : m.Refuses) : m.reaction.fate = .over (some .down) := by
  obtain ⟨t, cue⟩ := m
  obtain ⟨error, rfl, hrefused, hnothing⟩ := h
  change (t.react (.unsent error)).fate = _
  unfold Target.react
  dsimp only
  rw [if_pos hrefused]
  dsimp only
  rw [t.hasReceived_unsent, hnothing, if_neg Bool.false_ne_true]

/-- And it has told nothing afterwards either. -/
theorem Refuses.hasReceived {m : Moment} (h : m.Refuses) :
    m.reaction.target.hasReceived = false := by
  obtain ⟨t, cue⟩ := m
  obtain ⟨error, rfl, hrefused, hnothing⟩ := h
  change (t.react (.unsent error)).target.hasReceived = _
  unfold Target.react
  dsimp only
  rw [if_pos hrefused]
  exact hnothing

/-- **A target ends in one of three ways.** -/
theorem over_cases {m : Moment} (h : m.target.Ready) {status : Option TargetStatus}
    (hover : m.reaction.fate = .over status) :
    status = none ∨ (∃ kind, m.Breaks kind ∧ status = some (.error kind)) ∨
      (m.Refuses ∧ status = some .down) := by
  obtain ⟨t, cue⟩ := m
  cases cue with
  | ask now => exact .inl ((h.ask_calm now).fate status hover)
  | hear payload now =>
    rcases h.hear_over hover with hnone | ⟨kind, houtcome, hfatal, hstatus⟩
    · exact .inl hnone
    · exact .inr (.inl ⟨kind, ⟨payload, now, rfl, houtcome, hfatal⟩, hstatus⟩)
  | linger => exact .inl (Fate.over.inj hover).symm
  | unsent error =>
    change (t.react (.unsent error)).fate = _ at hover
    unfold Target.react at hover
    dsimp only at hover
    split at hover
    · next hrefused =>
      have hstatus := Fate.over.inj hover
      rw [t.hasReceived_unsent] at hstatus
      rcases hreceived : t.hasReceived with _ | _
      · rw [hreceived, if_neg Bool.false_ne_true] at hstatus
        exact .inr (.inr ⟨⟨error, rfl, hrefused, hreceived⟩, hstatus.symm⟩)
      · rw [hreceived, if_pos rfl] at hstatus
        exact .inl hstatus.symm
    · cases hover

/-- The status of a report is that of a broken payload, or it says what has been received, or
the host has refused. -/
theorem status_cases {m : Moment} (hready : m.target.Ready) {report : Report}
    (h : m.report? = some report) :
    (∃ kind, m.Breaks kind ∧ report.status = .error kind) ∨
    ((∀ kind, ¬m.Breaks kind) ∧ report.status = m.reaction.target.plainStatus) ∨
    (m.Refuses ∧ report.status = .down) := by
  obtain ⟨status, hfate, -, rfl⟩ := Moment.report?_eq_some h
  rcases over_cases hready hfate with rfl | ⟨kind, hbreaks, rfl⟩ | ⟨hrefuses, rfl⟩
  · refine .inr (.inl ⟨fun kind hbreaks => ?_, rfl⟩)
    cases hfate.symm.trans hbreaks.over
  · exact .inl ⟨kind, hbreaks, rfl⟩
  · exact .inr (.inr ⟨hrefuses, rfl⟩)

end Moment

/-! ## Ready in a run -/

namespace Engine

/-- The targets of a run: those that are active after it, and those to which something happens
during a call, as they are before that. -/
def Meets (calls : List Call) (t : Target) : Prop :=
  t ∈ (run calls).targets ∨ ∃ m, .reacted m ∈ journal calls ∧ m.target = t

section Everywhere

variable {P : Target → Prop}
  (fresh : ∀ id address mode p config nonce, P (.fresh id address mode p config nonce))
  (noted : ∀ t responders, P t → P { t with responders })
  (spawned : ∀ t id address, t.mode = .broadcast → P t → P (t.child id address))
  (reacted : ∀ m : Moment, P m.target → m.reaction.fate = .goesOn → P m.reaction.target)
include fresh noted spawned reacted

/-- What holds of a target that has not been asked, and is kept by whatever happens to it and
by becoming a target of its own, holds of every active target. -/
theorem Told.every_target {past : List Event} {e : Engine} (h : Told past e) {id : Nat}
    {t : Target} (hfound : e.target? id = some t) : P t := by
  induction h generalizing id t with
  | start => cases hfound
  | @tell past e event htold hfits ih =>
    have hkept := htold.wellKept
    rcases target?_tell_cases hkept hfits hfound with ⟨-, hold⟩ | ⟨hcreated, -⟩ |
      ⟨parent, child, rfl, -, rfl⟩ | ⟨m, rfl, -, hfate, rfl⟩
    · exact ih hold
    · cases hfits with
      | added address mode p config nonce =>
        obtain rfl := Option.some.inj hcreated
        exact fresh _ address mode p config nonce
      | spawned parent sender hmem hmode =>
        obtain rfl := Option.some.inj hcreated
        exact spawned parent _ _ hmode (ih (hkept.target?_of_mem hmem))
      | reacted => cases hcreated
    · exact noted parent _ (ih (hkept.target?_of_mem hfits.parent_mem))
    · exact reacted m (ih (hkept.target?_of_mem hfits.target_mem)) hfate
  | take _ hsame _ ih => exact ih (hsame.target? id ▸ hfound)

/-- And so it holds whenever something happens to a target. -/
theorem every_moment {calls : List Call} {m : Moment} (h : .reacted m ∈ journal calls) :
    P m.target := by
  obtain ⟨past, e, htold, hfits⟩ := fits_of_journal h
  exact htold.every_target fresh noted spawned reacted
    (htold.wellKept.target?_of_mem hfits.target_mem)

/-- So it holds of every target that a run meets. -/
theorem Meets.every {calls : List Call} {t : Target} (h : Meets calls t) : P t := by
  rcases h with hmem | ⟨m, hm, rfl⟩
  · have htold := told_journal calls
    exact htold.every_target fresh noted spawned reacted (htold.wellKept.target?_of_mem hmem)
  · exact every_moment fresh noted spawned reacted hm

end Everywhere

/-- Whenever something happens to a target, it is ready to ask. -/
theorem ready_of_journal {calls : List Call} {m : Moment} (h : .reacted m ∈ journal calls) :
    m.target.Ready := by
  have hplanned : m.target.Planned := every_moment (P := Target.Planned) .fresh
    (fun _ _ ht => ht) (fun _ _ _ _ ht => ht) (fun m ht _ => ht.react m.cue) h
  obtain ⟨past, rest, hsplit⟩ := List.append_of_mem h
  exact (traced_of_journal hsplit).ready hplanned

end Engine

end ServerProbe
