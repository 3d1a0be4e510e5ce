/-
What a report flags as missing.

The flags of a report are read off the plan: a phase is flagged if it is planned and not
answered. A planned phase is answered just if some payload has answered it, also if that
payload came when the phase had been given up (`Target.Reflects`), so the flags say what did
not come, as far as the plan goes.

The plan leaves out what comes with the status. In three of the four protocols the reply to
the status brings the rules and the players, so these are never planned and never flagged,
however much they were wanted and whether or not the reply has come (`missing_flags_iff`).
-/
import ServerProbe.Proofs.Ending
import ServerProbe.Proofs.Reporting

set_option autoImplicit false

namespace ServerProbe

/-! ## What was answered -/

/-- The phases that are answered at a moment: those that a payload counts for. -/
def Moment.answered (m : Moment) : PhaseSet :=
  match m.cue with
  | .hear payload _ =>
    match (m.target.exchanged payload).2.outcome with
    | .done _ => (m.target.exchanged payload).2.answered
    | _ => ∅
  | _ => ∅

theorem Moment.mem_answered {m : Moment} {phase : Phase} : phase ∈ m.answered ↔
    ∃ payload now sealing, m.cue = .hear payload now ∧
      (m.target.exchanged payload).2.outcome = .done sealing ∧
      phase ∈ (m.target.exchanged payload).2.answered := by
  obtain ⟨t, cue⟩ := m
  unfold Moment.answered
  cases cue with
  | hear payload now =>
    dsimp only
    constructor
    · intro h
      split at h
      · next sealing houtcome => exact ⟨payload, now, sealing, rfl, houtcome, h⟩
      · exact absurd h (PhaseSet.not_mem_empty phase)
    · rintro ⟨_, _, sealing, hcue, houtcome, h⟩
      cases hcue
      rw [houtcome]
      exact h
  | ask now => simp
  | linger => simp
  | unsent error => simp

namespace Target

/-- A payload that answers anything names what it answers. -/
theorem exchanged_answered (t : Target) {payload : List UInt8} {sealing : Bool}
    (h : (t.exchanged payload).2.outcome = .done sealing) :
    (t.exchanged payload).2.answered.isEmpty = false :=
  ((t.exchange.receive_cases t.protocol t.config.requestParams t.machine.currentPhase?
    t.machine.sealedPhases payload).of_done h).2

/-- What a cue counts for is what is answered at the moment. -/
theorem Credits.eq_answered {t : Target} {cue : Cue} {answered : PhaseSet}
    (h : t.Credits cue answered) : answered = Moment.answered ⟨t, cue⟩ := by
  cases cue with
  | hear payload now =>
    obtain ⟨sealing, houtcome, rfl⟩ := h
    rw [Engine.credited, t.exchanged_answered houtcome, if_neg Bool.false_ne_true]
    unfold Moment.answered
    dsimp only
    rw [houtcome]
  | ask now => exact h.elim
  | linger => exact h.elim
  | unsent error => exact h.elim

end Target

/-! ## What the plan reflects -/

namespace Machine

variable {m : Machine}

/-- There is one leg of a phase. -/
theorem Lined.leg_eq (h : m.Lined) {a b : Leg} (ha : a ∈ m.plan) (hb : b ∈ m.plan)
    (hphase : a.phase = b.phase) : a = b := by
  obtain ⟨i, hi⟩ := List.mem_iff_getElem?.mp ha
  obtain ⟨j, hj⟩ := List.mem_iff_getElem?.mp hb
  rw [h.index_eq hi hj hphase] at hi
  exact Option.some.inj (hi.symm.trans hj)

theorem mem_missing {phase : Phase} :
    phase ∈ m.missing ↔ ∃ leg ∈ m.plan, leg.phase = phase ∧ leg.status.isDone = false := by
  rw [missing, mem_phasesWhere]
  simp only [Bool.not_eq_true']

end Machine

namespace Target

/-- Whether the plan of a target reflects what has happened to it. -/
structure Reflects (t : Target) (past : List Moment) : Prop where
  sound : t.machine.Sound
  tight : t.machine.Tight
  planned : t.Planned
  /-- A leg is done just if a payload has answered its phase. -/
  done_iff : ∀ leg ∈ t.machine.plan,
    leg.status.isDone = true ↔ ∃ m ∈ past, leg.phase ∈ m.answered

theorem Reflects.fresh (id : Nat) (address : Address) (mode : TargetMode) (p : Protocol)
    (config : Config) (nonce : UInt32) :
    (Target.fresh id address mode p config nonce).Reflects [] where
  sound := Machine.sound_ofConfig p.capabilities config
  tight := Machine.tight_ofConfig p.capabilities config
  planned := .fresh id address mode p config nonce
  done_iff := by
    intro leg hleg
    obtain ⟨phase, -, rfl⟩ := List.mem_map.mp hleg
    exact ⟨nofun, by rintro ⟨_, hm, -⟩; cases hm⟩

/-- A moment is reflected. -/
theorem Reflects.react {m : Moment} {past : List Moment} (h : m.target.Reflects past) :
    m.reaction.target.Reflects (past ++ [m]) := by
  have hpath := m.target.react_path m.cue
  have hsound : m.reaction.target.machine.Sound := hpath.sound h.sound
  refine ⟨hsound, react_tight h.tight m.cue, h.planned.react m.cue, ?_⟩
  intro leg hleg
  constructor
  · intro hdone
    rcases hpath.done_cases hleg hdone with hold | ⟨answered, hcredit, hanswered⟩
    · obtain ⟨m₀, hm₀, hanswered⟩ := (h.done_iff leg hold).mp hdone
      exact ⟨m₀, List.mem_append_left _ hm₀, hanswered⟩
    · rw [hcredit.eq_answered] at hanswered
      exact ⟨m, by simp, hanswered⟩
  · rintro ⟨m₀, hm₀, hanswered⟩
    -- the leg has an old one with its phase
    have hplanned : leg.phase ∈ m.target.machine.plan.map Leg.phase := by
      rw [← hpath.phases]
      exact List.mem_map_of_mem hleg
    obtain ⟨old, hold, hphase⟩ := List.mem_map.mp hplanned
    rcases List.mem_append.mp hm₀ with hpast | hlast
    · -- if that was done then it still is
      have hdone := (h.done_iff old hold).mpr ⟨m₀, hpast, hphase ▸ hanswered⟩
      have hstays := hpath.done_stays h.sound hold hdone
      rw [← hsound.toLined.leg_eq hstays hleg hphase]
      exact hdone
    · -- and if the payload answers it then it is sealed
      obtain rfl : m₀ = m := by simpa using hlast
      obtain ⟨t, cue⟩ := m₀
      obtain ⟨payload, now, sealing, hcue, houtcome, hanswered⟩ := Moment.mem_answered.mp hanswered
      obtain rfl : cue = .hear payload now := hcue
      have hsealed := sealed_of_answer h.sound h.tight houtcome hold (hphase ▸ hanswered) now
      obtain ⟨done, hdone, hsame, hstatus⟩ := Machine.mem_sealedPhases.mp hsealed
      rw [← hsound.toLined.leg_eq hdone hleg (hsame.trans hphase), hstatus]
      rfl

/-- What is missing is what was planned and never answered. -/
theorem Reflects.mem_missing {t : Target} {past : List Moment} (h : t.Reflects past)
    {phase : Phase} : phase ∈ t.machine.missing ↔
      phase ∈ Machine.plannedPhases t.protocol.capabilities t.config ∧
      ∀ m ∈ past, phase ∉ m.answered := by
  rw [Machine.mem_missing, ← h.planned.mem_iff]
  constructor
  · rintro ⟨leg, hleg, rfl, hopen⟩
    refine ⟨⟨leg, hleg, rfl⟩, fun m hm hanswered => ?_⟩
    rw [(h.done_iff leg hleg).mpr ⟨m, hm, hanswered⟩] at hopen
    cases hopen
  · rintro ⟨⟨leg, hleg, rfl⟩, hnever⟩
    refine ⟨leg, hleg, rfl, ?_⟩
    by_contra hdone
    obtain ⟨m, hm, hanswered⟩ := (h.done_iff leg hleg).mp (by simpa using hdone)
    exact hnever m hm hanswered

end Target

/-- A life is reflected. -/
theorem Life.reflects {newborn t : Target} {past : List Moment} (h : Life newborn past (some t))
    (hnewborn : newborn.Reflects []) : t.Reflects past :=
  h.induction_on (P := fun past t => t.Reflects past) hnewborn
    (fun _ hpast => ⟨hpast.sound, hpast.tight, hpast.planned, hpast.done_iff⟩)
    fun hpast => hpast.react

namespace Engine

/-! ## Flags -/

/-- Whether a payload has answered a phase of a target in a run. -/
def WasAnswered (id : Nat) (calls : List Call) (phase : Phase) : Prop :=
  ∃ m ∈ moments id (journal calls), phase ∈ m.answered

instance (id : Nat) (calls : List Call) (phase : Phase) :
    Decidable (WasAnswered id calls phase) :=
  inferInstanceAs (Decidable (∃ m ∈ moments id (journal calls), phase ∈ m.answered))

/-- **What a report flags.** Take a target that a call added, and a run with that call in it.
Whatever its status, a report on the target flags the status just if no payload for the target
has answered it. It flags the rules just if they were wanted, do not come with the status, and
no payload has answered them; and the players likewise. -/
theorem missing_flags_iff {before : List Call} (later : List Call) {mode : TargetMode}
    {protocol : String} {address : Address} {config : Config} {nonce : UInt32} {now : Instant}
    {id : Nat}
    (h : ((run before).perform (.add mode protocol address config nonce now)).2 = .added id) :
    let calls := before ++ .add mode protocol address config nonce now :: later
    ∃ p, Protocol.ofId? protocol = some p ∧ ∀ report ∈ reportsOn id calls,
      (report.server.missingStatus = true ↔ ¬WasAnswered id calls .status) ∧
      (report.server.missingRules = true ↔ config.wantRules = true ∧
        .rules ∉ p.capabilities.includes ∧ ¬WasAnswered id calls .rules) ∧
      (report.server.missingPlayers = true ↔ config.wantPlayers = true ∧
        .players ∉ p.capabilities.includes ∧ ¬WasAnswered id calls .players) := by
  intro calls
  obtain ⟨p, hp, hlife⟩ := life_of_added later h
  refine ⟨p, hp, fun report hreport => ?_⟩
  obtain ⟨past, m, hmoments, hbefore, hm⟩ := life_of_reportsOn hlife hreport
  obtain ⟨-, status, rfl⟩ := Moment.report?_eq hm
  have hreflects := (hbefore.reflects (.fresh id address mode p config nonce)).react
  have hidentity : m.reaction.target.identity = _ :=
    (m.target.react_identity m.cue).trans hbefore.identity
  have hprotocol : m.reaction.target.protocol = p := congrArg Identity.protocol hidentity
  have hconfig : m.reaction.target.config = config := congrArg Identity.config hidentity
  have hmissing : ∀ phase, phase ∈ m.reaction.target.machine.missing ↔
      phase ∈ Machine.plannedPhases p.capabilities config ∧ ¬WasAnswered id calls phase := by
    intro phase
    rw [hreflects.mem_missing, hprotocol, hconfig, WasAnswered, hmoments]
    simp only [not_exists, not_and]
  refine ⟨(hmissing .status).trans ?_, (hmissing .rules).trans ?_, (hmissing .players).trans ?_⟩
  · exact and_iff_right Machine.status_mem_plannedPhases
  · rw [Machine.rules_mem_plannedPhases, and_assoc]
  · rw [Machine.players_mem_plannedPhases, and_assoc]

/-- A query for the rules that is never answered. -/
def unanswered : List Call :=
  [.add .unicast "a2s" ⟨"192.0.2.1", 27015⟩ { retries := 0, wantRules := true } 0 0,
    .tick 600000000, .tick 1200000000]

/-- The report flags them, and not the players, which nobody wanted. -/
theorem missing_flags_iff_unanswered :
    (({} : Engine).perform (.add .unicast "a2s" ⟨"192.0.2.1", 27015⟩
      { retries := 0, wantRules := true } 0 0)).2 = .added 1 ∧
    ∃ report ∈ reportsOn 1 unanswered,
      report.server.missingRules = true ∧ report.server.missingPlayers = false := by
  have hadded : ((run []).perform (.add .unicast "a2s" ⟨"192.0.2.1", 27015⟩
      { retries := 0, wantRules := true } 0 0)).2 = .added 1 := by decide
  obtain ⟨p, hp, hflags⟩ := missing_flags_iff unanswered.tail hadded
  obtain rfl : Protocol.a2s = p := Option.some.inj hp
  have hone : (reportsOn 1 unanswered).length = 1 := by decide +kernel
  obtain ⟨report, hreports⟩ := List.length_eq_one_iff.mp hone
  have hmem : report ∈ reportsOn 1 unanswered := by
    rw [hreports]
    exact List.mem_singleton_self report
  obtain ⟨-, hrules, hplayers⟩ := hflags report hmem
  refine ⟨hadded, report, hmem, hrules.mpr ⟨rfl, by decide, by decide +kernel⟩, ?_⟩
  rw [Bool.eq_false_iff]
  intro hflagged
  exact absurd (hplayers.mp hflagged).1 Bool.false_ne_true

/-- A query for the rules of which a part of the status reply has come, and no rule. -/
def cutShort : List Call :=
  [.add .unicast "gamespy" ⟨"192.0.2.1", 7778⟩ { retries := 0, wantRules := true } 0 0,
    .receive ⟨"192.0.2.1", 7778⟩ (Text.Utf8.encode "\\hostname\\x\\queryid\\1.1".toList) 1,
    .tick 600000000]

/-- Rules that were wanted and never came need not be flagged: they would have come with the
status. -/
theorem rules_not_flagged :
    (({} : Engine).perform (.add .unicast "gamespy" ⟨"192.0.2.1", 7778⟩
      { retries := 0, wantRules := true } 0 0)).2 = .added 1 ∧
    ¬WasAnswered 1 cutShort .rules ∧
    (reportsOn 1 cutShort).map (fun report => (report.status, report.server.missingRules))
      = [(.ok, false)] := by
  decide +kernel

end Engine

end ServerProbe
