/-
What a report concludes.

A report is written when its target ends, from the plan and from what is known by then; no
payload is looked at again. It agrees with all of them all the same (`report_agrees`).

A broken payload ends the target that hears it, so it is the last one that the target hears,
and nothing else ends a target with an error (`Moment.status_error_iff`). The flags, and what
counts as received, are read off the plan, and the plan reflects the whole past: a phase that
some payload has answered counts as answered, whether it was being asked, had not come up
yet, or had been given up (`Target.Reflects`).
-/
import ServerProbe.Proofs.Flagging
import ServerProbe.Proofs.UnheardServer

set_option autoImplicit false

namespace ServerProbe

/-! ## What a report says -/

namespace Server

/-- The phases that are flagged as missing. -/
def flagged (s : Server) : PhaseSet where
  status := s.missingStatus
  rules := s.missingRules
  players := s.missingPlayers

/-- Whether there is a name, a map, a rule or a player. -/
def Informs (s : Server) : Prop :=
  s.name ≠ none ∨ s.map ≠ none ∨ s.rules ≠ [] ∨ s.players ≠ []

theorem informs_iff {s : Server} : s.Informs ↔ s.isEmpty = false := by
  simp only [Informs, isEmpty, Bool.and_eq_false_iff, Option.isNone_eq_false_iff,
    List.isEmpty_eq_false_iff, Option.isSome_iff_ne_none, or_assoc]

end Server

/-- A report flags a phase, the challenge left out, just if the plan has it as missing. -/
theorem Target.mem_flagged_report {t : Target} {status : TargetStatus} {phase : Phase}
    (h : phase ≠ .challenge) :
    phase ∈ (t.report status).server.flagged ↔ phase ∈ t.machine.missing := by
  cases phase with
  | challenge => exact absurd rfl h
  | status => exact Iff.rfl
  | rules => exact Iff.rfl
  | players => exact Iff.rfl

/-! ## The last payload -/

namespace Moment

/-- What the payload of a moment was parsed as, if one is heard then. -/
def outcome? (m : Moment) : Option Outcome :=
  match m.cue with
  | .hear payload _ => some (m.target.exchanged payload).2.outcome
  | _ => none

theorem breaks_iff {m : Moment} {kind : ErrorKind} :
    m.Breaks kind ↔ m.outcome? = some (.error kind) ∧ kind.isFatal = true := by
  obtain ⟨t, cue⟩ := m
  constructor
  · rintro ⟨payload, now, rfl, houtcome, hfatal⟩
    exact ⟨congrArg some houtcome, hfatal⟩
  · rintro ⟨houtcome, hfatal⟩
    cases cue with
    | hear payload now => exact ⟨payload, now, rfl, Option.some.inj houtcome, hfatal⟩
    | ask now => cases houtcome
    | linger => cases houtcome
    | unsent error => cases houtcome

/-- Where no payload before was broken, the last one is just if it is that of the last
moment. -/
theorem breaks_iff_getLast? {past : List Moment} {m : Moment} {kind : ErrorKind}
    (hintact : ∀ before ∈ past, ¬before.Breaks kind) :
    m.Breaks kind ↔ ((past ++ [m]).filterMap outcome?).getLast? = some (.error kind) ∧
      kind.isFatal = true := by
  rw [breaks_iff, List.filterMap_append]
  rcases houtcome : m.outcome? with _ | outcome
  · -- nothing is heard at the last moment, so the last payload is one before
    rw [List.filterMap_cons_none houtcome, List.filterMap_nil, List.append_nil]
    refine iff_of_false (fun h => nomatch h.1) ?_
    rintro ⟨hlast, hfatal⟩
    obtain ⟨before, hbefore, hbroken⟩ := List.mem_filterMap.mp (List.mem_of_getLast? hlast)
    exact hintact before hbefore (breaks_iff.mpr ⟨hbroken, hfatal⟩)
  · rw [List.filterMap_cons_some houtcome, List.filterMap_nil, List.getLast?_concat]

/-- The fault of a broken payload is passed on, and kept for the report. -/
theorem Breaks.fault {m : Moment} {kind : ErrorKind} (h : m.Breaks kind) :
    ∃ text, m.reaction.fault = some (kind, text) ∧ m.reaction.target.lastError = some text := by
  obtain ⟨t, cue⟩ := m
  obtain ⟨payload, now, rfl, houtcome, hfatal⟩ := h
  obtain ⟨hfault, -, htext⟩ := Target.hear_error houtcome
  exact ⟨_, hfault, htext hfatal⟩

/-! ## The status of a report -/

section Status

variable {m : Moment} (hready : m.target.Ready) {report : Report} (h : m.report? = some report)
include hready h

/-- A report says an error just if the payload that ended the target was broken. -/
theorem status_error_iff {kind : ErrorKind} : report.status = .error kind ↔ m.Breaks kind := by
  rcases status_cases hready h with ⟨broken, hbreaks, hstatus⟩ | ⟨hintact, hstatus⟩ |
    ⟨hrefuses, hstatus⟩
  · rw [hstatus]
    constructor
    · intro heq
      cases heq
      exact hbreaks
    · -- a payload is broken in one way only
      intro hother
      cases hbreaks.over.symm.trans hother.over
      rfl
  · refine iff_of_false (fun heq => ?_) (hintact kind)
    rw [hstatus, Target.plainStatus] at heq
    split at heq
    · cases heq
    · cases heq
  · refine iff_of_false (fun heq => ?_) (fun hbreaks => ?_)
    · cases hstatus.symm.trans heq
    · cases hrefuses.over.symm.trans hbreaks.over

/-- And it says that all is well just if it says no error and something was received. -/
theorem status_ok_iff : report.status = .ok ↔
    (∀ kind, report.status ≠ .error kind) ∧ m.reaction.target.hasReceived = true := by
  rcases status_cases hready h with ⟨kind, -, hstatus⟩ | ⟨-, hstatus⟩ | ⟨hrefuses, hstatus⟩
  · rw [hstatus]
    exact iff_of_false (by simp) fun hboth => hboth.1 kind rfl
  · rw [hstatus, Target.plainStatus]
    split
    · next hreceived => exact iff_of_true rfl ⟨by simp, hreceived⟩
    · next hreceived => exact iff_of_false (by simp) fun hboth => hreceived hboth.2
  · rw [hstatus, hrefuses.hasReceived]
    exact iff_of_false (by simp) fun hboth => Bool.false_ne_true hboth.2

end Status

end Moment

/-! ## The plan and the past -/

/-- A phase beyond the challenge is done just if a payload has answered one that was
planned. -/
theorem Target.Reflects.answeredAny_iff {t : Target} {past : List Moment} (h : t.Reflects past) :
    t.machine.answeredAny = true ↔
      ∃ phase ∈ Machine.plannedPhases t.protocol.capabilities t.config, phase ≠ .challenge ∧
        ∃ m ∈ past, phase ∈ m.answered := by
  rw [Machine.answeredAny_iff]
  constructor
  · rintro ⟨leg, hleg, hphase, hdone⟩
    exact ⟨leg.phase, h.planned.mem_iff.mp ⟨leg, hleg, rfl⟩, hphase,
      (h.done_iff leg hleg).mp hdone⟩
  · rintro ⟨phase, hplanned, hphase, hanswered⟩
    obtain ⟨leg, hleg, rfl⟩ := h.planned.mem_iff.mpr hplanned
    exact ⟨leg, hleg, hphase, (h.done_iff leg hleg).mpr hanswered⟩

namespace Engine

/-- What the payloads for a target were parsed as in a run, in the order in which they were
handled. -/
def outcomes (id : Nat) (calls : List Call) : List Outcome :=
  (moments id (journal calls)).filterMap Moment.outcome?

/-- **A report agrees with the run.** Take a target that a call added, a run with that call in
it, and a report on the target:

* it says an error just if the last payload that was handled for the target was parsed with
  that error, and the error is one that ends a query, so not one of ordering;
* then it has a text, which is the one that was passed on with the error;
* a phase that was planned is not flagged just if some payload has answered it;
* it says that all is well just if it says no error, and a payload has answered a planned phase
  beyond the challenge or there is a name, a map, a rule or a player. -/
theorem report_agrees {before : List Call} (later : List Call) {mode : TargetMode}
    {protocol : String} {address : Address} {config : Config} {nonce : UInt32} {now : Instant}
    {id : Nat}
    (h : ((run before).perform (.add mode protocol address config nonce now)).2 = .added id) :
    let calls := before ++ .add mode protocol address config nonce now :: later
    ∃ p, Protocol.ofId? protocol = some p ∧ ∀ report ∈ reportsOn id calls,
      (∀ kind, report.status = .error kind ↔
        (outcomes id calls).getLast? = some (.error kind) ∧ kind.isFatal = true) ∧
      report.status ≠ .error .orderingError ∧
      (∀ kind, report.status = .error kind → ∃ m text,
        (moments id (journal calls)).getLast? = some m ∧
        m.reaction.fault = some (kind, text) ∧ report.error = some text) ∧
      (∀ phase ∈ Machine.plannedPhases p.capabilities config, phase ≠ .challenge →
        (phase ∉ report.server.flagged ↔ WasAnswered id calls phase)) ∧
      (report.status = .ok ↔ (∀ kind, report.status ≠ .error kind) ∧
        ((∃ phase ∈ Machine.plannedPhases p.capabilities config,
          phase ≠ .challenge ∧ WasAnswered id calls phase) ∨ report.server.Informs)) := by
  intro calls
  obtain ⟨p, hp, hlife⟩ := life_of_added later h
  refine ⟨p, hp, fun report hreport => ?_⟩
  obtain ⟨past, m, hmoments, hbefore, hm⟩ := life_of_reportsOn hlife hreport
  change moments id (journal calls) = past ++ [m] at hmoments
  have hready : m.target.Ready :=
    ready_of_journal (mem_moments.mp (hmoments ▸ List.mem_concat_self)).1
  have herror : ∀ kind, report.status = .error kind ↔ m.Breaks kind :=
    fun kind => m.status_error_iff hready hm
  have hok := m.status_ok_iff hready hm
  -- the target went on at every moment before the last one
  have hintact : ∀ kind, ∀ before ∈ past, ¬before.Breaks kind :=
    fun kind before hpast => Moment.not_breaks_of_goesOn (hbefore.goesOn before hpast) kind
  -- and its plan reflects them all
  have hreflects := (hbefore.reflects (.fresh id address mode p config nonce)).react
  have hidentity : m.reaction.target.identity = _ :=
    (m.target.react_identity m.cue).trans hbefore.identity
  have hprotocol : m.reaction.target.protocol = p := congrArg Identity.protocol hidentity
  have hconfig : m.reaction.target.config = config := congrArg Identity.config hidentity
  obtain ⟨-, status, rfl⟩ := Moment.report?_eq hm
  simp only [outcomes, WasAnswered, hmoments]
  refine ⟨fun kind => (herror kind).trans (Moment.breaks_iff_getLast? (hintact kind)),
    ?_, ?_, ?_, ?_⟩
  · intro hordering
    have hfatal := (Moment.breaks_iff.mp ((herror _).mp hordering)).2
    cases hfatal
  · intro kind hkind
    obtain ⟨text, hfault, htext⟩ := ((herror kind).mp hkind).fault
    exact ⟨m, text, List.getLast?_concat, hfault, htext⟩
  · intro phase hplanned hphase
    rw [Target.mem_flagged_report hphase, hreflects.mem_missing, hprotocol, hconfig]
    simp [hplanned]
  · rw [hok, Target.hasReceived, Bool.or_eq_true, hreflects.answeredAny_iff, hprotocol, hconfig,
      Bool.not_eq_true', ← Server.informs_iff]
    exact Iff.rfl

/-- A server that does not answer the challenge, so that the rules are given up. Then it tells
them, and after that nonsense. -/
def belated : List Call :=
  [.add .unicast "a2s" ⟨"192.0.2.1", 27015⟩ { retries := 0, wantRules := true } 0 0,
    .tick 600000000,
    .receive ⟨"192.0.2.1", 27015⟩
      [0xFF, 0xFF, 0xFF, 0xFF, 0x45, 1, 0, 0x61, 0, 0x31, 0] 700000000,
    .receive ⟨"192.0.2.1", 27015⟩ [0xFF] 800000000]

/-- The report says the error of the last reply. It flags the status, and not the rules. -/
theorem report_agrees_belated :
    ((run []).perform (.add .unicast "a2s" ⟨"192.0.2.1", 27015⟩
      { retries := 0, wantRules := true } 0 0)).2 = .added 1 ∧
    ∃ report ∈ reportsOn 1 belated,
      report.status = .error .malformedPacket ∧ report.error ≠ none ∧
      .status ∈ report.server.flagged ∧ .rules ∉ report.server.flagged := by
  have hadded : ((run []).perform (.add .unicast "a2s" ⟨"192.0.2.1", 27015⟩
      { retries := 0, wantRules := true } 0 0)).2 = .added 1 := by decide
  obtain ⟨p, hp, hagrees⟩ := report_agrees belated.tail hadded
  obtain rfl : Protocol.a2s = p := Option.some.inj hp
  have hone : (reportsOn 1 belated).length = 1 := by decide +kernel
  obtain ⟨report, hreports⟩ := List.length_eq_one_iff.mp hone
  have hmem : report ∈ reportsOn 1 belated := by
    rw [hreports]
    exact List.mem_singleton_self report
  obtain ⟨herror, -, htext, hflags, -⟩ := hagrees report hmem
  have hmalformed : report.status = .error .malformedPacket :=
    (herror .malformedPacket).mpr ⟨by decide +kernel, rfl⟩
  obtain ⟨-, text, -, -, hreport⟩ := htext _ hmalformed
  refine ⟨hadded, report, hmem, hmalformed, by rw [hreport]; nofun, ?_, ?_⟩
  · by_contra hstatus
    exact absurd ((hflags .status (by decide) (by decide)).mp hstatus) (by decide +kernel)
  · exact (hflags .rules (by decide) (by decide)).mpr (by decide +kernel)

end Engine

end ServerProbe
