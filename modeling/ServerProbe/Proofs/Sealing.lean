/-
What is answered stays answered.

A reply that answers a phase seals it, in all four protocols, and nothing takes the seal
off again: asking and giving up change the leg that the machine stands at, which is not
settled, and a reply counts for a leg once. So hearing a payload is counting a reply, if
it is one, and then asking (`Target.hear_path`), and whatever was sealed before or by the
reply is sealed afterwards (`Target.sealed_hear`). A reply to phases that are not planned
counts for nothing (`Machine.Waits.complete_unplanned`).
-/
import ServerProbe.Proofs.Waiting

set_option autoImplicit false

namespace ServerProbe

theorem PhaseSet.mem_ofList {p : Phase} {ps : List Phase} : p ∈ ofList ps ↔ p ∈ ps := by
  have hfold : ∀ (ps : List Phase) (s : PhaseSet), p ∈ ps.foldl insert s ↔ p ∈ ps ∨ p ∈ s := by
    intro ps
    induction ps with
    | nil => simp
    | cons q rest ih =>
      intro s
      rw [List.foldl_cons, ih, mem_insert, List.mem_cons]
      tauto
  rw [ofList, hfold]
  simp

theorem LegStatus.isSettled_of_isDone {status : LegStatus} (h : status.isDone = true) :
    status.isSettled = true := by
  cases status <;> first | rfl | cases h

namespace Machine

variable {m : Machine} {leg : Leg}

theorem mem_phasesWhere {p : Leg → Bool} {phase : Phase} :
    phase ∈ m.phasesWhere p ↔ ∃ leg ∈ m.plan, leg.phase = phase ∧ p leg = true := by
  rw [phasesWhere, PhaseSet.mem_ofList]
  simp only [List.mem_map, List.mem_filter]
  constructor
  · rintro ⟨leg, ⟨hleg, hp⟩, hphase⟩
    exact ⟨leg, hleg, hphase, hp⟩
  · rintro ⟨leg, hleg, hphase, hp⟩
    exact ⟨leg, ⟨hleg, hp⟩, hphase⟩

theorem mem_sealedPhases {phase : Phase} :
    phase ∈ m.sealedPhases ↔ ∃ leg ∈ m.plan, leg.phase = phase ∧ leg.status = .done true := by
  rw [sealedPhases, mem_phasesWhere]
  simp only [beq_iff_eq]

/-! ## Legs that are done -/

/-- A change of the leg that the machine stands at leaves the settled ones alone. -/
theorem Sound.mem_changeCurrent (h : m.Sound) (hleg : leg ∈ m.plan)
    (hsettled : leg.status.isSettled = true) (change : Leg → Leg) :
    leg ∈ (m.changeCurrent change).plan := by
  refine Machine.mem_changeCurrent hleg (fun hcurrent => ?_) change
  rw [h.here leg hcurrent] at hsettled
  cases hsettled

theorem Sound.mem_nextSend (h : m.Sound) (hleg : leg ∈ m.plan)
    (hsettled : leg.status.isSettled = true) : leg ∈ m.nextSend.1.plan := by
  unfold Machine.nextSend
  rcases m.currentLeg? with _ | here
  · exact hleg
  · dsimp only
    split
    · exact hleg
    · have htimedOut := h.mem_changeCurrent hleg hsettled
        fun leg => { leg with status := .timedOut }
      dsimp only
      split
      · -- giving up what needs the challenge leaves out what is settled
        refine List.mem_map.mpr ⟨leg, htimedOut, if_neg ?_⟩
        simp [hsettled]
      · exact htimedOut

theorem mem_complete (hleg : leg ∈ m.plan) (hdone : leg.status.isDone = true)
    (answered : PhaseSet) (sealing : Bool) (now : Instant) :
    leg ∈ (m.complete answered sealing now).plan := by
  rw [plan_complete]
  refine List.mem_map.mpr ⟨leg, hleg, if_neg ?_⟩
  simp [answersFirst, hdone]

/-- **What is answered stays answered.** -/
theorem Path.done_stays {p : Protocol} {s : Session} {credit : PhaseSet → Prop} {start : Machine}
    {request : Option Request} (h : Path p s credit start m request) (hstart : start.Sound)
    (hleg : leg ∈ start.plan) (hdone : leg.status.isDone = true) : leg ∈ m.plan := by
  have hsettled := LegStatus.isSettled_of_isDone hdone
  induction h with
  | start => exact hleg
  | decide hpath ih => exact (hpath.sound hstart).mem_nextSend ih hsettled
  | complete answered sealing now _ _ ih => exact mem_complete ih hdone answered sealing now
  | stop _ ih => exact ih
  | send now hpath _ _ _ ih => exact (hpath.sound hstart).mem_changeCurrent ih hsettled _
  | resend now hpath _ _ _ ih => exact (hpath.sound hstart).mem_changeCurrent ih hsettled _

/-- The machine does not stand at a phase that is answered. -/
theorem Sound.currentPhase?_ne (h : m.Sound) (hleg : leg ∈ m.plan)
    (hdone : leg.status.isDone = true) : m.currentPhase? ≠ some leg.phase := by
  intro hcurrent
  obtain ⟨here, hhere, hphase⟩ := Option.map_eq_some_iff.mp hcurrent
  obtain ⟨i, hi⟩ := List.mem_iff_getElem?.mp hleg
  -- legs are told apart by their phases, so it would be the leg the machine stands at
  have hindex := h.toLined.index_eq hi hhere hphase.symm
  rw [hindex] at hi
  have hopen := h.here leg hi
  rw [LegStatus.isSettled_of_isDone hdone] at hopen
  cases hopen

/-- A machine that has passed the challenge does not come back to it. -/
theorem Path.past_challenge {p : Protocol} {s : Session} {credit : PhaseSet → Prop}
    {start : Machine} {request : Option Request} (h : Path p s credit start m request)
    (hstart : start.Sound) (hcurrent : start.currentLeg? = some leg)
    (hphase : leg.phase ≠ .challenge) : m.currentPhase? ≠ some .challenge := by
  intro hchallenge
  obtain ⟨here, hhere, hhere'⟩ := Option.map_eq_some_iff.mp hchallenge
  -- the phases are those of the start, and the challenge is the first of all
  have hold : (start.plan.map Leg.phase)[m.current]? = some .challenge := by
    rw [← h.phases, List.getElem?_map]
    exact (congrArg (Option.map Leg.phase) hhere).trans (congrArg some hhere')
  rw [List.getElem?_map] at hold
  obtain ⟨old, hold, hold'⟩ := Option.map_eq_some_iff.mp hold
  rcases Nat.lt_or_eq_of_le h.forward.1 with hlt | heq
  · have hrank := hstart.rank_lt hcurrent hold hlt
    rw [hold'] at hrank
    exact Nat.not_lt_zero _ hrank
  · rw [← heq] at hold
    obtain rfl : leg = old := Option.some.inj (hcurrent.symm.trans hold)
    exact hphase hold'

/-! ## Sealed phases -/

/-- Whether every phase that is answered is sealed, and the status is planned. -/
structure Tight (m : Machine) : Prop where
  sealing : ∀ leg ∈ m.plan, leg.status.isDone = true → leg.status = .done true
  status : .status ∈ m.plan.map Leg.phase

theorem Tight.complete (h : m.Tight) (answered : PhaseSet) (now : Instant) :
    (m.complete answered true now).Tight where
  sealing := by
    intro leg hleg hdone
    rw [plan_complete] at hleg
    obtain ⟨old, hold, rfl⟩ := List.mem_map.mp hleg
    split
    · rfl
    · next hfirst =>
      rw [if_neg hfirst] at hdone
      exact h.sealing old hold hdone
  status := by
    rw [plan_complete, List.map_map]
    obtain ⟨leg, hleg, hphase⟩ := List.mem_map.mp h.status
    refine List.mem_map.mpr ⟨leg, hleg, ?_⟩
    rw [Function.comp_apply]
    split
    · exact hphase
    · exact hphase

theorem Path.tight {p : Protocol} {s : Session} {start : Machine} {request : Option Request}
    (h : Path p s (fun _ => False) start m request) (hstart : start.Tight) : m.Tight where
  sealing := by
    intro leg hleg hdone
    rcases h.done_cases hleg hdone with hold | ⟨_, hcredit, -⟩
    · exact hstart.sealing leg hold hdone
    · exact hcredit.elim
  status := by
    rw [h.phases]
    exact hstart.status

/-- A query that has not started has nothing to seal. -/
theorem tight_ofConfig (c : Capabilities) (config : Config) : (ofConfig c config).Tight where
  sealing := by
    intro leg hleg hdone
    obtain ⟨phase, -, rfl⟩ := List.mem_map.mp hleg
    cases hdone
  status := by
    have hplanned : Phase.status ∈ plannedPhases c config := by
      unfold plannedPhases
      dsimp only
      split
      · exact PhaseSet.mem_insert.mpr (.inr rfl)
      · exact rfl
    rw [ofConfig, List.map_map]
    exact List.mem_map.mpr ⟨.status, PhaseSet.mem_toList.mpr hplanned, rfl⟩

/-- A reply seals what it answers, as far as it is planned. -/
theorem Tight.sealed_complete (h : m.Tight) (hleg : leg ∈ m.plan) {answered : PhaseSet}
    (hanswered : leg.phase ∈ answered) (now : Instant) :
    leg.phase ∈ (m.complete answered true now).sealedPhases := by
  rw [mem_sealedPhases]
  by_cases hdone : leg.status.isDone = true
  · exact ⟨leg, mem_complete hleg hdone answered true now, rfl, h.sealing leg hleg hdone⟩
  · have hfirst : answersFirst answered leg = true := by
      rw [answersFirst, Bool.and_eq_true]
      exact ⟨hanswered, by simpa using hdone⟩
    refine ⟨{ leg with status := .done true }, ?_, rfl, rfl⟩
    rw [plan_complete]
    exact List.mem_map.mpr ⟨leg, hleg, if_pos hfirst⟩

/-- A reply to phases that are not planned counts for nothing. -/
theorem Waits.complete_unplanned (h : m.Waits) {answered : PhaseSet}
    (hnone : ∀ leg ∈ m.plan, leg.phase ∉ answered) (now : Instant) :
    m.complete answered true now = m := by
  obtain ⟨here, sent, hhere, hwaiting, -⟩ := h.asked
  have hfirst : ∀ leg ∈ m.plan, answersFirst answered leg = false := by
    intro leg hleg
    have hout : answered.contains leg.phase = false := by
      simpa [PhaseSet.mem_iff] using hnone leg hleg
    rw [answersFirst, hout, Bool.false_and]
  have hplan : (m.plan.map fun leg =>
      if answersFirst answered leg then { leg with status := .done true } else leg) = m.plan := by
    refine (List.map_congr_left fun leg hleg => ?_).trans (List.map_id m.plan)
    rw [hfirst leg hleg, if_neg Bool.false_ne_true, id]
  have htrips : m.roundTrips answered now = [] := by
    have hfilter : m.plan.filter (answersFirst answered) = [] :=
      List.filter_eq_nil_iff.mpr fun leg hleg => by simp [hfirst leg hleg]
    rw [roundTrips, hfilter, List.filterMap_nil]
  -- the machine stands at a leg that waits, so there is nothing to pass
  have hadvance : m.advance = m := by
    obtain ⟨hlt, hget⟩ := List.getElem?_eq_some_iff.mp hhere
    have hdrop : (m.plan.drop m.current).takeWhile (fun leg => leg.status.isSettled) = [] := by
      rw [List.drop_eq_getElem_cons hlt, hget, List.takeWhile_cons_of_neg]
      rw [hwaiting]
      exact Bool.false_ne_true
    rw [advance, hdrop]
    rfl
  have hsettled : ¬m.plan.length ≤ m.current := by
    have hnot := h.not_settled
    simpa [isSettled] using hnot
  unfold Machine.complete
  rw [hplan, htrips]
  exact (if_neg (hadvance.symm ▸ hsettled)).trans hadvance

end Machine

/-! ## Hearing -/

namespace Target

open Machine (Path)

variable (t : Target) (payload : List UInt8) (now : Instant)

/-- The machine of a target when what a payload answers has been counted. -/
def counted : Machine :=
  match (t.exchanged payload).2.outcome with
  | .done sealing =>
    t.machine.complete (Engine.credited (t.exchanged payload).2.answered t.machine.currentPhase?)
      sealing now
  | _ => t.machine

/-- **Hearing** is counting a reply and then asking, if anything. -/
theorem hear_path :
    Path t.protocol (t.exchanged payload).1.session (fun _ => False) (t.counted payload now)
      (t.hear payload now).target.machine (t.hear payload now).request := by
  unfold hear counted
  rcases t.exchanged payload with ⟨exchange, receipt⟩
  have hstart : Path t.protocol exchange.session (fun _ => False) t.machine t.machine none := .start
  dsimp only
  unfold follow
  rcases receipt.outcome with _ | sealing | kind
  · dsimp only
    split
    · exact askAgain_path (t := { t with exchange }) hstart now
    · exact hstart
  · unfold goOn
    dsimp only
    generalize t.machine.complete _ sealing now = machine
    split
    · exact .start
    · split
      · exact ask_path (t := { t with exchange, machine }) .start now
      · exact .start
  · dsimp only
    split <;> exact hstart

variable {t}

theorem counted_sound (h : t.machine.Sound) : (t.counted payload now).Sound := by
  unfold counted
  split
  · exact h.complete _ _ now
  · exact h

theorem counted_tight (h : t.machine.Tight) : (t.counted payload now).Tight := by
  unfold counted
  split
  · next sealing houtcome =>
    rw [t.exchanged_sealing houtcome]
    exact h.complete _ now
  · exact h

theorem hear_sound (h : t.machine.Sound) : (t.hear payload now).target.machine.Sound :=
  (t.hear_path payload now).sound (counted_sound payload now h)

/-- What is sealed when the reply has been counted is sealed afterwards. -/
theorem sealed_hear (h : t.machine.Sound) {phase : Phase}
    (hsealed : phase ∈ (t.counted payload now).sealedPhases) :
    phase ∈ (t.hear payload now).target.machine.sealedPhases := by
  obtain ⟨leg, hleg, hphase, hstatus⟩ := Machine.mem_sealedPhases.mp hsealed
  have hstays := (t.hear_path payload now).done_stays (counted_sound payload now h) hleg
    (by rw [hstatus]; rfl)
  exact Machine.mem_sealedPhases.mpr ⟨leg, hstays, hphase, hstatus⟩

/-- A payload that answers something counts for what it answers by name. -/
theorem credited_of_mem {answered : PhaseSet} {phase : Phase} (h : phase ∈ answered)
    (current : Option Phase) : Engine.credited answered current = answered := by
  refine if_neg fun hempty => ?_
  rw [PhaseSet.isEmpty_iff.mp hempty] at h
  exact PhaseSet.not_mem_empty phase h

/-- A planned phase that a payload answers is sealed afterwards. -/
theorem sealed_of_answer {payload : List UInt8} (hsound : t.machine.Sound)
    (htight : t.machine.Tight) {sealing : Bool} {leg : Leg}
    (houtcome : (t.exchanged payload).2.outcome = .done sealing) (hleg : leg ∈ t.machine.plan)
    (hanswered : leg.phase ∈ (t.exchanged payload).2.answered) (now : Instant) :
    leg.phase ∈ (t.hear payload now).target.machine.sealedPhases := by
  refine sealed_hear payload now hsound ?_
  obtain rfl := t.exchanged_sealing houtcome
  unfold counted
  rw [houtcome]
  dsimp only
  rw [credited_of_mem hanswered]
  exact htight.sealed_complete hleg hanswered now

variable {payload now} in
/-- The fault of a payload is passed on. A fatal one ends the target and is kept for the
report. -/
theorem hear_error {kind : ErrorKind} (h : (t.exchanged payload).2.outcome = .error kind) :
    let message := (t.exchanged payload).2.message.getD kind.message
    (t.hear payload now).fault = some (kind, message) ∧
      (t.hear payload now).fate = (if kind.isFatal then .over (some (.error kind)) else .goesOn) ∧
      (kind.isFatal = true → (t.hear payload now).target.lastError = some message) := by
  unfold hear
  rcases hexchanged : t.exchanged payload with ⟨exchange, receipt⟩
  rw [hexchanged] at h
  dsimp only at h ⊢
  unfold follow
  rw [h]
  dsimp only
  split
  · exact ⟨rfl, rfl, fun _ => rfl⟩
  · next hharmless => exact ⟨rfl, rfl, fun hfatal => absurd hfatal hharmless⟩

variable {payload now} in
/-- A broken payload ends the target. -/
theorem hear_fatal {kind : ErrorKind} (hfatal : kind.isFatal = true)
    (h : (t.exchanged payload).2.outcome = .error kind) :
    (t.hear payload now).fate = .over (some (.error kind)) := by
  rw [(hear_error h).2.1, if_pos hfatal]

theorem react_tight (h : t.machine.Tight) (cue : Cue) : (t.react cue).target.machine.Tight := by
  cases cue with
  | hear payload now => exact (t.hear_path payload now).tight (counted_tight payload now h)
  | ask now => exact Path.tight (t.react_path (.ask now)) h
  | linger => exact Path.tight (t.react_path .linger) h
  | unsent error => exact Path.tight (t.react_path (.unsent error)) h

end Target

/-- **Every active target seals what is answered.** -/
theorem Engine.Reachable.tight {e : Engine} (h : e.Reachable) :
    ∀ t ∈ e.targets, t.machine.Tight :=
  h.every_target (P := fun t => t.machine.Tight) (fun _ _ ht => ht) (fun _ _ _ ht => ht)
    (fun _ cue ht _ => Target.react_tight ht cue)
    fun _ _ _ p config _ now _ =>
      Target.react_tight (Machine.tight_ofConfig p.capabilities config) (.ask now)

end ServerProbe
