/-
The round trip that a machine reports, told from the calls that were made to it.

A machine keeps a total and a count, and adds to them whenever a reply answers a leg for the
first time. What they amount to can be told from the calls alone: each planned phase has one
round trip at most, from the first request that was noted for it to the first reply that
answers it (`roundTrip?`). Since a leg keeps the instant of its first request, and is answered
by the first reply, a reply adds just the round trips that it completes
(`roundTripsOf_complete`), in whatever order; so the mean is that of all of them
(`ping_eq_mean`).
-/
import ServerProbe.Proofs.Driving
import ServerProbe.Proofs.Total

set_option autoImplicit false

namespace ServerProbe.Machine

/-! ## Round trips among the calls -/

/-- When a call notes a request for a phase: it is for the phase that the machine stands at. -/
def Call.asked? (m : Machine) (phase : Phase) : Call → Option Instant
  | .recordSend now => if m.currentPhase? = some phase then some now else none
  | _ => none

/-- When the first request for a phase is noted. -/
def firstAsked? (phase : Phase) : Machine → List Call → Option Instant
  | _, [] => none
  | m, call :: rest => (call.asked? m phase).or (firstAsked? phase (m.after call) rest)

/-- The round trip of a phase: from the first request for it to the first reply that answers
it, if it was asked for by then. A clock that went backwards gives none. -/
def roundTrip? (start : Machine) (calls : List Call) (phase : Phase) : Option Nat :=
  (firstAnswer? phase calls).bind fun answer =>
    (firstAsked? phase start (calls.takeWhile fun call => (call.answer? phase).isNone)).map
      (answer.2 - ·)

/-- The round trips of all phases. -/
def roundTripsOf (start : Machine) (calls : List Call) : List Nat :=
  (start.plan.map Leg.phase).filterMap (start.roundTrip? calls)

section Calls

variable {start : Machine} {calls : List Call} {phase : Phase}

theorem firstAsked?_concat (start : Machine) (calls : List Call) (call : Call) (phase : Phase) :
    firstAsked? phase start (calls ++ [call])
      = (firstAsked? phase start calls).or (call.asked? (start.drive calls) phase) := by
  induction calls generalizing start with
  | nil => simp [firstAsked?]
  | cons first rest ih =>
    rw [List.cons_append, firstAsked?, ih, firstAsked?, Option.or_assoc]
    rfl

/-- What comes after the first reply to a phase has nothing to do with its round trip. -/
theorem roundTrip?_of_answer {before later : List Call} {call : Call} {answer : Bool × Instant}
    (hbefore : ∀ call ∈ before, call.answer? phase = none)
    (hcall : call.answer? phase = some answer) :
    start.roundTrip? (before ++ call :: later) phase
      = (firstAsked? phase start before).map (answer.2 - ·) := by
  have hfirst : firstAnswer? phase (before ++ call :: later) = some answer :=
    List.findSome?_eq_some_iff.mpr ⟨before, call, later, rfl, hcall, hbefore⟩
  have huntil : (before ++ call :: later).takeWhile (fun call => (call.answer? phase).isNone)
      = before := by
    rw [List.takeWhile_append_of_pos fun call hmem => by rw [hbefore call hmem]; rfl,
      List.takeWhile_cons_of_neg (by simp [hcall]), List.append_nil]
  rw [roundTrip?, hfirst, huntil, Option.bind_some]

theorem roundTrip?_of_open (hopen : firstAnswer? phase calls = none) :
    start.roundTrip? calls phase = none := by
  rw [roundTrip?, hopen, Option.bind_none]

theorem roundTrip?_eq_some_iff {trip : Nat} : start.roundTrip? calls phase = some trip ↔
    ∃ before answered sealing now later sent,
      calls = before ++ .complete answered sealing now :: later ∧ phase ∈ answered ∧
      (∀ call ∈ before, call.answer? phase = none) ∧
      firstAsked? phase start before = some sent ∧ trip = now - sent := by
  constructor
  · intro htrip
    rcases hfirst : firstAnswer? phase calls with _ | ⟨sealing, now⟩
    · rw [roundTrip?_of_open hfirst] at htrip
      cases htrip
    · obtain ⟨before, call, later, rfl, hcall, hbefore⟩ := List.findSome?_eq_some_iff.mp hfirst
      rw [roundTrip?_of_answer hbefore hcall] at htrip
      obtain ⟨sent, hsent, rfl⟩ := Option.map_eq_some_iff.mp htrip
      obtain ⟨answered, rfl, hmem⟩ := Call.answer?_eq_some_iff.mp hcall
      exact ⟨before, answered, sealing, now, later, sent, rfl, hmem, hbefore, hsent, rfl⟩
  · rintro ⟨before, answered, sealing, now, later, sent, rfl, hmem, hbefore, hsent, rfl⟩
    have hcall : (Call.complete answered sealing now).answer? phase = some (sealing, now) :=
      Call.answer?_eq_some_iff.mpr ⟨answered, rfl, hmem⟩
    rw [roundTrip?_of_answer hbefore hcall, hsent, Option.map_some]

/-- One more call leaves the round trip of an answered phase as it is. -/
theorem roundTrip?_concat_of_answered {answer : Bool × Instant}
    (hanswered : firstAnswer? phase calls = some answer) (call : Call) :
    start.roundTrip? (calls ++ [call]) phase = start.roundTrip? calls phase := by
  obtain ⟨before, first, later, rfl, hfirst, hbefore⟩ := List.findSome?_eq_some_iff.mp hanswered
  rw [List.append_assoc, List.cons_append, roundTrip?_of_answer hbefore hfirst,
    roundTrip?_of_answer hbefore hfirst]

/-- One more call completes the round trip of an open phase if it is a reply to it. -/
theorem roundTrip?_concat_of_open (hopen : firstAnswer? phase calls = none) (call : Call) :
    start.roundTrip? (calls ++ [call]) phase = (call.answer? phase).bind fun answer =>
      (firstAsked? phase start calls).map (answer.2 - ·) := by
  rcases hcall : call.answer? phase with _ | answer
  · refine roundTrip?_of_open ?_
    rw [firstAnswer?_concat, hcall, Option.or_none]
    exact hopen
  · exact roundTrip?_of_answer (List.findSome?_eq_none_iff.mp hopen) hcall

/-- A call that is no reply completes no round trip. -/
theorem roundTripsOf_quiet {call : Call} (hquiet : ∀ phase, call.answer? phase = none) :
    start.roundTripsOf (calls ++ [call]) = start.roundTripsOf calls := by
  refine List.filterMap_congr fun phase _ => ?_
  rcases hfirst : firstAnswer? phase calls with _ | answer
  · rw [roundTrip?_concat_of_open hfirst, hquiet, Option.bind_none, roundTrip?_of_open hfirst]
  · exact roundTrip?_concat_of_answered hfirst call

end Calls

/-! ## What a leg keeps in mind -/

section Legs

variable {m : Machine}

/-- In a plan in line, what is left after a change of the current leg is of other phases. -/
theorem Lined.mem_changeCurrent_cases (h : m.Lined) {change : Leg → Leg} {leg : Leg}
    (hleg : leg ∈ (m.changeCurrent change).plan) :
    (∃ here, m.currentLeg? = some here ∧ leg = change here) ∨
      (leg ∈ m.plan ∧ m.currentPhase? ≠ some leg.phase) := by
  obtain ⟨i, hi⟩ := List.mem_iff_getElem?.mp hleg
  rw [Machine.changeCurrent, List.getElem?_modify] at hi
  obtain ⟨old, hold, rfl⟩ := Option.map_eq_some_iff.mp hi
  by_cases hcurrent : m.current = i
  · subst hcurrent
    exact .inl ⟨old, hold, if_pos rfl⟩
  · rw [if_neg hcurrent]
    refine .inr ⟨List.mem_of_getElem? hold, fun hphase => ?_⟩
    obtain ⟨here, hhere, hsame⟩ := Option.map_eq_some_iff.mp hphase
    exact hcurrent (h.index_eq hhere hold hsame)

/-- A leg that is in the ledger was there before with the same first request. -/
theorem exists_of_ledger {m' : Machine} (hledger : m'.ledger = m.ledger) {leg' : Leg}
    (hleg : leg' ∈ m'.plan) :
    ∃ leg ∈ m.plan, leg'.phase = leg.phase ∧ leg'.firstSent = leg.firstSent := by
  have hentry : leg'.bare ∈ m.ledger := hledger ▸ List.mem_map_of_mem hleg
  obtain ⟨leg, hold, hbare⟩ := List.mem_map.mp hentry
  exact ⟨leg, hold, (congrArg Leg.phase hbare).symm, (congrArg Leg.firstSent hbare).symm⟩

/-- A leg keeps the instant of the first request that was noted for it. -/
theorem Sound.firstSent_after (h : m.Sound) (call : Call) {leg' : Leg}
    (hleg : leg' ∈ (m.after call).plan) : ∃ leg ∈ m.plan, leg'.phase = leg.phase ∧
      leg'.firstSent = leg.firstSent.or (call.asked? m leg.phase) := by
  -- calls that note no request make no entry
  have hquiet : (m.after call).ledger = m.ledger → (∀ phase, call.asked? m phase = none) →
      ∃ leg ∈ m.plan, leg'.phase = leg.phase ∧
        leg'.firstSent = leg.firstSent.or (call.asked? m leg.phase) := by
    intro hledger hnothing
    obtain ⟨leg, hold, hphase, hsent⟩ := exists_of_ledger hledger hleg
    refine ⟨leg, hold, hphase, ?_⟩
    rw [hnothing, Option.or_none]
    exact hsent
  cases call with
  | nextSend => exact hquiet m.ledger_nextSend fun _ => rfl
  | recordSend now =>
    rcases h.toLined.mem_changeCurrent_cases hleg with ⟨here, hhere, rfl⟩ | ⟨hold, hother⟩
    · refine ⟨here, List.mem_of_getElem? hhere, rfl, ?_⟩
      have hphase : m.currentPhase? = some here.phase := congrArg (Option.map Leg.phase) hhere
      rw [Call.asked?, if_pos hphase]
    · refine ⟨leg', hold, rfl, ?_⟩
      rw [Call.asked?, if_neg hother, Option.or_none]
  | recordFreeResend now =>
    rcases h.toLined.mem_changeCurrent_cases hleg with ⟨here, hhere, rfl⟩ | ⟨hold, -⟩
    · exact ⟨here, List.mem_of_getElem? hhere, rfl, (Option.or_none).symm⟩
    · exact ⟨leg', hold, rfl, (Option.or_none).symm⟩
  | complete answered sealing now =>
    exact hquiet (m.ledger_complete answered sealing now) fun _ => rfl
  | stopLingering => exact hquiet rfl fun _ => rfl

end Legs

/-- In a machine that started afresh, a leg keeps the instant of the first request for it. -/
theorem firstSent_drive {c : Capabilities} {config : Config} {calls : List Call} {leg : Leg}
    (hleg : leg ∈ ((ofConfig c config).drive calls).plan) :
    leg.firstSent = firstAsked? leg.phase (ofConfig c config) calls := by
  obtain ⟨old, hold, hphase, hsent⟩ :=
    Sound.keeps_first (fun m call phase => call.asked? m phase)
      (fun calls phase => firstAsked? phase (ofConfig c config) calls)
      (fun _ hsound call _ hleg => hsound.firstSent_after call hleg) (fun _ => rfl)
      (firstAsked?_concat _) (sound_ofConfig c config) calls leg hleg
  obtain ⟨phase, -, rfl⟩ := List.mem_map.mp hold
  rw [hsent, hphase]
  rfl

/-! ## What a machine adds up -/

theorem ping_nextSend (m : Machine) :
    m.nextSend.1.pingTotal = m.pingTotal ∧ m.nextSend.1.pingCount = m.pingCount := by
  unfold nextSend
  rcases m.currentLeg? with _ | leg
  · exact ⟨rfl, rfl⟩
  · dsimp only
    split
    · exact ⟨rfl, rfl⟩
    · dsimp only
      split
      · exact ⟨rfl, rfl⟩
      · exact ⟨rfl, rfl⟩

theorem ping_complete (m : Machine) (answered : PhaseSet) (sealing : Bool) (now : Instant) :
    (m.complete answered sealing now).pingTotal
        = m.pingTotal + total (m.roundTrips answered now) ∧
      (m.complete answered sealing now).pingCount
        = m.pingCount + (m.roundTrips answered now).length := by
  unfold complete
  dsimp only
  split
  · exact ⟨rfl, rfl⟩
  · exact ⟨rfl, rfl⟩

/-- Where something new comes in the places where there was nothing, it is added. -/
theorem perm_filterMap_ite {α β : Type} {p : α → Bool} {f g : α → Option β} {l : List α}
    (hnothing : ∀ a ∈ l, p a = true → f a = none) :
    (l.filterMap fun a => if p a then g a else f a).Perm
      (l.filterMap f ++ (l.filter p).filterMap g) := by
  induction l with
  | nil => exact .nil
  | cons a rest ih =>
    obtain ⟨ha, hrest⟩ := List.forall_mem_cons.mp hnothing
    have hperm := ih hrest
    rcases hp : p a with _ | _
    · -- what was there stays in front
      rw [List.filterMap_cons, List.filterMap_cons, List.filter_cons_of_neg (by simp [hp]), hp,
        if_neg Bool.false_ne_true]
      rcases f a with _ | b
      · exact hperm
      · exact hperm.cons b
    · rw [List.filterMap_cons, List.filterMap_cons, List.filter_cons_of_pos hp, ha hp, hp,
        if_pos rfl, List.filterMap_cons]
      rcases g a with _ | b
      · exact hperm
      · exact (hperm.cons b).trans List.perm_middle.symm

section Totals

variable {c : Capabilities} {config : Config} {calls : List Call}

/-- The round trips can be read off the plan at any time, since it keeps its phases. -/
theorem roundTripsOf_eq (c : Capabilities) (config : Config) (calls calls' : List Call) :
    (ofConfig c config).roundTripsOf calls = ((ofConfig c config).drive calls').plan.filterMap
      fun leg => (ofConfig c config).roundTrip? calls leg.phase := by
  rw [roundTripsOf, ← ((sound_ofConfig c config).onward_drive calls').phases, List.filterMap_map]
  rfl

/-- A reply completes the round trip of each leg that it answers for the first time. -/
theorem roundTrip?_complete {leg : Leg} (hleg : leg ∈ ((ofConfig c config).drive calls).plan)
    (answered : PhaseSet) (sealing : Bool) (now : Instant) :
    (answersFirst answered leg = true →
      (ofConfig c config).roundTrip? calls leg.phase = none) ∧
    (ofConfig c config).roundTrip? (calls ++ [.complete answered sealing now]) leg.phase
      = if answersFirst answered leg then leg.firstSent.map (now - ·)
        else (ofConfig c config).roundTrip? calls leg.phase := by
  have hseal := seal?_drive hleg
  rcases hfirst : firstAnswer? leg.phase calls with _ | answer
  · rw [hfirst, Option.map_none, LegStatus.seal?_eq_none_iff] at hseal
    refine ⟨fun _ => roundTrip?_of_open hfirst, ?_⟩
    rw [roundTrip?_concat_of_open hfirst, roundTrip?_of_open hfirst, firstSent_drive hleg,
      answersFirst, hseal, Bool.not_false, Bool.and_true, Call.answer?]
    by_cases hmem : leg.phase ∈ answered
    · rw [if_pos hmem, if_pos (PhaseSet.mem_iff.mp hmem), Option.bind_some]
    · rw [if_neg hmem, if_neg (PhaseSet.mem_iff.not.mp hmem), Option.bind_none]
  · have hdone : leg.status.isDone = true := by
      rcases hopen : leg.status.isDone with _ | _
      · rw [LegStatus.seal?_eq_none_iff.mpr hopen, hfirst] at hseal
        cases hseal
      · rfl
    have hnot : answersFirst answered leg = false := by
      rw [answersFirst, hdone, Bool.not_true, Bool.and_false]
    rw [hnot, roundTrip?_concat_of_answered hfirst]
    exact ⟨fun hanswers => absurd hanswers Bool.false_ne_true, rfl⟩

/-- A reply adds the round trips that it completes. -/
theorem roundTripsOf_complete (c : Capabilities) (config : Config) (calls : List Call)
    (answered : PhaseSet) (sealing : Bool) (now : Instant) :
    ((ofConfig c config).roundTripsOf (calls ++ [.complete answered sealing now])).Perm
      ((ofConfig c config).roundTripsOf calls
        ++ ((ofConfig c config).drive calls).roundTrips answered now) := by
  rw [roundTripsOf_eq c config _ calls, roundTripsOf_eq c config calls calls, roundTrips]
  rw [List.filterMap_congr fun leg hleg => (roundTrip?_complete hleg answered sealing now).2]
  exact perm_filterMap_ite fun leg hleg => (roundTrip?_complete hleg answered sealing now).1

/-- A machine has added up the round trips of all phases. -/
theorem ping_drive (c : Capabilities) (config : Config) (calls : List Call) :
    ((ofConfig c config).drive calls).pingTotal = total ((ofConfig c config).roundTripsOf calls) ∧
      ((ofConfig c config).drive calls).pingCount
        = ((ofConfig c config).roundTripsOf calls).length := by
  induction calls using List.reverseRecOn with
  | nil =>
    have hnone : (ofConfig c config).roundTripsOf [] = [] :=
      List.filterMap_eq_nil_iff.mpr fun _ _ => rfl
    rw [hnone]
    exact ⟨rfl, rfl⟩
  | append_singleton calls call ih =>
    obtain ⟨htotal, hcount⟩ := ih
    rw [drive_concat]
    cases call with
    | nextSend =>
      obtain ⟨htotal', hcount'⟩ := ((ofConfig c config).drive calls).ping_nextSend
      rw [roundTripsOf_quiet fun _ => rfl]
      exact ⟨htotal'.trans htotal, hcount'.trans hcount⟩
    | recordSend now =>
      rw [roundTripsOf_quiet fun _ => rfl]
      exact ⟨htotal, hcount⟩
    | recordFreeResend now =>
      rw [roundTripsOf_quiet fun _ => rfl]
      exact ⟨htotal, hcount⟩
    | complete answered sealing now =>
      obtain ⟨htotal', hcount'⟩ :=
        ((ofConfig c config).drive calls).ping_complete answered sealing now
      have hperm := roundTripsOf_complete c config calls answered sealing now
      rw [total_perm hperm, hperm.length_eq, total_append, List.length_append, ← htotal, ← hcount]
      exact ⟨htotal', hcount'⟩
    | stopLingering =>
      rw [roundTripsOf_quiet fun _ => rfl]
      exact ⟨htotal, hcount⟩

end Totals

/-- **The round trip that is reported is the mean over the phases.** Take any capabilities and
options, and a machine to which any calls are made, in any order and with any instants, also
backwards. A phase has a round trip if it is planned and the first reply that answers it has
come after a request that was noted for it, and then it is what has passed from the first such
request to that reply. Nothing is reported if no phase has one; otherwise the mean over those
that have, rounded down. -/
theorem ping_eq_mean (c : Capabilities) (config : Config) (calls : List Call) :
    let start := ofConfig c config
    let trips := start.roundTripsOf calls
    ((start.drive calls).ping? = none ↔
      ∀ phase ∈ start.plan.map Leg.phase, start.roundTrip? calls phase = none) ∧
    (start.drive calls).ping?
      = (if trips = [] then none else some (total trips / trips.length)) ∧
    ∀ phase trip, start.roundTrip? calls phase = some trip ↔
      ∃ before answered sealing now later sent,
        calls = before ++ .complete answered sealing now :: later ∧ phase ∈ answered ∧
        (∀ call ∈ before, call.answer? phase = none) ∧
        firstAsked? phase start before = some sent ∧ trip = now - sent := by
  intro start trips
  obtain ⟨htotal, hcount⟩ := ping_drive c config calls
  have hmean : (start.drive calls).ping?
      = if trips = [] then none else some (total trips / trips.length) := by
    rw [ping?, htotal, hcount]
    simp only [List.length_eq_zero_iff]
    rfl
  refine ⟨?_, hmean, fun phase trip => roundTrip?_eq_some_iff⟩
  rw [hmean, ← List.filterMap_eq_nil_iff]
  change _ ↔ trips = []
  constructor
  · intro hnone
    by_contra hsome
    rw [if_neg hsome] at hnone
    cases hnone
  · exact fun hnone => if_pos hnone

/-- The first reply counts, from the first request; a second reply and a third request do not. -/
example : ((ofConfig Protocol.q3.capabilities {}).drive
    [.recordSend 10, .recordSend 30, .complete (PhaseSet.ofList [.status, .rules]) false 45,
      .recordSend 50, .complete (PhaseSet.ofList [.status]) true 90]).ping? = some 35 := by decide

end ServerProbe.Machine
