/-
What a machine keeps in mind about each phase.

Deciding, counting a reply and waiting no longer change where the legs of a plan stand
and nothing else about them; what is spent on them is changed by requests only, and a
request changes one leg, the current one. So with the status left out (`Leg.bare`), a
plan is a ledger in which only requests make entries.
-/
import ServerProbe.Proofs.Reaction

set_option autoImplicit false

namespace ServerProbe

/-- A leg apart from where it stands. -/
def Leg.bare (leg : Leg) : Leg := { leg with status := .idle }

/-- A leg after a request that was charged. -/
def Leg.charge (leg : Leg) (now : Instant) : Leg :=
  { leg with
    budget := leg.budget - 1
    attempts := leg.attempts + 1
    firstSent := leg.firstSent.or (some now)
    lastSent := some now
    status := .waiting }

/-- A leg after the request that was free. -/
def Leg.favour (leg : Leg) (now : Instant) : Leg :=
  { leg with lastSent := some now, freeResendUsed := true, status := .waiting }

namespace Machine

/-- The plan apart from where its legs stand. -/
def ledger (m : Machine) : List Leg := m.plan.map Leg.bare

/-! ## One leg changes -/

theorem plan_changeCurrent {m : Machine} {leg : Leg} (h : m.currentLeg? = some leg)
    (change : Leg → Leg) :
    (m.changeCurrent change).plan = m.plan.set m.current (change leg) := by
  have hlength : m.current < m.plan.length := (List.getElem?_eq_some_iff.mp h).1
  have hleg : m.plan[m.current] = leg := (List.getElem?_eq_some_iff.mp h).2
  -- place by place: the current one, and the others
  apply List.ext_getElem?
  intro i
  rw [changeCurrent, List.getElem?_modify, List.getElem?_set]
  by_cases hi : m.current = i
  · subst hi
    simp [hlength, hleg]
  · simp [hi]

/-- Behind the last leg there is nothing to change. -/
theorem changeCurrent_of_none {m : Machine} (hend : m.currentLeg? = none) (change : Leg → Leg) :
    m.changeCurrent change = m := by
  have hplan : m.plan.modify m.current change = m.plan :=
    List.modify_eq_self (List.getElem?_eq_none_iff.mp hend)
  rw [changeCurrent, hplan]

/-- A leg after a change of the current one was there before, or it is the changed one. -/
theorem changeCurrent_cases {m : Machine} {change : Leg → Leg} {leg : Leg}
    (hleg : leg ∈ (m.changeCurrent change).plan) :
    leg ∈ m.plan ∨ ∃ here, m.currentLeg? = some here ∧ leg = change here := by
  rcases hcurrent : m.currentLeg? with _ | here
  · rw [changeCurrent_of_none hcurrent] at hleg
    exact .inl hleg
  · rw [plan_changeCurrent hcurrent] at hleg
    rcases List.mem_or_eq_of_mem_set hleg with hold | hchanged
    · exact .inl hold
    · exact .inr ⟨here, rfl, hchanged⟩

/-- A leg that the machine does not stand at is still there after a change of the current one. -/
theorem mem_changeCurrent {m : Machine} {leg : Leg} (hleg : leg ∈ m.plan)
    (hother : m.currentLeg? ≠ some leg) (change : Leg → Leg) :
    leg ∈ (m.changeCurrent change).plan := by
  obtain ⟨i, hi⟩ := List.mem_iff_getElem?.mp hleg
  have hne : m.current ≠ i := by
    rintro rfl
    exact hother hi
  refine List.mem_iff_getElem?.mpr ⟨i, ?_⟩
  rw [changeCurrent, List.getElem?_modify_ne _ _ hne]
  exact hi

theorem plan_recordSend {m : Machine} {leg : Leg} (h : m.currentLeg? = some leg) (now : Instant) :
    (m.recordSend now).plan = m.plan.set m.current (leg.charge now) :=
  plan_changeCurrent h _

theorem plan_recordFreeResend {m : Machine} {leg : Leg} (h : m.currentLeg? = some leg)
    (now : Instant) : (m.recordFreeResend now).plan = m.plan.set m.current (leg.favour now) :=
  plan_changeCurrent h _

/-! ## Where the legs stand -/

theorem ledger_map {m m' : Machine} {change : Leg → Leg} (hplan : m'.plan = m.plan.map change)
    (hbare : ∀ leg, (change leg).bare = leg.bare) : m'.ledger = m.ledger := by
  rw [ledger, ledger, hplan, List.map_map]
  exact List.map_congr_left fun leg _ => hbare leg

theorem ledger_skipGated (m : Machine) : m.skipGated.ledger = m.ledger := by
  refine ledger_map rfl fun leg => ?_
  split
  · rfl
  · rfl

theorem ledger_timeOut (m : Machine) :
    (m.changeCurrent fun leg => { leg with status := .timedOut }).ledger = m.ledger := by
  apply List.ext_getElem?
  intro i
  simp only [ledger, changeCurrent, List.getElem?_map, List.getElem?_modify]
  rcases m.plan[i]? with _ | leg
  · rfl
  · by_cases hi : m.current = i
    · simp [hi, Leg.bare]
    · simp [hi]

theorem ledger_nextSend (m : Machine) : m.nextSend.1.ledger = m.ledger := by
  unfold nextSend
  rcases m.currentLeg? with _ | leg
  · rfl
  · dsimp only
    split
    · rfl
    · dsimp only
      split
      · exact (ledger_skipGated _).trans m.ledger_timeOut
      · exact m.ledger_timeOut

theorem plan_complete (m : Machine) (answered : PhaseSet) (sealing : Bool) (now : Instant) :
    (m.complete answered sealing now).plan = m.plan.map fun leg =>
      if answersFirst answered leg then { leg with status := .done sealing } else leg := by
  unfold complete
  dsimp only
  split
  · rfl
  · rfl

theorem ledger_complete (m : Machine) (answered : PhaseSet) (sealing : Bool) (now : Instant) :
    (m.complete answered sealing now).ledger = m.ledger := by
  refine ledger_map (m.plan_complete answered sealing now) fun leg => ?_
  split
  · rfl
  · rfl

/-! ## The ledger along a path -/

/-- The ledger after a path: as it was, or with one entry for the request. -/
theorem Path.ledger {p : Protocol} {s : Session} {credit : PhaseSet → Prop} {start m : Machine}
    {request : Option Request} (h : Path p s credit start m request) :
    (request = none ∧ m.ledger = start.ledger) ∨
    ∃ i leg now payload, start.ledger[i]? = some leg ∧
      ((0 < leg.budget ∧ request = some ⟨leg.phase, payload, false⟩ ∧
          m.ledger = start.ledger.set i (leg.charge now).bare) ∨
        (leg.freeResendUsed = false ∧ request = some ⟨leg.phase, payload, true⟩ ∧
          m.ledger = start.ledger.set i (leg.favour now).bare)) := by
  -- without a request no entry is made
  have hquiet : ∀ {m : Machine}, Path p s credit start m none → m.ledger = start.ledger := by
    intro m h
    generalize hnone : (none : Option Request) = request at h
    induction h with
    | start => rfl
    | decide _ ih => exact (ledger_nextSend _).trans (ih hnone)
    | complete answered sealing now _ _ ih =>
      exact (ledger_complete _ answered sealing now).trans (ih hnone)
    | stop _ ih => exact ih hnone
    | send => cases hnone
    | resend => cases hnone
  -- the leg that is asked has an entry, which is the one from the start
  have hentry : ∀ {m : Machine} {leg : Leg}, Path p s credit start m none →
      m.currentLeg? = some leg → start.ledger[m.current]? = some leg.bare := by
    intro m leg h hleg
    rw [← hquiet h, Machine.ledger, List.getElem?_map]
    exact congrArg (Option.map Leg.bare) hleg
  cases h with
  | start => exact .inl ⟨rfl, rfl⟩
  | decide h => exact .inl ⟨rfl, hquiet h.decide⟩
  | complete answered sealing now hcredit h =>
    exact .inl ⟨rfl, hquiet (h.complete answered sealing now hcredit)⟩
  | stop h => exact .inl ⟨rfl, hquiet h.stop⟩
  | @send m leg payload now h hleg hbudget hpayload =>
    refine .inr ⟨m.current, leg.bare, now, payload, hentry h hleg, .inl ⟨hbudget, rfl, ?_⟩⟩
    rw [← hquiet h, Machine.ledger, plan_recordSend hleg, List.map_set]
    rfl
  | @resend m leg payload now h hleg hunused hpayload =>
    refine .inr ⟨m.current, leg.bare, now, payload, hentry h hleg, .inr ⟨hunused, rfl, ?_⟩⟩
    rw [← hquiet h, Machine.ledger, plan_recordFreeResend hleg, List.map_set]
    rfl

/-- The phases of a plan stay, in their order. -/
theorem Path.phases {p : Protocol} {s : Session} {credit : PhaseSet → Prop} {start m : Machine}
    {request : Option Request} (h : Path p s credit start m request) :
    m.plan.map Leg.phase = start.plan.map Leg.phase := by
  have hbare : ∀ m : Machine, m.plan.map Leg.phase = m.ledger.map Leg.phase := by
    intro m
    rw [Machine.ledger, List.map_map]
    rfl
  -- an entry is about the phase that it was about before
  have hset : ∀ {i : Nat} {leg leg' : Leg}, start.ledger[i]? = some leg → leg'.phase = leg.phase →
      (start.ledger.set i leg').map Leg.phase = start.ledger.map Leg.phase := by
    intro i leg leg' hleg hphase
    have hentry : (start.ledger.map Leg.phase)[i]? = some leg.phase := by
      rw [List.getElem?_map, hleg]
      rfl
    obtain ⟨hlt, hget⟩ := List.getElem?_eq_some_iff.mp hentry
    rw [List.map_set, hphase, ← hget]
    exact List.set_getElem_self _
  rw [hbare, hbare]
  rcases h.ledger with ⟨-, hledger⟩ | ⟨i, leg, now, payload, hleg, hentry⟩
  · rw [hledger]
  · rcases hentry with ⟨-, -, hledger⟩ | ⟨-, -, hledger⟩
    · rw [hledger]
      exact hset hleg rfl
    · rw [hledger]
      exact hset hleg rfl

end Machine

end ServerProbe
