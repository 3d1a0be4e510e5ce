/-
What a server costs that does not answer.

In silence a query goes through its plan on its own. What it will still ask for can be told
from its legs: each phase as often as is left to spend on it, and nothing for phases that need
a challenge, since the challenge will not be answered (`Machine.agenda`). Giving up a phase
leaves the agenda as it is, and a request takes the first entry off (`Unheard.nextRequest`,
`Unheard.recordSend`). So every tick sends what comes next on the agenda, one interval after
the last, until it is empty; the tick after that ends the query (`silence`).

A tick comes when time next matters, and that has to be an instant. One that no clock shows is
nowhere on the way if the last one is none (`silent_server`).
-/
import ServerProbe.Proofs.Exhaustion
import ServerProbe.Proofs.Flagging

set_option autoImplicit false

namespace ServerProbe

/-! ## Legs of which nothing has been heard -/

namespace Leg

/-- What is still asked for a leg if nobody answers. -/
def due (gates : PhaseSet) (leg : Leg) : List Phase :=
  if leg.phase ∈ gates then [] else List.replicate leg.reserve leg.phase

/-- A leg of which nothing has been heard. It may be asked `each` times in all, not at all if
it needs a challenge, and it is given up only if it has been asked that often. -/
structure Unheard (each : Nat) (gates : PhaseSet) (leg : Leg) : Prop where
  undone : leg.status.isDone = false
  spent : leg.attempts + leg.budget = each
  barred : leg.phase ∈ gates → leg.attempts = 0
  used : leg.phase ∉ gates → leg.status.isSettled = true → leg.budget = 0

variable {each : Nat} {gates : PhaseSet} {leg : Leg}

theorem due_of_gated (h : leg.phase ∈ gates) : leg.due gates = [] := if_pos h

theorem due_of_reserve (h : leg.reserve = 0) : leg.due gates = [] := by
  rw [due, h, List.replicate_zero, ite_self]

theorem due_of_settled (h : leg.status.isSettled = true) : leg.due gates = [] :=
  due_of_reserve (reserve_of_settled h)

theorem due_of_open (h : leg.status.isSettled = false) (hfree : leg.phase ∉ gates) :
    leg.due gates = List.replicate leg.budget leg.phase := by
  rw [due, if_neg hfree, reserve_of_open h]

theorem Unheard.timedOut (h : leg.Unheard each gates) (hspent : leg.budget = 0) :
    { leg with status := .timedOut }.Unheard each gates :=
  ⟨rfl, h.spent, h.barred, fun _ _ => hspent⟩

theorem Unheard.skipped (h : leg.Unheard each gates) (hgated : leg.phase ∈ gates) :
    { leg with status := .skipped }.Unheard each gates :=
  ⟨rfl, h.spent, h.barred, fun hfree => absurd hgated hfree⟩

theorem Unheard.charge (h : leg.Unheard each gates) (hbudget : 0 < leg.budget)
    (hfree : leg.phase ∉ gates) (now : Instant) : (leg.charge now).Unheard each gates := by
  refine ⟨rfl, ?_, fun hgated => absurd hgated hfree, nofun⟩
  have hspent := h.spent
  change leg.attempts + 1 + (leg.budget - 1) = each
  omega

end Leg

/-! ## Machines that have heard nothing -/

namespace Machine

/-- What a machine will still ask for if nobody answers, in order. -/
def agenda (m : Machine) : List Phase := m.plan.flatMap (Leg.due m.gated)

/-- A machine that goes through the plan for `config` and has heard nothing. -/
structure Unheard (c : Capabilities) (config : Config) (m : Machine) : Prop extends Sound m where
  prompt : m.lingerUntil = none
  trips : m.pingCount = 0
  interval : m.retryInterval = config.retryInterval
  gates : m.gated = c.gates
  phases : m.plan.map Leg.phase = (plannedPhases c config).toList
  legs : ∀ leg ∈ m.plan, leg.Unheard config.sendsPerPhase m.gated

variable {c : Capabilities} {config : Config} {m : Machine} {leg : Leg}

theorem unheard_ofConfig (c : Capabilities) (config : Config) :
    (ofConfig c config).Unheard c config where
  toSound := sound_ofConfig c config
  prompt := rfl
  trips := rfl
  interval := rfl
  gates := rfl
  phases := by
    rw [ofConfig, List.map_map]
    exact List.map_id _
  legs := by
    intro leg hleg
    obtain ⟨phase, -, rfl⟩ := List.mem_map.mp hleg
    exact ⟨rfl, Nat.zero_add _, fun _ => rfl, fun _ hsettled => absurd hsettled Bool.false_ne_true⟩

/-- In silence the machine never comes to a leg that needs a challenge. -/
theorem Unheard.not_gated (h : m.Unheard c config) (hfree : .challenge ∉ c.gates)
    (hleg : m.currentLeg? = some leg) : leg.phase ∉ m.gated := by
  intro hneeds
  have hphase : leg.phase ≠ .challenge := by
    intro heq
    rw [heq, h.gates] at hneeds
    exact hfree hneeds
  obtain ⟨c, hc, -, hdone⟩ := h.toSound.challenge_done hleg hneeds hphase
  rw [(h.legs c hc).undone] at hdone
  cases hdone

/-! ### The agenda -/

/-- The agenda starts with the current leg: what is behind it is settled. -/
theorem Lined.agenda_eq (h : m.Lined) (hleg : m.currentLeg? = some leg) :
    m.agenda = leg.due m.gated ++ (m.plan.drop (m.current + 1)).flatMap (Leg.due m.gated) := by
  have hlength := (List.getElem?_eq_some_iff.mp hleg).1
  have hget : m.plan[m.current] = leg := (List.getElem?_eq_some_iff.mp hleg).2
  have hbehind : (m.plan.take m.current).flatMap (Leg.due m.gated) = [] := by
    refine List.flatMap_eq_nil_iff.mpr fun old hold => ?_
    obtain ⟨i, hi⟩ := List.mem_iff_getElem?.mp hold
    rw [List.getElem?_take] at hi
    split at hi
    · next hlt => exact Leg.due_of_settled (h.behind i old hi hlt)
    · cases hi
  rw [agenda, ← List.take_append_drop m.current m.plan, List.flatMap_append, hbehind,
    List.nil_append, List.take_append_drop, List.drop_eq_getElem_cons hlength, hget,
    List.flatMap_cons]

theorem Lined.agenda_of_end (h : m.Lined) (hend : m.currentLeg? = none) : m.agenda = [] :=
  List.flatMap_eq_nil_iff.mpr fun _ hleg => Leg.due_of_settled (h.settled_of_end hend hleg)

/-! ### Giving up -/

/-- What giving up phases leaves as it was, in a machine that has heard nothing. -/
structure Lapsed (m m' : Machine) : Prop where
  agenda : m'.agenda = m.agenda
  gated : m'.gated = m.gated
  trips : m'.pingCount = m.pingCount
  interval : m'.retryInterval = m.retryInterval
  legs : ∀ each, (∀ leg ∈ m.plan, leg.Unheard each m.gated) →
    ∀ leg ∈ m'.plan, leg.Unheard each m'.gated

theorem Lapsed.trans {m' m'' : Machine} (h : Lapsed m m') (h' : Lapsed m' m'') : Lapsed m m'' where
  agenda := h'.agenda.trans h.agenda
  gated := h'.gated.trans h.gated
  trips := h'.trips.trans h.trips
  interval := h'.interval.trans h.interval
  legs := fun each hlegs => h'.legs each (h.legs each hlegs)

theorem lapsed_advance (m : Machine) : Lapsed m m.advance where
  agenda := rfl
  gated := rfl
  trips := rfl
  interval := rfl
  legs := fun _ h => h

/-- Legs that need a challenge are not on the agenda. -/
theorem lapsed_skipGated (m : Machine) : Lapsed m m.skipGated where
  agenda := by
    unfold agenda skipGated
    rw [List.flatMap_map]
    refine List.flatMap_congr fun leg _ => ?_
    split
    · next hskip =>
      have hgated : leg.phase ∈ m.gated := (Bool.and_eq_true _ _ ▸ hskip).1
      have hskipped : ({ leg with status := .skipped } : Leg).due m.gated = [] :=
        Leg.due_of_gated hgated
      exact hskipped.trans (Leg.due_of_gated hgated).symm
    · rfl
  gated := rfl
  trips := rfl
  interval := rfl
  legs := by
    intro each h leg hleg
    obtain ⟨old, hold, rfl⟩ := List.mem_map.mp hleg
    split
    · next hskip => exact (h old hold).skipped (Bool.and_eq_true _ _ ▸ hskip).1
    · exact h old hold

/-- A leg on which nothing is left to spend is not on the agenda either. -/
theorem lapsed_timedOut (hleg : m.currentLeg? = some leg) (hspent : leg.budget = 0) :
    Lapsed m (m.changeCurrent fun leg => { leg with status := .timedOut }) where
  agenda := by
    have hbefore : leg.due m.gated = [] := by
      refine Leg.due_of_reserve ?_
      rw [Leg.reserve, hspent, ite_self]
    have hafter : ({ leg with status := .timedOut } : Leg).due m.gated = [] :=
      Leg.due_of_settled rfl
    have hentry : (m.plan.map (Leg.due m.gated))[m.current]? = some (leg.due m.gated) := by
      rw [List.getElem?_map]
      exact congrArg _ hleg
    obtain ⟨hlt, hget⟩ := List.getElem?_eq_some_iff.mp hentry
    unfold agenda
    rw [plan_changeCurrent hleg, List.flatMap_def, List.flatMap_def, List.map_set]
    change ((m.plan.map (Leg.due m.gated)).set m.current (Leg.due m.gated _)).flatten = _
    rw [hafter, ← hbefore, ← hget, List.set_getElem_self]
  gated := rfl
  trips := rfl
  interval := rfl
  legs := by
    intro each h other hother
    rcases changeCurrent_cases hother with hold | ⟨_, hhere, rfl⟩
    · exact h other hold
    · obtain rfl := Option.some.inj (hleg.symm.trans hhere)
      exact (h leg (List.mem_of_getElem? hleg)).timedOut hspent

/-- A machine that passes the leg it stands at moves on. -/
theorem lt_advance (hleg : m.currentLeg? = some leg) (hsettled : leg.status.isSettled = true) :
    m.current < m.advance.current := by
  have hlength := (List.getElem?_eq_some_iff.mp hleg).1
  have hget : m.plan[m.current] = leg := (List.getElem?_eq_some_iff.mp hleg).2
  have hpassed : ((m.plan.drop m.current).takeWhile fun leg => leg.status.isSettled)
      = leg :: (m.plan.drop (m.current + 1)).takeWhile fun leg => leg.status.isSettled := by
    rw [List.drop_eq_getElem_cons hlength, hget]
    exact List.takeWhile_cons_of_pos hsettled
  unfold advance
  dsimp only
  rw [hpassed, List.length_cons]
  omega

/-- A leg that is settled is not skipped. -/
theorem currentLeg?_skipGated (hleg : m.currentLeg? = some leg)
    (hsettled : leg.status.isSettled = true) : m.skipGated.currentLeg? = some leg := by
  rw [currentLeg?, skipGated, List.getElem?_map]
  change Option.map _ m.currentLeg? = _
  rw [hleg, Option.map_some, hsettled]
  simp

/-- A machine gives a leg up if nothing is left to spend on it, and moves on. -/
theorem nextSend_of_spent (hleg : m.currentLeg? = some leg) (hspent : leg.budget = 0) :
    ∃ m', m.nextSend = (m', .exhausted leg.phase) ∧ Lapsed m m' ∧ m.current < m'.current := by
  have htimedOut := lapsed_timedOut hleg hspent
  have hhere : (m.changeCurrent fun leg => { leg with status := .timedOut }).currentLeg?
      = some { leg with status := .timedOut } := by
    rw [currentLeg?, plan_changeCurrent hleg]
    exact List.getElem?_set_self (List.getElem?_eq_some_iff.mp hleg).1
  unfold nextSend
  rw [hleg]
  dsimp only
  rw [if_neg (by omega)]
  refine ⟨_, rfl, ?_⟩
  split
  · exact ⟨(htimedOut.trans (lapsed_skipGated _)).trans (lapsed_advance _),
      lt_advance (currentLeg?_skipGated hhere rfl) rfl⟩
  · exact ⟨htimedOut.trans (lapsed_advance _), lt_advance hhere rfl⟩

theorem Unheard.nextSend_of_spent (h : m.Unheard c config) (hleg : m.currentLeg? = some leg)
    (hspent : leg.budget = 0) : ∃ m', m.nextSend = (m', .exhausted leg.phase) ∧
      m'.Unheard c config ∧ m'.agenda = m.agenda ∧ m.current < m'.current := by
  obtain ⟨m', hnext, hlapsed, hforward⟩ := Machine.nextSend_of_spent hleg hspent
  have hsound := h.toSound.nextSend
  have hprompt := lingerUntil_nextSend m
  have hledger := congrArg (List.map Leg.phase) (ledger_nextSend m)
  rw [ledger, ledger, List.map_map, List.map_map] at hledger
  rw [hnext] at hsound hprompt hledger
  exact ⟨m', hnext, ⟨hsound, hprompt.trans h.prompt, hlapsed.trips.trans h.trips,
    hlapsed.interval.trans h.interval, hlapsed.gated.trans h.gates, hledger.trans h.phases,
    hlapsed.legs _ h.legs⟩, hlapsed.agenda, hforward⟩

/-! ### Asking -/

section Asking

variable (hfree : .challenge ∉ c.gates)
include hfree

/-- **The next phase to be asked is the first on the agenda.** -/
theorem Unheard.nextRequestWithin (h : m.Unheard c config) {fuel : Nat}
    (hfuel : m.plan.length < m.current + fuel) :
    ∃ m', Machine.nextRequestWithin fuel m = (m', m.agenda.head?) ∧ m'.Unheard c config ∧
      m'.agenda = m.agenda ∧ (m.agenda = [] → m'.currentLeg? = none) := by
  -- round by round: a phase that is given up takes nothing off the agenda
  induction fuel generalizing m with
  | zero =>
    have hend : m.currentLeg? = none := List.getElem?_eq_none (Nat.le_of_lt hfuel)
    rw [h.agenda_of_end hend]
    exact ⟨m, rfl, h, h.agenda_of_end hend, fun _ => hend⟩
  | succ fuel ih =>
    unfold Machine.nextRequestWithin
    rcases hleg : m.currentLeg? with _ | leg
    · have hnext : m.nextSend = (m, .finished) := by
        unfold nextSend
        rw [hleg]
      rw [hnext, h.agenda_of_end hleg]
      exact ⟨m, rfl, h, h.agenda_of_end hleg, fun _ => hleg⟩
    · rcases Nat.eq_zero_or_pos leg.budget with hspent | hbudget
      · obtain ⟨m', hnext, hunheard, hagenda, hforward⟩ := h.nextSend_of_spent hleg hspent
        have hlength : m'.plan.length = m.plan.length := by
          have hphases := congrArg List.length (hunheard.phases.trans h.phases.symm)
          simpa using hphases
        rw [hnext, ← hagenda]
        exact ih hunheard (by omega)
      · have hnext : m.nextSend = (m, .send leg.phase) := by
          unfold nextSend
          rw [hleg]
          exact if_pos hbudget
        have hagenda : m.agenda.head? = some leg.phase := by
          obtain ⟨n, hn⟩ := Nat.exists_eq_add_one.mpr hbudget
          rw [h.agenda_eq hleg, Leg.due_of_open (h.here leg hleg) (h.not_gated hfree hleg), hn]
          rfl
        rw [hnext, hagenda]
        refine ⟨m, rfl, h, rfl, fun hnothing => ?_⟩
        rw [hnothing] at hagenda
        cases hagenda

theorem Unheard.nextRequest (h : m.Unheard c config) :
    ∃ m', m.nextRequest = (m', m.agenda.head?) ∧ m'.Unheard c config ∧
      m'.agenda = m.agenda ∧ (m.agenda = [] → m'.currentLeg? = none) :=
  h.nextRequestWithin hfree (by omega)

/-- **A request takes the first entry off the agenda.** -/
theorem Unheard.recordSend (h : m.Unheard c config) (hleg : m.currentLeg? = some leg)
    (hbudget : 0 < leg.budget) (now : Instant) :
    (m.recordSend now).Unheard c config ∧ m.agenda = leg.phase :: (m.recordSend now).agenda ∧
      (m.recordSend now).Waits ∧
      (m.recordSend now).deadline? = some (now + config.retryInterval) := by
  have hlength := (List.getElem?_eq_some_iff.mp hleg).1
  have hopen := h.not_gated hfree hleg
  have hwaits : (m.recordSend now).Waits := h.waits_changeCurrent h.prompt hleg (fun _ => rfl)
    (fun _ => rfl) (fun _ => rfl)
  have hplan := plan_recordSend hleg now
  have hhere : (m.recordSend now).currentLeg? = some (leg.charge now) := by
    rw [currentLeg?, hplan]
    exact List.getElem?_set_self hlength
  have hunheard : (m.recordSend now).Unheard c config := by
    refine ⟨hwaits.toSound, h.prompt, h.trips, h.interval, h.gates, ?_, ?_⟩
    · have hphases : (m.recordSend now).plan.map Leg.phase = m.plan.map Leg.phase :=
        m.phases_changeCurrent fun _ => rfl
      exact hphases.trans h.phases
    · intro other hother
      rw [hplan] at hother
      rcases List.mem_or_eq_of_mem_set hother with hold | rfl
      · exact h.legs other hold
      · exact (h.legs leg (List.mem_of_getElem? hleg)).charge hbudget hopen now
  refine ⟨hunheard, ?_, hwaits, ?_⟩
  · have hafter := hunheard.agenda_eq hhere
    have hahead : (m.recordSend now).plan.drop (m.current + 1) = m.plan.drop (m.current + 1) := by
      rw [hplan, List.drop_set_of_lt (Nat.lt_succ_self _)]
    have hdue : (leg.charge now).due m.gated = List.replicate (leg.budget - 1) leg.phase :=
      Leg.due_of_open rfl hopen
    obtain ⟨n, hn⟩ := Nat.exists_eq_add_one.mpr hbudget
    change _ = (leg.charge now).due m.gated
      ++ ((m.recordSend now).plan.drop (m.current + 1)).flatMap (Leg.due m.gated) at hafter
    rw [hahead, hdue, hn, Nat.add_sub_cancel] at hafter
    rw [h.agenda_eq hleg, Leg.due_of_open (h.here leg hleg) hopen, hn, List.replicate_succ,
      List.cons_append, hafter]
  · obtain ⟨other, sent, hother, -, hsent, hdeadline⟩ := hwaits.deadline
    obtain rfl : leg.charge now = other := Option.some.inj (hhere.symm.trans hother)
    obtain rfl : now = sent := Option.some.inj hsent
    rw [hdeadline, ← h.interval]
    rfl

end Asking

/-! ### From the start to the end -/

/-- The planned phases that may be asked without a challenge, in order. -/
def openPhases (c : Capabilities) (config : Config) : List Phase :=
  (plannedPhases c config).toList.filter fun phase => !c.gates.contains phase

/-- At the start each of them is on the agenda as often as it may be asked. -/
theorem agenda_ofConfig (c : Capabilities) (config : Config) :
    (ofConfig c config).agenda
      = (openPhases c config).flatMap (List.replicate config.sendsPerPhase) := by
  unfold agenda ofConfig openPhases
  rw [List.flatMap_map]
  induction (plannedPhases c config).toList with
  | nil => rfl
  | cons phase rest ih =>
    rw [List.flatMap_cons, ih]
    by_cases hgated : phase ∈ c.gates
    · have hcontains : c.gates.contains phase = true := hgated
      rw [List.filter_cons_of_neg (by simp [hcontains]), Leg.due_of_gated hgated, List.nil_append]
    · have hcontains : c.gates.contains phase = false := Bool.not_eq_true _ ▸ hgated
      rw [List.filter_cons_of_pos (by simp [hcontains]), List.flatMap_cons,
        Leg.due_of_open rfl hgated]

/-- In silence every planned phase goes missing. -/
theorem Unheard.missing_eq (h : m.Unheard c config) : m.missing = plannedPhases c config := by
  refine PhaseSet.ext_mem fun phase => ?_
  rw [mem_missing, ← PhaseSet.mem_toList, ← h.phases, List.mem_map]
  constructor
  · rintro ⟨leg, hleg, hphase, -⟩
    exact ⟨leg, hleg, hphase⟩
  · rintro ⟨leg, hleg, hphase⟩
    exact ⟨leg, hleg, hphase, (h.legs leg hleg).undone⟩

theorem Unheard.not_answeredAny (h : m.Unheard c config) : m.answeredAny = false := by
  rw [answeredAny, List.any_eq_false]
  intro leg hleg
  rw [(h.legs leg hleg).undone, Bool.and_false]
  exact Bool.false_ne_true

theorem Unheard.ping_eq (h : m.Unheard c config) : m.ping? = none := if_pos h.trips

/-- At the end every phase that needs no challenge has been asked as often as it may. -/
theorem Unheard.retryCount_eq (h : m.Unheard c config) (hend : m.currentLeg? = none) :
    m.retryCount = (openPhases c config).length * (config.sendsPerPhase - 1) % UInt32.size := by
  have hattempts : ∀ leg ∈ m.plan, leg.attempts - 1
      = if c.gates.contains leg.phase then 0 else config.sendsPerPhase - 1 := by
    intro leg hleg
    have hsettled := h.settled_of_end hend hleg
    obtain ⟨-, hspent, hbarred, hused⟩ := h.legs leg hleg
    rw [h.gates] at hbarred hused
    split
    · next hgated => rw [hbarred hgated]
    · next hgated =>
      have hbudget := hused hgated hsettled
      omega
  have hphases : m.plan.map (fun leg => leg.attempts - 1) = (m.plan.map Leg.phase).map fun phase =>
      if c.gates.contains phase then 0 else config.sendsPerPhase - 1 := by
    rw [List.map_map]
    exact List.map_congr_left hattempts
  rw [retryCount, toNat_wordTotal, hphases, h.phases, openPhases, total_map_ite]

end Machine

theorem Protocol.challenge_not_gated (p : Protocol) : .challenge ∉ p.capabilities.gates := by
  cases p <;> decide

/-! ## The query -/

/-- What a query is started with. -/
structure Query where
  protocol : Protocol
  address : Address
  config : Config
  nonce : UInt32

namespace Query

/-- The target of the query, wherever its machine stands, if nothing has been heard. -/
def target (q : Query) (m : Machine) : Target :=
  { Target.fresh 1 q.address .unicast q.protocol q.config q.nonce with machine := m }

/-- The phases that are asked for if nobody answers, one after another. -/
def asks (q : Query) : List Phase :=
  (Machine.openPhases q.protocol.capabilities q.config).flatMap
    (List.replicate q.config.sendsPerPhase)

/-- The request for a phase, if it can be made, and where it goes. -/
def request (q : Query) (phase : Phase) : Nat × Address × Except Fault (List UInt8) :=
  (1, q.address, q.protocol.request phase (q.protocol.prepare q.nonce {}))

/-- The report if nobody answers. -/
def report (q : Query) : Report where
  id := 1
  parent := none
  protocol := q.protocol
  address := q.address
  status := .timeout
  ping := none
  retries := (Machine.openPhases q.protocol.capabilities q.config).length
    * (q.config.sendsPerPhase - 1) % UInt32.size
  error := none
  server :=
    { missingStatus := true
      missingRules := (Machine.plannedPhases q.protocol.capabilities q.config).contains .rules
      missingPlayers := (Machine.plannedPhases q.protocol.capabilities q.config).contains .players }

/-- A machine of the query that has heard nothing. -/
abbrev Unheard (q : Query) (m : Machine) : Prop := m.Unheard q.protocol.capabilities q.config

variable {q : Query} {m : Machine}

theorem length_asks (q : Query) : q.asks.length
    = (Machine.openPhases q.protocol.capabilities q.config).length * q.config.sendsPerPhase := by
  simp [asks, List.length_flatMap]

/-- What stands on the agenda can be asked without a token. -/
theorem request_ok (h : q.Unheard m) {leg : Leg} (hleg : m.currentLeg? = some leg) (s : Session) :
    ∃ payload, q.protocol.request leg.phase s = .ok payload := by
  have hmem : leg.phase ∈ m.plan.map Leg.phase :=
    List.mem_map_of_mem (List.mem_of_getElem? hleg)
  rw [h.phases, PhaseSet.mem_toList] at hmem
  refine q.protocol.request_ok hmem fun hgated => ?_
  rw [← h.gates] at hgated
  exact absurd hgated (h.not_gated q.protocol.challenge_not_gated hleg)

/-- The target asks for what comes next on the agenda. -/
theorem ask_next (h : q.Unheard m) {phase : Phase} {rest : List Phase}
    (hagenda : m.agenda = phase :: rest) (now : Instant) : ∃ m' payload,
      q.request phase = (1, q.address, .ok payload) ∧
      (q.target m).ask now
        = { target := q.target m', request := some ⟨phase, payload, false⟩ } ∧
      q.Unheard m' ∧ m'.agenda = rest ∧ m'.Waits ∧
      m'.deadline? = some (now + q.config.retryInterval) := by
  obtain ⟨m', hnext, hunheard, hsame, -⟩ := h.nextRequest q.protocol.challenge_not_gated
  rw [hagenda, List.head?_cons] at hnext
  obtain ⟨leg, hleg, rfl, hbudget⟩ := Machine.nextRequest_some hnext
  obtain ⟨payload, hpayload⟩ := request_ok hunheard hleg (q.protocol.prepare q.nonce {})
  obtain ⟨hasked, hshorter, hwaits, hdeadline⟩ :=
    hunheard.recordSend q.protocol.challenge_not_gated hleg hbudget now
  refine ⟨m'.recordSend now, payload, ?_, ?_, hasked, ?_, hwaits, hdeadline⟩
  · rw [request, hpayload]
  · have hnext' : (q.target m).machine.nextRequest = (m', some leg.phase) := hnext
    have hpayload' : (q.target m).protocol.request leg.phase (q.target m).exchange.session
        = .ok payload := hpayload
    unfold Target.ask
    rw [hnext']
    dsimp only
    rw [hpayload']
    rfl
  · rw [hsame, hagenda] at hshorter
    exact (List.cons.inj hshorter).2.symm

/-- Where nothing is left on the agenda, the target ends. -/
theorem ask_end (h : q.Unheard m) (hagenda : m.agenda = []) (now : Instant) : ∃ m',
    (q.target m).ask now = { target := q.target m', fate := .over none } ∧
    (q.target m').report (q.target m').plainStatus = q.report := by
  obtain ⟨m', hnext, hunheard, -, hend⟩ := h.nextRequest q.protocol.challenge_not_gated
  rw [hagenda, List.head?_nil] at hnext
  refine ⟨m', ?_, ?_⟩
  · have hnext' : (q.target m).machine.nextRequest = (m', none) := hnext
    unfold Target.ask
    rw [hnext']
    rfl
  · have hnothing : (q.target m').hasReceived = false :=
      Bool.or_eq_false_iff.mpr ⟨hunheard.not_answeredAny, rfl⟩
    have hstatus : (Machine.plannedPhases q.protocol.capabilities q.config).contains .status
        = true := Machine.status_mem_plannedPhases
    rw [Target.plainStatus, hnothing, if_neg Bool.false_ne_true, Target.report]
    dsimp only [target]
    rw [hunheard.missing_eq, hunheard.ping_eq, hunheard.retryCount_eq (hend hagenda), hstatus]
    rfl

end Query

/-! ## The engine -/

namespace Engine

/-- An engine with one target, of which nothing has been taken. -/
def holding (t : Target) (outbox : List Transmit) : Engine :=
  { targets := [t], byAddress := [(t.address, t.id)], nextId := 2, outbox }

/-- An engine whose only target has ended. -/
def ended (report : Report) (outbox : List Transmit) : Engine :=
  { nextId := 2, outbox, completed := [report] }

/-- Lets time pass until it next matters. Nothing comes of it if a target waits for an instant
that does not exist. -/
def tickNext? (e : Engine) : Option Engine :=
  if e.targets.any fun t => t.machine.deadline?.any (Instant.limit ≤ ·) then none
  else match e.deadline? with
    | none => some e
    | some limit => some (e.tick limit)

/-- Lets time pass until it next matters, as often as told. -/
def tickTimes? : Nat → Engine → Option Engine
  | 0, e => some e
  | n + 1, e => e.tickNext?.bind (tickTimes? n)

section Holding

variable {t t' : Target} (outbox : List Transmit)

theorem holds_holding (t : Target) : (holding t outbox).Holds t where
  found := by simp [holding, target?]
  alone := by simp [holding, put]

theorem deadline?_holding (t : Target) : (holding t outbox).deadline? = t.machine.deadline? := by
  rcases h : t.machine.deadline? with _ | limit <;> simp [holding, deadline?, h]

/-- A target that queues a request is held as it is then. -/
theorem enact_request (hid : t'.id = t.id) (haddress : t'.address = t.address) (r : Request) :
    (holding t outbox).enact { target := t', request := some r }
      = holding t' (outbox ++ [⟨t'.id, t'.address, r.payload⟩]) := by
  simp [holding, enact, passOn, put, queue, settle, transmit, hid, haddress]

/-- A target that ends is reported. -/
theorem enact_over (hid : t'.id = t.id) (haddress : t'.address = t.address)
    (hmode : t'.mode = .unicast) :
    (holding t outbox).enact { target := t', fate := .over none }
      = ended (t'.report t'.plainStatus) outbox := by
  simp [holding, ended, enact, passOn, put, queue, settle, finalize, target?, remove, idAt?, hid,
    haddress, hmode]

/-- A target that waits for an instant asks at the next tick. -/
theorem tickNext?_holding (hwaits : t.machine.Waits) {limit : Instant}
    (hlimit : t.machine.deadline? = some limit) (hexists : limit < Instant.limit) :
    tickNext? (holding t outbox) = some ((holding t outbox).enact (t.ask limit)) := by
  have htick : (holding t outbox).tick limit = (holding t outbox).tickTarget limit t.id := rfl
  have hnone : ((holding t outbox).targets.any fun t =>
      t.machine.deadline?.any (Instant.limit ≤ ·)) = false := by
    simp [holding, hlimit, Nat.not_le.mpr hexists]
  rw [tickNext?, hnone, if_neg Bool.false_ne_true, deadline?_holding, hlimit]
  dsimp only
  rw [htick, tickTarget_eq (holds_holding outbox t), Target.clockCue?_eq hwaits hlimit,
    if_pos (Nat.le_refl _)]
  rfl

end Holding

/-! ## The run -/

/-- The engine when the target of a query is made to ask. -/
def prompted (q : Query) (m : Machine) (outbox : List Transmit) (now : Instant) : Engine :=
  (holding (q.target m) outbox).enact ((q.target m).ask now)

/-- What a datagram carries and where it goes. -/
def carried (transmit : Transmit) : Nat × Address × Except Fault (List UInt8) :=
  (transmit.target, transmit.address, .ok transmit.payload)

section Run

variable {q : Query} {m : Machine} (outbox : List Transmit) (now : Instant)

/-- The target sends what comes next on the agenda, and asks again one interval later. -/
theorem prompted_next (h : q.Unheard m) {phase : Phase} {rest : List Phase}
    (hagenda : m.agenda = phase :: rest) (hexists : now + q.config.retryInterval < Instant.limit) :
    ∃ m' sent,
      prompted q m outbox now = holding (q.target m') (outbox ++ [sent]) ∧
      carried sent = q.request phase ∧ q.Unheard m' ∧ m'.agenda = rest ∧
      m'.deadline? = some (now + q.config.retryInterval) ∧
      tickNext? (holding (q.target m') (outbox ++ [sent]))
        = some (prompted q m' (outbox ++ [sent]) (now + q.config.retryInterval)) := by
  obtain ⟨m', payload, hpayload, hask, hunheard, hrest, hwaits, hdeadline⟩ :=
    Query.ask_next h hagenda now
  have hid : (q.target m').id = (q.target m).id := rfl
  refine ⟨m', ⟨1, q.address, payload⟩, ?_, hpayload.symm, hunheard, hrest, hdeadline, ?_⟩
  · rw [prompted, hask, enact_request outbox hid rfl]
    rfl
  · exact tickNext?_holding _ hwaits hdeadline hexists

/-- If nothing is left on the agenda, the target is reported. -/
theorem prompted_end (h : q.Unheard m) (hagenda : m.agenda = []) :
    prompted q m outbox now = ended q.report outbox := by
  obtain ⟨m', hask, hreport⟩ := Query.ask_end h hagenda now
  have hid : (q.target m').id = (q.target m).id := rfl
  rw [prompted, hask, enact_over outbox hid rfl rfl, hreport]

/-- **Every tick sends what comes next on the agenda,** one interval after the last, and the
tick after that ends the query. -/
theorem silence {agenda : List Phase} (h : q.Unheard m) (hagenda : m.agenda = agenda)
    (hexists : now + agenda.length * q.config.retryInterval < Instant.limit) :
    (∀ n < agenda.length, ∃ m' sent,
      tickTimes? n (prompted q m outbox now) = some (holding (q.target m') (outbox ++ sent)) ∧
      q.Unheard m' ∧ m'.deadline? = some (now + (n + 1) * q.config.retryInterval) ∧
      sent.map carried = (agenda.take (n + 1)).map q.request) ∧
    ∃ sent, tickTimes? agenda.length (prompted q m outbox now)
        = some (ended q.report (outbox ++ sent)) ∧
      sent.map carried = agenda.map q.request := by
  -- the first tick finds the query with one entry less, one interval later
  induction agenda generalizing m outbox now with
  | nil =>
    refine ⟨fun n hn => absurd hn (Nat.not_lt_zero n), [], ?_, rfl⟩
    rw [List.append_nil, ← prompted_end outbox now h hagenda]
    rfl
  | cons phase rest ih =>
    rw [List.length_cons, Nat.succ_mul, Nat.add_comm (_ * _), ← Nat.add_assoc] at hexists
    obtain ⟨m', first, hprompted, hfirst, hunheard, hrest, hdeadline, hnext⟩ :=
      prompted_next outbox now h hagenda (Nat.lt_of_le_of_lt (Nat.le_add_right _ _) hexists)
    obtain ⟨hlater, sent, hend, hsent⟩ :=
      ih (outbox ++ [first]) (now + q.config.retryInterval) hunheard hrest hexists
    have hstep : ∀ n, tickTimes? (n + 1) (prompted q m outbox now)
        = tickTimes? n (prompted q m' (outbox ++ [first]) (now + q.config.retryInterval)) := by
      intro n
      rw [hprompted, tickTimes?, hnext, Option.bind_some]
    constructor
    · intro n hn
      cases n with
      | zero =>
        refine ⟨m', [first], ?_, hunheard, ?_, ?_⟩
        · rw [hprompted]
          rfl
        · rw [hdeadline, Nat.zero_add, Nat.one_mul]
        · rw [List.map_singleton, hfirst]
          rfl
      | succ n =>
        obtain ⟨m'', sent, hstate, hunheard', hdeadline', hsent⟩ :=
          hlater n (Nat.lt_of_succ_lt_succ hn)
        refine ⟨m'', first :: sent, ?_, hunheard', ?_, ?_⟩
        · rw [hstep, hstate, List.append_assoc, List.singleton_append]
        · rw [hdeadline', Nat.succ_mul (n + 1), Nat.add_assoc, Nat.add_comm q.config.retryInterval]
        · rw [List.map_cons, hfirst, hsent, List.take_succ_cons, List.map_cons]
    · refine ⟨first :: sent, ?_, ?_⟩
      · rw [List.length_cons, hstep, hend, List.append_assoc, List.singleton_append]
      · rw [List.map_cons, hfirst, hsent, List.map_cons]

end Run

/-- A query that starts asks at once. -/
theorem addTarget_empty (q : Query) (now : Instant) :
    (({} : Engine).addTarget q.protocol.id q.address q.config q.nonce now).1
      = prompted q (Machine.ofConfig q.protocol.capabilities q.config) [] now := by
  have hadd : (({} : Engine).addTarget q.protocol.id q.address q.config q.nonce now).1
      = (holding (q.target (Machine.ofConfig q.protocol.capabilities q.config)) []).sendCurrent 1
        now := by
    unfold addTarget add
    rw [q.protocol.ofId?_id]
    rfl
  rw [hadd]
  exact sendCurrent_eq (holds_holding [] _) now

/-- **A silent server costs exactly the budget.** Let a query be started and then nothing
happen but ticks, each at the time that the engine names. Let there be `k` planned phases that
need no challenge, each to be asked `S` times at most, and let the time `k * S` intervals after
the start be an instant. Then every tick finds one, and `k * S` requests are queued, `S` in
a row for each of these phases in the order of the plan: the first at once, and one more at
each tick but the last. The ticks are one interval apart, there are `k * S` of them, and the
last one ends the query: it has timed out without a round trip, and of the server nothing is
known but what is missing. What needs a challenge is never asked. -/
theorem silent_server (q : Query) (start : Instant)
    (h : start + (Machine.openPhases q.protocol.capabilities q.config).length
      * q.config.sendsPerPhase * q.config.retryInterval < Instant.limit) :
    let e := (({} : Engine).addTarget q.protocol.id q.address q.config q.nonce start).1
    let budget := (Machine.openPhases q.protocol.capabilities q.config).length
      * q.config.sendsPerPhase
    q.asks.length = budget ∧
    (∀ n < budget, ∃ e' t, tickTimes? n e = some e' ∧ e'.targets = [t] ∧ e'.completed = [] ∧
      e'.deadline? = some (start + (n + 1) * q.config.retryInterval) ∧
      e'.outbox.map carried = (q.asks.take (n + 1)).map q.request ∧
      ∀ leg ∈ t.machine.plan, leg.phase ∈ q.protocol.capabilities.gates → leg.attempts = 0) ∧
    ∃ e', tickTimes? budget e = some e' ∧ e'.targets = [] ∧ e'.deadline? = none ∧
      e'.outbox.map carried = q.asks.map q.request ∧ e'.completed = [q.report] := by
  intro e budget
  have hbudget : q.asks.length = budget := q.length_asks
  have hexists : start + q.asks.length * q.config.retryInterval < Instant.limit := by
    rw [hbudget]
    exact h
  obtain ⟨hticks, sent, hend, hsent⟩ := silence [] start
    (Machine.unheard_ofConfig q.protocol.capabilities q.config)
    (Machine.agenda_ofConfig q.protocol.capabilities q.config) hexists
  rw [← addTarget_empty] at hticks hend
  change ∀ n < q.asks.length, _ at hticks
  change tickTimes? q.asks.length e = _ at hend
  rw [hbudget] at hticks hend
  refine ⟨hbudget, fun n hn => ?_, _, hend, rfl, rfl, hsent, rfl⟩
  obtain ⟨m', sent, hstate, hunheard, hdeadline, hsent⟩ := hticks n hn
  refine ⟨_, q.target m', hstate, rfl, rfl, ?_, hsent, fun leg hleg hgated => ?_⟩
  · rw [deadline?_holding]
    exact hdeadline
  · rw [← hunheard.gates] at hgated
    exact (hunheard.legs leg hleg).barred hgated

/-- A query for the rules that is asked twice for each phase, and waits a microsecond. -/
def hasty : Query :=
  ⟨.a2s, ⟨"192.0.2.1", 27015⟩,
    { wantRules := true, retries := 1, interval := ⟨0, 1000, by decide⟩ }, 0⟩

/-- Four ticks end it: the challenge is asked twice in vain, then the status. -/
theorem silent_server_hasty :
    let e := (({} : Engine).addTarget "a2s" hasty.address hasty.config 0 0).1
    ∃ e', tickTimes? 4 e = some e' ∧ e'.targets = [] ∧ e'.completed = [hasty.report] := by
  have hexists : 0 + (Machine.openPhases hasty.protocol.capabilities hasty.config).length
      * hasty.config.sendsPerPhase * hasty.config.retryInterval < Instant.limit := by decide
  obtain ⟨-, -, e', hend, htargets, -, -, hcompleted⟩ := silent_server hasty 0 hexists
  exact ⟨e', hend, htargets, hcompleted⟩

/-- Rules need a challenge, the status does not. -/
example : Query.asks ⟨.a2s, ⟨"192.0.2.1", 27015⟩, { wantRules := true, retries := 1 }, 0⟩
    = [.challenge, .challenge, .status, .status] := by
  decide

end Engine

end ServerProbe
