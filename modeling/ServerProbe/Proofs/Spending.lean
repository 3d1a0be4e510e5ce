/-
What a target spends.

Each phase has a budget, a count of the requests that were charged and one free
request. A reaction queues one datagram at most, and makes one entry for it: either a
request is charged, which takes one from the budget and adds one to the count, or the
free request is used up. So the datagrams queued for a target are the charged requests
and the used free ones (`Path.spent`), and since what was charged and what is left of
the budget always make up what the options allow, no sequence of replies, ticks and
failures gets more out of a target than one request more than that for each phase.

This is about targets that were added. A host that answered a broadcast takes over the
machine of the broadcast, with what the broadcast has spent.
-/
import ServerProbe.Proofs.Life
import ServerProbe.Proofs.Machine

set_option autoImplicit false

namespace ServerProbe

/-! ## Charged and free requests -/

/-- How many requests a phase has cost. -/
def Leg.spent (leg : Leg) : Nat := leg.attempts + leg.freeResendUsed.toNat

namespace Machine

/-- How many requests were charged. -/
def charged (m : Machine) : Nat := total (m.plan.map Leg.attempts)

/-- How many phases have used their free request. -/
def favours (m : Machine) : Nat := m.plan.countP Leg.freeResendUsed

/-- How many phases have been asked. -/
def asked (m : Machine) : Nat := m.plan.countP fun leg => decide (0 < leg.attempts)

theorem charged_add_favours (m : Machine) :
    m.charged + m.favours = total (m.ledger.map Leg.spent) := by
  rw [charged, favours, ledger, List.map_map]
  -- leg by leg, the status being left out of both counts
  induction m.plan with
  | nil => rfl
  | cons leg rest ih =>
    simp only [List.map_cons, total_cons, List.countP_cons, Function.comp_apply] at ih ⊢
    rw [← ih, Leg.spent, Leg.bare]
    cases leg.freeResendUsed
    · simp only [Bool.toNat_false, Bool.false_eq_true, if_false]
      omega
    · simp only [Bool.toNat_true, if_true]
      omega

/-- How often a phase was asked again, over all phases. -/
def repeated (m : Machine) : Nat := total (m.plan.map fun leg => leg.attempts - 1)

/-- The figure that is reported is that number as far as a word holds it. -/
theorem retryCount_eq (m : Machine) : m.retryCount = m.repeated % UInt32.size :=
  toNat_wordTotal _

/-- What was asked again and what was asked at all is what was charged. -/
theorem repeated_add_asked (m : Machine) : m.repeated + m.asked = m.charged := by
  rw [repeated, asked, charged]
  induction m.plan with
  | nil => rfl
  | cons leg rest ih =>
    simp only [List.map_cons, total_cons, List.countP_cons]
    by_cases hasked : 0 < leg.attempts
    · simp only [hasked, decide_true, if_true]
      omega
    · simp only [hasked, decide_false, Bool.false_eq_true, if_false]
      omega

section Path

variable {p : Protocol} {s : Session} {credit : PhaseSet → Prop} {start m : Machine}
  {request : Option Request} (h : Path p s credit start m request)
include h

/-- **What is queued is spent.** -/
theorem Path.spent :
    m.charged + m.favours = start.charged + start.favours + request.toList.length := by
  rw [charged_add_favours, charged_add_favours]
  rcases h.ledger with ⟨rfl, hledger⟩ | ⟨i, leg, now, payload, hleg, hentry⟩
  · rw [hledger]
    rfl
  · rcases hentry with ⟨-, rfl, hledger⟩ | ⟨hunused, rfl, hledger⟩
    · -- one entry changes, and it has cost one more
      have hset := total_set_add Leg.spent (a := (leg.charge now).bare) hleg
      have hone : (leg.charge now).bare.spent = leg.spent + 1 := by
        simp only [Leg.spent, Leg.bare, Leg.charge]
        omega
      rw [hledger, Option.toList_some, List.length_singleton]
      omega
    · have hset := total_set_add Leg.spent (a := (leg.favour now).bare) hleg
      have hone : (leg.favour now).bare.spent = leg.spent + 1 := by
        simp [Leg.spent, Leg.bare, Leg.favour, hunused]
      rw [hledger, Option.toList_some, List.length_singleton]
      omega

/-- What was charged for a phase and what is left of its budget stay together. -/
theorem Path.balanced {n : Nat} (hstart : ∀ leg ∈ start.plan, leg.attempts + leg.budget = n) :
    ∀ leg ∈ m.plan, leg.attempts + leg.budget = n := by
  have hledger : ∀ leg ∈ start.ledger, leg.attempts + leg.budget = n := by
    intro leg hleg
    obtain ⟨full, hfull, rfl⟩ := List.mem_map.mp hleg
    exact hstart full hfull
  -- budget and attempts stand in the ledger, so only a request changes them
  have hkept : ∀ leg ∈ m.ledger, leg.attempts + leg.budget = n := by
    rcases h.ledger with ⟨-, heq⟩ | ⟨i, leg, now, payload, hleg, hentry⟩
    · rw [heq]
      exact hledger
    · have hold := hledger leg (List.mem_of_getElem? hleg)
      rcases hentry with ⟨hbudget, -, heq⟩ | ⟨-, -, heq⟩
      · rw [heq]
        intro other hother
        rcases List.mem_or_eq_of_mem_set hother with hother | rfl
        · exact hledger other hother
        · -- one is taken from a budget that is not empty
          simp only [Leg.bare, Leg.charge]
          omega
      · rw [heq]
        intro other hother
        rcases List.mem_or_eq_of_mem_set hother with hother | rfl
        · exact hledger other hother
        · exact hold
  exact fun leg hleg => hkept leg.bare (List.mem_map_of_mem hleg)

end Path

/-- A balanced plan has cost one more than the budget for each phase, at most. -/
theorem spent_le {m : Machine} {n : Nat} (h : ∀ leg ∈ m.plan, leg.attempts + leg.budget = n) :
    m.charged + m.favours ≤ m.plan.length * (n + 1) := by
  have hfavours : m.favours ≤ m.plan.length := List.countP_le_length
  -- each leg was charged what is gone from its budget
  have hcharged : m.charged ≤ m.plan.length * n := by
    rw [charged]
    revert h
    induction m.plan with
    | nil => simp
    | cons leg rest ih =>
      intro h
      have hleg := h leg List.mem_cons_self
      have hrest := ih fun other hother => h other (List.mem_cons_of_mem leg hother)
      rw [List.map_cons, total_cons, List.length_cons, Nat.succ_mul]
      omega
  rw [Nat.mul_succ]
  omega

end Machine

/-! ## Accounts -/

/-- The accounts of a target that `sent` datagrams were queued for. -/
structure Target.Accounts (t : Target) (p : Protocol) (config : Config) (sent : Nat) : Prop where
  /-- The plan is the one that the options ask for. -/
  planned : t.machine.plan.map Leg.phase
    = (Machine.plannedPhases p.capabilities config).toList
  /-- What was charged for a phase and what is left of its budget are what the options allow. -/
  balanced : ∀ leg ∈ t.machine.plan, leg.attempts + leg.budget = config.sendsPerPhase
  /-- What was queued was charged or free. -/
  spent : sent = t.machine.charged + t.machine.favours

namespace Target

variable {p : Protocol} {config : Config}

theorem Accounts.fresh (id : Nat) (address : Address) (mode : TargetMode) (p : Protocol)
    (config : Config) (nonce : UInt32) :
    (Target.fresh id address mode p config nonce).Accounts p config 0 where
  planned := by
    rw [Target.fresh, Machine.ofConfig, List.map_map]
    exact List.map_id _
  balanced := by
    intro leg hleg
    obtain ⟨phase, -, rfl⟩ := List.mem_map.mp hleg
    exact Nat.zero_add _
  spent := by
    -- nothing has been spent on any phase
    have hnone : ∀ phases : List Phase, ∀ n : Nat,
        total ((phases.map fun phase => ({ phase, budget := n } : Leg)).map Leg.attempts) = 0 ∧
        (phases.map fun phase => ({ phase, budget := n } : Leg)).countP Leg.freeResendUsed = 0 := by
      intro phases n
      induction phases with
      | nil => exact ⟨rfl, rfl⟩
      | cons phase rest ih => simpa using ih
    obtain ⟨hcharged, hfavours⟩ := hnone
      (Machine.plannedPhases p.capabilities config).toList config.sendsPerPhase
    rw [Machine.charged, Machine.favours, Target.fresh, Machine.ofConfig, hcharged, hfavours]

/-- The accounts of a target are kept by whatever happens to it. -/
theorem Accounts.react {t : Target} {sent : Nat} (h : t.Accounts p config sent) (cue : Cue) :
    (t.react cue).target.Accounts p config (sent + (t.react cue).request.toList.length) := by
  have hpath := t.react_path cue
  refine ⟨hpath.phases.trans h.planned, hpath.balanced h.balanced, ?_⟩
  rw [hpath.spent, h.spent]

theorem Accounts.le {t : Target} {sent : Nat} (h : t.Accounts p config sent) :
    sent ≤ (Machine.plannedPhases p.capabilities config).toList.length
      * (config.sendsPerPhase + 1) := by
  have hle := Machine.spent_le h.balanced
  rw [h.spent, ← h.planned, List.length_map]
  exact hle

theorem Accounts.retries {t : Target} {sent : Nat} (h : t.Accounts p config sent)
    (status : TargetStatus) :
    ∃ repeated, repeated + t.machine.asked + t.machine.favours = sent ∧
      (t.report status).retries = repeated % UInt32.size := by
  refine ⟨t.machine.repeated, ?_, t.machine.retryCount_eq⟩
  rw [h.spent, t.machine.repeated_add_asked]

end Target

/-- A moment queues what its reaction asks for. -/
theorem length_queued_concat (past : List Moment) (m : Moment) :
    ((past ++ [m]).filterMap Moment.transmit?).length
      = (past.filterMap Moment.transmit?).length + m.reaction.request.toList.length := by
  have hlast : ([m].filterMap Moment.transmit?).length = m.reaction.request.toList.length := by
    rw [List.filterMap_cons, Moment.transmit?]
    cases m.reaction.request <;> rfl
  rw [List.filterMap_append, List.length_append, hlast]

namespace Life

variable {newborn : Target} {p : Protocol} {config : Config} {past : List Moment}

theorem accounts {t : Target} (h : Life newborn past (some t))
    (hnewborn : newborn.Accounts p config 0) :
    t.Accounts p config (past.filterMap Moment.transmit?).length := by
  refine h.induction_on
    (P := fun past t => t.Accounts p config (past.filterMap Moment.transmit?).length) hnewborn ?_ ?_
  · intro past t responders hpast
    exact ⟨hpast.planned, hpast.balanced, hpast.spent⟩
  · intro past m hpast
    rw [length_queued_concat]
    exact hpast.react m.cue

/-- The accounts of a target after a moment of its life. -/
theorem accounts_split {before after : List Moment} {m : Moment} {now : Option Target}
    (h : Life newborn (before ++ m :: after) now) (hnewborn : newborn.Accounts p config 0) :
    m.reaction.target.Accounts p config ((before ++ [m]).filterMap Moment.transmit?).length := by
  rw [length_queued_concat]
  exact (h.split.1.accounts hnewborn).react m.cue

/-- However a life goes on, no more is spent than the options allow. -/
theorem sent_le {now : Option Target} (h : Life newborn past now)
    (hnewborn : newborn.Accounts p config 0) :
    (past.filterMap Moment.transmit?).length
      ≤ (Machine.plannedPhases p.capabilities config).toList.length
        * (config.sendsPerPhase + 1) := by
  refine h.whole (P := fun past => (past.filterMap Moment.transmit?).length ≤ _) (Nat.zero_le _) ?_
  intro before m hbefore
  rw [length_queued_concat]
  exact ((hbefore.accounts hnewborn).react m.cue).le

end Life

/-! ## Accounts in a run -/

namespace Engine

/-- **Every datagram is accounted for.** Take a target that a call added, and a run with
that call in it. As long as the target is active, and after each moment of its life, each
planned phase has been charged what is gone from its budget, and what was queued for the
target is what was charged and the free requests that were used. So whatever came in, no
more was queued than the budget and one datagram for each phase; and the report on the
target counts as retries what was queued except for the first request of each phase that
was asked and for the free ones, in a word of 32 bits. -/
theorem sends_accounted {before : List Call} (later : List Call) {mode : TargetMode}
    {protocol : String} {address : Address} {config : Config} {nonce : UInt32} {now : Instant}
    {id : Nat}
    (h : ((run before).perform (.add mode protocol address config nonce now)).2 = .added id) :
    let calls := before ++ .add mode protocol address config nonce now :: later
    let sent := (sentTo id calls).length
    ∃ p, Protocol.ofId? protocol = some p ∧
      (∀ t, (run calls).target? id = some t → t.Accounts p config sent) ∧
      (∀ past m rest, moments id (journal calls) = past ++ m :: rest →
        m.reaction.target.Accounts p config ((past ++ [m]).filterMap Moment.transmit?).length) ∧
      sent ≤ (Machine.plannedPhases p.capabilities config).toList.length
        * (config.sendsPerPhase + 1) ∧
      ∀ report ∈ reportsOn id calls,
        ∃ m, (moments id (journal calls)).getLast? = some m ∧ m.report? = some report ∧
          m.reaction.target.Accounts p config sent ∧
          ∃ repeated,
            repeated + m.reaction.target.machine.asked + m.reaction.target.machine.favours = sent ∧
              report.retries = repeated % UInt32.size := by
  intro calls sent
  obtain ⟨p, hp, hlife⟩ := life_of_added later h
  have hnewborn := Target.Accounts.fresh id address mode p config nonce
  have hsent : sent = ((moments id (journal calls)).filterMap Moment.transmit?).length :=
    congrArg List.length (sentTo_eq id calls)
  refine ⟨p, hp, ?_, ?_, ?_, ?_⟩
  · intro t hactive
    rw [show (run (before ++ .add mode protocol address config nonce now :: later)).target? id
      = some t from hactive] at hlife
    rw [hsent]
    exact hlife.accounts hnewborn
  · intro past m rest hmoments
    rw [show moments id (journal (before ++ .add mode protocol address config nonce now :: later))
      = past ++ m :: rest from hmoments] at hlife
    exact hlife.accounts_split hnewborn
  · rw [hsent]
    exact hlife.sent_le hnewborn
  · intro report hreport
    rw [reportsOn_eq] at hreport
    obtain ⟨m, hmem, hm⟩ := List.mem_filterMap.mp hreport
    obtain ⟨hover, status, hstatus⟩ := Moment.report?_eq hm
    obtain ⟨past, rest, hmoments⟩ := List.append_of_mem hmem
    rw [show moments id (journal (before ++ .add mode protocol address config nonce now :: later))
      = past ++ m :: rest from hmoments] at hlife
    -- nothing was queued after the report
    obtain rfl : rest = [] := (hlife.split.2 hover).1
    have haccounts := hlife.accounts_split hnewborn
    rw [← hmoments, ← hsent] at haccounts
    refine ⟨m, by rw [hmoments]; simp, hm, haccounts, ?_⟩
    rw [hstatus]
    exact haccounts.retries status

/-- A query, and a server that hands out a token whenever it is asked. -/
def rechallenged : List Call :=
  [.add .unicast "a2s" ⟨"192.0.2.1", 27015⟩ { retries := 0, wantRules := true } 0 0,
    .receive ⟨"192.0.2.1", 27015⟩ [0xFF, 0xFF, 0xFF, 0xFF, 0x41, 7, 0, 0, 0] 1,
    .receive ⟨"192.0.2.1", 27015⟩ [0xFF, 0xFF, 0xFF, 0xFF, 0x41, 8, 0, 0, 0] 2,
    .receive ⟨"192.0.2.1", 27015⟩ [0xFF, 0xFF, 0xFF, 0xFF, 0x41, 9, 0, 0, 0] 3]

/-- Such a server gets no more than two datagrams for each of three phases; here it has
got four. -/
theorem sends_accounted_rechallenged :
    ((run []).perform (.add .unicast "a2s" ⟨"192.0.2.1", 27015⟩
      { retries := 0, wantRules := true } 0 0)).2 = .added 1 ∧
    (sentTo 1 rechallenged).length = 4 ∧ (sentTo 1 rechallenged).length ≤ 3 * (1 + 1) := by
  have hadded : ((run []).perform (.add .unicast "a2s" ⟨"192.0.2.1", 27015⟩
      { retries := 0, wantRules := true } 0 0)).2 = .added 1 := by decide
  obtain ⟨p, hp, -, -, hle, -⟩ := sends_accounted rechallenged.tail hadded
  obtain rfl : Protocol.a2s = p := Option.some.inj hp
  exact ⟨hadded, by decide +kernel, hle⟩

end Engine

end ServerProbe
