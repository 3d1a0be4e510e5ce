/-
The order in which a machine goes through its plan.

A machine stands at one leg. What is behind it is settled, what is ahead of it has not
been asked, and a challenge that was given up has taken along what needs it; so the leg
that it stands at is the only one that can be waiting, and if that leg needs the
challenge then the challenge was answered. None of this is lost on a path: a late reply
may settle any leg, but a settled leg stays settled, and the machine passes a leg only
when it is.
-/
import Mathlib.Data.List.Basic
import Mathlib.Data.List.Pairwise
import Mathlib.Data.List.TakeWhile
import ServerProbe.Proofs.Machine

set_option autoImplicit false

namespace ServerProbe.Machine

/-! ## Machines in order -/

/-- Whether the plan is in the order of the phases, settled behind the current leg and
not asked yet ahead of it. -/
structure Lined (m : Machine) : Prop where
  /-- Phases come in their order, each once. -/
  ascending : (m.plan.map fun leg => leg.phase.rank).Pairwise (· < ·)
  /-- What is behind is settled. -/
  behind : ∀ i leg, m.plan[i]? = some leg → i < m.current → leg.status.isSettled = true
  /-- What is ahead is not waited for. -/
  ahead : ∀ i leg, m.plan[i]? = some leg → m.current < i → leg.status ≠ .waiting
  /-- Where something needs a challenge, there is one. -/
  guarded : ∀ leg ∈ m.plan, leg.phase ∈ m.gated → ∃ c ∈ m.plan, c.phase = .challenge

/-- Whether a challenge that was given up has taken along what needs it. -/
def Gated (m : Machine) : Prop :=
  ∀ c ∈ m.plan, c.phase = .challenge → c.status.isSettled = true → c.status.isDone = false →
    ∀ leg ∈ m.plan, leg.phase ∈ m.gated → leg.status.isSettled = true

/-- A machine in order. -/
structure Sound (m : Machine) : Prop extends Lined m where
  gate : m.Gated
  /-- The machine does not stand at a settled leg. -/
  here : ∀ leg, m.currentLeg? = some leg → leg.status.isSettled = false

/-! ## Changes of the plan -/

section Changes

variable {m : Machine}

/-- The order of a plan is that of its phases. -/
theorem Lined.ascending_of_phases (h : m.Lined) {m' : Machine}
    (hphases : m'.plan.map Leg.phase = m.plan.map Leg.phase) :
    (m'.plan.map fun leg => leg.phase.rank).Pairwise (· < ·) := by
  have hranks : ∀ m : Machine, m.plan.map (fun leg => leg.phase.rank)
      = (m.plan.map Leg.phase).map Phase.rank := by
    intro m
    rw [List.map_map]
    rfl
  rw [hranks, hphases, ← hranks]
  exact h.ascending

/-- Whether there is a challenge where one is needed is a matter of the phases too. -/
theorem Lined.guarded_of_phases (h : m.Lined) {m' : Machine}
    (hphases : m'.plan.map Leg.phase = m.plan.map Leg.phase) (hgated : m'.gated = m.gated) :
    ∀ leg ∈ m'.plan, leg.phase ∈ m'.gated → ∃ c ∈ m'.plan, c.phase = .challenge := by
  intro leg hleg hneeds
  have hplanned : leg.phase ∈ m.plan.map Leg.phase := hphases ▸ List.mem_map_of_mem hleg
  obtain ⟨old, hold, hphase⟩ := List.mem_map.mp hplanned
  rw [hgated, ← hphase] at hneeds
  obtain ⟨c, hc, hchallenge⟩ := h.guarded old hold hneeds
  have hthere : c.phase ∈ m'.plan.map Leg.phase := hphases ▸ List.mem_map_of_mem hc
  obtain ⟨c', hc', hphase'⟩ := List.mem_map.mp hthere
  exact ⟨c', hc', hphase'.trans hchallenge⟩

theorem phases_changeCurrent (m : Machine) {change : Leg → Leg}
    (hphase : ∀ leg, (change leg).phase = leg.phase) :
    (m.changeCurrent change).plan.map Leg.phase = m.plan.map Leg.phase := by
  apply List.ext_getElem?
  intro i
  simp only [Machine.changeCurrent, List.getElem?_map, List.getElem?_modify]
  rcases m.plan[i]? with _ | leg
  · rfl
  · by_cases hi : m.current = i
    · simp [hi, hphase]
    · simp [hi]

theorem Lined.changeCurrent (h : m.Lined) {change : Leg → Leg}
    (hphase : ∀ leg, (change leg).phase = leg.phase) : (m.changeCurrent change).Lined where
  ascending := h.ascending_of_phases (m.phases_changeCurrent hphase)
  behind := by
    intro i leg hleg hi
    change i < m.current at hi
    rw [Machine.changeCurrent, List.getElem?_modify_ne _ _ (Nat.ne_of_gt hi)] at hleg
    exact h.behind i leg hleg hi
  ahead := by
    intro i leg hleg hi
    change m.current < i at hi
    rw [Machine.changeCurrent, List.getElem?_modify_ne _ _ (Nat.ne_of_lt hi)] at hleg
    exact h.ahead i leg hleg hi
  guarded := h.guarded_of_phases (m.phases_changeCurrent hphase) rfl

/-- Settling some legs, and changing nothing else, keeps a plan in line. -/
theorem Lined.map (h : m.Lined) {m' : Machine} {change : Leg → Leg}
    (hplan : m'.plan = m.plan.map change) (hcurrent : m'.current = m.current)
    (hgated : m'.gated = m.gated) (hphase : ∀ leg, (change leg).phase = leg.phase)
    (hchange : ∀ leg, change leg = leg ∨ (change leg).status.isSettled = true) : m'.Lined := by
  have hphases : m'.plan.map Leg.phase = m.plan.map Leg.phase := by
    rw [hplan, List.map_map]
    exact List.map_congr_left fun leg _ => hphase leg
  refine ⟨h.ascending_of_phases hphases, ?_, ?_, h.guarded_of_phases hphases hgated⟩
  · intro i leg hleg hi
    rw [hplan, List.getElem?_map] at hleg
    obtain ⟨old, hold, rfl⟩ := Option.map_eq_some_iff.mp hleg
    rcases hchange old with heq | hsettled
    · rw [heq]
      exact h.behind i old hold (hcurrent ▸ hi)
    · exact hsettled
  · intro i leg hleg hi
    rw [hplan, List.getElem?_map] at hleg
    obtain ⟨old, hold, rfl⟩ := Option.map_eq_some_iff.mp hleg
    rcases hchange old with heq | hsettled
    · rw [heq]
      exact h.ahead i old hold (hcurrent ▸ hi)
    · intro hwaiting
      rw [hwaiting] at hsettled
      cases hsettled

/-! ## Passing settled legs -/

theorem holds_of_lt_takeWhile {α : Type} {p : α → Bool} {l : List α} {k : Nat} {a : α}
    (hk : k < (l.takeWhile p).length) (ha : l[k]? = some a) : p a = true := by
  have hprefix := (List.takeWhile_prefix p (l := l)).getElem hk
  have hlt : k < l.length := (List.getElem?_eq_some_iff.mp ha).1
  have hget : l[k] = a := (List.getElem?_eq_some_iff.mp ha).2
  rw [← hget, ← hprefix]
  exact List.mem_takeWhile_imp (List.getElem_mem hk)

theorem fails_at_takeWhile {α : Type} {p : α → Bool} {l : List α} {a : α}
    (ha : l[(l.takeWhile p).length]? = some a) : p a = false := by
  induction l with
  | nil => cases ha
  | cons b rest ih =>
    rcases hb : p b with _ | _
    · rw [List.takeWhile_cons_of_neg (by simp [hb])] at ha
      obtain rfl : b = a := Option.some.inj ha
      exact hb
    · rw [List.takeWhile_cons_of_pos hb] at ha
      exact ih ha

/-- A machine in line that passes the settled legs in front does not stand at one. -/
theorem Lined.advance (h : m.Lined) : m.advance.Lined ∧
    ∀ leg, m.advance.currentLeg? = some leg → leg.status.isSettled = false := by
  have hcurrent : m.advance.current = m.current
      + ((m.plan.drop m.current).takeWhile fun leg => leg.status.isSettled).length := rfl
  refine ⟨⟨h.ascending, ?_, ?_, h.guarded⟩, ?_⟩
  · intro i leg hleg hi
    by_cases hbehind : i < m.current
    · exact h.behind i leg hleg hbehind
    · -- the legs from the old place to the new one were passed because they are settled
      obtain ⟨k, rfl⟩ := Nat.exists_eq_add_of_le (Nat.le_of_not_lt hbehind)
      have hk : k < ((m.plan.drop m.current).takeWhile fun leg => leg.status.isSettled).length := by
        omega
      have hget : (m.plan.drop m.current)[k]? = some leg := by
        rw [List.getElem?_drop]
        exact hleg
      exact holds_of_lt_takeWhile (p := fun leg : Leg => leg.status.isSettled) hk hget
  · intro i leg hleg hi
    exact h.ahead i leg hleg (by omega)
  · intro leg hleg
    refine fails_at_takeWhile (p := fun leg => leg.status.isSettled) (l := m.plan.drop m.current) ?_
    rw [List.getElem?_drop]
    exact hleg

end Changes

/-! ## Steps keep a machine in order -/

section Steps

variable {m : Machine}

theorem Sound.complete (h : m.Sound) (answered : PhaseSet) (sealing : Bool) (now : Instant) :
    (m.complete answered sealing now).Sound := by
  -- the machine when the reply is counted and nothing has been passed yet
  let counted : Machine :=
    { m with
      plan := m.plan.map fun leg =>
        if answersFirst answered leg then { leg with status := .done sealing } else leg
      pingTotal := m.pingTotal + total (m.roundTrips answered now)
      pingCount := m.pingCount + (m.roundTrips answered now).length }
  have hlined : counted.Lined := by
    refine h.toLined.map rfl rfl rfl (fun leg => ?_) (fun leg => ?_)
    · split
      · rfl
      · rfl
    · split
      · exact .inr rfl
      · exact .inl rfl
  -- a challenge that a reply has answered was not given up, and the others are as before
  have hgate : counted.Gated := by
    intro c hc hchallenge hsettled hundone leg hleg hneeds
    obtain ⟨c₀, hc₀, rfl⟩ := List.mem_map.mp hc
    obtain ⟨leg₀, hleg₀, rfl⟩ := List.mem_map.mp hleg
    split at hundone
    · cases hundone
    · next hnot =>
      rw [if_neg hnot] at hchallenge hsettled
      split
      · rfl
      · next hnot' =>
        rw [if_neg hnot'] at hneeds
        exact h.gate c₀ hc₀ hchallenge hsettled hundone leg₀ hleg₀ hneeds
  obtain ⟨hadvanced, hhere⟩ := hlined.advance
  have hsound : counted.advance.Sound := ⟨hadvanced, hgate, hhere⟩
  unfold Machine.complete
  dsimp only
  split
  · exact ⟨⟨hsound.ascending, hsound.behind, hsound.ahead, hsound.guarded⟩,
      hsound.gate, hsound.here⟩
  · exact hsound

theorem Sound.stopLingering (h : m.Sound) : m.stopLingering.Sound :=
  ⟨⟨h.ascending, h.behind, h.ahead, h.guarded⟩, h.gate, h.here⟩

/-- A request makes the current leg wait. -/
theorem Sound.ask (h : m.Sound) {leg : Leg} (hleg : m.currentLeg? = some leg) {change : Leg → Leg}
    (hphase : ∀ leg, (change leg).phase = leg.phase)
    (hwaiting : ∀ leg, (change leg).status = .waiting) : (m.changeCurrent change).Sound := by
  refine ⟨h.toLined.changeCurrent hphase, ?_, ?_⟩
  · intro c hc hchallenge hsettled hundone other hother hneeds
    have hcold : c ∈ m.plan := by
      rcases changeCurrent_cases hc with hold | ⟨here, -, rfl⟩
      · exact hold
      · rw [hwaiting here] at hsettled
        cases hsettled
    rcases changeCurrent_cases hother with hold | ⟨here, hhere, rfl⟩
    · exact h.gate c hcold hchallenge hsettled hundone other hold hneeds
    · -- the leg that is asked is not settled, so the challenge for it was not given up
      rw [hphase here] at hneeds
      have := h.gate c hcold hchallenge hsettled hundone here (List.mem_of_getElem? hhere) hneeds
      rw [h.here here hhere] at this
      cases this
  · intro other hother
    have hlength := (List.getElem?_eq_some_iff.mp hleg).1
    rw [currentLeg?, plan_changeCurrent hleg] at hother
    obtain rfl : change leg = other := by
      simpa [Machine.changeCurrent, hlength] using hother
    rw [hwaiting leg]
    rfl

/-- What needs a challenge is settled when the challenge is given up. -/
theorem settled_skipGated {leg : Leg} (hleg : leg ∈ m.skipGated.plan)
    (hneeds : leg.phase ∈ m.gated) : leg.status.isSettled = true := by
  obtain ⟨old, hold, rfl⟩ := List.mem_map.mp hleg
  split
  · rfl
  · next hnot =>
    -- it is skipped unless it is settled
    rw [if_neg hnot] at hneeds
    have hcontains : m.gated.contains old.phase = true := hneeds
    simpa [hcontains] using hnot

/-- Giving up a challenge gives up what needs it. -/
theorem Sound.giveUpChallenge (h : m.Sound) :
    (m.changeCurrent fun leg => { leg with status := .timedOut }).skipGated.advance.Sound := by
  let timedOut := m.changeCurrent fun leg => { leg with status := .timedOut }
  have hlined : timedOut.Lined := h.toLined.changeCurrent fun _ => rfl
  have hskipped : timedOut.skipGated.Lined := by
    refine hlined.map rfl rfl rfl (fun leg => ?_) (fun leg => ?_)
    · split
      · rfl
      · rfl
    · split
      · exact .inr rfl
      · exact .inl rfl
  have hgate : timedOut.skipGated.Gated :=
    fun _ _ _ _ _ _ hother hneeds => settled_skipGated hother hneeds
  obtain ⟨hadvanced, hhere⟩ := hskipped.advance
  exact ⟨hadvanced, hgate, hhere⟩

/-- Giving up another phase changes nothing about the challenge. -/
theorem Sound.giveUp (h : m.Sound) {leg : Leg} (hleg : m.currentLeg? = some leg)
    (hphase : leg.phase ≠ .challenge) :
    (m.changeCurrent fun leg => { leg with status := .timedOut }).advance.Sound := by
  let timedOut := m.changeCurrent fun leg => { leg with status := .timedOut }
  have hlined : timedOut.Lined := h.toLined.changeCurrent fun _ => rfl
  have hgate : timedOut.Gated := by
    intro c hc hchallenge hsettled hundone other hother hneeds
    rcases changeCurrent_cases hc with hcold | ⟨here, hhere, rfl⟩
    · rcases changeCurrent_cases hother with hold | ⟨here, -, rfl⟩
      · exact h.gate c hcold hchallenge hsettled hundone other hold hneeds
      · rfl
    · obtain rfl : leg = here := Option.some.inj (hleg.symm.trans hhere)
      exact absurd hchallenge hphase
  obtain ⟨hadvanced, hhere⟩ := hlined.advance
  exact ⟨hadvanced, hgate, hhere⟩

theorem Sound.nextSend (h : m.Sound) : m.nextSend.1.Sound := by
  unfold Machine.nextSend
  rcases hleg : m.currentLeg? with _ | leg
  · exact h
  · dsimp only
    split
    · exact h
    · dsimp only
      split
      case isTrue => exact h.giveUpChallenge
      case isFalse hphase => exact h.giveUp hleg hphase

end Steps

/-! ## Paths keep a machine in order -/

section Paths

variable {p : Protocol} {s : Session} {credit : PhaseSet → Prop} {start m : Machine}
  {request : Option Request}

theorem Path.sound (h : Path p s credit start m request) (hstart : start.Sound) : m.Sound := by
  induction h with
  | start => exact hstart
  | decide _ ih => exact ih.nextSend
  | complete answered sealing now _ _ ih => exact ih.complete answered sealing now
  | stop _ ih => exact ih.stopLingering
  | send now _ hleg _ _ ih => exact ih.ask hleg (fun _ => rfl) (fun _ => rfl)
  | resend now _ hleg _ _ ih => exact ih.ask hleg (fun _ => rfl) (fun _ => rfl)

theorem nextSend_forward (m : Machine) :
    m.current ≤ m.nextSend.1.current ∧ m.nextSend.1.gated = m.gated := by
  unfold nextSend
  rcases m.currentLeg? with _ | leg
  · exact ⟨Nat.le_refl _, rfl⟩
  · dsimp only
    split
    · exact ⟨Nat.le_refl _, rfl⟩
    · dsimp only
      split
      · exact ⟨Nat.le_add_right _ _, rfl⟩
      · exact ⟨Nat.le_add_right _ _, rfl⟩

theorem complete_forward (m : Machine) (answered : PhaseSet) (sealing : Bool) (now : Instant) :
    m.current ≤ (m.complete answered sealing now).current ∧
      (m.complete answered sealing now).gated = m.gated := by
  unfold complete
  dsimp only
  split
  · exact ⟨Nat.le_add_right _ _, rfl⟩
  · exact ⟨Nat.le_add_right _ _, rfl⟩

/-- A machine only moves forward, and what it has to ask a challenge for stays. -/
theorem Path.forward (h : Path p s credit start m request) :
    start.current ≤ m.current ∧ m.gated = start.gated := by
  induction h with
  | start => exact ⟨Nat.le_refl _, rfl⟩
  | @decide m _ ih =>
    obtain ⟨hcurrent, hgated⟩ := m.nextSend_forward
    exact ⟨ih.1.trans hcurrent, hgated.trans ih.2⟩
  | @complete m answered sealing now _ _ ih =>
    obtain ⟨hcurrent, hgated⟩ := m.complete_forward answered sealing now
    exact ⟨ih.1.trans hcurrent, hgated.trans ih.2⟩
  | stop _ ih => exact ih
  | send now _ _ _ _ ih => exact ih
  | resend now _ _ _ _ ih => exact ih

/-- A request is for the leg that the machine stands at afterwards, and that leg waits. -/
theorem Path.request_current (h : Path p s credit start m request) {r : Request}
    (hrequest : request = some r) : ∃ leg, m.currentLeg? = some leg ∧ leg.phase = r.phase ∧
      leg.status = .waiting ∧ p.request r.phase s = .ok r.payload := by
  cases h with
  | start => cases hrequest
  | decide => cases hrequest
  | complete => cases hrequest
  | stop => cases hrequest
  | @send m leg payload now _ hleg _ hpayload =>
    cases hrequest
    have hlength := (List.getElem?_eq_some_iff.mp hleg).1
    refine ⟨leg.charge now, ?_, rfl, rfl, hpayload⟩
    rw [currentLeg?, plan_recordSend hleg]
    exact List.getElem?_set_self hlength
  | @resend m leg payload now _ hleg _ hpayload =>
    cases hrequest
    have hlength := (List.getElem?_eq_some_iff.mp hleg).1
    refine ⟨leg.favour now, ?_, rfl, rfl, hpayload⟩
    rw [currentLeg?, plan_recordFreeResend hleg]
    exact List.getElem?_set_self hlength

/-- Deciding answers nothing. -/
theorem nextSend_done {m : Machine} {leg : Leg} (hleg : leg ∈ m.nextSend.1.plan)
    (hdone : leg.status.isDone = true) : leg ∈ m.plan := by
  unfold nextSend at hleg
  rcases hcurrent : m.currentLeg? with _ | here
  · rw [hcurrent] at hleg
    exact hleg
  · -- the leg that is given up is not done, so a leg that is done is an old one
    have htimedOut : ∀ {leg : Leg}, leg.status.isDone = true →
        leg ∈ (m.changeCurrent fun leg => { leg with status := .timedOut }).plan →
        leg ∈ m.plan := by
      intro leg hdone hleg
      rcases changeCurrent_cases hleg with hold | ⟨here, -, rfl⟩
      · exact hold
      · cases hdone
    rw [hcurrent] at hleg
    dsimp only at hleg
    split at hleg
    · exact hleg
    · dsimp only at hleg
      split at hleg
      · obtain ⟨old, hold, rfl⟩ := List.mem_map.mp hleg
        split at hdone
        · cases hdone
        · next hnot =>
          rw [if_neg hnot]
          exact htimedOut hdone hold
      · exact htimedOut hdone hleg

theorem complete_done {m : Machine} {answered : PhaseSet} {sealing : Bool} {now : Instant}
    {leg : Leg} (hleg : leg ∈ (m.complete answered sealing now).plan) :
    leg ∈ m.plan ∨ leg.phase ∈ answered := by
  rw [plan_complete] at hleg
  obtain ⟨old, hold, rfl⟩ := List.mem_map.mp hleg
  split
  · next hfirst =>
    rw [answersFirst, Bool.and_eq_true] at hfirst
    exact .inr hfirst.1
  · exact .inl hold

/-- What becomes answered on a path was answered by a reply that counts. -/
theorem Path.done_cases (h : Path p s credit start m request) {leg : Leg} (hleg : leg ∈ m.plan)
    (hdone : leg.status.isDone = true) :
    leg ∈ start.plan ∨ ∃ answered, credit answered ∧ leg.phase ∈ answered := by
  induction h with
  | start => exact .inl hleg
  | decide _ ih => exact ih (nextSend_done hleg hdone)
  | complete answered sealing now hcredit _ ih =>
    rcases complete_done hleg with hold | hanswered
    · exact ih hold
    · exact .inr ⟨answered, hcredit, hanswered⟩
  | stop _ ih => exact ih hleg
  | send now _ _ _ _ ih =>
    rcases changeCurrent_cases hleg with hold | ⟨here, -, rfl⟩
    · exact ih hold
    · cases hdone
  | resend now _ _ _ _ ih =>
    rcases changeCurrent_cases hleg with hold | ⟨here, -, rfl⟩
    · exact ih hold
    · cases hdone

end Paths

/-! ## What order is good for -/

theorem countP_le_one {α : Type} {p : α → Bool} {l : List α} {n : Nat}
    (h : ∀ i a, l[i]? = some a → p a = true → i = n) : l.countP p ≤ 1 := by
  induction l generalizing n with
  | nil => exact Nat.zero_le _
  | cons a rest ih =>
    by_cases ha : p a = true
    · -- whatever else satisfies `p` would be at the same place
      have hzero : rest.countP p = 0 := by
        refine List.countP_eq_zero.mpr fun b hb hpb => ?_
        obtain ⟨i, hi⟩ := List.mem_iff_getElem?.mp hb
        have hhead := h 0 a rfl ha
        have htail := h (i + 1) b hi hpb
        omega
      rw [List.countP_cons_of_pos ha, hzero]
    · rw [List.countP_cons_of_neg ha]
      refine ih (n := n - 1) fun i b hi hpb => ?_
      have := h (i + 1) b hi hpb
      omega

/-- At most one leg is waiting: the current one. -/
theorem Lined.waiting_le {m : Machine} (h : m.Lined) :
    m.plan.countP (fun leg => leg.status == .waiting) ≤ 1 := by
  refine countP_le_one (n := m.current) fun i leg hleg hwaiting => ?_
  -- a leg that waits is neither behind nor ahead
  have hstatus : leg.status = .waiting := by simpa using hwaiting
  rcases Nat.lt_trichotomy i m.current with hlt | heq | hgt
  · have := h.behind i leg hleg hlt
    rw [hstatus] at this
    cases this
  · exact heq
  · exact absurd hstatus (h.ahead i leg hleg hgt)

theorem Lined.rank_lt {m : Machine} (h : m.Lined) {i j : Nat} {a b : Leg}
    (ha : m.plan[i]? = some a) (hb : m.plan[j]? = some b) (hij : i < j) :
    a.phase.rank < b.phase.rank := by
  obtain ⟨hi, rfl⟩ := List.getElem?_eq_some_iff.mp ha
  obtain ⟨hj, rfl⟩ := List.getElem?_eq_some_iff.mp hb
  exact List.pairwise_iff_getElem.mp (List.pairwise_map.mp h.ascending) i j hi hj hij

/-- Behind the last leg all of them are settled. -/
theorem Lined.settled_of_end {m : Machine} (h : m.Lined) (hend : m.currentLeg? = none) {leg : Leg}
    (hleg : leg ∈ m.plan) : leg.status.isSettled = true := by
  obtain ⟨i, hi⟩ := List.mem_iff_getElem?.mp hleg
  have hlt : i < m.plan.length := (List.getElem?_eq_some_iff.mp hi).1
  have hle : m.plan.length ≤ m.current := List.getElem?_eq_none_iff.mp hend
  exact h.behind i leg hi (Nat.lt_of_lt_of_le hlt hle)

/-- If the machine stands at a leg that needs the challenge, the challenge was answered. -/
theorem Sound.challenge_done {m : Machine} (h : m.Sound) {leg : Leg}
    (hleg : m.currentLeg? = some leg) (hneeds : leg.phase ∈ m.gated)
    (hphase : leg.phase ≠ .challenge) :
    ∃ c ∈ m.plan, c.phase = .challenge ∧ c.status.isDone = true := by
  have hmem : leg ∈ m.plan := List.mem_of_getElem? hleg
  obtain ⟨c, hc, hchallenge⟩ := h.guarded leg hmem hneeds
  refine ⟨c, hc, hchallenge, ?_⟩
  obtain ⟨i, hi⟩ := List.mem_iff_getElem?.mp hc
  -- the challenge comes first of all phases, so it is behind the leg
  have hbehind : i < m.current := by
    rcases Nat.lt_trichotomy i m.current with hlt | rfl | hgt
    · exact hlt
    · obtain rfl : leg = c := Option.some.inj (hleg.symm.trans hi)
      exact absurd hchallenge hphase
    · have hrank := h.rank_lt hleg hi hgt
      rw [hchallenge] at hrank
      exact absurd hrank (Nat.not_lt_zero _)
  -- being behind it is settled; had it been given up, so would the leg
  have hsettled := h.behind i c hi hbehind
  by_contra hundone
  have := h.gate c hc hchallenge hsettled (by simpa using hundone) leg hmem hneeds
  rw [h.here leg hleg] at this
  cases this

/-! ## The start -/

/-- A query that has not started is in order. -/
theorem sound_ofConfig (c : Capabilities) (config : Config) : (ofConfig c config).Sound where
  ascending := by
    rw [ofConfig, List.map_map]
    change ((Phase.all.filter _).map Phase.rank).Pairwise (· < ·)
    have hall : (Phase.all.map Phase.rank).Pairwise (· < ·) := by decide
    exact hall.sublist (List.filter_sublist.map _)
  behind i leg _ hi := absurd hi (Nat.not_lt_zero i)
  ahead := by
    intro i leg hleg _
    obtain ⟨phase, -, rfl⟩ := List.mem_map.mp (List.mem_of_getElem? hleg)
    nofun
  guarded := by
    intro leg hleg hneeds
    obtain ⟨phase, hphase, rfl⟩ := List.mem_map.mp hleg
    have hplanned := PhaseSet.mem_toList.mp hphase
    have hchallenge : Phase.challenge ∈ plannedPhases c config := by
      unfold plannedPhases at hplanned ⊢
      dsimp only at hplanned ⊢
      split
      · exact PhaseSet.mem_insert.mpr (.inl rfl)
      · next hnone =>
        rw [if_neg hnone] at hplanned
        exact absurd (PhaseSet.intersects_iff.mpr ⟨phase, hneeds, hplanned⟩) hnone
    exact ⟨_, List.mem_map_of_mem (PhaseSet.mem_toList.mpr hchallenge), rfl⟩
  gate := by
    intro c hc _ hsettled
    obtain ⟨phase, -, rfl⟩ := List.mem_map.mp hc
    cases hsettled
  here := by
    intro leg hleg
    obtain ⟨phase, -, rfl⟩ := List.mem_map.mp (List.mem_of_getElem? hleg)
    rfl

end ServerProbe.Machine
