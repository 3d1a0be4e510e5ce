/-
Every active target waits for a reply.

A target that goes on after something has happened to it stands at a phase that it has
asked for: it has just asked, or it has heard something that leaves the phase it stands at
open. It never stands at a phase that nobody has asked for, where the clock would not find
it again. And it never waits for late replies, because a reply that answers anything seals
what it answers, in all four protocols.

A target that has just been added has not asked yet, but the call that adds it asks at
once; so between calls what is said here holds of all of them (`Reachable.waits`).
-/
import ServerProbe.Proofs.Life
import ServerProbe.Proofs.Order

set_option autoImplicit false

namespace ServerProbe

/-! ## Machines that wait -/

namespace Machine

/-- A machine that has asked for the phase it stands at, and waits for the reply. -/
structure Waits (m : Machine) : Prop extends Sound m where
  asked : ∃ leg sent, m.currentLeg? = some leg ∧ leg.status = .waiting ∧ leg.lastSent = some sent
  /-- It does not wait for late replies. -/
  prompt : m.lingerUntil = none

variable {m : Machine}

/-- A machine that waits needs attention one interval after it has asked last. -/
theorem Waits.deadline (h : m.Waits) : ∃ leg sent, m.currentLeg? = some leg ∧
    leg.status = .waiting ∧ leg.lastSent = some sent ∧
    m.deadline? = some (sent + m.retryInterval) := by
  obtain ⟨leg, sent, hleg, hstatus, hsent⟩ := h.asked
  refine ⟨leg, sent, hleg, hstatus, hsent, ?_⟩
  unfold deadline?
  rw [h.prompt, hleg]
  obtain ⟨phase, budget, attempts, firstSent, lastSent, freeResendUsed, status⟩ := leg
  obtain rfl : status = .waiting := hstatus
  obtain rfl : lastSent = some sent := hsent
  rfl

theorem Waits.not_settled (h : m.Waits) : m.isSettled = false := by
  obtain ⟨leg, sent, hleg, -, -⟩ := h.asked
  have hlt : m.current < m.plan.length := (List.getElem?_eq_some_iff.mp hleg).1
  simpa [isSettled] using hlt

theorem Waits.not_lingering (h : m.Waits) : m.isLingering = false := by
  rw [isLingering, h.not_settled, Bool.false_and]

theorem Waits.not_finished (h : m.Waits) : m.isFinished = false := by
  rw [isFinished, h.not_settled, Bool.false_and]

/-- A machine that waits is due when its time has come. -/
theorem Waits.isDue_iff (h : m.Waits) {limit : Instant} (hlimit : m.deadline? = some limit)
    (now : Instant) : m.isDue now = true ↔ limit ≤ now := by
  obtain ⟨leg, sent, hleg, hstatus, hsent, hdeadline⟩ := h.deadline
  obtain rfl : sent + m.retryInterval = limit := Option.some.inj (hdeadline.symm.trans hlimit)
  unfold isDue
  rw [hleg, Option.any_some, hstatus, hsent]
  exact decide_eq_true_iff

/-! ### Waiting for late replies -/

theorem lingerUntil_nextSend (m : Machine) : m.nextSend.1.lingerUntil = m.lingerUntil := by
  unfold nextSend
  rcases m.currentLeg? with _ | leg
  · rfl
  · dsimp only
    split
    · rfl
    · dsimp only
      split
      · rfl
      · rfl

/-- Where no reply counts, nobody starts to wait for late ones. -/
theorem Path.prompt {p : Protocol} {s : Session} {start : Machine} {request : Option Request}
    (h : Path p s (fun _ => False) start m request) (hstart : start.lingerUntil = none) :
    m.lingerUntil = none := by
  induction h with
  | start => exact hstart
  | decide _ ih => exact (lingerUntil_nextSend _).trans ih
  | complete answered sealing now hcredit => exact hcredit.elim
  | stop => rfl
  | send now _ _ _ _ ih => exact ih
  | resend now _ _ _ _ ih => exact ih

/-- A reply that seals does not make anybody wait for late ones. -/
theorem complete_prompt (hprompt : m.lingerUntil = none) (answered : PhaseSet) (now : Instant) :
    (m.complete answered true now).lingerUntil = none := by
  unfold complete
  dsimp only
  split
  · rfl
  · exact hprompt

/-! ### Asking and hearing -/

/-- A machine that has just asked for the phase it stands at waits. -/
theorem Sound.waits_changeCurrent (h : m.Sound) (hprompt : m.lingerUntil = none) {leg : Leg}
    (hleg : m.currentLeg? = some leg) {now : Instant} {change : Leg → Leg}
    (hphase : ∀ leg, (change leg).phase = leg.phase)
    (hwaiting : ∀ leg, (change leg).status = .waiting)
    (hsent : ∀ leg, (change leg).lastSent = some now) : (m.changeCurrent change).Waits where
  toSound := h.ask hleg hphase hwaiting
  asked := by
    have hlength : m.current < m.plan.length := (List.getElem?_eq_some_iff.mp hleg).1
    refine ⟨change leg, now, ?_, hwaiting leg, hsent leg⟩
    rw [currentLeg?, plan_changeCurrent hleg]
    exact List.getElem?_set_self hlength
  prompt := hprompt

/-- The legs of a plan in order are told apart by their phases. -/
theorem Lined.index_eq (h : m.Lined) {i j : Nat} {a b : Leg} (ha : m.plan[i]? = some a)
    (hb : m.plan[j]? = some b) (hphase : a.phase = b.phase) : i = j := by
  rcases Nat.lt_trichotomy i j with hlt | heq | hgt
  · have hrank := h.rank_lt ha hb hlt
    rw [hphase] at hrank
    exact absurd hrank (Nat.lt_irrefl _)
  · exact heq
  · have hrank := h.rank_lt hb ha hgt
    rw [hphase] at hrank
    exact absurd hrank (Nat.lt_irrefl _)

/-- A machine that stays where it is when a reply is counted waits as before. -/
theorem Waits.complete (h : m.Waits) {answered : PhaseSet} {now : Instant}
    (hstill : (m.complete answered true now).currentPhase? = m.currentPhase?) :
    (m.complete answered true now).Waits where
  toSound := h.toSound.complete answered true now
  asked := by
    obtain ⟨leg, sent, hleg, hstatus, hsent⟩ := h.asked
    have hsound := h.toSound.complete answered true now
    rw [currentPhase?, currentPhase?, hleg, Option.map_some] at hstill
    obtain ⟨leg', hleg', hphase⟩ := Option.map_eq_some_iff.mp hstill
    -- the leg with that phase is the one that the machine stood at
    have hopen := hsound.here leg' hleg'
    have hplan := hleg'
    rw [currentLeg?, plan_complete, List.getElem?_map] at hplan
    obtain ⟨old, hold, rfl⟩ := Option.map_eq_some_iff.mp hplan
    have hsame : old.phase = leg.phase := by
      rw [← hphase]
      split
      · rfl
      · rfl
    have hindex := h.toSound.index_eq hold hleg hsame
    rw [hindex] at hold
    obtain rfl : leg = old := Option.some.inj (hleg.symm.trans hold)
    -- and the reply did not answer it, since it is still open
    by_cases hfirst : answersFirst answered leg = true
    · rw [if_pos hfirst] at hopen
      cases hopen
    · rw [if_neg hfirst] at hleg'
      exact ⟨leg, sent, hleg', hstatus, hsent⟩
  prompt := complete_prompt h.prompt answered now

end Machine

/-! ## Targets that wait -/

namespace Target

open Machine (Path)

variable {t : Target}

/-- Asking ends a target, or queues a request that is charged. -/
theorem ask_cases (t : Target) (now : Instant) :
    ((∃ status, (t.ask now).fate = .over status) ∧ (t.ask now).request = none) ∨
    ((t.ask now).fate = .goesOn ∧
      ∃ phase payload, (t.ask now).request = some ⟨phase, payload, false⟩) := by
  unfold ask
  rcases t.machine.nextRequest with ⟨machine, _ | phase⟩
  · exact .inl ⟨⟨none, rfl⟩, rfl⟩
  · dsimp only
    rcases t.protocol.request phase t.exchange.session with fault | payload
    · exact .inl ⟨⟨_, rfl⟩, rfl⟩
    · exact .inr ⟨rfl, phase, payload, rfl⟩

theorem ask_waits (hsound : t.machine.Sound) (hprompt : t.machine.lingerUntil = none)
    {now : Instant} (hfate : (t.ask now).fate = .goesOn) : (t.ask now).target.machine.Waits := by
  -- what is given up on the way to the next request leaves the machine in order
  have hpath := (Path.start : Path t.protocol t.exchange.session (fun _ => False) t.machine
    t.machine none).nextRequestWithin (t.machine.plan.length + 1)
  unfold ask at hfate ⊢
  rcases hnext : t.machine.nextRequest with ⟨machine, _ | phase⟩
  · rw [hnext] at hfate
    cases hfate
  · rw [hnext] at hfate
    rw [← Machine.nextRequest, hnext] at hpath
    obtain ⟨leg, hleg, -, -⟩ := Machine.nextRequest_some hnext
    dsimp only at hfate ⊢
    rcases hrequest : t.protocol.request phase t.exchange.session with fault | payload
    · rw [hrequest] at hfate
      cases hfate
    · exact (hpath.sound hsound).waits_changeCurrent (hpath.prompt hprompt) hleg
        (fun _ => rfl) (fun _ => rfl) (fun _ => rfl)

theorem askAgain_waits (h : t.machine.Waits) {now : Instant}
    (hfate : (t.askAgain now).fate = .goesOn) : (t.askAgain now).target.machine.Waits := by
  obtain ⟨leg, sent, hleg, -, -⟩ := h.asked
  have hphase : t.machine.currentPhase? = some leg.phase := by
    rw [Machine.currentPhase?, hleg, Option.map_some]
  unfold askAgain at hfate ⊢
  rw [hphase] at hfate ⊢
  dsimp only at hfate ⊢
  by_cases hfree : (!t.machine.freeResendAvailable) = true
  · rw [if_pos hfree] at hfate ⊢
    exact ask_waits h.toSound h.prompt hfate
  · rw [if_neg hfree]
    -- a request that cannot be made again leaves the target as it is
    rcases t.protocol.request leg.phase t.exchange.session with fault | payload
    · exact h
    · exact h.toSound.waits_changeCurrent h.prompt hleg (fun _ => rfl) (fun _ => rfl)
        (fun _ => rfl)

theorem goOn_waits (h : t.machine.Waits) {answered : PhaseSet} {now : Instant}
    (hfate : (t.goOn answered true now).fate = .goesOn) :
    (t.goOn answered true now).target.machine.Waits := by
  unfold goOn at hfate ⊢
  dsimp only at hfate ⊢
  generalize Engine.credited answered t.machine.currentPhase? = credited at hfate ⊢
  have hsound := h.toSound.complete credited true now
  have hprompt := Machine.complete_prompt h.prompt credited now
  by_cases hfinished : (t.machine.complete credited true now).isFinished = true
  · rw [if_pos hfinished] at hfate
    cases hfate
  · rw [if_neg hfinished] at hfate ⊢
    by_cases hmoved : (t.machine.complete credited true now).currentPhase?.isSome ∧
        (t.machine.complete credited true now).currentPhase? ≠ t.machine.currentPhase?
    · rw [if_pos hmoved] at hfate ⊢
      exact ask_waits (t := { t with machine := t.machine.complete credited true now }) hsound
        hprompt hfate
    · rw [if_neg hmoved]
      -- the machine stands somewhere, since it is not finished; so it has not moved
      refine Machine.Waits.complete h ?_
      by_contra hother
      refine hmoved ⟨?_, hother⟩
      rw [Machine.isFinished, hprompt, Option.isNone_none, Bool.and_true, Machine.isSettled,
        decide_eq_true_iff] at hfinished
      rw [Machine.currentPhase?, Option.isSome_map, Machine.currentLeg?,
        List.getElem?_eq_getElem (Nat.lt_of_not_le hfinished)]
      rfl

/-- A payload that answers anything seals what it answers. -/
theorem exchanged_sealing (t : Target) {payload : List UInt8} {sealing : Bool}
    (h : (t.exchanged payload).2.outcome = .done sealing) : sealing = true :=
  ((t.exchange.receive_cases t.protocol t.config.requestParams t.machine.currentPhase?
    t.machine.sealedPhases payload).of_done h).1

theorem hear_waits (h : t.machine.Waits) {payload : List UInt8} {now : Instant}
    (hfate : (t.hear payload now).fate = .goesOn) :
    (t.hear payload now).target.machine.Waits := by
  have hsealing : ∀ sealing, (t.exchanged payload).2.outcome = .done sealing → sealing = true :=
    fun sealing => t.exchanged_sealing
  unfold hear at hfate ⊢
  rcases hexchanged : t.exchanged payload with ⟨exchange, receipt⟩
  rw [hexchanged] at hfate hsealing
  dsimp only at hfate hsealing ⊢
  unfold follow at hfate ⊢
  rcases houtcome : receipt.outcome with _ | sealing | kind
  · rw [houtcome] at hfate
    dsimp only at hfate ⊢
    by_cases hresend : receipt.resend = true
    · rw [if_pos hresend] at hfate ⊢
      exact askAgain_waits (t := { t with exchange }) h hfate
    · rw [if_neg hresend]
      exact h
  · obtain rfl : sealing = true := hsealing sealing houtcome
    rw [houtcome] at hfate
    exact goOn_waits (t := { t with exchange }) h hfate
  · rw [houtcome] at hfate
    dsimp only at hfate ⊢
    by_cases hfatal : kind.isFatal = true
    · rw [if_pos hfatal] at hfate
      cases hfate
    · rw [if_neg hfatal]
      exact h

/-- **A target that waits and goes on waits.** -/
theorem react_waits (h : t.machine.Waits) {cue : Cue} (hfate : (t.react cue).fate = .goesOn) :
    (t.react cue).target.machine.Waits := by
  cases cue with
  | ask now => exact ask_waits h.toSound h.prompt hfate
  | hear payload now => exact hear_waits h hfate
  | linger => cases hfate
  | unsent error =>
    unfold react at hfate ⊢
    dsimp only at hfate ⊢
    by_cases hrefused : error.kind = .connectionRefused
    · rw [if_pos hrefused] at hfate
      cases hfate
    · rw [if_neg hrefused]
      exact h

/-- The clock finds a target that waits when its time has come. -/
theorem clockCue?_eq (h : t.machine.Waits) {limit : Instant}
    (hlimit : t.machine.deadline? = some limit) (now : Instant) :
    t.clockCue? now = if limit ≤ now then some (.ask now) else none := by
  have hdue := h.isDue_iff hlimit now
  unfold clockCue?
  rw [h.not_lingering, if_neg Bool.false_ne_true]
  by_cases hcome : limit ≤ now
  · rw [if_pos (hdue.mpr hcome), if_pos hcome]
  · rw [if_neg fun h => hcome (hdue.mp h), if_neg hcome]

end Target

/-! ## What holds of every active target -/

namespace Engine

section Everywhere

variable {P : Target → Prop}
  (noted : ∀ t responders, P t → P { t with responders })
  (spawned : ∀ t id address, P t → P (t.child id address))
  (reacted : ∀ t cue, P t → (t.react cue).fate = .goesOn → P (t.react cue).target)
include noted spawned reacted

theorem Course.every_target {e e' : Engine} {events : List Event} (h : Course e events e')
    (hkept : e.WellKept) (hadded : ∀ t, .added t ∉ events) (hall : ∀ t ∈ e.targets, P t) :
    ∀ t ∈ e'.targets, P t := by
  induction h with
  | nil => exact hall
  | @cons e e' event rest hfits _ ih =>
    refine ih (hkept.tell hfits) (fun t ht => hadded t (List.mem_cons_of_mem _ ht)) ?_
    intro t ht
    have hfound := (hkept.tell hfits).target?_of_mem ht
    rcases target?_tell_cases hkept hfits hfound with ⟨-, hold⟩ | ⟨hcreated, -⟩ |
      ⟨parent, child, rfl, -, rfl⟩ | ⟨m, rfl, -, hfate, rfl⟩
    · exact hall t (target?_mem hold).1
    · cases hfits with
      | added => exact absurd List.mem_cons_self (hadded _)
      | spawned parent sender hmem =>
        obtain rfl := Option.some.inj hcreated
        exact spawned parent _ _ (hall parent hmem)
      | reacted => cases hcreated
    · exact noted parent _ (hall parent hfits.parent_mem)
    · exact reacted m.target m.cue (hall m.target hfits.target_mem) hfate

/-- **Active targets.** What holds of a target that has asked for its first request, and is
kept by whatever happens to it and by becoming a target of its own, holds of every active
target of a run. -/
theorem Reachable.every_target
    (asked : ∀ id address mode p config nonce now,
      ((Target.fresh id address mode p config nonce).ask now).fate = .goesOn →
      P ((Target.fresh id address mode p config nonce).ask now).target)
    {e : Engine} (h : e.Reachable) : ∀ t ∈ e.targets, P t := by
  suffices hboth : e.WellKept ∧ ∀ t ∈ e.targets, P t from hboth.2
  refine h.invariant (P := fun e => e.WellKept ∧ ∀ t ∈ e.targets, P t)
    ⟨wellKept_empty, fun t ht => absurd ht List.not_mem_nil⟩ ?_
  rintro e call ⟨hkept, hall⟩
  refine ⟨hkept.after call, ?_⟩
  have htake := hkept.take call
  have hcourse := course_story hkept call
  have hall' : ∀ t ∈ (e.take call).targets, P t := by
    rw [(sameRegister_take e call).targets]
    exact hall
  rcases e.story_cases call with hnone | ⟨address, mode, p, config, nonce, now, hstory⟩
  · exact hcourse.every_target noted spawned reacted htake hnone hall'
  · -- the target that is added is not one that has asked, but then it asks
    rw [hstory] at hcourse
    generalize hnew : Target.fresh e.nextId address mode p config nonce = new at hcourse
    obtain ⟨hadded, hrest⟩ := hcourse.of_cons
    obtain ⟨hasks, hend⟩ := hrest.of_cons
    have hnext := htake.tell hadded
    rw [hend.of_nil]
    intro t ht
    have hfound := (hnext.tell hasks).target?_of_mem ht
    rcases target?_tell_cases hnext hasks hfound with ⟨hother, hold⟩ | ⟨hcreated, -⟩ |
      ⟨parent, child, heq, -⟩ | ⟨m, heq, -, hfate, rfl⟩
    · rcases target?_tell_cases htake hadded hold with ⟨-, hbefore⟩ | ⟨hcreated, -⟩ |
        ⟨parent, child, heq, -⟩ | ⟨m, heq, -⟩
      · exact hall' t (target?_mem hbefore).1
      · obtain rfl : new = t := Option.some.inj hcreated
        exact absurd rfl hother
      · cases heq
      · cases heq
    · cases hcreated
    · cases heq
    · cases heq
      subst hnew
      exact asked _ address mode p config nonce now hfate

end Everywhere

/-- **Every active target waits for a reply.** -/
theorem Reachable.waits {e : Engine} (h : e.Reachable) : ∀ t ∈ e.targets, t.machine.Waits :=
  h.every_target (P := fun t => t.machine.Waits) (fun _ _ ht => ht) (fun _ _ _ ht => ht)
    (fun _ _ ht hfate => Target.react_waits ht hfate)
    fun _ _ _ p config _ _ hfate =>
      Target.ask_waits (Machine.sound_ofConfig p.capabilities config) rfl hfate

end Engine

end ServerProbe
