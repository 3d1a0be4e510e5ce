/-
Phases that may be asked only after a challenge, in a machine that is driven by calls in
any order.

The challenge comes first in the plan, so a machine that stands at a phase that needs one
has passed the challenge. It passes a challenge that was answered or given up, and giving
it up settles all that needs it, once and for all. A token that comes later answers the
challenge, but it opens nothing again (`challenge_gates`).
-/
import ServerProbe.Proofs.Driving
import ServerProbe.Proofs.Flagging

set_option autoImplicit false

namespace ServerProbe.Machine

variable {m m' : Machine}

/-! ## Giving up the challenge -/

/-- A phase that is given up is the current one. -/
theorem nextSend_exhausted {phase : Phase} (h : m.nextSend.2 = .exhausted phase) :
    ∃ here, m.currentLeg? = some here ∧ here.phase = phase ∧ m.nextSend.1 = advance
      (if phase = .challenge then
        (m.changeCurrent fun leg => { leg with status := .timedOut }).skipGated
      else m.changeCurrent fun leg => { leg with status := .timedOut }) := by
  unfold nextSend at h ⊢
  rcases hcurrent : m.currentLeg? with _ | here
  · rw [hcurrent] at h
    cases h
  · rw [hcurrent] at h
    dsimp only at h ⊢
    split at h
    · cases h
    · next hspent =>
      obtain rfl : here.phase = phase := Decision.exhausted.inj h
      rw [if_neg hspent]
      exact ⟨here, rfl, rfl, rfl⟩

/-- Giving up the challenge skips what needs it and is open. -/
theorem skipped_of_exhausted (hgiven : m.nextSend.2 = .exhausted .challenge) {leg : Leg}
    (hleg : leg ∈ m.plan) (hneeds : leg.phase ∈ m.gated) (hphase : leg.phase ≠ .challenge)
    (hopen : leg.status.isSettled = false) :
    { leg with status := .skipped } ∈ m.nextSend.1.plan := by
  obtain ⟨here, hcurrent, hhere, hnext⟩ := nextSend_exhausted hgiven
  -- the machine stands at the challenge, so at no phase that needs it
  have hother : m.currentLeg? ≠ some leg := by
    intro hleg
    obtain rfl : here = leg := Option.some.inj (hcurrent.symm.trans hleg)
    exact hphase hhere
  rw [hnext, if_pos rfl]
  refine List.mem_map.mpr ⟨leg, mem_changeCurrent hleg hother _, if_pos ?_⟩
  rw [hopen]
  exact Bool.and_eq_true_iff.mpr ⟨hneeds, rfl⟩

/-- After the challenge was given up, nothing that needs it is open. -/
theorem settled_of_exhausted (hgiven : m.nextSend.2 = .exhausted .challenge) {leg : Leg}
    (hleg : leg ∈ m.nextSend.1.plan) (hneeds : leg.phase ∈ m.gated) :
    leg.status.isSettled = true := by
  obtain ⟨here, hcurrent, -, hnext⟩ := nextSend_exhausted hgiven
  rw [hnext, if_pos rfl] at hleg
  exact settled_skipGated hleg hneeds

/-! ## Gates -/

/-- **What needs a challenge is asked after the challenge was answered.** Take any capabilities
and options, and a machine to which any calls are made, in any order and with any instants.

* If it is to ask for a phase that needs a challenge, then the challenge is planned and was
  answered by one of the calls, the first reply to it.
* If the challenge is given up, every planned phase that needs it and is not settled is skipped;
  and whatever calls follow, be it a token among them, no phase that needs it is asked for. -/
theorem challenge_gates (c : Capabilities) (config : Config) (calls : List Call) :
    let m := (ofConfig c config).drive calls
    (∀ phase, m.nextSend.2 = .send phase → phase ∈ c.gates → phase ≠ .challenge →
      ∃ leg ∈ m.plan, ∃ before answered sealing now later, leg.phase = .challenge ∧
        leg.status = .done sealing ∧ calls = before ++ .complete answered sealing now :: later ∧
        .challenge ∈ answered ∧ ∀ call ∈ before, call.answer? .challenge = none) ∧
    (m.nextSend.2 = .exhausted .challenge →
      (∀ leg ∈ m.plan, leg.phase ∈ c.gates → leg.phase ≠ .challenge →
        leg.status.isSettled = false →
        { leg with status := .skipped } ∈ (m.after .nextSend).plan) ∧
      ∀ later, ∀ phase ∈ c.gates, ((m.after .nextSend).drive later).nextSend.2 ≠ .send phase) := by
  intro m
  have hsound := (sound_ofConfig c config).drive calls
  have hgated : m.gated = c.gates := ((sound_ofConfig c config).onward_drive calls).gated
  refine ⟨fun phase hsend hneeds hphase => ?_,
    fun hgiven => ⟨?_, fun later phase hneeds hsend => ?_⟩⟩
  · -- the challenge is behind, and it is not one that was given up
    obtain ⟨-, here, hcurrent, rfl, -⟩ := nextSend_send (Prod.ext rfl hsend)
    obtain ⟨leg, hleg, hchallenge, hdone⟩ :=
      hsound.challenge_done hcurrent (hgated ▸ hneeds) hphase
    obtain ⟨sealing, hstatus⟩ := LegStatus.isDone_iff.mp hdone
    -- what is answered was answered by the first reply among the calls
    have hanswer := seal?_drive hleg
    rw [hstatus, hchallenge] at hanswer
    obtain ⟨⟨sealing', now⟩, hfirst, hsame⟩ := Option.map_eq_some_iff.mp hanswer.symm
    obtain rfl : sealing' = sealing := hsame
    obtain ⟨before, call, later, hcalls, hcall, hbefore⟩ := List.findSome?_eq_some_iff.mp hfirst
    obtain ⟨answered, rfl, hmem⟩ := Call.answer?_eq_some_iff.mp hcall
    exact ⟨leg, hleg, before, answered, sealing', now, later, hchallenge, hstatus, hcalls, hmem,
      hbefore⟩
  · intro leg hleg hneeds hphase hopen
    exact skipped_of_exhausted hgiven hleg (hgated ▸ hneeds) hphase hopen
  · -- the leg that is to be asked would be open, but it was settled then
    have hthen := hsound.after .nextSend
    have honward := hthen.onward_drive later
    obtain ⟨-, here, hcurrent, rfl, -⟩ := nextSend_send (Prod.ext rfl hsend)
    have hopen := (hthen.drive later).here here hcurrent
    have hsettled := honward.settled (List.mem_of_getElem? hcurrent) fun old hold hphase =>
      settled_of_exhausted hgiven hold (by rw [hphase, hgated]; exact hneeds)
    rw [hopen] at hsettled
    cases hsettled

/-- The token, and then the status. -/
def tokenFirst : List Call :=
  [.complete (PhaseSet.ofList [.challenge]) true 5, .complete (PhaseSet.ofList [.status]) true 6]

/-- Rules are asked for after a token, but not if it comes when the challenge was given up. -/
theorem challenge_gates_tokenFirst :
    let start := ofConfig Protocol.a2s.capabilities { wantRules := true, retries := 0 }
    let late := start.drive [.recordSend 0]
    ((start.drive tokenFirst).nextSend.2 = .send .rules ∧ ∃ answered sealing now,
      Call.complete answered sealing now ∈ tokenFirst ∧ .challenge ∈ answered) ∧
    (late.nextSend.2 = .exhausted .challenge ∧
      ((late.after .nextSend).drive tokenFirst).nextSend.2 ≠ .send .rules) := by
  intro start late
  have hasked : (start.drive tokenFirst).nextSend.2 = .send .rules := by decide
  have hgiven : late.nextSend.2 = .exhausted .challenge := by decide
  obtain ⟨hgate, -⟩ :=
    challenge_gates Protocol.a2s.capabilities { wantRules := true, retries := 0 } tokenFirst
  obtain ⟨-, hskip⟩ :=
    challenge_gates Protocol.a2s.capabilities { wantRules := true, retries := 0 } [.recordSend 0]
  obtain ⟨-, -, before, answered, sealing, now, later, -, -, hcalls, hanswered, -⟩ :=
    hgate .rules hasked (by decide) (by decide)
  exact ⟨⟨hasked, answered, sealing, now, by simp [hcalls], hanswered⟩,
    hgiven, (hskip hgiven).2 tokenFirst .rules (by decide)⟩

end ServerProbe.Machine
