/-
A machine that is driven by calls in any order.

The engine asks, gives up and counts replies in an order of its own. What a machine
promises does not depend on it: here its calls come in any order and with any instants,
replies answer phases that were never asked for, were given up or are far ahead, and
requests are noted without having been decided on.

Each call moves a machine onward (`Sound.onward_after`): leg by leg nothing is unsettled,
no answer is changed and no budget is refilled. From this, and from what a machine in
order keeps (`Regular`), follows what becomes of it over any calls (`only_onward`).
-/
import Mathlib.Data.List.Forall2
import ServerProbe.Proofs.Sealing

set_option autoImplicit false

namespace ServerProbe

namespace Machine

/-! ## Calls -/

/-- One thing that is done to a machine. -/
inductive Call where
  | nextSend
  | recordSend (now : Instant)
  | recordFreeResend (now : Instant)
  | complete (answered : PhaseSet) (sealing : Bool) (now : Instant)
  | stopLingering
  deriving Repr, DecidableEq

/-- Whether a call ends the wait for late replies. -/
def Call.clears : Call → Bool
  | complete _ sealing _ => sealing
  | stopLingering => true
  | _ => false

/-- Whether a call is a reply that answers a phase: whether it seals, and when it came. -/
def Call.answer? (phase : Phase) : Call → Option (Bool × Instant)
  | complete answered sealing now => if phase ∈ answered then some (sealing, now) else none
  | _ => none

theorem Call.answer?_eq_some_iff {phase : Phase} {call : Call} {sealing : Bool} {now : Instant} :
    call.answer? phase = some (sealing, now) ↔
      ∃ answered, call = .complete answered sealing now ∧ phase ∈ answered := by
  cases call with
  | complete answered sealing' now' =>
    rw [answer?]
    split
    · next hphase => simp [hphase]
    · next hphase => simp [hphase]
  | _ => simp [answer?]

/-- The first reply that answers a phase. -/
def firstAnswer? (phase : Phase) (calls : List Call) : Option (Bool × Instant) :=
  calls.findSome? (Call.answer? phase)

/-- The machine after a call. -/
def after (m : Machine) : Call → Machine
  | .nextSend => m.nextSend.1
  | .recordSend now => m.recordSend now
  | .recordFreeResend now => m.recordFreeResend now
  | .complete answered sealing now => m.complete answered sealing now
  | .stopLingering => m.stopLingering

/-- The machine after several calls. -/
def drive (m : Machine) (calls : List Call) : Machine := calls.foldl after m

@[simp] theorem drive_nil (m : Machine) : m.drive [] = m := rfl

theorem drive_append (m : Machine) (before later : List Call) :
    m.drive (before ++ later) = (m.drive before).drive later :=
  List.foldl_append

theorem drive_concat (m : Machine) (calls : List Call) (call : Call) :
    m.drive (calls ++ [call]) = (m.drive calls).after call :=
  m.drive_append calls [call]

/-- What holds of a machine and is kept by every call holds after all calls. -/
theorem drive_invariant {P : Machine → Prop} (keep : ∀ m call, P m → P (m.after call))
    {m : Machine} (start : P m) (calls : List Call) : P (m.drive calls) := by
  induction calls generalizing m with
  | nil => exact start
  | cons call rest ih => exact ih (keep m call start)

end Machine

/-- Whether an answer seals, if there is one. -/
def LegStatus.seal? : LegStatus → Option Bool
  | done sealing => some sealing
  | _ => none

theorem LegStatus.isDone_iff {status : LegStatus} :
    status.isDone = true ↔ ∃ sealing, status = .done sealing := by
  cases status <;> simp [isDone]

theorem LegStatus.seal?_eq_none_iff {status : LegStatus} :
    status.seal? = none ↔ status.isDone = false := by
  cases status <;> simp [seal?, isDone]

/-! ## Onward -/

/-- What may become of a leg: it may be settled, and answered once, and its budget may
shrink. -/
structure Leg.Onward (leg leg' : Leg) : Prop where
  phase : leg'.phase = leg.phase
  budget : leg'.budget ≤ leg.budget
  settled : leg.status.isSettled = true → leg'.status.isSettled = true
  done : leg.status.isDone = true → leg'.status = leg.status

namespace Leg

variable {leg leg' leg'' : Leg}

theorem Onward.refl (leg : Leg) : leg.Onward leg := ⟨rfl, Nat.le_refl _, id, fun _ => rfl⟩

theorem Onward.trans (h : leg.Onward leg') (h' : leg'.Onward leg'') : leg.Onward leg'' where
  phase := h'.phase.trans h.phase
  budget := h'.budget.trans h.budget
  settled := h'.settled ∘ h.settled
  done := fun hdone => by
    have hsame := h.done hdone
    rw [← hsame] at hdone
    exact (h'.done hdone).trans hsame

/-- A leg that is not answered may be settled in any way. -/
theorem onward_settle {status : LegStatus} (hopen : leg.status.isDone = false)
    (hstatus : status.isSettled = true) : leg.Onward { leg with status } where
  phase := rfl
  budget := Nat.le_refl _
  settled := fun _ => hstatus
  done := fun hdone => by rw [hopen] at hdone; cases hdone

end Leg

namespace Machine

/-- What may become of a machine: it stays with its plan, of which each leg moves onward,
and does not go back to an earlier one; and what needs a challenge still needs it. -/
structure Onward (m m' : Machine) : Prop where
  legs : List.Forall₂ Leg.Onward m.plan m'.plan
  current : m.current ≤ m'.current
  gated : m'.gated = m.gated

theorem forall₂_trans {α : Type} {R : α → α → Prop} {l l' l'' : List α} (h : List.Forall₂ R l l')
    (h' : List.Forall₂ R l' l'') (htrans : ∀ a b c, R a b → R b c → R a c) :
    List.Forall₂ R l l'' := by
  induction h generalizing l'' with
  | nil => exact h'
  | cons hab _ ih =>
    cases h' with
    | cons hbc hrest => exact .cons (htrans _ _ _ hab hbc) (ih hrest)

theorem forall₂_set {α : Type} {R : α → α → Prop} (hrefl : ∀ a, R a a) {l : List α} {i : Nat}
    {a b : α} (ha : l[i]? = some a) (hab : R a b) : List.Forall₂ R l (l.set i b) := by
  induction l generalizing i with
  | nil => cases ha
  | cons c rest ih =>
    cases i with
    | zero =>
      obtain rfl : c = a := Option.some.inj ha
      exact .cons hab (List.forall₂_same.mpr fun d _ => hrefl d)
    | succ i => exact .cons (hrefl c) (ih ha)

section Onward

variable {m m' m'' : Machine}

theorem Onward.refl (m : Machine) : m.Onward m :=
  ⟨List.forall₂_same.mpr fun leg _ => .refl leg, Nat.le_refl _, rfl⟩

theorem Onward.trans (h : m.Onward m') (h' : m'.Onward m'') : m.Onward m'' :=
  ⟨forall₂_trans h.legs h'.legs fun _ _ _ => Leg.Onward.trans, h.current.trans h'.current,
    h'.gated.trans h.gated⟩

theorem onward_advance (m : Machine) : m.Onward m.advance :=
  ⟨(Onward.refl m).legs, Nat.le_add_right _ _, rfl⟩

theorem onward_changeCurrent {leg : Leg} (hleg : m.currentLeg? = some leg) {change : Leg → Leg}
    (hchange : leg.Onward (change leg)) : m.Onward (m.changeCurrent change) where
  legs := by
    rw [plan_changeCurrent hleg]
    exact forall₂_set Leg.Onward.refl hleg hchange
  current := Nat.le_refl _
  gated := rfl

theorem onward_skipGated (m : Machine) : m.Onward m.skipGated where
  legs := by
    refine List.forall₂_map_right_iff.mpr (List.forall₂_same.mpr fun leg _ => ?_)
    split
    · next hskip =>
      rw [Bool.and_eq_true, Bool.not_eq_true'] at hskip
      refine Leg.onward_settle (Bool.eq_false_iff.mpr fun hdone => ?_) rfl
      rw [LegStatus.isSettled_of_isDone hdone] at hskip
      cases hskip.2
    · exact .refl leg
  current := Nat.le_refl _
  gated := rfl

/-- Every leg of the later plan is what has become of one of the earlier plan. -/
theorem Onward.exists_old (h : m.Onward m') {leg' : Leg} (hleg : leg' ∈ m'.plan) :
    ∃ leg ∈ m.plan, leg.Onward leg' := by
  obtain ⟨i, hi, rfl⟩ := List.getElem_of_mem hleg
  have hlt : i < m.plan.length := h.legs.length_eq ▸ hi
  exact ⟨_, List.getElem_mem hlt, h.legs.get hlt hi⟩

/-- The phases of a plan stay, in their order. -/
theorem Onward.phases (h : m.Onward m') : m'.plan.map Leg.phase = m.plan.map Leg.phase := by
  refine List.ext_getElem (by simp [h.legs.length_eq]) fun i hi hi' => ?_
  rw [List.length_map] at hi hi'
  rw [List.getElem_map, List.getElem_map]
  exact (h.legs.get hi' hi).phase

/-- What is settled stays settled. -/
theorem Onward.settled (h : m.Onward m') {leg' : Leg} (hleg : leg' ∈ m'.plan)
    (hsettled : ∀ leg ∈ m.plan, leg.phase = leg'.phase → leg.status.isSettled = true) :
    leg'.status.isSettled = true := by
  obtain ⟨leg, hold, honward⟩ := h.exists_old hleg
  exact honward.settled (hsettled leg hold honward.phase.symm)

end Onward

/-! ## What one call does -/

section Calls

variable {m : Machine}

/-- Every call leaves a machine in order. -/
theorem Sound.after (h : m.Sound) (call : Call) : (m.after call).Sound := by
  -- a request is for the leg that the machine stands at, if it stands at one
  have hask : ∀ {change : Leg → Leg}, (∀ leg, (change leg).phase = leg.phase) →
      (∀ leg, (change leg).status = .waiting) → (m.changeCurrent change).Sound := by
    intro change hphase hwaiting
    rcases hleg : m.currentLeg? with _ | leg
    · rw [changeCurrent_of_none hleg]
      exact h
    · exact h.ask hleg hphase hwaiting
  cases call with
  | nextSend => exact h.nextSend
  | recordSend now => exact hask (fun _ => rfl) fun _ => rfl
  | recordFreeResend now => exact hask (fun _ => rfl) fun _ => rfl
  | complete answered sealing now => exact h.complete answered sealing now
  | stopLingering => exact h.stopLingering

theorem Sound.drive (h : m.Sound) (calls : List Call) : (m.drive calls).Sound :=
  drive_invariant (fun _ call h => h.after call) h calls

/-- A machine in order stands at a leg that is not answered. -/
theorem Sound.not_done (h : m.Sound) {leg : Leg} (hleg : m.currentLeg? = some leg) :
    leg.status.isDone = false := by
  refine Bool.eq_false_iff.mpr fun hdone => ?_
  have hopen := h.here leg hleg
  rw [LegStatus.isSettled_of_isDone hdone] at hopen
  cases hopen

theorem Sound.onward_ask (h : m.Sound) {change : Leg → Leg}
    (hphase : ∀ leg, (change leg).phase = leg.phase)
    (hbudget : ∀ leg, (change leg).budget ≤ leg.budget) : m.Onward (m.changeCurrent change) := by
  rcases hleg : m.currentLeg? with _ | leg
  · rw [changeCurrent_of_none hleg]
    exact .refl m
  · -- the leg that is asked is neither settled nor answered
    refine onward_changeCurrent hleg ⟨hphase leg, hbudget leg, fun hsettled => ?_, fun hdone => ?_⟩
    · rw [h.here leg hleg] at hsettled
      cases hsettled
    · rw [h.not_done hleg] at hdone
      cases hdone

theorem Sound.onward_nextSend (h : m.Sound) : m.Onward m.nextSend.1 := by
  unfold Machine.nextSend
  rcases hleg : m.currentLeg? with _ | leg
  · exact .refl m
  · dsimp only
    split
    · exact .refl m
    · have hgiven : m.Onward (m.changeCurrent fun leg => { leg with status := .timedOut }) :=
        onward_changeCurrent hleg (Leg.onward_settle (h.not_done hleg) rfl)
      dsimp only
      split
      · exact (hgiven.trans (onward_skipGated _)).trans (onward_advance _)
      · exact hgiven.trans (onward_advance _)

theorem onward_complete (m : Machine) (answered : PhaseSet) (sealing : Bool) (now : Instant) :
    m.Onward (m.complete answered sealing now) where
  legs := by
    rw [plan_complete]
    refine List.forall₂_map_right_iff.mpr (List.forall₂_same.mpr fun leg _ => ?_)
    split
    · next hfirst =>
      rw [answersFirst, Bool.and_eq_true, Bool.not_eq_true'] at hfirst
      exact Leg.onward_settle hfirst.2 rfl
    · exact .refl leg
  current := (m.complete_forward answered sealing now).1
  gated := (m.complete_forward answered sealing now).2

/-- **Every call moves a machine onward.** -/
theorem Sound.onward_after (h : m.Sound) (call : Call) : m.Onward (m.after call) := by
  cases call with
  | nextSend => exact h.onward_nextSend
  | recordSend now => exact h.onward_ask (fun _ => rfl) fun leg => Nat.sub_le leg.budget 1
  | recordFreeResend now => exact h.onward_ask (fun _ => rfl) fun _ => Nat.le_refl _
  | complete answered sealing now => exact m.onward_complete answered sealing now
  | stopLingering => exact ⟨(Onward.refl m).legs, Nat.le_refl _, rfl⟩

theorem Sound.onward_drive (h : m.Sound) (calls : List Call) : m.Onward (m.drive calls) := by
  induction calls generalizing m with
  | nil => exact .refl m
  | cons call rest ih => exact (h.onward_after call).trans (ih (h.after call))

end Calls

/-! ## Machines that were driven -/

/-- What a machine in order keeps besides: a phase is given up when nothing is left to
spend on it, and late replies are waited for when every phase is settled. -/
structure Regular (m : Machine) : Prop extends Sound m where
  spent : ∀ leg ∈ m.plan, leg.status = .timedOut → leg.budget = 0
  late : m.lingerUntil.isSome = true → ∀ leg ∈ m.plan, leg.status.isSettled = true

section Regular

variable {m : Machine}

theorem Regular.spent_nextSend (h : m.Regular) :
    ∀ leg ∈ m.nextSend.1.plan, leg.status = .timedOut → leg.budget = 0 := by
  unfold Machine.nextSend
  rcases hcurrent : m.currentLeg? with _ | here
  · exact h.spent
  · dsimp only
    split
    · exact h.spent
    · next hspent =>
      -- the leg that is given up has nothing left, and what it takes along is skipped
      have hgiven : ∀ leg ∈ (m.changeCurrent fun leg => { leg with status := .timedOut }).plan,
          leg.status = .timedOut → leg.budget = 0 := by
        intro leg hleg hstatus
        rcases changeCurrent_cases hleg with hold | ⟨_, hhere, rfl⟩
        · exact h.spent leg hold hstatus
        · obtain rfl := Option.some.inj (hcurrent.symm.trans hhere)
          exact Nat.eq_zero_of_not_pos hspent
      dsimp only
      split
      · intro leg hleg hstatus
        obtain ⟨old, hold, rfl⟩ := List.mem_map.mp hleg
        split at hstatus
        · cases hstatus
        · next hkept =>
          rw [if_neg hkept]
          exact hgiven old hold hstatus
      · exact hgiven

theorem Regular.spent_after (h : m.Regular) (call : Call) :
    ∀ leg ∈ (m.after call).plan, leg.status = .timedOut → leg.budget = 0 := by
  -- a leg that a request is noted for waits
  have hask : ∀ {change : Leg → Leg}, (∀ leg, (change leg).status = .waiting) →
      ∀ leg ∈ (m.changeCurrent change).plan, leg.status = .timedOut → leg.budget = 0 := by
    intro change hwaiting leg hleg hstatus
    rcases changeCurrent_cases hleg with hold | ⟨here, -, rfl⟩
    · exact h.spent leg hold hstatus
    · rw [hwaiting here] at hstatus
      cases hstatus
  cases call with
  | nextSend => exact h.spent_nextSend
  | recordSend now => exact hask fun _ => rfl
  | recordFreeResend now => exact hask fun _ => rfl
  | complete answered sealing now =>
    intro leg hleg hstatus
    change leg ∈ (m.complete answered sealing now).plan at hleg
    rw [plan_complete] at hleg
    obtain ⟨old, hold, rfl⟩ := List.mem_map.mp hleg
    split at hstatus
    · cases hstatus
    · next hkept =>
      rw [if_neg hkept]
      exact h.spent old hold hstatus
  | stopLingering => exact h.spent

/-- A reply starts the wait for late ones when it leaves nothing open and does not seal; one
that seals ends it. -/
theorem lingerUntil_complete (m : Machine) (answered : PhaseSet) (sealing : Bool)
    (now : Instant) :
    (m.complete answered sealing now).lingerUntil
      = if (m.complete answered sealing now).currentLeg? = none then
          if sealing then none else m.lingerUntil.or (some (now + m.retryInterval))
        else m.lingerUntil := by
  unfold complete currentLeg?
  dsimp only
  split
  · next hend =>
    rw [if_pos (List.getElem?_eq_none_iff.mpr hend)]
    rfl
  · next hend =>
    rw [if_neg fun hnone => hend (List.getElem?_eq_none_iff.mp hnone)]
    rfl

/-- The wait for late replies goes on as it was, or it ends, or nothing is open. -/
theorem lingerUntil_after_cases (m : Machine) (call : Call) :
    (m.after call).lingerUntil = m.lingerUntil ∨ (m.after call).lingerUntil = none ∨
      (m.after call).currentLeg? = none := by
  cases call with
  | nextSend => exact .inl m.lingerUntil_nextSend
  | recordSend now => exact .inl rfl
  | recordFreeResend now => exact .inl rfl
  | complete answered sealing now =>
    by_cases hend : (m.complete answered sealing now).currentLeg? = none
    · exact .inr (.inr hend)
    · refine .inl ((m.lingerUntil_complete answered sealing now).trans ?_)
      rw [if_neg hend]
  | stopLingering => exact .inr (.inl rfl)

theorem Regular.after (h : m.Regular) (call : Call) : (m.after call).Regular where
  toSound := h.toSound.after call
  spent := h.spent_after call
  late := by
    intro hlate leg hleg
    rcases m.lingerUntil_after_cases call with hsame | hnone | hend
    · rw [hsame] at hlate
      exact (h.toSound.onward_after call).settled hleg fun old hold _ => h.late hlate old hold
    · rw [hnone] at hlate
      cases hlate
    · exact (h.toSound.after call).settled_of_end hend hleg

/-- While late replies are waited for, a call ends the wait or leaves it as it is. -/
theorem Regular.lingerUntil_after (h : m.Regular) {limit : Instant}
    (hlimit : m.lingerUntil = some limit) (call : Call) :
    (m.after call).lingerUntil = if call.clears then none else some limit := by
  cases call with
  | nextSend => exact m.lingerUntil_nextSend.trans hlimit
  | recordSend now => exact hlimit
  | recordFreeResend now => exact hlimit
  | complete answered sealing now =>
    -- every phase is settled already, so the reply leaves nothing open
    have hend : (m.complete answered sealing now).currentLeg? = none := by
      rcases hleg : (m.complete answered sealing now).currentLeg? with _ | leg
      · rfl
      · have hsettled := (m.onward_complete answered sealing now).settled
          (List.mem_of_getElem? hleg) fun old hold _ => h.late (by rw [hlimit]; rfl) old hold
        rw [(h.toSound.complete answered sealing now).here leg hleg] at hsettled
        cases hsettled
    refine (m.lingerUntil_complete answered sealing now).trans ?_
    rw [if_pos hend, hlimit, Option.some_or, Call.clears]
  | stopLingering => rfl

theorem Regular.lingerUntil_drive (h : m.Regular) {limit : Instant}
    (hlimit : m.lingerUntil = some limit) {calls : List Call}
    (hcalls : ∀ call ∈ calls, call.clears = false) : (m.drive calls).lingerUntil = some limit := by
  induction calls generalizing m with
  | nil => exact hlimit
  | cons call rest ih =>
    obtain ⟨hcall, hrest⟩ := List.forall_mem_cons.mp hcalls
    refine ih (h.after call) ?_ hrest
    rw [h.lingerUntil_after hlimit call, hcall, if_neg Bool.false_ne_true]

end Regular

theorem regular_ofConfig (c : Capabilities) (config : Config) : (ofConfig c config).Regular where
  toSound := sound_ofConfig c config
  spent := by
    intro leg hleg hstatus
    obtain ⟨phase, -, rfl⟩ := List.mem_map.mp hleg
    cases hstatus
  late := nofun

/-- A machine for some capabilities and options, after any calls. -/
theorem regular_drive (c : Capabilities) (config : Config) (calls : List Call) :
    ((ofConfig c config).drive calls).Regular :=
  drive_invariant (fun _ call h => h.after call) (regular_ofConfig c config) calls

/-- **A machine only moves onward.** Take any capabilities and options, and a machine to which
any calls are made, in any order and with any instants. At each moment:

* the legs behind the current one are settled, and the current one is not;
* a phase that was given up has no budget left;
* if late replies are waited for, every phase is settled.

From each moment to each later one:

* the plan keeps its phases in their order, and the machine does not go back;
* a settled leg stays settled, an answered one keeps its status, and no budget grows;
* if late replies are waited for, they are waited for until the same instant, unless a reply
  that seals or the end of the wait has come. -/
theorem only_onward (c : Capabilities) (config : Config) (before later : List Call) :
    let m := (ofConfig c config).drive before
    let m' := m.drive later
    (∀ leg ∈ m.plan.take m.current, leg.status.isSettled = true) ∧
    (∀ leg, m.currentLeg? = some leg → leg.status.isSettled = false) ∧
    (∀ leg ∈ m.plan, leg.status = .timedOut → leg.budget = 0) ∧
    (m.lingerUntil.isSome = true → ∀ leg ∈ m.plan, leg.status.isSettled = true) ∧
    m'.plan.map Leg.phase = m.plan.map Leg.phase ∧ m.Onward m' ∧
    ∀ limit, m.lingerUntil = some limit →
      (∀ call, (m.after call).lingerUntil = if call.clears then none else some limit) ∧
      ((∀ call ∈ later, call.clears = false) → m'.lingerUntil = some limit) := by
  intro m m'
  have h := regular_drive c config before
  have honward := h.toSound.onward_drive later
  refine ⟨fun leg hleg => ?_, h.here, h.spent, h.late, honward.phases, honward,
    fun limit hlimit => ⟨h.lingerUntil_after hlimit, h.lingerUntil_drive hlimit⟩⟩
  obtain ⟨i, hi⟩ := List.mem_iff_getElem?.mp hleg
  rw [List.getElem?_take] at hi
  split at hi
  · next hlt => exact h.behind i leg hi hlt
  · cases hi

/-- A query for the rules whose challenge is given up, and then a reply that does not seal. -/
def abandoned : List Call :=
  [.recordSend 0, .nextSend, .recordSend 5, .complete (PhaseSet.ofList [.status, .players]) false 9]

/-- What comes in late: the token, the rules and one more status. -/
def belated : List Call :=
  [.complete (PhaseSet.ofList [.challenge, .rules]) false 20, .nextSend, .recordSend 30,
    .complete (PhaseSet.ofList [.status]) false 40]

/-- Late replies are waited for until half a second after the first that left nothing open. -/
theorem only_onward_belated :
    let start := ofConfig Protocol.a2s.capabilities { wantRules := true, retries := 0 }
    let m := start.drive abandoned
    m.lingerUntil = some 500000009 ∧ (m.drive belated).lingerUntil = some 500000009 := by
  have hlimit : ((ofConfig Protocol.a2s.capabilities { wantRules := true, retries := 0 }).drive
      abandoned).lingerUntil = some 500000009 := by decide
  obtain ⟨-, -, -, -, -, -, hlate⟩ :=
    only_onward Protocol.a2s.capabilities { wantRules := true, retries := 0 } abandoned belated
  exact ⟨hlimit, (hlate _ hlimit).2 (by decide)⟩

/-! ## What a leg keeps -/

/-- If a leg keeps what the first call tells about its phase, then after several calls it has
kept what the first of them told. -/
theorem Sound.keeps_first {α : Type} {m : Machine} {kept : Leg → Option α}
    (tells : Machine → Call → Phase → Option α) (first : List Call → Phase → Option α)
    (hafter : ∀ m : Machine, m.Sound → ∀ call, ∀ leg' ∈ (m.after call).plan, ∃ leg ∈ m.plan,
      leg'.phase = leg.phase ∧ kept leg' = (kept leg).or (tells m call leg.phase))
    (hnil : ∀ phase, first [] phase = none)
    (hconcat : ∀ calls call phase,
      first (calls ++ [call]) phase = (first calls phase).or (tells (m.drive calls) call phase))
    (h : m.Sound) (calls : List Call) : ∀ leg' ∈ (m.drive calls).plan, ∃ leg ∈ m.plan,
      leg'.phase = leg.phase ∧ kept leg' = (kept leg).or (first calls leg.phase) := by
  induction calls using List.reverseRecOn with
  | nil =>
    intro leg' hleg
    exact ⟨leg', hleg, rfl, by rw [hnil, Option.or_none]⟩
  | append_singleton calls call ih =>
    intro leg' hleg
    rw [drive_concat] at hleg
    obtain ⟨middle, hmiddle, hphase, hkept⟩ := hafter _ (h.drive calls) call leg' hleg
    obtain ⟨leg, hold, hphase', hkept'⟩ := ih middle hmiddle
    refine ⟨leg, hold, hphase.trans hphase', ?_⟩
    rw [hkept, hkept', hphase', hconcat, Option.or_assoc]

/-! ## What has been answered -/

section Answers

variable {m : Machine}

/-- Where a call answers nothing, the legs are answered as they were. -/
theorem Onward.seal?_of_quiet {m' : Machine} (h : m.Onward m')
    (hdone : ∀ leg ∈ m'.plan, leg.status.isDone = true → leg ∈ m.plan) {leg' : Leg}
    (hleg : leg' ∈ m'.plan) :
    ∃ leg ∈ m.plan, leg'.phase = leg.phase ∧ leg'.status.seal? = leg.status.seal? := by
  rcases hopen' : leg'.status.isDone with _ | _
  · obtain ⟨leg, hold, honward⟩ := h.exists_old hleg
    have hopen : leg.status.isDone = false := by
      refine Bool.eq_false_iff.mpr fun hanswered => ?_
      rw [honward.done hanswered, hanswered] at hopen'
      cases hopen'
    rw [← LegStatus.seal?_eq_none_iff] at hopen hopen'
    exact ⟨leg, hold, honward.phase, hopen'.trans hopen.symm⟩
  · exact ⟨leg', hdone leg' hleg hopen', rfl, rfl⟩

/-- A request answers nothing. -/
theorem mem_of_done_ask {change : Leg → Leg} (hwaiting : ∀ leg, (change leg).status = .waiting)
    {leg : Leg} (hleg : leg ∈ (m.changeCurrent change).plan) (hdone : leg.status.isDone = true) :
    leg ∈ m.plan := by
  rcases changeCurrent_cases hleg with hold | ⟨here, -, rfl⟩
  · exact hold
  · rw [hwaiting here] at hdone
    cases hdone

/-- A reply answers a leg if none has before. -/
theorem seal?_answersFirst (leg : Leg) (answered : PhaseSet) (sealing : Bool) (now : Instant) :
    (if answersFirst answered leg then { leg with status := .done sealing } else leg).status.seal?
      = leg.status.seal?.or
        (((Call.complete answered sealing now).answer? leg.phase).map Prod.fst) := by
  by_cases hphase : leg.phase ∈ answered
  · have hfirst : answersFirst answered leg = !leg.status.isDone := by
      rw [answersFirst, PhaseSet.mem_iff.mp hphase, Bool.true_and]
    rw [Call.answer?, if_pos hphase, hfirst]
    rcases hopen : leg.status.isDone with _ | _
    · rw [LegStatus.seal?_eq_none_iff.mpr hopen]
      rfl
    · rcases hstatus : leg.status.seal? with _ | before
      · rw [LegStatus.seal?_eq_none_iff.mp hstatus] at hopen
        cases hopen
      · exact hstatus
  · have hfirst : answersFirst answered leg = false := by
      rw [answersFirst, Bool.eq_false_iff.mpr hphase, Bool.false_and]
    rw [Call.answer?, if_neg hphase, hfirst, Option.map_none, Option.or_none]
    rfl

/-- A call answers what it is a reply to, as far as that is open. -/
theorem Sound.seal?_after (h : m.Sound) (call : Call) {leg' : Leg}
    (hleg : leg' ∈ (m.after call).plan) : ∃ leg ∈ m.plan, leg'.phase = leg.phase ∧
      leg'.status.seal? = leg.status.seal?.or ((call.answer? leg.phase).map Prod.fst) := by
  have honward := h.onward_after call
  -- all but a reply leave the answers as they are
  have hquiet : (∀ leg ∈ (m.after call).plan, leg.status.isDone = true → leg ∈ m.plan) →
      (∀ phase, call.answer? phase = none) → ∃ leg ∈ m.plan, leg'.phase = leg.phase ∧
        leg'.status.seal? = leg.status.seal?.or ((call.answer? leg.phase).map Prod.fst) := by
    intro hdone hnothing
    obtain ⟨leg, hold, hphase, hseal⟩ := honward.seal?_of_quiet hdone hleg
    refine ⟨leg, hold, hphase, ?_⟩
    rw [hnothing, Option.map_none, Option.or_none]
    exact hseal
  cases call with
  | nextSend => exact hquiet (fun _ hleg hdone => nextSend_done hleg hdone) fun _ => rfl
  | recordSend now => exact hquiet (fun _ => mem_of_done_ask fun _ => rfl) fun _ => rfl
  | recordFreeResend now => exact hquiet (fun _ => mem_of_done_ask fun _ => rfl) fun _ => rfl
  | complete answered sealing now =>
    change leg' ∈ (m.complete answered sealing now).plan at hleg
    rw [plan_complete] at hleg
    obtain ⟨leg, hold, rfl⟩ := List.mem_map.mp hleg
    refine ⟨leg, hold, ?_, seal?_answersFirst leg answered sealing now⟩
    split
    · rfl
    · rfl
  | stopLingering => exact hquiet (fun _ hleg _ => hleg) fun _ => rfl

end Answers

theorem firstAnswer?_concat (phase : Phase) (calls : List Call) (call : Call) :
    firstAnswer? phase (calls ++ [call])
      = (firstAnswer? phase calls).or (call.answer? phase) := by
  rw [firstAnswer?, List.findSome?_append, List.findSome?_singleton]
  rfl

/-- In a machine that started afresh, a phase is answered by the first reply to it. -/
theorem seal?_drive {c : Capabilities} {config : Config} {calls : List Call} {leg : Leg}
    (hleg : leg ∈ ((ofConfig c config).drive calls).plan) :
    leg.status.seal? = (firstAnswer? leg.phase calls).map Prod.fst := by
  have hfirst : ∀ (calls : List Call) (call : Call) (phase : Phase),
      (firstAnswer? phase (calls ++ [call])).map Prod.fst
        = ((firstAnswer? phase calls).map Prod.fst).or ((call.answer? phase).map Prod.fst) := by
    intro calls call phase
    rw [firstAnswer?_concat, Option.map_or]
  obtain ⟨old, hold, hphase, hseal⟩ :=
    Sound.keeps_first (fun _ call phase => (call.answer? phase).map Prod.fst)
      (fun calls phase => (firstAnswer? phase calls).map Prod.fst)
      (fun _ hsound call _ hleg => hsound.seal?_after call hleg) (fun _ => rfl) hfirst
      (sound_ofConfig c config) calls leg hleg
  obtain ⟨phase, -, rfl⟩ := List.mem_map.mp hold
  rw [hseal, hphase]
  rfl

end Machine

end ServerProbe
