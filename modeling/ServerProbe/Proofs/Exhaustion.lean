/-
No traffic keeps a target alive.

What a target can still spend is what is left of the budgets of the phases that are not
settled. A reply settles phases, giving a phase up settles it, and a settled phase stays
settled; a free request costs nothing; every other request takes one from the budget of
the phase that it is for. So nothing that happens to a target adds to its reserve. The
clock makes a target that is due ask, which costs something or is the end; hence a target
ends after as many ticks that find it due as it has in reserve, whatever comes in
between.
-/
import ServerProbe.Proofs.Ticking
import ServerProbe.Proofs.Total

set_option autoImplicit false

namespace ServerProbe

/-! ## Reserves -/

/-- What is left to spend on a phase: its budget, as long as the phase is not settled. -/
def Leg.reserve (leg : Leg) : Nat := if leg.status.isSettled then 0 else leg.budget

theorem Leg.reserve_of_settled {leg : Leg} (h : leg.status.isSettled = true) :
    leg.reserve = 0 := by
  rw [reserve, if_pos h]

theorem Leg.reserve_of_open {leg : Leg} (h : leg.status.isSettled = false) :
    leg.reserve = leg.budget := by
  rw [reserve, h, if_neg Bool.false_ne_true]

namespace Machine

/-- What a machine has in reserve: what is left to spend on its phases, and one for
finding out that nothing is left. -/
def reserve (m : Machine) : Nat := 1 + total (m.plan.map Leg.reserve)

/-! ### Changes of the plan -/

/-- Settling legs adds nothing. -/
theorem reserve_map_le {m m' : Machine} {change : Leg → Leg} (hplan : m'.plan = m.plan.map change)
    (hchange : ∀ leg, change leg = leg ∨ (change leg).status.isSettled = true) :
    m'.reserve ≤ m.reserve := by
  have hle : total (m.plan.map (Leg.reserve ∘ change)) ≤ total (m.plan.map Leg.reserve) := by
    apply total_map_le
    intro leg _
    rw [Function.comp_apply]
    rcases hchange leg with hsame | hsettled
    · rw [hsame]
    · rw [Leg.reserve_of_settled hsettled]
      exact Nat.zero_le _
  rw [reserve, reserve, hplan, List.map_map]
  omega

/-- Changing the current leg changes the reserve by what that leg has more or less. -/
theorem reserve_set {m m' : Machine} {leg leg' : Leg} (hleg : m.currentLeg? = some leg)
    (hplan : m'.plan = m.plan.set m.current leg') :
    m'.reserve + leg.reserve = m.reserve + leg'.reserve := by
  have hset := total_set_add Leg.reserve (a := leg') hleg
  rw [reserve, reserve, hplan]
  omega

theorem reserve_nextSend_le (m : Machine) : m.nextSend.1.reserve ≤ m.reserve := by
  unfold nextSend
  rcases hleg : m.currentLeg? with _ | leg
  · exact Nat.le_refl _
  · dsimp only
    split
    · exact Nat.le_refl _
    · dsimp only
      -- the leg that is given up has nothing left, and what it takes along is settled
      have hgiven : (m.changeCurrent fun leg => { leg with status := .timedOut }).reserve
          ≤ m.reserve := by
        have hset := reserve_set hleg (plan_changeCurrent hleg fun leg =>
          { leg with status := .timedOut })
        have hnothing : ({ leg with status := .timedOut } : Leg).reserve = 0 :=
          Leg.reserve_of_settled rfl
        omega
      split
      · refine Nat.le_trans (reserve_map_le rfl fun leg => ?_) hgiven
        split
        · exact .inr rfl
        · exact .inl rfl
      · exact hgiven

theorem reserve_complete_le (m : Machine) (answered : PhaseSet) (sealing : Bool) (now : Instant) :
    (m.complete answered sealing now).reserve ≤ m.reserve := by
  apply reserve_map_le (m.plan_complete answered sealing now)
  intro leg
  split
  · exact .inr rfl
  · exact .inl rfl

/-- The free request costs nothing. -/
theorem Sound.reserve_recordFreeResend {m : Machine} (h : m.Sound) {leg : Leg}
    (hleg : m.currentLeg? = some leg) (now : Instant) :
    (m.recordFreeResend now).reserve = m.reserve := by
  have hset := reserve_set hleg (plan_recordFreeResend hleg now)
  have hbefore : leg.reserve = leg.budget := Leg.reserve_of_open (h.here leg hleg)
  have hafter : (leg.favour now).reserve = leg.budget := Leg.reserve_of_open rfl
  omega

/-- Every other request costs one. -/
theorem Sound.reserve_recordSend {m : Machine} (h : m.Sound) {leg : Leg}
    (hleg : m.currentLeg? = some leg) (hbudget : 0 < leg.budget) (now : Instant) :
    (m.recordSend now).reserve + 1 = m.reserve := by
  have hset := reserve_set hleg (plan_recordSend hleg now)
  have hbefore : leg.reserve = leg.budget := Leg.reserve_of_open (h.here leg hleg)
  have hafter : (leg.charge now).reserve = leg.budget - 1 := Leg.reserve_of_open rfl
  omega

/-! ### Reserves along a path -/

section Paths

variable {p : Protocol} {s : Session} {credit : PhaseSet → Prop} {start m : Machine}
  {request : Option Request} (h : Path p s credit start m request) (hstart : start.Sound)
include h hstart

/-- Nothing that a machine does adds to its reserve. -/
theorem Path.reserve_le : m.reserve ≤ start.reserve := by
  induction h with
  | start => exact Nat.le_refl _
  | decide _ ih => exact (reserve_nextSend_le _).trans ih
  | complete answered sealing now _ _ ih => exact (reserve_complete_le _ _ _ _).trans ih
  | stop _ ih => exact ih
  | send now hpath hleg hbudget _ ih =>
    have hcost := (hpath.sound hstart).reserve_recordSend hleg hbudget now
    omega
  | resend now hpath hleg _ _ ih =>
    rw [(hpath.sound hstart).reserve_recordFreeResend hleg now]
    exact ih

/-- A request that is charged takes something from the reserve. -/
theorem Path.reserve_lt {r : Request} (hrequest : request = some r) (hcharged : r.free = false) :
    m.reserve < start.reserve := by
  cases h with
  | start => cases hrequest
  | decide => cases hrequest
  | complete => cases hrequest
  | stop => cases hrequest
  | send now hpath hleg hbudget _ =>
    have hcost := (hpath.sound hstart).reserve_recordSend hleg hbudget now
    have hle := hpath.reserve_le hstart
    omega
  | resend =>
    cases hrequest
    cases hcharged

end Paths

end Machine

/-! ## The reserve of a target -/

namespace Target

variable {t : Target}

theorem reserve_react_le (hsound : t.machine.Sound) (cue : Cue) :
    (t.react cue).target.machine.reserve ≤ t.machine.reserve :=
  (t.react_path cue).reserve_le hsound

/-- Asking costs something or is the end. -/
theorem reserve_ask_lt (hsound : t.machine.Sound) {now : Instant}
    (hfate : (t.ask now).fate = .goesOn) :
    (t.ask now).target.machine.reserve < t.machine.reserve := by
  rcases t.ask_cases now with ⟨⟨status, hover⟩, -⟩ | ⟨-, phase, payload, hrequest⟩
  · rw [hfate] at hover
    cases hover
  · exact (t.react_path (.ask now)).reserve_lt hsound hrequest rfl

end Target

theorem Life.reserve_le {newborn t : Target} {past : List Moment}
    (h : Life newborn past (some t)) (hsound : newborn.machine.Sound) :
    t.machine.reserve ≤ newborn.machine.reserve := by
  have hboth : t.machine.Sound ∧ t.machine.reserve ≤ newborn.machine.reserve := by
    refine h.induction_on
      (P := fun _ t => t.machine.Sound ∧ t.machine.reserve ≤ newborn.machine.reserve)
      ⟨hsound, Nat.le_refl _⟩ (fun _ ht => ht) ?_
    rintro _ m ⟨hm, hle⟩
    exact ⟨(m.target.react_path m.cue).sound hm, (Target.reserve_react_le hm m.cue).trans hle⟩
  exact hboth.2

/-! ## Ticks that find a target due -/

namespace Engine

/-- Whether a call lets time pass and a target is due by then. -/
def findsDue (e : Engine) (id : Nat) : Call → Bool
  | .tick now => (e.target? id).any fun t => t.machine.deadline?.any (· ≤ now)
  | _ => false

/-- How many calls of a run find a target due. -/
def dueTicks (id : Nat) : Engine → List Call → Nat
  | _, [] => 0
  | e, call :: rest => (e.findsDue id call).toNat + dueTicks id (e.after call) rest

/-- Nobody finds a target due that is not there. -/
theorem findsDue_of_gone {e : Engine} {id : Nat} (hgone : e.target? id = none) (call : Call) :
    e.findsDue id call = false := by
  cases call with
  | tick now => rw [findsDue, hgone, Option.any_none]
  | _ => rfl

theorem WellKept.dueTicks_of_gone {e : Engine} (h : e.WellKept) {id : Nat}
    (hgiven : id < e.nextId) (hgone : e.target? id = none) (later : List Call) :
    dueTicks id e later = 0 := by
  induction later generalizing e with
  | nil => rfl
  | cons call rest ih =>
    have hstill := (h.gone_after hgiven hgone call).2
    rw [dueTicks, findsDue_of_gone hgone, ih (h.after call) (h.given_after hgiven call) hstill]
    rfl

section Active

variable {e : Engine} (h : e.Reachable) {t : Target} (hmem : t ∈ e.targets)
include h hmem

theorem Reachable.reserve_after_le {call : Call} {t' : Target}
    (hactive : (e.after call).target? t.id = some t') : t'.machine.reserve ≤ t.machine.reserve := by
  have hlife := h.wellKept.life_after hmem call
  rw [hactive] at hlife
  exact hlife.reserve_le (h.waits t hmem).toSound

theorem Reachable.reserve_tick_lt {limit now : Instant}
    (hlimit : t.machine.deadline? = some limit) (hle : limit ≤ now) {t' : Target}
    (hactive : (e.tick now).target? t.id = some t') : t'.machine.reserve < t.machine.reserve := by
  rw [target?_tick_of_le h hmem hlimit hle, Moment.after?] at hactive
  split at hactive
  · next hfate =>
    obtain rfl := Option.some.inj hactive
    exact Target.reserve_ask_lt (h.waits t hmem).toSound hfate
  · cases hactive

/-- A call that finds a target due costs it one. -/
theorem Reachable.reserve_step {call : Call} {t' : Target}
    (hactive : (e.after call).target? t.id = some t') :
    t'.machine.reserve + (e.findsDue t.id call).toNat ≤ t.machine.reserve := by
  rcases hdue : e.findsDue t.id call with _ | _
  · exact h.reserve_after_le hmem hactive
  · cases call with
    | tick now =>
      rw [findsDue, h.wellKept.target?_of_mem hmem, Option.any_some] at hdue
      rcases hlimit : t.machine.deadline? with _ | limit
      · rw [hlimit] at hdue
        cases hdue
      · rw [hlimit, Option.any_some, decide_eq_true_iff] at hdue
        exact h.reserve_tick_lt hmem hlimit hdue hactive
    | _ => cases hdue

/-- A run costs a target one for each time that it finds it due, or ends it. -/
theorem Reachable.reserve_run (later : List Call) :
    dueTicks t.id e later ≤ t.machine.reserve ∧
      ∀ t', (later.foldl Engine.after e).target? t.id = some t' →
        t'.machine.reserve + dueTicks t.id e later ≤ t.machine.reserve := by
  have hfound := h.wellKept.target?_of_mem hmem
  -- call by call: the target is still there with less in reserve, or it is gone for good
  induction later generalizing e t with
  | nil =>
    refine ⟨Nat.zero_le _, fun t' hactive => ?_⟩
    obtain rfl : t = t' := Option.some.inj (hfound.symm.trans hactive)
    exact Nat.le_refl _
  | cons call rest ih =>
    have hgiven := h.wellKept.fresh t hmem
    rw [dueTicks, List.foldl_cons]
    rcases hnext : (e.after call).target? t.id with _ | next
    · have hlater := h.wellKept.given_after hgiven call
      have hkept := h.wellKept.after call
      rw [hkept.dueTicks_of_gone hlater hnext, (hkept.gone_run hlater hnext rest).2]
      refine ⟨?_, fun t' hactive => by cases hactive⟩
      have hone := Bool.toNat_le (e.findsDue t.id call)
      rw [Machine.reserve]
      omega
    · obtain ⟨hmem', hid⟩ := target?_mem hnext
      have hstep := h.reserve_step hmem hnext
      rw [← hid] at hnext
      have hrest := ih (h.step call) hmem' hnext
      rw [hid] at hrest
      refine ⟨?_, fun t' hactive => ?_⟩
      · have := hrest.1
        omega
      · have := hrest.2 t' hactive
        omega

end Active

/-- **No traffic keeps a target alive.** Take an active target in an engine that a run leads
to. Whatever call comes next adds nothing to what the target has in reserve. It is due at
some time, and a tick at that time or later takes one from its reserve, or ends it. Hence no
run finds it due more often than it has in reserve; and once a run has done so that often,
the target has ended. -/
theorem no_target_kept_alive {e : Engine} (h : e.Reachable) {t : Target} (hmem : t ∈ e.targets) :
    (∀ call t', (e.after call).target? t.id = some t' →
      t'.machine.reserve ≤ t.machine.reserve) ∧
    (∃ limit, t.machine.deadline? = some limit ∧ ∀ now, limit ≤ now →
      ∀ t', (e.tick now).target? t.id = some t' → t'.machine.reserve + 1 ≤ t.machine.reserve) ∧
    ∀ later, dueTicks t.id e later ≤ t.machine.reserve ∧
      (t.machine.reserve ≤ dueTicks t.id e later →
        (later.foldl Engine.after e).target? t.id = none) := by
  refine ⟨fun call t' hactive => h.reserve_after_le hmem hactive, ?_, fun later => ?_⟩
  · obtain ⟨leg, sent, -, -, -, hlimit⟩ := (h.waits t hmem).deadline
    exact ⟨_, hlimit, fun now hle t' hactive => h.reserve_tick_lt hmem hlimit hle hactive⟩
  · obtain ⟨hle, hleft⟩ := h.reserve_run hmem later
    refine ⟨hle, fun hspent => ?_⟩
    -- whoever is still there has something in reserve
    rcases hfound : (later.foldl Engine.after e).target? t.id with _ | t'
    · rfl
    · have hreserve := hleft t' hfound
      rw [Machine.reserve] at hreserve
      omega

/-- A server that is asked for its status, twice at most. -/
def insisting : List Call :=
  [.add .unicast "a2s" ⟨"192.0.2.1", 27015⟩ { retries := 1 } 0 0]

/-- What comes in before it is given up: a token, which is what it gets its free request for,
and a failure to send. -/
def insisted : List Call :=
  [.receive ⟨"192.0.2.1", 27015⟩ [0xFF, 0xFF, 0xFF, 0xFF, 0x41, 7, 0, 0, 0] 100000000,
    .tick 600000000, .sendFailed 1 ⟨.other, "no route to host"⟩, .tick 1100000000]

/-- Two ticks find the target due, and it had two in reserve. -/
theorem no_target_kept_alive_insisting :
    dueTicks 1 (run insisting) insisted = 2 ∧
    (insisted.foldl Engine.after (run insisting)).target? 1 = none := by
  have hreachable : (run insisting).Reachable := ⟨insisting, rfl⟩
  have hdue : dueTicks 1 (run insisting) insisted = 2 := by decide +kernel
  obtain ⟨t, hfound, hreserve⟩ : ∃ t, (run insisting).target? 1 = some t ∧
      t.machine.reserve = 2 := ⟨_, rfl, by decide +kernel⟩
  obtain ⟨hmem, hid⟩ := target?_mem hfound
  obtain ⟨-, -, hruns⟩ := no_target_kept_alive hreachable hmem
  have hgone := (hruns insisted).2
  rw [hid, hreserve, hdue] at hgone
  exact ⟨hdue, hgone (Nat.le_refl 2)⟩

end Engine

end ServerProbe
