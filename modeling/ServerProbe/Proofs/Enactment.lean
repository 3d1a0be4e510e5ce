/-
What the engine does is what its targets do.

`Engine.enact` carries a reaction out: it passes the fault on, puts the target back,
queues the request and ends the target if it is over. Everything an engine does to a
target it holds is the enactment of a reaction. For the parts that only ask or go on
this is a matter of going through the cases. The waiting payloads are handled in turns, one
payload a turn, and each turn enacts one moment of `Target.digest`; the drain may take more
turns than a payload has moments, since it is bounded by the octets that wait and are held.
-/
import Mathlib.Logic.Function.Iterate
import ServerProbe.Proofs.Reaction

set_option autoImplicit false

namespace ServerProbe.Engine

/-! ## Carrying a reaction out -/

/-- Passes the fault of a reaction on, if there is one. -/
def passOn (e : Engine) (r : Reaction) : Engine :=
  match r.fault with
  | none => e
  | some (kind, message) => e.diagnose r.target kind message

/-- Queues the request of a reaction, if there is one. -/
def queue (e : Engine) (r : Reaction) : Engine :=
  match r.request with
  | none => e
  | some request => e.transmit r.target request.payload

/-- Ends the target of a reaction if it is over. -/
def settle (e : Engine) (r : Reaction) : Engine :=
  match r.fate with
  | .goesOn => e
  | .over status => e.finalize r.target.id status

/-- Carries a reaction out. -/
def enact (e : Engine) (r : Reaction) : Engine :=
  (((e.passOn r).put r.target).queue r).settle r

/-! ## Putting a target back -/

/-- An engine holds a target if that is the one under its id, and the only one. -/
structure Holds (e : Engine) (t : Target) : Prop where
  found : e.target? t.id = some t
  alone : e.put t = e

theorem target?_mem {e : Engine} {id : Nat} {t : Target} (h : e.target? id = some t) :
    t ∈ e.targets ∧ t.id = id :=
  ⟨List.mem_of_find?_eq_some h, by simpa using List.find?_some h⟩

theorem target?_put_self {e : Engine} {t t' : Target} (h : e.target? t.id = some t)
    (hid : t'.id = t.id) : (e.put t').target? t.id = some t' := by
  -- by induction on the targets, up to the first with the id
  have along : ∀ targets : List Target, (targets.find? fun other => other.id == t.id) = some t →
      ((targets.map fun other => if other.id = t'.id then t' else other).find?
        fun other => other.id == t.id) = some t' := by
    intro targets
    induction targets with
    | nil => nofun
    | cons first rest ih =>
      intro hfind
      by_cases hfirst : first.id = t.id
      · simp [hfirst, hid]
      · rw [List.find?_cons_of_neg (by simpa using hfirst)] at hfind
        rw [List.map_cons, if_neg (hid ▸ hfirst), List.find?_cons_of_neg (by simpa using hfirst)]
        exact ih hfind
  exact along e.targets h

theorem put_put (e : Engine) {t t' : Target} (h : t'.id = t.id) : (e.put t).put t' = e.put t' := by
  simp only [put, List.map_map]
  congr 2
  funext other
  by_cases hother : other.id = t.id
  · simp [hother, h]
  · simp [hother, h]

theorem Holds.put {e : Engine} {t t' : Target} (h : e.Holds t) (hid : t'.id = t.id) :
    (e.put t').Holds t' where
  found := hid ▸ target?_put_self h.found hid
  alone := put_put e rfl

theorem passOn_put (e : Engine) (t : Target) (r : Reaction) :
    (e.put t).passOn r = (e.passOn r).put t := by
  unfold passOn
  rcases r.fault with _ | ⟨kind, message⟩
  · rfl
  · dsimp only
    unfold diagnose
    split
    · rfl
    · rfl

/-- Putting a target back before one of its reactions is carried out changes nothing. -/
theorem enact_put (e : Engine) {t : Target} {r : Reaction} (h : r.target.id = t.id) :
    (e.put t).enact r = e.enact r := by
  rw [enact, passOn_put, put_put _ h]
  rfl

/-! ## Asking -/

section Asking

variable {e : Engine} {t : Target} (h : e.Holds t) (now : Instant)
include h

theorem enact_stay : e.enact { target := t } = e := h.alone

theorem sendCurrent_eq : e.sendCurrent t.id now = e.enact (t.ask now) := by
  unfold sendCurrent Target.ask
  rw [h.found]
  dsimp only
  -- the engine puts the machine back before it ends the target; that is done again anyway
  rcases t.machine.nextRequest with ⟨machine, _ | phase⟩
  · rfl
  · dsimp only
    rw [Protocol.request_params]
    rcases t.protocol.request phase t.exchange.session with fault | payload
    · exact enact_put e (r := Target.fail { t with machine } fault.kind fault.message) rfl
    · rfl

theorem resendCurrent_eq : e.resendCurrent t.id now = e.enact (t.askAgain now) := by
  unfold resendCurrent Target.askAgain
  rw [h.found]
  dsimp only
  rcases t.machine.currentPhase? with _ | phase
  · exact (enact_stay h).symm
  · dsimp only
    split
    · exact sendCurrent_eq h now
    · rw [Protocol.request_params]
      rcases t.protocol.request phase t.exchange.session with fault | payload
      · exact (enact_stay h).symm
      · rfl

theorem proceed_eq (answered : PhaseSet) (sealing : Bool) :
    e.proceed t answered sealing now = e.enact (t.goOn answered sealing now) := by
  unfold proceed Target.goOn
  dsimp only
  generalize t.machine.complete _ sealing now = machine
  split
  · rfl
  · split
    · -- the next request is asked by the target with the new machine
      have hput : (e.put { t with machine }).Holds { t with machine } := h.put rfl
      obtain ⟨m, l, htarget⟩ := Target.ask_target { t with machine } now
      exact (sendCurrent_eq hput now).trans (enact_put e (by rw [htarget]))
    · rfl

/-- What a target does about a receipt. -/
theorem follow_eq (receipt : Receipt) :
    (match receipt.outcome with
      | .inProgress => if receipt.resend then e.resendCurrent t.id now else e
      | .done sealing => e.proceed t receipt.answered sealing now
      | .error kind =>
        let message := receipt.message.getD kind.message
        if kind.isFatal then e.abort t kind message else e.diagnose t kind message)
      = e.enact (t.follow receipt now) := by
  unfold Target.follow
  rcases receipt.outcome with _ | sealing | kind
  · dsimp only
    split
    · exact resendCurrent_eq h now
    · exact (enact_stay h).symm
  · exact proceed_eq h now receipt.answered sealing
  · dsimp only
    split
    · rfl
    · -- a fault that is not fatal is passed on, and the target stays as it is
      have hput := passOn_put e t
        { target := t, fault := some (kind, receipt.message.getD kind.message) }
      rw [h.alone] at hput
      exact hput

end Asking

/-! ## Turns -/

/-- Handles the first payload that waits. -/
def turn (now : Instant) (e : Engine) : Engine :=
  match e.pending with
  | [] => e
  | (id, payload) :: rest => { e with pending := rest }.process id payload now

theorem turn_quiet (now : Instant) {e : Engine} (h : e.pending = []) : e.turn now = e := by
  rw [turn, h]

/-- **The drain is made of turns.** -/
theorem drainWithin_eq_iterate (now : Instant) (fuel : Nat) (e : Engine) :
    drainWithin now fuel e = (turn now)^[fuel] e := by
  induction fuel generalizing e with
  | zero => rfl
  | succ fuel ih =>
    rw [Function.iterate_succ_apply, drainWithin]
    rcases hpending : e.pending with _ | ⟨⟨id, payload⟩, rest⟩
    · -- where nothing waits, a turn changes nothing
      rw [turn_quiet now hpending, Function.iterate_fixed (turn_quiet now hpending)]
    · rw [turn, hpending]
      exact ih _

/-- What waits is handled in `n` turns: one payload waits before each of them, and after
the last there is none. -/
structure EmptiesIn (now : Instant) (n : Nat) (e e' : Engine) : Prop where
  single : ∀ k < n, ((turn now)^[k] e).pending.length = 1
  reaches : (turn now)^[n] e = e'
  quiet : e'.pending = []

namespace EmptiesIn

variable {now : Instant} {n : Nat} {e e' : Engine}

theorem zero (h : e.pending = []) : EmptiesIn now 0 e e :=
  ⟨fun k hk => absurd hk (Nat.not_lt_zero k), rfl, h⟩

theorem succ {e₁ : Engine} (h : EmptiesIn now n e₁ e') (hsingle : e.pending.length = 1)
    (hturn : e.turn now = e₁) : EmptiesIn now (n + 1) e e' where
  single := by
    intro k hk
    cases k with
    | zero => exact hsingle
    | succ k =>
      rw [Function.iterate_succ_apply, hturn]
      exact h.single k (Nat.lt_of_succ_lt_succ hk)
  reaches := by
    rw [Function.iterate_succ_apply, hturn]
    exact h.reaches
  quiet := h.quiet

/-- Further turns change nothing. -/
theorem iterate (h : EmptiesIn now n e e') {m : Nat} (hle : n ≤ m) : (turn now)^[m] e = e' := by
  obtain ⟨k, rfl⟩ := Nat.exists_eq_add_of_le' hle
  rw [Function.iterate_add_apply, h.reaches]
  exact Function.iterate_fixed (turn_quiet now h.quiet) k

end EmptiesIn

/-! ## Handling payloads -/

section Handling

variable {e : Engine} {t : Target}

theorem passOn_targets (e : Engine) (r : Reaction) : (e.passOn r).targets = e.targets := by
  unfold passOn diagnose
  split
  · rfl
  · split
    · rfl
    · rfl

theorem queue_targets (e : Engine) (r : Reaction) : (e.queue r).targets = e.targets := by
  unfold queue
  split
  · rfl
  · rfl

/-- Before a target is ended it is found as its reaction leaves it. -/
theorem Holds.found_queue (h : e.Holds t) {r : Reaction} (hid : r.target.id = t.id) :
    (((e.passOn r).put r.target).queue r).target? r.target.id = some r.target := by
  have hpass : (e.passOn r).target? t.id = some t := by
    rw [target?, passOn_targets]
    exact h.found
  rw [target?, queue_targets, hid]
  exact target?_put_self hpass hid

/-- Ending a target takes out what waits for it; nothing else looks at what waits. -/
theorem enact_pending (h : e.Holds t) {r : Reaction} (hid : r.target.id = t.id)
    (pending : List (Nat × List UInt8)) :
    { e with pending }.enact r
      = { e.enact r with
          pending :=
            if r.fate = .goesOn then pending
            else pending.filter fun entry => entry.1 != t.id } := by
  -- fault, target and request are dealt with without looking at what waits
  have hqueue : (({ e with pending }.passOn r).put r.target).queue r
      = { ((e.passOn r).put r.target).queue r with pending } := by
    unfold passOn queue diagnose
    split <;> split <;> first | rfl | (split <;> rfl)
  -- ending the target needs it to be found, which what waits does not change
  have hfound := h.found_queue hid
  unfold enact
  rw [hqueue]
  generalize ((e.passOn r).put r.target).queue r = queued at hfound ⊢
  unfold settle
  rcases r.fate with _ | status
  · rfl
  · have hfound' : { queued with pending }.target? r.target.id = some r.target := hfound
    dsimp only
    unfold finalize
    rw [hfound, hfound', ← hid]
    dsimp only
    split
    · rfl
    · rfl

/-- If nothing waits, nothing waits after a reaction. -/
theorem enact_quiet (hpending : e.pending = []) (r : Reaction) : (e.enact r).pending = [] := by
  have hqueue : (((e.passOn r).put r.target).queue r).pending = [] := by
    unfold passOn queue diagnose
    split <;> split <;> first | exact hpending | (split <;> exact hpending)
  unfold enact
  generalize ((e.passOn r).put r.target).queue r = queued at hqueue ⊢
  unfold settle finalize
  split
  · exact hqueue
  · split
    · exact hqueue
    · dsimp only
      split
      all_goals
        simp [remove, hqueue]

/-- A target that goes on is held as its reaction leaves it. -/
theorem Holds.enact (h : e.Holds t) {r : Reaction} (hid : r.target.id = t.id)
    (hfate : r.fate = .goesOn) : (e.enact r).Holds r.target := by
  have hsettle : e.enact r = ((e.passOn r).put r.target).queue r := by
    unfold Engine.enact settle
    rw [hfate]
  rw [hsettle]
  refine ⟨h.found_queue hid, ?_⟩
  unfold queue
  split
  · exact put_put (e.passOn r) rfl
  · exact congrArg (fun e : Engine => e.transmit r.target _) (put_put (e.passOn r) rfl)

/-- Handling a payload is enacting the reaction to it. A reply that it made whole waits
then, if the target goes on. -/
theorem process_eq (h : e.Holds t) (hpending : e.pending = []) (payload : List UInt8)
    (now : Instant) :
    e.process t.id payload now
      = { e.enact (t.hear payload now) with
          pending := (t.hear payload now).waiting?.toList.map fun whole => (t.id, whole) } := by
  let heard : Target := { t with exchange := (t.exchanged payload).1 }
  let receipt := (t.exchanged payload).2
  let joined := receipt.completed.map fun whole => (t.id, whole)
  have hone : receipt.completed = receipt.joined.toList :=
    (t.exchange.receive_cases t.protocol t.config.requestParams t.machine.currentPhase?
      t.machine.sealedPhases payload).completed_eq
  have hput : { e.put heard with pending := joined }.Holds heard := by
    have hheard : (e.put heard).Holds heard := h.put rfl
    exact ⟨hheard.found, congrArg (fun e : Engine => { e with pending := joined }) hheard.alone⟩
  have hid : (heard.follow receipt now).target.id = t.id := by
    obtain ⟨m, l, htarget⟩ := heard.follow_target receipt now
    rw [htarget]
  -- the engine puts the target back with what it has learned, then acts on the receipt
  have hprocess : e.process t.id payload now
      = { e.put heard with pending := joined }.enact (heard.follow receipt now) := by
    rw [← follow_eq hput now receipt]
    unfold process
    rw [h.found, hpending]
    rfl
  have hcarry : { e.put heard with pending := joined }.enact (heard.follow receipt now)
      = { e with pending := joined }.enact (t.hear payload now) :=
    enact_put { e with pending := joined } (t := heard) hid
  have hhear : (t.hear payload now).target.id = t.id := t.react_id (.hear payload now)
  -- a reply that was made whole waits, unless the target is over
  have hwaiting : (if (t.hear payload now).fate = .goesOn then joined
        else joined.filter fun entry => entry.1 != t.id)
      = (t.hear payload now).waiting?.toList.map fun whole => (t.id, whole) := by
    unfold Reaction.waiting?
    rw [t.hear_joined]
    rcases (t.hear payload now).fate with _ | status
    · exact congrArg (List.map fun whole => (t.id, whole)) hone
    · simp [joined]
  rw [hprocess, hcarry, enact_pending h hhear, hwaiting]

/-- One turn enacts the reaction to the payload; a reply that was made whole waits then. -/
theorem turn_eq (h : e.Holds t) (hpending : e.pending = []) (payload : List UInt8)
    (now : Instant) :
    { e with pending := [(t.id, payload)] }.turn now
      = { e.enact (t.hear payload now) with
          pending := (t.hear payload now).waiting?.toList.map fun whole => (t.id, whole) } := by
  have hself : { e with pending := [] } = e := by rw [← hpending]
  have hturn : { e with pending := [(t.id, payload)] }.turn now
      = { e with pending := [] }.process t.id payload now := rfl
  rw [hturn, hself, process_eq h hpending]

/-- **The waiting payloads.** A payload is handled in as many turns as it has moments, and
the turns enact the moments. -/
theorem emptiesIn_digest (h : e.Holds t) (hpending : e.pending = []) (payload : List UInt8)
    (now : Instant) :
    EmptiesIn now (t.digest payload now).length { e with pending := [(t.id, payload)] }
      ((t.digest payload now).foldl (fun e m => e.enact m.reaction) e) := by
  induction t, payload using Target.digest_induction now generalizing e with
  | last t payload hwaiting =>
    have hturn := turn_eq h hpending payload now
    have hquiet : (e.enact (t.hear payload now)).pending = [] := enact_quiet hpending _
    have hself : { e.enact (t.hear payload now) with pending := [] }
        = e.enact (t.hear payload now) := by rw [← hquiet]
    rw [hwaiting, Option.toList_none, List.map_nil, hself] at hturn
    rw [Target.digest_of_none hwaiting]
    exact (EmptiesIn.zero hquiet).succ rfl hturn
  | more t payload whole hwaiting ih =>
    have hturn := turn_eq h hpending payload now
    have hid : (t.hear payload now).target.id = t.id := t.react_id (.hear payload now)
    have hholds := h.enact hid (Reaction.goesOn_of_waiting hwaiting).1
    have hrest := ih hholds (enact_quiet hpending _)
    rw [hid] at hrest
    rw [hwaiting] at hturn
    rw [Target.digest_of_some hwaiting, List.foldl_cons, List.length_cons]
    exact hrest.succ rfl hturn

/-- The drain may handle as many payloads as there are octets that wait or are held,
which is enough. -/
theorem drain_eq (h : e.Holds t) (hpending : e.pending = []) (payload : List UInt8)
    (now : Instant) :
    { e with pending := [(t.id, payload)] }.drain now
      = (t.digest payload now).foldl (fun e m => e.enact m.reaction) e := by
  -- what the target holds is part of what the drain counts
  have hheld := le_total_of_mem (fun t : Target => t.exchange.fragments.buffered)
    (target?_mem h.found).1
  have hlength := t.length_digest_le payload now
  have hbound : (t.digest payload now).length
      ≤ drainBound { e with pending := [(t.id, payload)] } := by
    simp only [drainBound, List.map_cons, List.map_nil, List.length_cons, List.length_nil,
      total_cons, total_nil]
    omega
  rw [drain, drainWithin_eq_iterate]
  exact (emptiesIn_digest h hpending payload now).iterate hbound

end Handling

/-! ## The clock and failures -/

section Clock

variable {e : Engine} {t : Target} (h : e.Holds t)
include h

theorem tickTarget_eq (now : Instant) :
    e.tickTarget now t.id = match t.clockCue? now with
      | none => e
      | some cue => e.enact (t.react cue) := by
  unfold tickTarget Target.clockCue?
  rw [h.found]
  dsimp only
  split
  · split
    · rfl
    · rfl
  · split
    · exact sendCurrent_eq h now
    · rfl

theorem sendFailed_eq (error : TransportError) :
    e.sendFailed t.id error = e.enact (t.react (.unsent error)) := by
  unfold sendFailed Target.react
  rw [h.found]
  dsimp only
  split
  · rfl
  · rfl

end Clock

end ServerProbe.Engine
