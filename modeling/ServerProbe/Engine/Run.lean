/-
Runs of an engine. All that can happen to an engine is a `Call`, so a run is a list
of calls, and what holds of every engine that a run leads to holds whatever the
servers send, in whatever order, and whatever the clock says: instants are part of
the calls and need not ascend.

The diagnostics are a log. No call shortens it, so after a run it holds all that
were ever passed on; a driver that shows them may empty it between calls, since
nothing else looks at it.
-/
import ServerProbe.Engine

set_option autoImplicit false

namespace ServerProbe.Engine

/-! ## Calls -/

/-- One thing that happens to an engine. -/
inductive Call where
  /-- A query starts; `nonce` is there for protocols in which the client chooses an id. -/
  | add (mode : TargetMode) (protocol : String) (address : Address) (config : Config)
      (nonce : UInt32) (now : Instant)
  /-- A datagram arrives. -/
  | receive (sender : Address) (payload : List UInt8) (now : Instant)
  /-- A payload arrives that is known to be for a target. -/
  | deliver (id : Nat) (payload : List UInt8) (now : Instant)
  /-- Time passes. -/
  | tick (now : Instant)
  /-- A queued datagram could not be sent. -/
  | sendFailed (id : Nat) (error : TransportError)
  /-- The next datagram is taken, to be sent. -/
  | poll
  /-- The reports are taken. -/
  | takeCompleted
  deriving Repr, DecidableEq

/-- What a call hands out. -/
inductive Answer where
  | nothing
  | refused (error : QueryError)
  | added (id : Nat)
  | next (transmit : Option Transmit)
  | reports (reports : List Report)
  deriving Repr, DecidableEq

/-- Does what a call says. -/
def perform (e : Engine) : Call → Engine × Answer
  | .add mode protocol address config nonce now =>
    match e.add mode protocol address config nonce now with
    | (e', .ok id) => (e', .added id)
    | (e', .error error) => (e', .refused error)
  | .receive sender payload now => (e.receive sender payload now, .nothing)
  | .deliver id payload now =>
    match e.deliver id payload now with
    | (e', .ok ()) => (e', .nothing)
    | (e', .error error) => (e', .refused error)
  | .tick now => (e.tick now, .nothing)
  | .sendFailed id error => (e.sendFailed id error, .nothing)
  | .poll => let (e', transmit) := e.poll; (e', .next transmit)
  | .takeCompleted => let (e', reports) := e.takeCompleted; (e', .reports reports)

/-! ## Runs -/

/-- The engine after one more call. -/
def after (e : Engine) (call : Call) : Engine := (e.perform call).1

/-- The engine after a run from the start. -/
def run (calls : List Call) : Engine := calls.foldl after {}

/-- Whether some run leads to an engine. -/
def Reachable (e : Engine) : Prop := ∃ calls, run calls = e

@[simp] theorem run_nil : run [] = {} := rfl

theorem run_concat (calls : List Call) (call : Call) :
    run (calls ++ [call]) = (run calls).after call := by
  simp only [run, List.foldl_append, List.foldl_cons, List.foldl_nil]

theorem Reachable.step {e : Engine} (h : e.Reachable) (call : Call) :
    (e.after call).Reachable := by
  obtain ⟨calls, rfl⟩ := h
  exact ⟨calls ++ [call], run_concat calls call⟩

/-- What holds at the start and is kept by every call holds after every run. -/
theorem Reachable.invariant {P : Engine → Prop} (start : P {})
    (keep : ∀ (e : Engine) (call : Call), P e → P (e.after call)) {e : Engine}
    (h : e.Reachable) : P e := by
  obtain ⟨calls, rfl⟩ := h
  have along : ∀ (cs : List Call) (e : Engine), P e → P (cs.foldl after e) := by
    intro cs
    induction cs with
    | nil => exact fun e he => he
    | cons c rest ih => exact fun e he => ih _ (keep e c he)
  exact along calls {} start

end ServerProbe.Engine
