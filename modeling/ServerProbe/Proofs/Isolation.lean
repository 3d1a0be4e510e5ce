/-
Targets do not influence each other.

Take a run and one target that was added in it, and keep of the calls only those that
have to do with the target: the one that adds it, the datagrams that are routed to it,
what names it, and the passing of time (`Engine.only`). A new engine that is given these
calls alone makes the same requests and reports, under the id 1.

There are two reasons. A target does not know its id: reacting under another one gives
the same reaction under that one (`Target.react_withId`). And what a call means to a
target depends on the target alone, so an engine that holds the target and nothing else
tells the part of the story that is about it (`Mirrors.retells`). The two engines are then
kept side by side, call by call.
-/
import ServerProbe.Proofs.Life

set_option autoImplicit false

namespace ServerProbe

/-! ## The same under another id -/

/-- A target under another id. -/
def Target.withId (t : Target) (id : Nat) : Target := { t with id }

/-- The reaction of a target under another id. -/
def Reaction.withId (r : Reaction) (id : Nat) : Reaction := { r with target := r.target.withId id }

/-- The moment of a target under another id. -/
def Moment.withId (m : Moment) (id : Nat) : Moment := { m with target := m.target.withId id }

namespace Target

variable (t : Target) (id : Nat)

theorem ask_withId (now : Instant) : (t.withId id).ask now = (t.ask now).withId id := by
  rcases hnext : t.machine.nextRequest with ⟨machine, _ | phase⟩
  · simp only [ask, withId, Reaction.withId, hnext]
  · rcases hrequest : t.protocol.request phase t.exchange.session with fault | payload
    · simp only [ask, withId, Reaction.withId, hnext, hrequest, fail]
    · simp only [ask, withId, Reaction.withId, hnext, hrequest]

theorem askAgain_withId (now : Instant) :
    (t.withId id).askAgain now = (t.askAgain now).withId id := by
  rcases hphase : t.machine.currentPhase? with _ | phase
  · simp only [askAgain, withId, Reaction.withId, hphase]
  · by_cases hfree : (!t.machine.freeResendAvailable) = true
    · have hask := t.ask_withId id now
      simp only [withId] at hask
      simp only [askAgain, withId, hphase, if_pos hfree, hask]
    · rcases hrequest : t.protocol.request phase t.exchange.session with fault | payload
      · simp only [askAgain, withId, Reaction.withId, hphase, if_neg hfree, hrequest]
      · simp only [askAgain, withId, Reaction.withId, hphase, if_neg hfree, hrequest]

theorem goOn_withId (answered : PhaseSet) (sealing : Bool) (now : Instant) :
    (t.withId id).goOn answered sealing now = (t.goOn answered sealing now).withId id := by
  obtain ⟨machine, hmachine⟩ : ∃ machine, t.machine.complete
      (Engine.credited answered t.machine.currentPhase?) sealing now = machine := ⟨_, rfl⟩
  simp only [goOn, withId, hmachine]
  split
  · rfl
  · split
    · exact ask_withId { t with machine } id now
    · rfl

theorem follow_withId (receipt : Receipt) (now : Instant) :
    (t.withId id).follow receipt now = (t.follow receipt now).withId id := by
  unfold follow
  rcases receipt.outcome with _ | sealing | kind
  · dsimp only
    split
    · exact t.askAgain_withId id now
    · rfl
  · exact t.goOn_withId id receipt.answered sealing now
  · dsimp only
    split
    · rfl
    · rfl

theorem hear_withId (payload : List UInt8) (now : Instant) :
    (t.withId id).hear payload now = (t.hear payload now).withId id := by
  have hfollow := follow_withId { t with exchange := (t.exchanged payload).1 } id
    (t.exchanged payload).2 now
  exact congrArg (fun r : Reaction => { r with joined := (t.exchanged payload).2.joined }) hfollow

/-- **A target does not know its id.** -/
theorem react_withId (cue : Cue) : (t.withId id).react cue = (t.react cue).withId id := by
  cases cue with
  | ask now => exact t.ask_withId id now
  | hear payload now => exact t.hear_withId id payload now
  | linger => rfl
  | unsent error =>
    unfold react
    dsimp only
    by_cases hrefused : error.kind = .connectionRefused
    · rw [if_pos hrefused, if_pos hrefused]
      rfl
    · rw [if_neg hrefused, if_neg hrefused]
      rfl

theorem digest_withId (payload : List UInt8) (now : Instant) :
    (t.withId id).digest payload now = (t.digest payload now).map fun m => m.withId id := by
  induction t, payload using digest_induction now with
  | last t payload hwaiting =>
    have hwaiting' : ((t.withId id).hear payload now).waiting? = none := by
      rw [t.hear_withId id payload now]
      exact hwaiting
    rw [digest_of_none hwaiting, digest_of_none hwaiting']
    rfl
  | more t payload whole hwaiting ih =>
    have hhear := t.hear_withId id payload now
    have hwaiting' : ((t.withId id).hear payload now).waiting? = some whole := by
      rw [hhear]
      exact hwaiting
    rw [digest_of_some hwaiting, digest_of_some hwaiting', List.map_cons, hhear]
    exact congrArg _ ih

end Target

namespace Moment

variable (m : Moment) (id : Nat)

theorem reaction_withId : (m.withId id).reaction = m.reaction.withId id :=
  m.target.react_withId id m.cue

theorem transmit?_withId :
    (m.withId id).transmit? = m.transmit?.map fun transmit => { transmit with target := id } := by
  rw [transmit?, reaction_withId, transmit?, Option.map_map]
  rfl

theorem report?_withId :
    (m.withId id).report? = m.report?.map fun report => { report with id } := by
  rw [report?, reaction_withId, report?]
  unfold Reaction.report?
  dsimp only [Reaction.withId]
  rcases m.reaction.fate with _ | status
  · rfl
  · dsimp only
    change (if m.reaction.target.mode = .broadcast ∧ status = none then _ else _) = _
    split
    · rfl
    · rfl

end Moment

namespace Engine

/-! ## The calls that have to do with one target -/

/-- The part of a call that has to do with a target, for an engine that knows the target
under the id 1. -/
def only (k : Nat) (e : Engine) (call : Call) : List Call :=
  match call with
  | .add _ _ _ _ _ _ => if (e.perform call).2 = .added k then [call] else []
  | .receive sender _ _ => if (e.route sender).2 = some k then [call] else []
  | .deliver id payload now => if id = k then [.deliver 1 payload now] else []
  | .tick now => [.tick now]
  | .sendFailed id error => if id = k then [.sendFailed 1 error] else []
  | .poll => []
  | .takeCompleted => []

/-- The calls of a run that have to do with a target. -/
def alone (k : Nat) (calls : List Call) : List Call := collect (only k) {} calls

theorem only_cases (k : Nat) (e : Engine) (call : Call) :
    only k e call = [] ∨ ∃ c, only k e call = [c] ∧ ∀ s : Engine, s.take c = s := by
  -- what is kept of a call hands nothing out
  have hkept : ∀ {p : Prop} [Decidable p] {one : Call}, (∀ s : Engine, s.take one = s) →
      (if p then [one] else []) = [] ∨
        ∃ c, (if p then [one] else []) = [c] ∧ ∀ s : Engine, s.take c = s := by
    intro p _ one htake
    by_cases hp : p
    · exact .inr ⟨one, if_pos hp, htake⟩
    · exact .inl (if_neg hp)
  cases call with
  | add mode protocol address config nonce now => exact hkept fun _ => rfl
  | receive sender payload now => exact hkept fun _ => rfl
  | deliver id payload now => exact hkept fun _ => rfl
  | tick now => exact .inr ⟨_, rfl, fun _ => rfl⟩
  | sendFailed id error => exact hkept fun _ => rfl
  | poll => exact .inl rfl
  | takeCompleted => exact .inl rfl

/-- An engine that holds a target and nothing else, beside one that holds it among others. -/
structure Mirrors (k : Nat) (e s : Engine) : Prop where
  given : k < e.nextId
  unicast : ∀ t, e.target? k = some t → t.mode = .unicast
  found : s.target? 1 = (e.target? k).map fun t => t.withId 1
  single : ∀ t ∈ s.targets, t.id = 1
  kept : s.WellKept

/-- Whether the engine that holds nothing else tells the part of the story of a call that
is about the target. -/
def Retells (k : Nat) (e s : Engine) (call : Call) : Prop :=
  collect Engine.story s (only k e call)
    = (moments k (e.story call)).map fun m => .reacted (m.withId 1)

theorem moments_heard (e : Engine) (id k : Nat) (payload : List UInt8) (now : Instant) :
    moments k (((e.target? id).toList.flatMap fun t => t.digest payload now).map .reacted)
      = if id = k then (e.target? k).toList.flatMap fun t => t.digest payload now else [] := by
  rcases hfound : e.target? id with _ | t
  · split
    · next hid =>
      rw [← hid, hfound]
      rfl
    · rfl
  · obtain ⟨-, rfl⟩ := target?_mem hfound
    simp only [Option.toList_some, List.flatMap_cons, List.flatMap_nil, List.append_nil]
    rw [moments_digest]
    split
    · next hid =>
      rw [← hid, hfound]
      simp
    · rfl

namespace Mirrors

variable {k : Nat} {e s : Engine}

theorem idAt? (h : Mirrors k e s) (he : e.WellKept) {address : Address}
    (hat : e.idAt? address = some k) : s.idAt? address = some 1 := by
  obtain ⟨t, hfound, hmode, haddress⟩ := (he.indexed address k).mp hat
  refine (h.kept.indexed address 1).mpr ⟨t.withId 1, ?_, hmode, haddress⟩
  rw [h.found, hfound]
  rfl

theorem heard (h : Mirrors k e s) (payload : List UInt8) (now : Instant) :
    ((s.target? 1).toList.flatMap fun t => t.digest payload now)
      = ((e.target? k).toList.flatMap fun t => t.digest payload now).map fun m => m.withId 1 := by
  rw [h.found]
  rcases e.target? k with _ | t
  · rfl
  · simp only [Option.map_some, Option.toList_some, List.flatMap_cons, List.flatMap_nil,
      List.append_nil]
    exact t.digest_withId 1 payload now

theorem retells_add (h : Mirrors k e s) (mode : TargetMode) (protocol : String)
    (address : Address) (config : Config) (nonce : UInt32) (now : Instant) :
    Retells k e s (.add mode protocol address config nonce now) := by
  have hnext : e.nextId ≠ k := Nat.ne_of_gt h.given
  have hstory : moments k (e.story (.add mode protocol address config nonce now)) = [] := by
    simp only [Engine.story]
    rcases Protocol.ofId? protocol with _ | p
    · rfl
    · dsimp only
      split
      · rfl
      · simp [moments, Event.moment?, Target.fresh, hnext]
  have honly : only k e (.add mode protocol address config nonce now) = [] := by
    refine if_neg fun hadded => ?_
    obtain ⟨p, -, hid, -⟩ := story_of_added hadded
    exact hnext hid.symm
  rw [Retells, hstory, honly]
  rfl

theorem retells_receive (h : Mirrors k e s) (he : e.WellKept) (sender : Address)
    (payload : List UInt8) (now : Instant) : Retells k e s (.receive sender payload now) := by
  unfold Retells
  have hroutes := he.route_cases sender payload now
  rcases hroute : e.route sender with ⟨e', found⟩
  rw [hroute] at hroutes
  have hsecond : (e.route sender).2 = found := congrArg Prod.snd hroute
  cases hroutes with
  | @known t hmem hat hstory =>
    by_cases hid : t.id = k
    · have honly : only k e (.receive sender payload now) = [.receive sender payload now] :=
        if_pos (hsecond.trans (congrArg some hid))
      rw [hid] at hat
      rw [honly, collect, collect, List.append_nil]
      simp only [Engine.story, hat, h.idAt? he hat]
      rw [h.heard, moments_heard, if_pos rfl, List.map_map]
      rfl
    · have honly : only k e (.receive sender payload now) = [] :=
        if_neg fun heq => hid (Option.some.inj (hsecond.symm.trans heq))
      rw [honly, collect, hstory, moments_digest, if_neg hid]
      rfl
  | @spawned parent hfits hstory =>
    -- whoever has just been found has the next id
    have hnext : e.nextId ≠ k := Nat.ne_of_gt h.given
    have honly : only k e (.receive sender payload now) = [] :=
      if_neg fun heq => hnext (Option.some.inj (hsecond.symm.trans heq))
    have hother : moments k (e.story (.receive sender payload now)) = [] := by
      rw [hstory]
      exact (moments_digest _ payload now k).trans (if_neg hnext)
    rw [honly, collect, hother]
    rfl
  | nobody hstory =>
    have honly : only k e (.receive sender payload now) = [] :=
      if_neg fun heq => Option.some_ne_none k (heq.symm.trans hsecond)
    rw [honly, collect, hstory]
    rfl

theorem retells_deliver (h : Mirrors k e s) (id : Nat) (payload : List UInt8) (now : Instant) :
    Retells k e s (.deliver id payload now) := by
  unfold Retells
  by_cases hid : id = k
  · have honly : only k e (.deliver id payload now) = [.deliver 1 payload now] := if_pos hid
    rw [honly, collect, collect, List.append_nil]
    simp only [Engine.story]
    rw [h.heard, moments_heard, if_pos hid, List.map_map]
    rfl
  · have honly : only k e (.deliver id payload now) = [] := if_neg hid
    rw [honly, collect]
    simp only [Engine.story]
    rw [moments_heard, if_neg hid]
    rfl

theorem retells_tick (h : Mirrors k e s) (he : e.WellKept) (now : Instant) :
    Retells k e s (.tick now) := by
  -- the engine on its own holds the target or none
  have hsingle : s.targets = ((e.target? k).map fun t => t.withId 1).toList := by
    rw [← h.found, ← h.kept.filter_id]
    exact (List.filter_eq_self.mpr fun t ht => by simp [h.single t ht]).symm
  change Engine.story s (.tick now) ++ [] = _
  rw [List.append_nil]
  simp only [Engine.story]
  rw [moments_clockEvents, he.filter_id, hsingle]
  rcases hfound : e.target? k with _ | t
  · rfl
  · obtain ⟨-, hid⟩ := target?_mem hfound
    have hclock : (t.withId 1).clockCue? now = t.clockCue? now := rfl
    rcases hcue : t.clockCue? now with _ | cue
    · simp [clockEvents, hclock, hcue, moments]
    · simp [clockEvents, hclock, hcue, moments, Event.moment?, hid, Moment.withId]

theorem retells_sendFailed (h : Mirrors k e s) (id : Nat) (error : TransportError) :
    Retells k e s (.sendFailed id error) := by
  unfold Retells
  by_cases hid : id = k
  · have honly : only k e (.sendFailed id error) = [.sendFailed 1 error] := if_pos hid
    rw [honly, collect, collect, List.append_nil]
    simp only [Engine.story]
    rw [h.found, hid]
    rcases hfound : e.target? k with _ | t
    · rfl
    · obtain ⟨-, hid⟩ := target?_mem hfound
      simp [moments, Event.moment?, hid, Moment.withId]
  · have honly : only k e (.sendFailed id error) = [] := if_neg hid
    rw [honly, collect]
    simp only [Engine.story]
    rcases hfound : e.target? id with _ | t
    · rfl
    · obtain ⟨-, rfl⟩ := target?_mem hfound
      simp [moments, Event.moment?, hid]

/-- **What a call means to a target depends on the target alone.** The engine that holds
nothing else tells the part of the story that is about it. -/
theorem retells (h : Mirrors k e s) (he : e.WellKept) (call : Call) : Retells k e s call := by
  cases call with
  | add mode protocol address config nonce now =>
    exact h.retells_add mode protocol address config nonce now
  | receive sender payload now => exact h.retells_receive he sender payload now
  | deliver id payload now => exact h.retells_deliver id payload now
  | tick now => exact h.retells_tick he now
  | sendFailed id error => exact h.retells_sendFailed id error
  | poll => rfl
  | takeCompleted => rfl

/-- Nothing that can be seen of a target is lost when something is handed out. -/
theorem take (h : Mirrors k e s) (call : Call) : Mirrors k (e.take call) s := by
  have hsame := sameRegister_take e call
  refine ⟨hsame.nextId ▸ h.given, ?_, ?_, h.single, h.kept⟩
  · rw [hsame.target?]
    exact h.unicast
  · rw [hsame.target?]
    exact h.found

/-- When something happens to the target, it happens in both engines. -/
theorem tell_reacted (h : Mirrors k e s) (he : e.WellKept) {m : Moment}
    (hfits : e.Fits (.reacted m)) (hid : m.target.id = k) :
    ∃ s', Course s ((moments k [.reacted m]).map fun m => .reacted (m.withId 1)) s' ∧
      Mirrors k (e.tell (.reacted m)) s' := by
  subst hid
  have hfound := he.target?_of_mem hfits.target_mem
  have hfound' : s.target? 1 = some (m.target.withId 1) := by
    rw [h.found, hfound]
    rfl
  have hfits' : s.Fits (.reacted (m.withId 1)) := .reacted _ (target?_mem hfound').1
  have hkept' := h.kept.tell hfits'
  refine ⟨s.tell (.reacted (m.withId 1)), ?_, he.given_tell h.given hfits, ?_, ?_, ?_, hkept'⟩
  · rw [moments_reacted]
    exact .cons hfits' (.nil _)
  · intro t ht
    rw [target?_tell_reacted he hfits, Moment.after?] at ht
    split at ht
    · obtain rfl := Option.some.inj ht
      exact (m.target.react_mode m.cue).trans (h.unicast m.target hfound)
    · cases ht
  · have htell := target?_tell_reacted h.kept hfits'
    rw [target?_tell_reacted he hfits]
    refine htell.trans ?_
    rw [Moment.after?, m.reaction_withId, Moment.after?]
    change (if m.reaction.fate = .goesOn then _ else _) = _
    split
    · rfl
    · rfl
  · -- whoever has another id was there before
    intro t ht
    by_contra hother
    have hsame : (s.tell (.reacted (m.withId 1))).target? t.id = s.target? t.id :=
      target?_tell_of_ne h.kept hfits' (Ne.symm hother)
    rw [hkept'.target?_of_mem ht] at hsame
    exact hother (h.single t (target?_mem hsame.symm).1)

/-- One event keeps the engines side by side: if it is about the target it happens in both,
otherwise in one. -/
theorem tell (h : Mirrors k e s) (he : e.WellKept) {event : Event} (hfits : e.Fits event) :
    ∃ s', Course s ((moments k [event]).map fun m => .reacted (m.withId 1)) s' ∧
      Mirrors k (e.tell event) s' := by
  by_cases hconcerns : event.Concerns k
  · cases event with
    | added t =>
      have hnext : t.id = e.nextId := hfits.created_id rfl
      exact absurd (hconcerns.symm.trans hnext) (Nat.ne_of_lt h.given)
    | spawned parent child =>
      rcases hconcerns with hparent | hchild
      · -- the target is not a broadcast
        have hfound : e.target? k = some parent := hparent ▸ he.target?_of_mem hfits.parent_mem
        have hunicast := h.unicast parent hfound
        cases hfits with
        | spawned _ sender hmem hmode hfree =>
          rw [hunicast] at hmode
          cases hmode
      · have hnext : child.id = e.nextId := hfits.created_id rfl
        exact absurd (hchild.symm.trans hnext) (Nat.ne_of_lt h.given)
    | reacted m => exact h.tell_reacted he hfits hconcerns
  · refine ⟨s, ?_, he.given_tell h.given hfits, ?_, ?_, h.single, h.kept⟩
    · rw [moments_of_not_concerns hconcerns]
      exact .nil s
    · rw [target?_tell_of_ne he hfits hconcerns]
      exact h.unicast
    · rw [target?_tell_of_ne he hfits hconcerns]
      exact h.found

theorem course (h : Mirrors k e s) (he : e.WellKept) {events : List Event} {e' : Engine}
    (hcourse : Course e events e') :
    ∃ s', Course s ((moments k events).map fun m => .reacted (m.withId 1)) s' ∧
      Mirrors k e' s' := by
  induction hcourse generalizing s with
  | nil => exact ⟨s, .nil s, h⟩
  | @cons e e' event rest hfits _ ih =>
    obtain ⟨s₁, hfirst, h₁⟩ := h.tell he hfits
    obtain ⟨s₂, hrest, h₂⟩ := ih h₁ (he.tell hfits)
    refine ⟨s₂, ?_, h₂⟩
    rw [← List.singleton_append, moments_append, List.map_append]
    exact hfirst.append hrest

/-- **One call keeps the engines side by side.** -/
theorem after (h : Mirrors k e s) (he : e.WellKept) (call : Call) :
    Mirrors k (e.after call) ((only k e call).foldl Engine.after s) := by
  obtain ⟨s', hcourse, h'⟩ := (h.take call).course (he.take call) (course_story he call)
  have hretells : collect Engine.story s (only k e call)
      = (moments k (e.story call)).map fun m => .reacted (m.withId 1) := h.retells he call
  rw [← hretells] at hcourse
  -- the events lead to one engine, which is the one after the call
  have hsame : (only k e call).foldl Engine.after s = s' := by
    rcases only_cases k e call with hnone | ⟨c, hone, htake⟩
    · rw [hnone] at hcourse ⊢
      exact (Course.nil s).unique hcourse
    · have hstory := course_story h.kept c
      rw [hone, collect, collect, List.append_nil] at hcourse
      rw [hone]
      rw [htake s] at hstory
      exact hstory.unique hcourse
  rw [hsame]
  exact h'

/-- A run keeps the engines side by side, and the engine that holds nothing else tells the
part of the story that is about the target. -/
theorem run (h : Mirrors k e s) (he : e.WellKept) (calls : List Call) :
    Mirrors k (calls.foldl Engine.after e)
        ((collect (only k) e calls).foldl Engine.after s) ∧
      collect Engine.story s (collect (only k) e calls)
        = (moments k (collect Engine.story e calls)).map fun m => .reacted (m.withId 1) := by
  induction calls generalizing e s with
  | nil => exact ⟨h, rfl⟩
  | cons call rest ih =>
    obtain ⟨hmirrors, hstory⟩ := ih (h.after he call) (he.after call)
    have hretells : collect Engine.story s (only k e call)
        = (moments k (e.story call)).map fun m => .reacted (m.withId 1) := h.retells he call
    rw [List.foldl_cons, collect, List.foldl_append, collect_append, hstory, hretells, collect,
      moments_append, List.map_append]
    exact ⟨hmirrors, rfl⟩

end Mirrors

/-! ## Before and when the target is added -/

/-- As long as an id has not been given, what has to do with it does nothing to an engine
that holds no target. -/
theorem only_idle {k : Nat} {e : Engine} (he : e.WellKept) {call : Call}
    (hk : (e.after call).nextId ≤ k) :
    ∀ c ∈ only k e call, after {} c = {} ∧ story {} c = [] := by
  have hgiven := he.nextId_after call
  intro c hc
  cases call with
  | add mode protocol address config nonce now =>
    -- the target would have been given the id
    exfalso
    obtain ⟨hadded, -⟩ := List.mem_ite_nil_right.mp hc
    obtain ⟨p, -, hid, -, hstory⟩ := story_of_added hadded
    rw [hstory] at hgiven
    change e.nextId + 1 ≤ _ at hgiven
    omega
  | receive sender payload now =>
    -- a target that is found has its id, or it is given now
    exfalso
    obtain ⟨hroute, -⟩ := List.mem_ite_nil_right.mp hc
    have hroutes := he.route_cases sender payload now
    rcases heq : e.route sender with ⟨e', found⟩
    rw [heq] at hroute hroutes
    cases hroutes with
    | @known t hmem =>
      obtain rfl : t.id = k := Option.some.inj hroute
      have hlt := he.fresh t hmem
      omega
    | @spawned parent hfits hstory =>
      rw [hstory] at hgiven
      change e.nextId + (List.length _ + 1) ≤ _ at hgiven
      obtain rfl : e.nextId = k := Option.some.inj hroute
      omega
    | nobody => cases hroute
  | deliver id payload now =>
    obtain ⟨-, hc⟩ := List.mem_ite_nil_right.mp hc
    obtain rfl := List.mem_singleton.mp hc
    exact ⟨rfl, rfl⟩
  | tick now =>
    obtain rfl := List.mem_singleton.mp hc
    exact ⟨rfl, rfl⟩
  | sendFailed id error =>
    obtain ⟨-, hc⟩ := List.mem_ite_nil_right.mp hc
    obtain rfl := List.mem_singleton.mp hc
    exact ⟨rfl, rfl⟩
  | poll => cases hc
  | takeCompleted => cases hc

theorem idle_run {calls : List Call} (h : ∀ c ∈ calls, after {} c = {} ∧ story {} c = []) :
    calls.foldl after {} = {} ∧ collect story {} calls = [] := by
  induction calls with
  | nil => exact ⟨rfl, rfl⟩
  | cons c rest ih =>
    obtain ⟨hafter, hstory⟩ := h c List.mem_cons_self
    obtain ⟨hrun, hcollect⟩ := ih fun c' hc' => h c' (List.mem_cons_of_mem c hc')
    rw [List.foldl_cons, collect, hafter, hstory]
    exact ⟨hrun, hcollect⟩

theorem alone_idle {k : Nat} {e : Engine} (he : e.WellKept) {calls : List Call}
    (hk : (calls.foldl after e).nextId ≤ k) :
    ∀ c ∈ collect (only k) e calls, after {} c = {} ∧ story {} c = [] := by
  -- ids are given in order, so it has not been given any earlier
  have hle : ∀ (calls : List Call) (e : Engine), e.WellKept →
      e.nextId ≤ (calls.foldl after e).nextId := by
    intro calls
    induction calls with
    | nil => exact fun e _ => Nat.le_refl _
    | cons call rest ih =>
      intro e he
      exact (Nat.le_of_add_right_le (he.nextId_after call)).trans (ih _ (he.after call))
  induction calls generalizing e with
  | nil => exact fun c hc => absurd hc List.not_mem_nil
  | cons call rest ih =>
    intro c hc
    rcases List.mem_append.mp hc with hfirst | hrest
    · exact only_idle he ((hle rest _ (he.after call)).trans hk) c hfirst
    · exact ih (he.after call) hk c hrest

/-! ## A target on its own -/

section Added

variable {protocol : String} {address : Address} {config : Config} {nonce : UInt32} {now : Instant}
  {k : Nat}

theorem story_add_empty {p : Protocol} (hp : Protocol.ofId? protocol = some p) :
    story {} (.add .unicast protocol address config nonce now)
      = [.added (.fresh 1 address .unicast p config nonce),
        .reacted ⟨.fresh 1 address .unicast p config nonce, .ask now⟩] := by
  simp only [story, hp]
  exact if_neg (by simp [Engine.idAt?])

/-- Adding a target puts the engines side by side. -/
theorem mirrors_added {e : Engine} (he : e.WellKept)
    (h : (e.perform (.add .unicast protocol address config nonce now)).2 = .added k) :
    Mirrors k (e.after (.add .unicast protocol address config nonce now))
      (after {} (.add .unicast protocol address config nonce now)) := by
  obtain ⟨p, hp, rfl, hfree, hstory⟩ := story_of_added h
  have hcourse := course_story he (.add .unicast protocol address config nonce now)
  rw [hstory] at hcourse
  have hcourse' := course_story wellKept_empty (.add .unicast protocol address config nonce now)
  rw [story_add_empty hp] at hcourse'
  cases hcourse with
  | cons hfits hrest =>
  cases hcourse' with
  | cons hfits' hrest' =>
  have hkept := he.tell hfits
  have hkept' := wellKept_empty.tell hfits'
  -- the engines hold the new target, each under its id
  have hadded : Mirrors e.nextId
      (e.tell (.added (.fresh e.nextId address .unicast p config nonce)))
      (Engine.tell {} (.added (.fresh 1 address .unicast p config nonce))) := by
    have hfound : (e.tell (.added (.fresh e.nextId address .unicast p config nonce))).target?
          e.nextId
        = some (.fresh e.nextId address .unicast p config nonce) :=
      target?_tell_created he hfits rfl
    have hfound' : (Engine.tell {} (.added (.fresh 1 address .unicast p config nonce))).target? 1
        = some (.fresh 1 address .unicast p config nonce) :=
      target?_tell_created wellKept_empty hfits' rfl
    refine ⟨Nat.lt_succ_self _, ?_, ?_, ?_, hkept'⟩
    · intro t ht
      obtain rfl := Option.some.inj (ht.symm.trans hfound)
      rfl
    · rw [hfound', hfound]
      rfl
    · intro t ht
      obtain rfl : t = .fresh 1 address .unicast p config nonce := by simpa [tell, insert] using ht
      rfl
  obtain ⟨s, hasked, hmirrors⟩ := hadded.course hkept hrest
  have hmoments := moments_reacted ⟨.fresh e.nextId address .unicast p config nonce, .ask now⟩
  rw [show moments e.nextId _ = _ from hmoments] at hasked
  rw [hrest'.unique hasked]
  exact hmirrors

/-- The moments of an engine on its own are those of the target in the run. -/
theorem alone_moments {before : List Call} (later : List Call)
    (h : ((run before).perform (.add .unicast protocol address config nonce now)).2 = .added k) :
    let calls := before ++ .add .unicast protocol address config nonce now :: later
    (journal (alone k calls)).filterMap Event.moment?
      = (moments k (journal calls)).map fun m => m.withId 1 := by
  intro calls
  have htold := told_journal before
  obtain ⟨p, hp, hid, hfree, hstory⟩ := story_of_added h
  -- before it was added nothing happened to it, here or there
  have hbefore : moments k (journal before) = [] := (htold.of_le (Nat.le_of_eq hid.symm)).1
  have hidle := idle_run (alone_idle (k := k) wellKept_empty (Nat.le_of_eq hid.symm))
  have honly : only k (run before) (.add .unicast protocol address config nonce now)
      = [.add .unicast protocol address config nonce now] := if_pos h
  have halone : (collect (only k) {} before).foldl after {} = {} := hidle.1
  have hrun := ((mirrors_added htold.wellKept h).run (htold.wellKept.after _) later).2
  have hstory' : (story {} (.add .unicast protocol address config nonce now)).filterMap
        Event.moment?
      = (moments k ((run before).story (.add .unicast protocol address config nonce now))).map
        fun m => m.withId 1 := by
    have hmoments := moments_reacted ⟨.fresh k address .unicast p config nonce, .ask now⟩
    rw [story_add_empty hp, hstory]
    exact (congrArg (List.map fun m => Moment.withId m 1) hmoments).symm
  have hlater : collect story (run before)
        (.add .unicast protocol address config nonce now :: later)
      = (run before).story (.add .unicast protocol address config nonce now) ++ collect story
        ((run before).after (.add .unicast protocol address config nonce now)) later := rfl
  rw [journal, alone, collect_append, collect_append, hidle.2, halone, List.nil_append, collect,
    ← run, honly, collect_append, collect, collect, List.append_nil, List.filterMap_append, hstory']
  rw [List.foldl_cons, List.foldl_nil, hrun, journal, collect_append, ← run, ← journal,
    moments_append, hbefore, List.nil_append, hlater, moments_append, List.map_append]
  congr 1
  rw [List.filterMap_map]
  exact congrFun (List.filterMap_eq_map (f := fun m : Moment => m.withId 1)) _

/-- **Targets do not influence each other.** Whatever else is going on in a run, a target
that was added in it makes the same requests and leaves the same report as in a new engine
that is given, of all the calls, only those that have to do with it. There its id is 1. -/
theorem targets_isolated {before : List Call} (later : List Call)
    (h : ((run before).perform (.add .unicast protocol address config nonce now)).2 = .added k) :
    let calls := before ++ .add .unicast protocol address config nonce now :: later
    queued (alone k calls) = (sentTo k calls).map (fun transmit => { transmit with target := 1 }) ∧
      reported (alone k calls)
        = (reportsOn k calls).map (fun report => { report with id := 1 }) := by
  intro calls
  have hmoments := alone_moments later h
  -- the engine on its own knows one target, with the id 1
  have hone : ∀ m ∈ (journal (alone k calls)).filterMap Event.moment?, m.target.id = 1 := by
    intro m hm
    rw [hmoments] at hm
    obtain ⟨m', -, rfl⟩ := List.mem_map.mp hm
    rfl
  have hall : moments 1 (journal (alone k calls))
      = (journal (alone k calls)).filterMap Event.moment? :=
    List.filter_eq_self.mpr fun m hm => beq_iff_eq.mpr (hone m hm)
  have hreported : reported (alone k calls) = reportsOn 1 (alone k calls) := by
    refine (List.filter_eq_self.mpr fun report hreport => beq_iff_eq.mpr ?_).symm
    obtain ⟨event, hevent, hreport⟩ := mem_reported.mp hreport
    obtain ⟨m, hm, hreport⟩ := Option.bind_eq_some_iff.mp hreport
    rw [Moment.report?_id hreport]
    exact hone m (List.mem_filterMap.mpr ⟨event, hevent, hm⟩)
  constructor
  · have hqueued : (journal (alone k calls)).filterMap Event.transmit?
        = ((journal (alone k calls)).filterMap Event.moment?).filterMap Moment.transmit? :=
      List.filterMap_filterMap.symm
    rw [queued_eq, hqueued, hmoments, sentTo_eq, List.filterMap_map, List.map_filterMap]
    exact List.filterMap_congr fun m _ => m.transmit?_withId 1
  · rw [hreported, reportsOn_eq, hall, hmoments, reportsOn_eq, List.filterMap_map,
      List.map_filterMap]
    exact List.filterMap_congr fun m _ => m.report?_withId 1

end Added

/-- Two queries side by side. Both servers answer once and then no more. -/
def interleaved : List Call :=
  [.add .unicast "a2s" ⟨"192.0.2.1", 27015⟩ {} 0 0,
    .add .unicast "gs4" ⟨"192.0.2.2", 29900⟩ { retries := 0 } 7 1,
    .receive ⟨"192.0.2.1", 27015⟩ [0xFF, 0xFF, 0xFF, 0xFF, 0x41, 7, 0, 0, 0] 2,
    .receive ⟨"192.0.2.2", 29900⟩ [0x09, 0, 0, 0, 7, 0x31, 0x32, 0x00] 3,
    .sendFailed 1 ⟨.connectionRefused, "connection refused"⟩,
    .poll,
    .tick 60000000000]

/-- The second query sends two datagrams and is reported, just as if it were the only one. -/
theorem targets_isolated_interleaved :
    ((run (interleaved.take 1)).perform (.add .unicast "gs4" ⟨"192.0.2.2", 29900⟩
      { retries := 0 } 7 1)).2 = .added 2 ∧
    queued (alone 2 interleaved)
      = (sentTo 2 interleaved).map (fun transmit => { transmit with target := 1 }) ∧
    reported (alone 2 interleaved)
      = (reportsOn 2 interleaved).map (fun report => { report with id := 1 }) ∧
    (sentTo 2 interleaved).length = 2 ∧ (reportsOn 2 interleaved).length = 1 := by
  have hadded : ((run (interleaved.take 1)).perform (.add .unicast "gs4" ⟨"192.0.2.2", 29900⟩
      { retries := 0 } 7 1)).2 = .added 2 := by decide
  obtain ⟨hqueued, hreported⟩ := targets_isolated (interleaved.drop 2) hadded
  exact ⟨hadded, hqueued, hreported, by decide +kernel, by decide +kernel⟩

end Engine

end ServerProbe
