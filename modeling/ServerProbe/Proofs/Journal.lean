/-
The journal of a run.

A call is told again as a list of events (`Engine.story`), and the stories of a run
one after another are its journal. Everything that a run queues and reports stands in
the journal: what was queued is what its events queue, in order, and what was reported
of one target is what its last event reports. So what is to be shown of runs can be
shown of journals, event by event (`told_journal`), where nobody has to think about
waiting payloads, the index or the order of ids any more.
-/
import Mathlib.Data.List.Induction
import Mathlib.Data.List.Sort
import ServerProbe.Engine.Run
import ServerProbe.Proofs.Register

set_option autoImplicit false

namespace ServerProbe

namespace Engine

/-! ## Courses -/

/-- Events one after another, each of which fits where it happens. -/
inductive Course : Engine → List Event → Engine → Prop where
  | nil (e : Engine) : Course e [] e
  | cons {e e' : Engine} {event : Event} {rest : List Event} : e.Fits event →
      Course (e.tell event) rest e' → Course e (event :: rest) e'

theorem Course.wellKept {e e' : Engine} {events : List Event} (h : Course e events e')
    (hkept : e.WellKept) : e'.WellKept := by
  induction h with
  | nil => exact hkept
  | cons hfits _ ih => exact ih (hkept.tell hfits)

theorem Course.append {e e' e'' : Engine} {events more : List Event} (h : Course e events e')
    (hmore : Course e' more e'') : Course e (events ++ more) e'' := by
  induction h with
  | nil => exact hmore
  | cons hfits _ ih => exact .cons hfits (ih hmore)

theorem Course.of_nil {e e' : Engine} (h : Course e [] e') : e' = e := by
  cases h
  rfl

theorem Course.of_cons {e e' : Engine} {event : Event} {rest : List Event}
    (h : Course e (event :: rest) e') : e.Fits event ∧ Course (e.tell event) rest e' := by
  cases h with
  | cons hfits hrest => exact ⟨hfits, hrest⟩

/-- Events lead to one engine only. -/
theorem Course.unique {e e' e'' : Engine} {events : List Event} (h : Course e events e')
    (h' : Course e events e'') : e' = e'' := by
  induction h with
  | nil =>
    cases h'
    rfl
  | cons _ _ ih =>
    cases h' with
    | cons _ hrest => exact ih hrest

theorem course_digest {e : Engine} (h : e.WellKept) {t : Target} (hmem : t ∈ e.targets)
    (payload : List UInt8) (now : Instant) :
    Course e ((t.digest payload now).map .reacted)
      ((t.digest payload now).foldl (fun e m => e.enact m.reaction) e) := by
  induction t, payload using Target.digest_induction now generalizing e with
  | last t payload hwaiting =>
    rw [Target.digest_of_none hwaiting]
    exact .cons (.reacted _ hmem) (.nil _)
  | more t payload whole hwaiting ih =>
    have hfits : e.Fits (.reacted ⟨t, .hear payload now⟩) := .reacted _ hmem
    have hid : (t.hear payload now).target.id = t.id := t.react_id (.hear payload now)
    -- the target goes on, so the engine holds it for the next moment
    have hgoes := (h.holds hmem).enact hid (Reaction.goesOn_of_waiting hwaiting).1
    rw [Target.digest_of_some hwaiting, List.map_cons, List.foldl_cons]
    exact .cons hfits (ih (h.tell hfits) (target?_mem hgoes.found).1)

/-- The events of a tick: whose time has come reacts. -/
def clockEvents (now : Instant) (targets : List Target) : List Event :=
  targets.filterMap fun t => (t.clockCue? now).map fun cue => .reacted ⟨t, cue⟩

theorem course_clock {e : Engine} (h : e.WellKept) (now : Instant) {targets : List Target}
    (hmem : ∀ t ∈ targets, t ∈ e.targets) (hascending : (targets.map Target.id).Pairwise (· < ·)) :
    Course e (clockEvents now targets) ((targets.map Target.id).foldl (tickTarget now) e) := by
  -- by induction on the targets that are still to come
  induction targets generalizing e with
  | nil => exact .nil e
  | cons t rest ih =>
    have ht : t ∈ e.targets := hmem t List.mem_cons_self
    have hrest : ∀ other ∈ rest, other ∈ e.targets :=
      fun other hother => hmem other (List.mem_cons_of_mem t hother)
    rw [List.map_cons, List.pairwise_cons] at hascending
    rw [List.map_cons, List.foldl_cons, tickTarget_eq (h.holds ht)]
    rcases hcue : t.clockCue? now with _ | cue
    · have hevents : clockEvents now (t :: rest) = clockEvents now rest := by
        simp [clockEvents, hcue]
      rw [hevents]
      exact ih h hrest hascending.2
    · have hevents : clockEvents now (t :: rest) = .reacted ⟨t, cue⟩ :: clockEvents now rest := by
        simp [clockEvents, hcue]
      have hfits : e.Fits (.reacted ⟨t, cue⟩) := .reacted _ ht
      rw [hevents]
      refine .cons hfits (ih (h.tell hfits) ?_ hascending.2)
      intro other hother
      -- the others are left as they are, since their ids are other ones
      have hne : other.id ≠ t.id := Nat.ne_of_gt (hascending.1 _ (List.mem_map_of_mem hother))
      have hkeeps := target?_enact_of_ne (h.holds ht) (t.react_id cue) hne
      rw [h.target?_of_mem (hrest other hother)] at hkeeps
      exact (target?_mem hkeeps).1

/-! ## The story of a call -/

/-- The engine when a call has handed out what it hands out. -/
def take (e : Engine) : Call → Engine
  | .poll => e.poll.1
  | .takeCompleted => e.takeCompleted.1
  | _ => e

/-- The events of a call. -/
def story (e : Engine) : Call → List Event
  | .add mode protocol address config nonce now =>
    match Protocol.ofId? protocol with
    | none => []
    | some p =>
      if mode = .unicast ∧ (e.idAt? address).isSome then []
      else
        let t := Target.fresh e.nextId address mode p config nonce
        [.added t, .reacted ⟨t, .ask now⟩]
  | .receive sender payload now =>
    match e.idAt? sender with
    | some id => ((e.target? id).toList.flatMap fun t => t.digest payload now).map .reacted
    | none =>
      match e.targets.find? fun t => t.mode == .broadcast && t.address.port == sender.port with
      | none => []
      | some parent =>
        if parent.responders.contains sender then []
        else
          let child := parent.child e.nextId sender
          .spawned parent child :: (child.digest payload now).map .reacted
  | .deliver id payload now =>
    ((e.target? id).toList.flatMap fun t => t.digest payload now).map .reacted
  | .tick now => clockEvents now e.targets
  | .sendFailed id error => (e.target? id).toList.map fun t => .reacted ⟨t, .unsent error⟩
  | .poll => []
  | .takeCompleted => []

/-- A target is added by a call that does nothing else but ask for its first request. -/
theorem story_cases (e : Engine) (call : Call) :
    (∀ t, .added t ∉ e.story call) ∨
    ∃ address mode p config nonce now,
      e.story call = [.added (.fresh e.nextId address mode p config nonce),
        .reacted ⟨.fresh e.nextId address mode p config nonce, .ask now⟩] := by
  have hmoments : ∀ (ms : List Moment) (t : Target), .added t ∉ ms.map Event.reacted := by
    intro ms t ht
    obtain ⟨m, -, hm⟩ := List.mem_map.mp ht
    cases hm
  cases call with
  | add mode protocol address config nonce now =>
    unfold story
    dsimp only
    rcases Protocol.ofId? protocol with _ | p
    · exact .inl fun t => List.not_mem_nil
    · dsimp only
      split
      · exact .inl fun t => List.not_mem_nil
      · exact .inr ⟨address, mode, p, config, nonce, now, rfl⟩
  | receive sender payload now =>
    left
    intro t
    unfold story
    dsimp only
    split
    · exact hmoments _ t
    · split
      · exact List.not_mem_nil
      · split
        · exact List.not_mem_nil
        · intro ht
          rcases List.mem_cons.mp ht with heq | hrest
          · cases heq
          · exact hmoments _ t hrest
  | deliver id payload now => exact .inl fun t => hmoments _ t
  | tick now =>
    left
    intro t ht
    obtain ⟨other, -, hcue⟩ := List.mem_filterMap.mp ht
    obtain ⟨cue, -, heq⟩ := Option.map_eq_some_iff.mp hcue
    cases heq
  | sendFailed id error =>
    left
    intro t ht
    obtain ⟨other, -, heq⟩ := List.mem_map.mp ht
    cases heq
  | poll => exact .inl fun t => List.not_mem_nil
  | takeCompleted => exact .inl fun t => List.not_mem_nil

theorem sameRegister_take (e : Engine) (call : Call) : SameRegister e (e.take call) := by
  cases call with
  | poll =>
    change SameRegister e e.poll.1
    unfold poll
    split
    · exact ⟨rfl, rfl, rfl⟩
    · exact ⟨rfl, rfl, rfl⟩
  | _ => exact ⟨rfl, rfl, rfl⟩

theorem take_pending (e : Engine) (call : Call) : (e.take call).pending = e.pending := by
  cases call with
  | poll =>
    change e.poll.1.pending = e.pending
    unfold poll
    split
    · rfl
    · rfl
  | _ => rfl

theorem WellKept.take {e : Engine} (h : e.WellKept) (call : Call) : (e.take call).WellKept :=
  (sameRegister_take e call).wellKept ((take_pending e call).trans h.quiet) h

theorem course_add {e : Engine} (h : e.WellKept) (mode : TargetMode) (protocol : String)
    (address : Address) (config : Config) (nonce : UInt32) (now : Instant) :
    Course e (e.story (.add mode protocol address config nonce now))
      (e.add mode protocol address config nonce now).1 := by
  unfold story add
  dsimp only
  rcases Protocol.ofId? protocol with _ | p
  · exact .nil e
  · dsimp only
    split
    · exact .nil e
    · next hfree =>
      let t := Target.fresh e.nextId address mode p config nonce
      have hadded : e.Fits (.added t) := by
        refine .added address mode p config nonce fun hmode => ?_
        rcases hat : e.idAt? address with _ | id
        · rfl
        · exact absurd ⟨hmode, by simp [hat]⟩ hfree
      have hmem : t ∈ (e.insert t).targets := by simp [insert]
      -- a new target is asked for its first request at once
      have hasked : (e.insert t).sendCurrent t.id now = (e.insert t).enact (t.ask now) :=
        sendCurrent_eq ((h.tell hadded).holds hmem) now
      refine .cons hadded (.cons (.reacted _ hmem) ?_)
      change Course _ [] ((e.insert t).sendCurrent t.id now)
      rw [hasked]
      exact .nil _

theorem course_heard {e : Engine} (h : e.WellKept) {t : Target} (hmem : t ∈ e.targets)
    (payload : List UInt8) (now : Instant) :
    Course e ((t.digest payload now).map .reacted)
      ({ e with pending := e.pending ++ [(t.id, payload)] }.drain now) := by
  rw [h.quiet, List.nil_append, drain_eq (h.holds hmem) h.quiet]
  exact course_digest h hmem payload now

/-- Where a datagram goes, and the events that it leads to. -/
inductive Routes (e : Engine) (sender : Address) (payload : List UInt8) (now : Instant) :
    Engine × Option Nat → Prop where
  /-- The index finds the target. -/
  | known {t : Target} : t ∈ e.targets → e.idAt? sender = some t.id →
      e.story (.receive sender payload now) = (t.digest payload now).map .reacted →
      Routes e sender payload now (e, some t.id)
  /-- A broadcast has found a host, which becomes a target. -/
  | spawned {parent : Target} : e.Fits (.spawned parent (parent.child e.nextId sender)) →
      e.story (.receive sender payload now) = .spawned parent (parent.child e.nextId sender)
        :: ((parent.child e.nextId sender).digest payload now).map .reacted →
      Routes e sender payload now
        (e.tell (.spawned parent (parent.child e.nextId sender)), some e.nextId)
  /-- Nobody waits for it. -/
  | nobody : e.story (.receive sender payload now) = [] → Routes e sender payload now (e, none)

theorem WellKept.route_cases {e : Engine} (h : e.WellKept) (sender : Address)
    (payload : List UInt8) (now : Instant) : Routes e sender payload now (e.route sender) := by
  rcases hat : e.idAt? sender with _ | id
  · rcases hparent : e.targets.find?
        (fun t => t.mode == .broadcast && t.address.port == sender.port) with _ | parent
    · have hroute : e.route sender = (e, none) := by simp only [route, hat, hparent]
      rw [hroute]
      exact .nobody (by simp only [story, hat, hparent])
    · by_cases hknown : parent.responders.contains sender = true
      · have hroute : e.route sender = (e, none) := by
          simp only [route, hat, hparent, if_pos hknown]
        rw [hroute]
        exact .nobody (by simp only [story, hat, hparent, if_pos hknown])
      · have hroute : e.route sender
            = (e.tell (.spawned parent (parent.child e.nextId sender)), some e.nextId) := by
          simp only [route, hat, hparent, if_neg hknown]
          rfl
        have hmode : parent.mode = .broadcast := by
          have hfound := List.find?_some hparent
          simp only [Bool.and_eq_true, beq_iff_eq] at hfound
          exact hfound.1
        rw [hroute]
        exact .spawned (.spawned parent sender (List.mem_of_find?_eq_some hparent) hmode hat)
          (by simp only [story, hat, hparent, if_neg hknown])
  · obtain ⟨t, hfound, -⟩ := (h.indexed sender id).mp hat
    obtain ⟨hmem, rfl⟩ := target?_mem hfound
    have hroute : e.route sender = (e, some t.id) := by simp only [route, hat]
    rw [hroute]
    refine .known hmem hat ?_
    simp only [story, hat, hfound, Option.toList_some, List.flatMap_cons, List.flatMap_nil,
      List.append_nil]

theorem course_receive {e : Engine} (h : e.WellKept) (sender : Address) (payload : List UInt8)
    (now : Instant) :
    Course e (e.story (.receive sender payload now)) (e.receive sender payload now) := by
  have hroutes := h.route_cases sender payload now
  unfold receive
  generalize e.route sender = routed at hroutes ⊢
  cases hroutes with
  | known hmem _ hstory =>
    rw [hstory]
    exact course_heard h hmem payload now
  | spawned hfits hstory =>
    have hfound := target?_tell_created h hfits rfl
    rw [hstory]
    exact .cons hfits (course_heard (h.tell hfits) (target?_mem hfound).1 payload now)
  | nobody hstory =>
    rw [hstory]
    exact .nil e

theorem course_deliver {e : Engine} (h : e.WellKept) (id : Nat) (payload : List UInt8)
    (now : Instant) :
    Course e (e.story (.deliver id payload now)) (e.deliver id payload now).1 := by
  unfold story deliver
  dsimp only
  rcases hfound : e.target? id with _ | t
  · exact .nil e
  · obtain ⟨hmem, rfl⟩ := target?_mem hfound
    simp only [Option.toList_some, List.flatMap_cons, List.flatMap_nil, List.append_nil]
    exact course_heard h hmem payload now

theorem course_sendFailed {e : Engine} (h : e.WellKept) (id : Nat) (error : TransportError) :
    Course e (e.story (.sendFailed id error)) (e.sendFailed id error) := by
  rcases hfound : e.target? id with _ | t
  · unfold story sendFailed
    dsimp only
    rw [hfound]
    exact .nil e
  · obtain ⟨hmem, rfl⟩ := target?_mem hfound
    rw [sendFailed_eq (h.holds hmem)]
    unfold story
    dsimp only
    rw [hfound]
    exact .cons (.reacted _ hmem) (.nil _)

/-- **A call is its story.** -/
theorem course_story {e : Engine} (h : e.WellKept) (call : Call) :
    Course (e.take call) (e.story call) (e.after call) := by
  cases call with
  | add mode protocol address config nonce now =>
    have hcourse := course_add h mode protocol address config nonce now
    unfold after perform
    dsimp only
    rcases hadd : e.add mode protocol address config nonce now with ⟨e', error | id⟩
    · rw [hadd] at hcourse
      exact hcourse
    · rw [hadd] at hcourse
      exact hcourse
  | receive sender payload now => exact course_receive h sender payload now
  | deliver id payload now =>
    have hcourse := course_deliver h id payload now
    unfold after perform
    dsimp only
    rcases hdeliver : e.deliver id payload now with ⟨e', error | ⟨⟩⟩
    · rw [hdeliver] at hcourse
      exact hcourse
    · rw [hdeliver] at hcourse
      exact hcourse
  | tick now => exact course_clock h now (fun t ht => ht) h.ascending
  | sendFailed id error => exact course_sendFailed h id error
  | poll => exact .nil _
  | takeCompleted => exact .nil _

theorem WellKept.after {e : Engine} (h : e.WellKept) (call : Call) : (e.after call).WellKept :=
  (course_story h call).wellKept (h.take call)

theorem Reachable.wellKept {e : Engine} (h : e.Reachable) : e.WellKept :=
  h.invariant wellKept_empty fun _ call hkept => hkept.after call

/-! ## What calls answer -/

theorem answer_add (e : Engine) (mode : TargetMode) (protocol : String) (address : Address)
    (config : Config) (nonce : UInt32) (now : Instant) :
    (∃ error, (e.perform (.add mode protocol address config nonce now)).2 = .refused error) ∨
      ∃ id, (e.perform (.add mode protocol address config nonce now)).2 = .added id := by
  unfold perform
  dsimp only
  rcases e.add mode protocol address config nonce now with ⟨e', error | id⟩
  · exact .inl ⟨error, rfl⟩
  · exact .inr ⟨id, rfl⟩

theorem answer_deliver (e : Engine) (id : Nat) (payload : List UInt8) (now : Instant) :
    (∃ error, (e.perform (.deliver id payload now)).2 = .refused error) ∨
      (e.perform (.deliver id payload now)).2 = .nothing := by
  unfold perform
  dsimp only
  rcases e.deliver id payload now with ⟨e', error | ⟨⟩⟩
  · exact .inl ⟨error, rfl⟩
  · exact .inr rfl

/-! ## The journal -/

/-- What is collected along a run, call by call. -/
def collect {α : Type} (f : Engine → Call → List α) : Engine → List Call → List α
  | _, [] => []
  | e, call :: rest => f e call ++ collect f (e.after call) rest

theorem collect_append {α : Type} (f : Engine → Call → List α) (e : Engine)
    (calls more : List Call) :
    collect f e (calls ++ more) = collect f e calls ++ collect f (calls.foldl after e) more := by
  induction calls generalizing e with
  | nil => rfl
  | cons call rest ih => simp only [List.cons_append, collect, ih, List.append_assoc,
      List.foldl_cons]

theorem collect_concat {α : Type} (f : Engine → Call → List α) (calls : List Call) (call : Call) :
    collect f {} (calls ++ [call]) = collect f {} calls ++ f (run calls) call := by
  rw [collect_append, collect, collect, List.append_nil, run]

/-- The events of a run, in order. -/
def journal (calls : List Call) : List Event := collect story {} calls

theorem journal_append (calls later : List Call) :
    journal (calls ++ later) = journal calls ++ collect story (run calls) later := by
  rw [journal, collect_append, journal, run]

theorem run_append (calls later : List Call) :
    run (calls ++ later) = later.foldl Engine.after (run calls) := by
  rw [run, List.foldl_append, run]

/-- A past, event by event, and the engine that it leads to. Between events something
may be handed out. -/
inductive Told : List Event → Engine → Prop where
  | start : Told [] {}
  | tell {past : List Event} {e : Engine} {event : Event} : Told past e → e.Fits event →
      Told (past ++ [event]) (e.tell event)
  | take {past : List Event} {e e' : Engine} : Told past e → SameRegister e e' →
      e'.pending = e.pending → Told past e'

theorem Told.wellKept {past : List Event} {e : Engine} (h : Told past e) : e.WellKept := by
  induction h with
  | start => exact wellKept_empty
  | tell _ hfits ih => exact ih.tell hfits
  | take _ hsame hpending ih => exact hsame.wellKept (hpending.trans ih.quiet) ih

theorem Told.course {past events : List Event} {e e' : Engine} (h : Told past e)
    (hcourse : Course e events e') : Told (past ++ events) e' := by
  induction hcourse generalizing past with
  | nil =>
    rw [List.append_nil]
    exact h
  | cons hfits _ ih =>
    have hrest := ih (h.tell hfits)
    rw [List.append_assoc] at hrest
    exact hrest

/-- **The journal of a run leads to the engine of the run.** What holds at the start, is
kept by every event that fits, and does not look at what is queued or reported, holds
after every run; and it holds before every event of one. -/
theorem told_journal (calls : List Call) : Told (journal calls) (run calls) := by
  -- by induction from the last call: what it hands out, then its story
  induction calls using List.reverseRecOn with
  | nil => exact .start
  | append_singleton calls call ih =>
    have hcourse := course_story ih.wellKept call
    rw [journal, collect_concat, run_concat]
    exact (ih.take (sameRegister_take _ call) (take_pending _ call)).course hcourse

/-- Every event of a past fits the engine that what was before it led to. -/
theorem Told.split {past rest : List Event} {event : Event} {e : Engine}
    (h : Told (past ++ event :: rest) e) : ∃ before, Told past before ∧ before.Fits event := by
  -- by induction on the past, in which the event stands further and further back
  generalize hall : past ++ event :: rest = all at h
  induction h generalizing rest with
  | start => simp at hall
  | @tell past' e' event' htold hfits ih =>
    rcases rest.eq_nil_or_concat with rfl | ⟨rest', last, rfl⟩
    · obtain ⟨rfl, hevent⟩ := List.append_inj' hall rfl
      obtain rfl : event = event' := by simpa using hevent
      exact ⟨e', htold, hfits⟩
    · rw [List.concat_eq_append, ← List.cons_append, ← List.append_assoc] at hall
      exact ih (List.append_inj' hall rfl).1
  | take _ _ _ ih => exact ih hall

/-- Every event of a run fits the engine that it happens to. -/
theorem fits_of_journal {calls : List Call} {event : Event} (h : event ∈ journal calls) :
    ∃ past e, Told past e ∧ e.Fits event := by
  obtain ⟨past, rest, hsplit⟩ := List.append_of_mem h
  have htold := told_journal calls
  rw [hsplit] at htold
  exact ⟨past, htold.split⟩

/-! ## What is queued -/

end Engine

/-- The datagram that a target queues then. -/
def Moment.transmit? (m : Moment) : Option Transmit :=
  m.reaction.request.map fun request => ⟨m.target.id, m.target.address, request.payload⟩

/-- The report that a target leaves then. -/
def Moment.report? (m : Moment) : Option Report := m.reaction.report?

/-- The datagram that an event queues. -/
def Event.transmit? (event : Event) : Option Transmit := event.moment?.bind Moment.transmit?

/-- The report that an event leaves. -/
def Event.report? (event : Event) : Option Report := event.moment?.bind Moment.report?

namespace Engine

theorem finalize_outbox (e : Engine) (id : Nat) (status : Option TargetStatus) :
    (e.finalize id status).outbox = e.outbox := by
  unfold finalize
  split
  · rfl
  · dsimp only
    split
    · rfl
    · rfl

theorem enact_outbox (e : Engine) (r : Reaction) :
    (e.enact r).outbox = e.outbox ++ (r.request.map fun request =>
      ⟨r.target.id, r.target.address, request.payload⟩).toList := by
  have hpass : (e.passOn r).outbox = e.outbox := by
    unfold passOn diagnose
    split
    · rfl
    · split
      · rfl
      · rfl
  have hqueue : (((e.passOn r).put r.target).queue r).outbox = e.outbox ++ (r.request.map
      fun request => ⟨r.target.id, r.target.address, request.payload⟩).toList := by
    unfold queue
    rcases r.request with _ | request
    · simpa [put] using hpass
    · simpa [put, transmit] using hpass
  unfold enact settle
  split
  · exact hqueue
  · rw [finalize_outbox]
    exact hqueue

theorem tell_outbox (e : Engine) (event : Event) :
    (e.tell event).outbox = e.outbox ++ event.transmit?.toList := by
  cases event with
  | added t => exact (List.append_nil _).symm
  | spawned parent child => exact (List.append_nil _).symm
  | reacted moment =>
    have h := e.enact_outbox moment.reaction
    rw [Moment.reaction, moment.target.react_id, moment.target.react_address] at h
    exact h

theorem Course.outbox {e e' : Engine} {events : List Event} (h : Course e events e') :
    e'.outbox = e.outbox ++ events.filterMap Event.transmit? := by
  induction h with
  | nil => simp
  | cons _ _ ih =>
    rw [ih, tell_outbox, List.append_assoc, List.filterMap_cons]
    rcases Event.transmit? _ with _ | transmit
    · rfl
    · rfl

/-- The datagrams that a call hands out. -/
def polled (e : Engine) (call : Call) : List Transmit :=
  match (e.perform call).2 with
  | .next (some transmit) => [transmit]
  | _ => []

/-- All the datagrams that were queued in a run, in order: those handed out, and those
that are still in the outbox. -/
def queued (calls : List Call) : List Transmit := collect polled {} calls ++ (run calls).outbox

theorem polled_take (e : Engine) (call : Call) :
    e.polled call ++ (e.take call).outbox = e.outbox := by
  cases call with
  | add mode protocol address config nonce now =>
    rcases e.answer_add mode protocol address config nonce now with ⟨error, h⟩ | ⟨id, h⟩
    · simp only [polled, h, take, List.nil_append]
    · simp only [polled, h, take, List.nil_append]
  | deliver id payload now =>
    rcases e.answer_deliver id payload now with ⟨error, h⟩ | h
    · simp only [polled, h, take, List.nil_append]
    · simp only [polled, h, take, List.nil_append]
  | poll =>
    rcases houtbox : e.outbox with _ | ⟨transmit, rest⟩
    · have hpoll : e.poll = (e, none) := by rw [poll, houtbox]
      simp only [polled, perform, take, hpoll, houtbox, List.append_nil]
    · have hpoll : e.poll = ({ e with outbox := rest }, some transmit) := by rw [poll, houtbox]
      simp only [polled, perform, take, hpoll, List.singleton_append]
  | receive sender payload now => rfl
  | tick now => rfl
  | sendFailed id error => rfl
  | takeCompleted => rfl

/-- **What is queued in a run is what its journal queues.** -/
theorem queued_eq (calls : List Call) :
    queued calls = (journal calls).filterMap Event.transmit? := by
  induction calls using List.reverseRecOn with
  | nil => rfl
  | append_singleton calls call ih =>
    have hkept := (told_journal calls).wellKept
    have hcourse := (course_story hkept call).outbox
    -- what was handed out and what is left are what was in the outbox
    have htaken := polled_take (run calls) call
    rw [queued] at ih
    rw [queued, journal, collect_concat, collect_concat, run_concat, hcourse, List.filterMap_append,
      ← journal, ← ih, ← htaken]
    simp only [List.append_assoc]

/-! ## What is reported -/

theorem enact_completed {e : Engine} {t : Target} (h : e.Holds t) {r : Reaction}
    (hid : r.target.id = t.id) :
    (e.enact r).completed = e.completed ++ r.report?.toList := by
  -- nothing is reported before the target is over
  have hqueue : (((e.passOn r).put r.target).queue r).completed = e.completed := by
    unfold passOn queue diagnose
    split <;> split <;> first | rfl | (split <;> rfl)
  have hfound := h.found_queue hid
  unfold enact Reaction.report?
  generalize ((e.passOn r).put r.target).queue r = queued at hqueue hfound ⊢
  unfold settle
  rcases r.fate with _ | status
  · rw [hqueue]
    exact (List.append_nil _).symm
  · dsimp only
    unfold finalize
    rw [hfound]
    dsimp only
    split
    · exact hqueue.trans (List.append_nil _).symm
    · exact congrArg (· ++ _) hqueue

theorem tell_completed {e : Engine} (h : e.WellKept) {event : Event} (hfits : e.Fits event) :
    (e.tell event).completed = e.completed ++ event.report?.toList := by
  cases hfits with
  | added => exact (List.append_nil _).symm
  | spawned => exact (List.append_nil _).symm
  | reacted moment hmem => exact enact_completed (h.holds hmem) moment.reaction_id

theorem Course.completed {e e' : Engine} {events : List Event} (h : Course e events e')
    (hkept : e.WellKept) : e'.completed = e.completed ++ events.filterMap Event.report? := by
  induction h with
  | nil => simp
  | cons hfits _ ih =>
    rw [ih (hkept.tell hfits), tell_completed hkept hfits, List.append_assoc, List.filterMap_cons]
    rcases Event.report? _ with _ | report
    · rfl
    · rfl

/-- Sorting by id leaves the reports of one target in their order. -/
theorem filter_mergeSort (reports : List Report) (id : Nat) :
    (reports.mergeSort fun a b => a.id ≤ b.id).filter (fun report => report.id == id)
      = reports.filter fun report => report.id == id := by
  have hperm := (reports.mergeSort_perm fun a b => a.id ≤ b.id).filter fun report => report.id == id
  -- among reports with one id any order is sorted
  have hpairwise : (reports.filter fun report => report.id == id).Pairwise
      fun a b => decide (a.id ≤ b.id) = true := by
    refine List.pairwise_of_forall_mem_list fun a ha b hb => ?_
    have hida : a.id = id := by simpa using (List.mem_filter.mp ha).2
    have hidb : b.id = id := by simpa using (List.mem_filter.mp hb).2
    simp [hida, hidb]
  -- and a sorted part of a list is a part of the sorted list
  have hsublist : (reports.filter fun report => report.id == id).Sublist
      (reports.mergeSort fun a b => a.id ≤ b.id) := by
    refine List.sublist_mergeSort ?_ ?_ hpairwise List.filter_sublist
    · intro a b c hab hbc
      simp only [decide_eq_true_eq] at hab hbc ⊢
      omega
    · intro a b
      simp only [Bool.or_eq_true, decide_eq_true_eq]
      omega
  have hfilter := hsublist.filter fun report => report.id == id
  rw [List.filter_filter] at hfilter
  simp only [Bool.and_self] at hfilter
  exact (hfilter.eq_of_length hperm.length_eq.symm).symm

/-- The reports that a call hands out. -/
def taken (e : Engine) (call : Call) : List Report :=
  match (e.perform call).2 with
  | .reports reports => reports
  | _ => []

/-- All the reports of a run: those handed out, and those that have not been taken. -/
def reported (calls : List Call) : List Report := collect taken {} calls ++ (run calls).completed

theorem taken_take (e : Engine) (call : Call) (id : Nat) :
    (e.taken call).filter (fun report => report.id == id)
        ++ (e.take call).completed.filter (fun report => report.id == id)
      = e.completed.filter fun report => report.id == id := by
  cases call with
  | add mode protocol address config nonce now =>
    rcases e.answer_add mode protocol address config nonce now with ⟨error, h⟩ | ⟨added, h⟩
    · simp only [taken, h, take, List.filter_nil, List.nil_append]
    · simp only [taken, h, take, List.filter_nil, List.nil_append]
  | deliver receiver payload now =>
    rcases e.answer_deliver receiver payload now with ⟨error, h⟩ | h
    · simp only [taken, h, take, List.filter_nil, List.nil_append]
    · simp only [taken, h, take, List.filter_nil, List.nil_append]
  | takeCompleted =>
    have hsorted := filter_mergeSort e.completed id
    exact (List.append_nil _).trans hsorted
  | receive sender payload now => rfl
  | tick now => rfl
  | sendFailed id error => rfl
  | poll =>
    change [] ++ e.poll.1.completed.filter _ = _
    unfold poll
    split
    · rfl
    · rfl

/-- **What is reported of a target in a run is what its journal reports of it.** -/
theorem reported_filter (calls : List Call) (id : Nat) :
    (reported calls).filter (fun report => report.id == id)
      = ((journal calls).filterMap Event.report?).filter fun report => report.id == id := by
  induction calls using List.reverseRecOn with
  | nil => rfl
  | append_singleton calls call ih =>
    have hkept := (told_journal calls).wellKept
    have hcourse := (course_story hkept call).completed (hkept.take call)
    have htaken := taken_take (run calls) call id
    rw [reported, List.filter_append] at ih
    rw [reported, journal, collect_concat, collect_concat, run_concat, hcourse,
      List.filterMap_append, List.filter_append, List.filter_append, List.filter_append,
      List.filter_append, ← journal, ← ih, ← htaken]
    simp only [List.append_assoc]

theorem mem_reported {calls : List Call} {report : Report} :
    report ∈ reported calls ↔ ∃ event ∈ journal calls, event.report? = some report := by
  have hfilter := reported_filter calls report.id
  have hleft : report ∈ reported calls
      ↔ report ∈ (reported calls).filter fun other => other.id == report.id := by simp
  rw [hleft, hfilter]
  simp

/-- Whatever is reported was left by some moment. -/
theorem moment_of_reported {calls : List Call} {report : Report} (h : report ∈ reported calls) :
    ∃ m, .reacted m ∈ journal calls ∧ m.report? = some report := by
  obtain ⟨event, hevent, hreport⟩ := mem_reported.mp h
  obtain ⟨m, hm, hreport⟩ := Option.bind_eq_some_iff.mp hreport
  cases event with
  | reacted moment =>
    obtain rfl : moment = m := Option.some.inj hm
    exact ⟨moment, hevent, hreport⟩
  | added => cases hm
  | spawned => cases hm

end Engine

end ServerProbe
