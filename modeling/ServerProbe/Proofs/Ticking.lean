/-
What the clock does.

Time passes for every target on its own: a tick is to a target what the clock means to it,
whatever it is to the others (`target?_tick`), and what the tick queues for the target is
what the target then asks for (`tick_outbox`). An active target waits for a reply, so it
has a time at which it is due, and the least of these times is the one that the engine
names (`deadline?_eq_some_iff`). A tick before that time does nothing at all; a tick at
that time or later makes every target that is due ask again or give up, and leaves the
others as they were.
-/
import ServerProbe.Proofs.Waiting

set_option autoImplicit false

namespace ServerProbe.Engine

/-! ## One target among others -/

/-- Where targets only react, a target is found as its last moment leaves it. -/
theorem Course.target?_eq {e e' : Engine} {events : List Event} (h : Course e events e')
    (hkept : e.WellKept) (hreact : ∀ event ∈ events, event.created? = none) (id : Nat) :
    e'.target? id = ((moments id events).getLast?.map Moment.after?).getD (e.target? id) := by
  induction h with
  | nil => rfl
  | @cons e e' event rest hfits _ ih =>
    rw [ih (hkept.tell hfits) fun other hother => hreact other (List.mem_cons_of_mem _ hother),
      ← List.singleton_append, moments_append, List.getLast?_append]
    -- a later moment counts for more than an earlier one
    rcases (moments id rest).getLast? with _ | last
    · cases event with
      | added t => cases hreact _ List.mem_cons_self
      | spawned parent child => cases hreact _ List.mem_cons_self
      | reacted m =>
        by_cases hid : m.target.id = id
        · rw [← hid, moments_reacted, target?_tell_reacted hkept hfits]
          rfl
        · have hconcerns : ¬Event.Concerns (.reacted m) id := hid
          rw [moments_of_not_concerns hconcerns, target?_tell_of_ne hkept hfits hconcerns]
          rfl
    · rfl

section Tick

variable {e : Engine} (h : e.WellKept) (now : Instant)
include h

theorem course_tick : Course e (clockEvents now e.targets) (e.tick now) :=
  course_clock h now (fun _ ht => ht) h.ascending

/-- What a tick is to a target is what the clock means to it. -/
theorem moments_tick {t : Target} (hmem : t ∈ e.targets) :
    moments t.id (clockEvents now e.targets) = (t.clockCue? now).toList.map (Moment.mk t) := by
  rw [moments_clockEvents, h.filter_id, h.target?_of_mem hmem, Option.toList_some, clockEvents]
  rcases hcue : t.clockCue? now with _ | cue
  · rw [List.filterMap_cons_none (by rw [hcue]; rfl)]
    rfl
  · rw [List.filterMap_cons_some (by rw [hcue]; rfl)]
    exact moments_reacted ⟨t, cue⟩

theorem target?_tick {t : Target} (hmem : t ∈ e.targets) :
    (e.tick now).target? t.id = match t.clockCue? now with
      | none => some t
      | some cue => Moment.after? ⟨t, cue⟩ := by
  have hreact : ∀ event ∈ clockEvents now e.targets, event.created? = none := by
    intro event hevent
    obtain ⟨other, -, hcue⟩ := List.mem_filterMap.mp hevent
    obtain ⟨cue, -, rfl⟩ := Option.map_eq_some_iff.mp hcue
    rfl
  rw [(course_tick h now).target?_eq h hreact, moments_tick h now hmem, h.target?_of_mem hmem]
  rcases t.clockCue? now with _ | cue
  · rfl
  · rfl

theorem tick_outbox : ∃ sent, (e.tick now).outbox = e.outbox ++ sent ∧
    ∀ t ∈ e.targets, sent.filter (fun transmit => transmit.target == t.id)
      = ((t.clockCue? now).bind fun cue => Moment.transmit? ⟨t, cue⟩).toList := by
  refine ⟨_, (course_tick h now).outbox, fun t hmem => ?_⟩
  have hkey : ∀ m transmit, Moment.transmit? m = some transmit →
      transmit.target = m.target.id := by
    intro m transmit htransmit
    obtain ⟨request, -, rfl⟩ := Option.map_eq_some_iff.mp htransmit
    rfl
  have hfilter := filter_filterMap_moment Moment.transmit? Transmit.target hkey t.id
    (clockEvents now e.targets)
  refine hfilter.trans ?_
  rw [moments_tick h now hmem]
  rcases t.clockCue? now with _ | cue
  · rfl
  · simp only [Option.toList_some, List.map_cons, List.map_nil, List.filterMap_cons,
      List.filterMap_nil, Option.bind_some]
    rcases Moment.transmit? ⟨t, cue⟩ with _ | transmit
    · rfl
    · rfl

/-- A tick that means nothing to anybody does nothing. -/
theorem tick_eq_self (hnone : ∀ t ∈ e.targets, t.clockCue? now = none) : e.tick now = e := by
  have hevents : clockEvents now e.targets = [] := by
    refine List.filterMap_eq_nil_iff.mpr fun t ht => ?_
    rw [hnone t ht]
    rfl
  have hcourse := course_tick h now
  rw [hevents] at hcourse
  exact hcourse.of_nil

end Tick

/-! ## When time next matters -/

theorem mem_deadlines {e : Engine} {limit : Instant} :
    limit ∈ (e.targets.filterMap fun t => t.machine.deadline?)
      ↔ ∃ t ∈ e.targets, t.machine.deadline? = some limit :=
  List.mem_filterMap

theorem deadline?_eq_some_iff {e : Engine} {limit : Instant} : e.deadline? = some limit ↔
    (∃ t ∈ e.targets, t.machine.deadline? = some limit) ∧
      ∀ t ∈ e.targets, ∀ other, t.machine.deadline? = some other → limit ≤ other := by
  unfold deadline?
  rw [List.min?_eq_some_iff, mem_deadlines]
  refine and_congr_right fun _ => ⟨fun hle t ht other hother => ?_, fun hle other hother => ?_⟩
  · exact hle other (mem_deadlines.mpr ⟨t, ht, hother⟩)
  · obtain ⟨t, ht, hother⟩ := mem_deadlines.mp hother
    exact hle t ht other hother

theorem Reachable.deadline?_eq_none_iff {e : Engine} (h : e.Reachable) :
    e.deadline? = none ↔ e.targets = [] := by
  unfold deadline?
  rw [List.min?_eq_none_iff, List.filterMap_eq_nil_iff]
  constructor
  · -- each active target is due at some time
    intro hnone
    refine List.eq_nil_iff_forall_not_mem.mpr fun t ht => ?_
    obtain ⟨leg, sent, -, -, -, hlimit⟩ := (h.waits t ht).deadline
    rw [hnone t ht] at hlimit
    cases hlimit
  · intro hempty t ht
    rw [hempty] at ht
    cases ht

/-! ## Due and not due -/

section Due

variable {e : Engine} (h : e.Reachable) {t : Target} (hmem : t ∈ e.targets) {limit : Instant}
  (hlimit : t.machine.deadline? = some limit) {now : Instant}
include h hmem hlimit

/-- A tick leaves a target alone whose time has not come. -/
theorem target?_tick_of_lt (hlt : now < limit) : (e.tick now).target? t.id = some t := by
  rw [target?_tick h.wellKept now hmem, Target.clockCue?_eq (h.waits t hmem) hlimit,
    if_neg (Nat.not_le.mpr hlt)]

/-- A tick makes a target ask whose time has come. -/
theorem target?_tick_of_le (hle : limit ≤ now) :
    (e.tick now).target? t.id = Moment.after? ⟨t, .ask now⟩ := by
  rw [target?_tick h.wellKept now hmem, Target.clockCue?_eq (h.waits t hmem) hlimit, if_pos hle]

end Due

/-- **No target stalls, and ticks are exact.** In every engine that a run leads to:

* every active target stands at a phase that it has asked for, and is due one interval
  after it asked last; it neither waits for late replies nor has finished;
* the engine names the least of the times at which its targets are due, and none if it has
  no target;
* a tick before that time does nothing; a tick leaves a target as it was that is not due
  yet, and queues nothing for it, while a target that is due has ended or has one more
  datagram queued. -/
theorem ticks_exact {e : Engine} (h : e.Reachable) :
    (∀ t ∈ e.targets, ∃ leg sent, t.machine.currentLeg? = some leg ∧ leg.status = .waiting ∧
        leg.lastSent = some sent ∧ t.machine.deadline? = some (sent + t.machine.retryInterval) ∧
        t.machine.isLingering = false ∧ t.machine.isFinished = false) ∧
      (e.deadline? = none ↔ e.targets = []) ∧
      (∀ limit, e.deadline? = some limit ↔
        (∃ t ∈ e.targets, t.machine.deadline? = some limit) ∧
          ∀ t ∈ e.targets, ∀ other, t.machine.deadline? = some other → limit ≤ other) ∧
      ∀ now, ((∀ limit, e.deadline? = some limit → now < limit) → e.tick now = e) ∧
        ∃ sent, (e.tick now).outbox = e.outbox ++ sent ∧
          ∀ t ∈ e.targets, ∀ limit, t.machine.deadline? = some limit →
            (now < limit → (e.tick now).target? t.id = some t ∧
              sent.filter (fun transmit => transmit.target == t.id) = []) ∧
            (limit ≤ now →
              ((e.tick now).target? t.id = none ∧
                sent.filter (fun transmit => transmit.target == t.id) = []) ∨
              ∃ t' payload, (e.tick now).target? t.id = some t' ∧
                sent.filter (fun transmit => transmit.target == t.id)
                  = [⟨t.id, t.address, payload⟩]) := by
  have hkept := h.wellKept
  refine ⟨fun t ht => ?_, h.deadline?_eq_none_iff, fun limit => deadline?_eq_some_iff,
    fun now => ⟨fun hearly => ?_, ?_⟩⟩
  · have hwaits := h.waits t ht
    obtain ⟨leg, sent, hleg, hstatus, hsent, hlimit⟩ := hwaits.deadline
    exact ⟨leg, sent, hleg, hstatus, hsent, hlimit, hwaits.not_lingering, hwaits.not_finished⟩
  · refine tick_eq_self hkept now fun t ht => ?_
    -- nobody is due earlier than the engine says
    obtain ⟨leg, sent, -, -, -, hlimit⟩ := (h.waits t ht).deadline
    rcases hnext : e.deadline? with _ | first
    · rw [h.deadline?_eq_none_iff.mp hnext] at ht
      cases ht
    · have hfirst := (deadline?_eq_some_iff.mp hnext).2 t ht _ hlimit
      have hbefore := Nat.lt_of_lt_of_le (hearly first hnext) hfirst
      rw [Target.clockCue?_eq (h.waits t ht) hlimit, if_neg (Nat.not_le.mpr hbefore)]
  · obtain ⟨sent, houtbox, hsent⟩ := tick_outbox hkept now
    refine ⟨sent, houtbox, fun t ht limit hlimit => ⟨fun hlt => ?_, fun hle => ?_⟩⟩
    · refine ⟨target?_tick_of_lt h ht hlimit hlt, ?_⟩
      rw [hsent t ht, Target.clockCue?_eq (h.waits t ht) hlimit, if_neg (Nat.not_le.mpr hlt)]
      rfl
    · have hqueued := hsent t ht
      rw [Target.clockCue?_eq (h.waits t ht) hlimit, if_pos hle] at hqueued
      have hreaction : (Moment.mk t (.ask now)).reaction = t.ask now := rfl
      rw [hqueued, target?_tick_of_le h ht hlimit hle, Option.bind_some, Moment.after?,
        Moment.transmit?, hreaction]
      -- a target that asks ends or queues its request
      rcases t.ask_cases now with ⟨⟨status, hfate⟩, hrequest⟩ | ⟨hfate, phase, payload, hrequest⟩
      · left
        rw [hfate, hrequest]
        exact ⟨rfl, rfl⟩
      · right
        rw [hfate, hrequest]
        exact ⟨(t.ask now).target, payload, rfl, rfl⟩

/-- Two servers that do not answer. The second was asked later, and is not asked again. -/
def staggered : List Call :=
  [.add .unicast "a2s" ⟨"192.0.2.1", 27015⟩ { retries := 1 } 0 0,
    .add .unicast "gs4" ⟨"192.0.2.2", 29900⟩ { retries := 0 } 7 200000000]

/-- The first is due half a second after it was asked, the second a little later. A tick in
between leaves the second alone and asks the first again. -/
theorem ticks_exact_staggered :
    (run staggered).deadline? = some 500000000 ∧
    (run staggered).tick 499999999 = run staggered ∧
    ((run staggered).tick 600000000).target? 2 = (run staggered).target? 2 ∧
    ((run staggered).tick 600000000).outbox.length = 3 ∧
    ((run staggered).tick 700000000).target? 2 = none := by
  have hreachable : (run staggered).Reachable := ⟨staggered, rfl⟩
  have hfirst : (run staggered).deadline? = some 500000000 := by decide +kernel
  obtain ⟨t, hfound, hlimit⟩ : ∃ t, (run staggered).target? 2 = some t ∧
      t.machine.deadline? = some 700000000 := ⟨_, rfl, by decide +kernel⟩
  obtain ⟨hmem, hid⟩ := target?_mem hfound
  obtain ⟨-, -, -, hticks⟩ := ticks_exact hreachable
  have hearly := (hticks 499999999).1 fun limit hlimit => by
    rw [hfirst] at hlimit
    cases hlimit
    decide
  obtain ⟨sent, -, hsent⟩ := (hticks 600000000).2
  have hleft := ((hsent t hmem 700000000 hlimit).1 (by decide)).1
  rw [hid, ← hfound] at hleft
  exact ⟨hfirst, hearly, hleft, by decide +kernel, by decide +kernel⟩

end ServerProbe.Engine
