/-
When a broadcast is reported.

A broadcast ends like any other target, and there are three ways to end. When it has nothing
left to ask, it is not reported; those that answered it are. But the other two ways come with
a status of their own, and then nobody asks whether the target is a broadcast: if a datagram
to it is refused before it has heard anything of use, it is reported as down, and if a payload
that is delivered to it is broken, it is reported with the error.

Nothing else gets a broadcast reported (`broadcast_reported_iff`). The clock does not, since
asking does not go wrong; and a datagram that comes in does not, since it is heard by a target
that is asked at its own address, never by a broadcast.
-/
import ServerProbe.Proofs.Ending
import ServerProbe.Proofs.Reporting

set_option autoImplicit false

namespace ServerProbe

/-! ## What is reported, and when -/

/-- The clock makes a target ask, or wait no longer. -/
theorem Target.clockCue?_cases {t : Target} {now : Instant} {cue : Cue}
    (h : t.clockCue? now = some cue) : cue = .ask now ∨ cue = .linger := by
  unfold Target.clockCue? at h
  split at h
  · split at h
    · exact .inr (Option.some.inj h).symm
    · cases h
  · split at h
    · exact .inl (Option.some.inj h).symm
    · cases h

/-- A target that ends with a status is reported with it, a broadcast too. -/
theorem Moment.report?_of_over {m : Moment} {status : TargetStatus}
    (h : m.reaction.fate = .over (some status)) :
    m.report? = some (m.reaction.target.report status) := by
  have hstatus : some status ≠ none := by nofun
  rw [Moment.report?, Reaction.report?, h]
  exact if_neg fun hsilent => hstatus hsilent.2

/-- A broadcast that is reported has ended with a status. -/
theorem Moment.over_of_report? {m : Moment} (hmode : m.target.mode = .broadcast) {report : Report}
    (h : m.report? = some report) : m.reaction.fate = .over (some report.status) := by
  obtain ⟨status, hfate, hloud, rfl⟩ := Moment.report?_eq_some h
  rw [Moment.reaction, Target.react_mode] at hloud
  obtain ⟨told, rfl⟩ := Option.ne_none_iff_exists'.mp (hloud hmode)
  exact hfate

namespace Engine

/-! ## The call of an event -/

theorem mem_collect {α : Type} {f : Engine → Call → List α} {e : Engine} {calls : List Call}
    {a : α} : a ∈ collect f e calls ↔
      ∃ before call later, calls = before ++ call :: later ∧ a ∈ f (before.foldl after e) call := by
  induction calls generalizing e with
  | nil => simp [collect]
  | cons first rest ih =>
    rw [collect, List.mem_append, ih]
    constructor
    · rintro (hfirst | ⟨before, call, later, rfl, ha⟩)
      · exact ⟨[], first, rest, rfl, hfirst⟩
      · exact ⟨first :: before, call, later, rfl, ha⟩
    · rintro ⟨before, call, later, hcalls, ha⟩
      cases before with
      | nil =>
        obtain ⟨rfl, rfl⟩ := List.cons.inj hcalls
        exact .inl ha
      | cons head before =>
        obtain ⟨rfl, rfl⟩ := List.cons.inj hcalls
        exact .inr ⟨before, call, later, rfl, ha⟩

/-- Every event of a run belongs to one of its calls. -/
theorem mem_journal {calls : List Call} {event : Event} : event ∈ journal calls ↔
    ∃ before call later, calls = before ++ call :: later ∧ event ∈ (run before).story call :=
  mem_collect

/-! ## Broadcasts -/

/-- What gets a broadcast reported, and with which status. -/
inductive Exposes (t : Target) : Call → TargetStatus → Prop where
  /-- A datagram to it is refused, and it has heard nothing of use. -/
  | refused (error : TransportError) : error.kind = .connectionRefused → t.hasReceived = false →
      Exposes t (.sendFailed t.id error) .down
  /-- A payload that is delivered to it is broken, or a reply is that the payload makes
  whole. -/
  | broken (payload : List UInt8) (now : Instant) {m : Moment} {kind : ErrorKind} :
      m ∈ t.digest payload now → m.Breaks kind → Exposes t (.deliver t.id payload now) (.error kind)

/-- What exposes a target is a moment at which it is reported with the status. -/
theorem Exposes.moment {e : Engine} {t : Target} (hactive : e.target? t.id = some t) {call : Call}
    {status : TargetStatus} (h : Exposes t call status) :
    ∃ m, .reacted m ∈ e.story call ∧ m.target.id = t.id ∧
      m.reaction.fate = .over (some status) := by
  cases h with
  | refused error hrefused hnothing =>
    have hrefuses : Moment.Refuses ⟨t, .unsent error⟩ := ⟨error, rfl, hrefused, hnothing⟩
    refine ⟨⟨t, .unsent error⟩, ?_, rfl, hrefuses.over⟩
    simp only [story, hactive, Option.toList_some, List.map_cons, List.map_nil,
      List.mem_singleton]
  | @broken payload now m kind hm hbreaks =>
    refine ⟨m, ?_, t.digest_id payload now m hm, hbreaks.over⟩
    simp only [story, hactive, Option.toList_some, List.flatMap_cons, List.flatMap_nil,
      List.append_nil]
    exact List.mem_map_of_mem hm

/-- Whoever hears a datagram is asked at its own address. -/
theorem WellKept.unicast_of_receive {e : Engine} (h : e.WellKept) {sender : Address}
    {payload : List UInt8} {now : Instant} {m : Moment}
    (hm : .reacted m ∈ e.story (.receive sender payload now)) : m.target.mode = .unicast := by
  have hdigest : ∀ {t : Target}, t.mode = .unicast →
      .reacted m ∈ (t.digest payload now).map Event.reacted → m.target.mode = .unicast := by
    intro t ht hmem
    obtain ⟨heard, hheard, heq⟩ := List.mem_map.mp hmem
    obtain rfl := Event.reacted.inj heq
    exact (Target.digest_forall (P := fun t => t.mode = .unicast)
      (fun t heard ht => (t.react_mode (.hear heard now)).trans ht) ht payload heard hheard).1
  have hroutes := h.route_cases sender payload now
  generalize e.route sender = routed at hroutes
  cases hroutes with
  | @known t ht hat hstory =>
    rw [hstory] at hm
    -- the index finds no broadcast
    obtain ⟨other, hother, hunicast, -⟩ := (h.indexed sender t.id).mp hat
    rw [h.target?_of_mem ht] at hother
    obtain rfl := Option.some.inj hother
    exact hdigest hunicast hm
  | spawned hfits hstory =>
    rw [hstory] at hm
    rcases List.mem_cons.mp hm with heq | hrest
    · cases heq
    · exact hdigest rfl hrest
  | nobody hstory =>
    rw [hstory] at hm
    cases hm

/-- When a broadcast hears something broken or is refused, the call exposes it. -/
theorem WellKept.exposes_of_story {e : Engine} (h : e.WellKept) {call : Call} {m : Moment}
    (hm : .reacted m ∈ e.story call) (hmode : m.target.mode = .broadcast) {status : TargetStatus}
    (hstatus : (∃ kind, m.Breaks kind ∧ status = .error kind) ∨ m.Refuses ∧ status = .down) :
    ∃ t, e.target? m.target.id = some t ∧ Exposes t call status := by
  -- then it does not ask, and does not stop waiting
  have hcue : ∀ now, m.cue ≠ .ask now ∧ m.cue ≠ .linger := by
    intro now
    rcases hstatus with ⟨kind, ⟨heard, later, hcue, -⟩, -⟩ | ⟨⟨error, hcue, -⟩, -⟩
    · rw [hcue]
      exact ⟨nofun, nofun⟩
    · rw [hcue]
      exact ⟨nofun, nofun⟩
  cases call with
  | add mode protocol address config nonce now =>
    exfalso
    unfold story at hm
    dsimp only at hm
    split at hm
    · cases hm
    · split at hm
      · cases hm
      · rcases List.mem_cons.mp hm with heq | hlast
        · cases heq
        · obtain rfl := Event.reacted.inj (List.mem_singleton.mp hlast)
          exact (hcue now).1 rfl
  | receive sender payload now =>
    have hunicast := h.unicast_of_receive hm
    rw [hmode] at hunicast
    cases hunicast
  | deliver id payload now =>
    obtain ⟨moment, hmoment, heq⟩ := List.mem_map.mp hm
    obtain rfl := Event.reacted.inj heq
    obtain ⟨t, ht, hdigest⟩ := List.mem_flatMap.mp hmoment
    have hfound : e.target? id = some t := by simpa using ht
    obtain ⟨-, rfl⟩ := target?_mem hfound
    rw [t.digest_id payload now moment hdigest]
    rcases hstatus with ⟨kind, hbreaks, rfl⟩ | ⟨⟨error, hunsent, -⟩, -⟩
    · exact ⟨t, hfound, .broken payload now hdigest hbreaks⟩
    · obtain ⟨-, heard, hheard⟩ := Target.digest_forall (P := fun _ => True)
        (fun _ _ _ => trivial) trivial payload moment hdigest
      rw [hheard] at hunsent
      cases hunsent
  | tick now =>
    exfalso
    obtain ⟨t, -, hclock⟩ := List.mem_filterMap.mp hm
    obtain ⟨cue, hcue', heq⟩ := Option.map_eq_some_iff.mp hclock
    obtain rfl := Event.reacted.inj heq
    rcases Target.clockCue?_cases hcue' with hask | hlinger
    · exact (hcue now).1 hask
    · exact (hcue now).2 hlinger
  | sendFailed id error =>
    obtain ⟨t, ht, heq⟩ := List.mem_map.mp hm
    obtain rfl := Event.reacted.inj heq
    have hfound : e.target? id = some t := by simpa using ht
    obtain ⟨-, rfl⟩ := target?_mem hfound
    rcases hstatus with ⟨kind, ⟨payload, now, hheard, -⟩, -⟩ |
      ⟨⟨error', hunsent, hrefused, hnothing⟩, rfl⟩
    · cases hheard
    · obtain rfl := Cue.unsent.inj hunsent
      exact ⟨t, hfound, .refused error hrefused hnothing⟩
  | poll => cases hm
  | takeCompleted => cases hm

/-- **When a broadcast is reported.** There is a report on a broadcast, with some status, just
if the run has a call that exposes the broadcast as it is then, with that status. So whatever
comes in and however late it gets, a broadcast is reported as down or with an error or not at
all. -/
theorem broadcast_reported_iff (calls : List Call) :
    ∀ t ∈ created calls, t.mode = .broadcast → ∀ status,
      (∃ report ∈ reportsOn t.id calls, report.status = status) ↔
      ∃ before call later active, calls = before ++ call :: later ∧
        (run before).target? t.id = some active ∧ Exposes active call status := by
  intro t ht hmode status
  constructor
  · rintro ⟨report, hreport, rfl⟩
    -- the moment that left the report was one of the broadcast
    obtain ⟨past, m, hmoments, hlife, hm⟩ := life_of_reportsOn (life_of_created ht) hreport
    obtain ⟨hevent, hid⟩ := mem_moments.mp (hmoments ▸ List.mem_concat_self)
    have hbroadcast : m.target.mode = .broadcast :=
      (congrArg Identity.mode hlife.identity).trans hmode
    have hover := Moment.over_of_report? hbroadcast hm
    obtain ⟨before, call, later, hcalls, hstory⟩ := mem_journal.mp hevent
    have hstatus : (∃ kind, m.Breaks kind ∧ report.status = .error kind) ∨
        m.Refuses ∧ report.status = .down := by
      rcases Moment.over_cases (ready_of_journal hevent) hover with
        hnone | ⟨kind, hbreaks, hkind⟩ | ⟨hrefuses, hdown⟩
      · cases hnone
      · exact .inl ⟨kind, hbreaks, Option.some.inj hkind⟩
      · exact .inr ⟨hrefuses, Option.some.inj hdown⟩
    obtain ⟨active, hactive, hexposes⟩ :=
      (told_journal before).wellKept.exposes_of_story hstory hbroadcast hstatus
    exact ⟨before, call, later, active, hcalls, hid ▸ hactive, hexposes⟩
  · rintro ⟨before, call, later, active, hcalls, hactive, hexposes⟩
    obtain ⟨-, hid⟩ := target?_mem hactive
    obtain ⟨m, hstory, hmid, hover⟩ := hexposes.moment (hid.symm ▸ hactive)
    have hevent : .reacted m ∈ journal calls :=
      mem_journal.mpr ⟨before, call, later, hcalls, hstory⟩
    rw [reportsOn_eq]
    exact ⟨_, List.mem_filterMap.mpr ⟨m, mem_moments.mpr ⟨hevent, hmid.trans hid⟩,
      Moment.report?_of_over hover⟩, rfl⟩

/-- A broadcast that cannot be sent, because it is refused. -/
def refusedBroadcast : List Call :=
  [.add .broadcast "a2s" ⟨"192.0.2.255", 27015⟩ {} 0 0,
    .sendFailed 1 { kind := .connectionRefused }]

/-- It is reported as down. -/
theorem broadcast_reported_iff_refused : ∃ t ∈ created refusedBroadcast,
    t.mode = .broadcast ∧ ∃ report ∈ reportsOn t.id refusedBroadcast, report.status = .down := by
  let asked : Target :=
    ((Target.fresh 1 ⟨"192.0.2.255", 27015⟩ .broadcast .a2s {} 0).ask 0).target
  refine ⟨.fresh 1 ⟨"192.0.2.255", 27015⟩ .broadcast .a2s {} 0, by decide +kernel, rfl, ?_⟩
  refine (broadcast_reported_iff refusedBroadcast _ (by decide +kernel) rfl .down).mpr ?_
  exact ⟨refusedBroadcast.take 1, _, [], asked, rfl, by decide +kernel,
    .refused _ rfl (by decide +kernel)⟩

/-- So a target that was added as a broadcast can be reported, with its own id. -/
theorem broadcast_reported :
    (({} : Engine).perform (.add .broadcast "a2s" ⟨"192.0.2.255", 27015⟩ {} 0 0)).2 = .added 1 ∧
    ((run refusedBroadcast).takeCompleted.2.map fun report => (report.id, report.status))
      = [(1, .down)] := by
  decide +kernel

end Engine

end ServerProbe
