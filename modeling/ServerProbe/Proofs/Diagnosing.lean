/-
What the diagnostics tell.

A fault is passed on before the target is put back or ended, so it does not matter to the
diagnostics what becomes of the target. They are what the moments of a run pass on, in order
(`diagnostics_eq`), and a target that is ready to ask passes on nothing but what is wrong with
its payloads (`Moment.fault_eq`). A target goes on after every payload but a broken one, so
whatever it passes on before its last moment is an error of ordering; and its last moment passes
on a fatal error just if it ends the target with one, which is then what the report says.
-/
import ServerProbe.Proofs.Concluding
import ServerProbe.Proofs.Refusing
import ServerProbe.Proofs.Verbosity

set_option autoImplicit false

namespace ServerProbe

/-! ## What is wrong with a payload -/

namespace Moment

/-- The error of the payload that is heard at a moment, with what is wrong with it. -/
def complaint? (m : Moment) : Option (ErrorKind × String) :=
  match m.cue with
  | .hear payload _ =>
    match (m.target.exchanged payload).2.outcome with
    | .error kind => some (kind, (m.target.exchanged payload).2.message.getD kind.message)
    | _ => none
  | _ => none

/-- The diagnostic that a moment adds. -/
def diagnostic? (m : Moment) : Option Diagnostic :=
  if m.target.config.showErrors then
    m.reaction.fault.map fun fault =>
      ⟨m.target.id, m.target.address, m.target.protocol, fault.1, fault.2⟩
  else none

/-- **Only payloads go wrong.** What is passed on is what is wrong with the payload that is
heard. -/
theorem fault_eq {m : Moment} (h : m.target.Ready) : m.reaction.fault = m.complaint? := by
  obtain ⟨t, cue⟩ := m
  cases cue with
  | ask now => exact (h.ask_calm now).fault
  | linger => rfl
  | unsent error =>
    show (t.react (.unsent error)).fault = none
    unfold Target.react
    dsimp only
    split
    · rfl
    · rfl
  | hear payload now =>
    show (t.hear payload now).fault = match (t.exchanged payload).2.outcome with
      | .error kind => some (kind, (t.exchanged payload).2.message.getD kind.message)
      | _ => none
    rcases houtcome : (t.exchanged payload).2.outcome with _ | sealing | kind
    · exact (h.hear_calm (by rw [houtcome]; nofun)).fault
    · exact (h.hear_calm (by rw [houtcome]; nofun)).fault
    · exact (Target.hear_error houtcome).1

/-- An error that ends a query is that of a broken payload. -/
theorem breaks_iff_complaint? {m : Moment} {kind : ErrorKind} :
    m.Breaks kind ↔ (∃ text, m.complaint? = some (kind, text)) ∧ kind.isFatal = true := by
  rw [breaks_iff]
  refine and_congr_left fun _ => ?_
  unfold outcome? complaint?
  rcases m.cue with now | ⟨payload, now⟩ | _ | error
  · simp
  · dsimp only
    rcases (m.target.exchanged payload).2.outcome with _ | sealing | other
    · simp
    · simp
    · simp
  · simp
  · simp

end Moment

/-- The diagnostic that an event adds. -/
def Event.diagnostic? (event : Event) : Option Diagnostic :=
  event.moment?.bind Moment.diagnostic?

namespace Engine

/-! ## Diagnostics and the journal -/

theorem finalize_diagnostics (e : Engine) (id : Nat) (status : Option TargetStatus) :
    (e.finalize id status).diagnostics = e.diagnostics := by
  unfold finalize
  split
  · rfl
  · dsimp only
    split
    · rfl
    · rfl

theorem enact_diagnostics (e : Engine) (r : Reaction) :
    (e.enact r).diagnostics = (e.passOn r).diagnostics := by
  have hqueue : (((e.passOn r).put r.target).queue r).diagnostics = (e.passOn r).diagnostics := by
    unfold queue
    split
    · rfl
    · rfl
  unfold enact settle
  split
  · exact hqueue
  · rw [finalize_diagnostics]
    exact hqueue

theorem tell_diagnostics (e : Engine) (event : Event) :
    (e.tell event).diagnostics = e.diagnostics ++ event.diagnostic?.toList := by
  cases event with
  | added t => exact (List.append_nil _).symm
  | spawned parent child => exact (List.append_nil _).symm
  | reacted m =>
    show (e.enact m.reaction).diagnostics = e.diagnostics ++ m.diagnostic?.toList
    have hidentity := m.target.react_identity m.cue
    have hid : m.reaction.target.id = m.target.id := m.reaction_id
    have haddress : m.reaction.target.address = m.target.address :=
      congrArg Identity.address hidentity
    have hconfig : m.reaction.target.config = m.target.config := congrArg Identity.config hidentity
    rw [enact_diagnostics, passOn, Moment.diagnostic?]
    rcases m.reaction.fault with _ | ⟨kind, message⟩
    · simp
    · dsimp only
      rw [diagnose_eq, diagnosed, hconfig, hid, haddress, m.reaction_protocol]
      split
      · rfl
      · rfl

theorem Course.diagnostics {e e' : Engine} {events : List Event} (h : Course e events e') :
    e'.diagnostics = e.diagnostics ++ events.filterMap Event.diagnostic? := by
  induction h with
  | nil => simp
  | cons _ _ ih =>
    rw [ih, tell_diagnostics, List.append_assoc, List.filterMap_cons]
    rcases Event.diagnostic? _ with _ | diagnostic
    · rfl
    · rfl

theorem take_diagnostics (e : Engine) (call : Call) :
    (e.take call).diagnostics = e.diagnostics := by
  cases call with
  | poll =>
    show e.poll.1.diagnostics = e.diagnostics
    unfold poll
    split
    · rfl
    · rfl
  | _ => rfl

/-- **What is shown in a run is what its journal shows.** -/
theorem diagnostics_eq (calls : List Call) :
    (run calls).diagnostics = (journal calls).filterMap Event.diagnostic? := by
  induction calls using List.reverseRecOn with
  | nil => rfl
  | append_singleton calls call ih =>
    have hcourse := course_story (told_journal calls).wellKept call
    rw [journal, collect_concat, run_concat, hcourse.diagnostics, take_diagnostics, ih,
      List.filterMap_append, journal]

/-- The diagnostics about a target in a run. -/
def shownOf (id : Nat) (calls : List Call) : List Diagnostic :=
  (run calls).diagnostics.filter fun diagnostic => diagnostic.target == id

theorem shownOf_eq (id : Nat) (calls : List Call) :
    shownOf id calls = (moments id (journal calls)).filterMap Moment.diagnostic? := by
  rw [shownOf, diagnostics_eq]
  refine filter_filterMap_moment Moment.diagnostic? Diagnostic.target ?_ id (journal calls)
  intro m diagnostic h
  unfold Moment.diagnostic? at h
  split at h
  · obtain ⟨fault, -, rfl⟩ := Option.map_eq_some_iff.mp h
    rfl
  · cases h

end Engine

/-! ## The diagnostics of one life -/

namespace Life

variable {newborn : Target} {past : List Moment} {now : Option Target}

/-- The identity of a target is the same at every moment of its life. -/
theorem identity_of_mem (h : Life newborn past now) :
    ∀ m ∈ past, m.target.identity = newborn.identity := by
  intro m hm
  obtain ⟨before, after, rfl⟩ := List.append_of_mem hm
  exact h.split.1.identity

end Life

namespace Engine

variable {calls : List Call} {t : Target}

/-- A target that is not to show its faults shows none. -/
theorem shownOf_of_hidden (h : t ∈ created calls) (hhidden : t.config.showErrors = false) :
    shownOf t.id calls = [] := by
  rw [shownOf_eq]
  refine List.filterMap_eq_nil_iff.mpr fun m hm => ?_
  have hconfig : m.target.config = t.config :=
    congrArg Identity.config ((life_of_created h).identity_of_mem m hm)
  rw [Moment.diagnostic?, hconfig, hhidden]
  rfl

/-- What was wrong with the payloads for a target in a run, in the order in which they were
handled. -/
def complaints (id : Nat) (calls : List Call) : List (ErrorKind × String) :=
  (moments id (journal calls)).filterMap Moment.complaint?

/-- One that is shows what is wrong with its payloads. -/
theorem shownOf_of_shown (h : t ∈ created calls) (hshown : t.config.showErrors = true) :
    shownOf t.id calls = (complaints t.id calls).map fun fault =>
      ⟨t.id, t.address, t.protocol, fault.1, fault.2⟩ := by
  rw [shownOf_eq, complaints, List.map_filterMap]
  refine List.filterMap_congr fun m hm => ?_
  have hidentity := (life_of_created h).identity_of_mem m hm
  have hid : m.target.id = t.id := congrArg Identity.id hidentity
  have haddress : m.target.address = t.address := congrArg Identity.address hidentity
  have hprotocol : m.target.protocol = t.protocol := congrArg Identity.protocol hidentity
  have hconfig : m.target.config = t.config := congrArg Identity.config hidentity
  have hready : m.target.Ready := ready_of_journal (mem_moments.mp hm).1
  rw [Moment.diagnostic?, hconfig, if_pos hshown, Moment.fault_eq hready, hid, haddress, hprotocol]

/-- Before its last moment a target has heard nothing worse than a reply out of order. -/
theorem ordering_of_active {newborn t : Target} {past : List Moment}
    (h : Life newborn past (some t)) {fault : ErrorKind × String}
    (hfault : fault ∈ past.filterMap Moment.complaint?) : fault.1 = .orderingError := by
  obtain ⟨m, hm, hcomplaint⟩ := List.mem_filterMap.mp hfault
  obtain ⟨kind, text⟩ := fault
  rcases hfatal : kind.isFatal with _ | _
  · cases kind <;> first | rfl | cases hfatal
  · have hbreaks := Moment.breaks_iff_complaint?.mpr ⟨⟨text, hcomplaint⟩, hfatal⟩
    exact absurd hbreaks (Moment.not_breaks_of_goesOn (h.goesOn m hm) kind)

theorem ordering_of_not_last (h : t ∈ created calls) :
    ∀ fault ∈ (complaints t.id calls).dropLast, fault.1 = .orderingError := by
  have hlife := life_of_created h
  intro fault hfault
  unfold complaints at hfault
  rcases (moments t.id (journal calls)).eq_nil_or_concat with hnone | ⟨past, m, hmoments⟩
  · rw [hnone] at hfault
    cases hfault
  · rw [List.concat_eq_append] at hmoments
    rw [hmoments] at hlife hfault
    -- whatever the last moment adds, the ones before it are all that is left
    have hpast : fault ∈ past.filterMap Moment.complaint? := by
      rw [List.filterMap_append] at hfault
      rcases hcomplaint : m.complaint? with _ | last
      · rw [List.filterMap_cons_none hcomplaint, List.filterMap_nil, List.append_nil] at hfault
        exact List.mem_of_mem_dropLast hfault
      · rw [List.filterMap_cons_some hcomplaint, List.filterMap_nil, List.dropLast_concat] at hfault
        exact hfault
    exact ordering_of_active hlife.split.1 hpast

/-- A report that says an error has the last one, and its text. -/
theorem last_of_report (h : t ∈ created calls) {report : Report}
    (hreport : report ∈ reportsOn t.id calls) {kind : ErrorKind}
    (hstatus : report.status = .error kind) :
    kind.isFatal = true ∧ ∃ text, (complaints t.id calls).getLast? = some (kind, text) ∧
      report.error = some text := by
  obtain ⟨past, m, hmoments, -, hm⟩ := life_of_reportsOn (life_of_created h) hreport
  have hready : m.target.Ready :=
    ready_of_journal (mem_moments.mp (hmoments ▸ List.mem_concat_self)).1
  have hbreaks := (m.status_error_iff hready hm).mp hstatus
  obtain ⟨text, hfault, htext⟩ := hbreaks.fault
  rw [Moment.fault_eq hready] at hfault
  obtain ⟨-, status, rfl⟩ := Moment.report?_eq hm
  refine ⟨(Moment.breaks_iff.mp hbreaks).2, text, ?_, htext⟩
  rw [complaints, hmoments, List.filterMap_append, List.filterMap_cons_some hfault,
    List.filterMap_nil, List.getLast?_concat]

/-- If the last error ends a query, there is a report that says it. -/
theorem report_of_last (h : t ∈ created calls) {fault : ErrorKind × String}
    (hlast : (complaints t.id calls).getLast? = some fault) (hfatal : fault.1.isFatal = true) :
    ∃ report ∈ reportsOn t.id calls, report.status = .error fault.1 := by
  have hlife := life_of_created h
  unfold complaints at hlast
  rw [reportsOn_eq]
  rcases (moments t.id (journal calls)).eq_nil_or_concat with hnone | ⟨past, m, hmoments⟩
  · rw [hnone] at hlast
    cases hlast
  · rw [List.concat_eq_append] at hmoments
    rw [hmoments] at hlife hlast ⊢
    rw [List.filterMap_append] at hlast
    rcases hcomplaint : m.complaint? with _ | last
    · -- it would be one of those before, which end nothing
      rw [List.filterMap_cons_none hcomplaint, List.filterMap_nil, List.append_nil] at hlast
      rw [ordering_of_active hlife.split.1 (List.mem_of_getLast? hlast)] at hfatal
      cases hfatal
    · rw [List.filterMap_cons_some hcomplaint, List.filterMap_nil, List.getLast?_concat] at hlast
      obtain rfl := Option.some.inj hlast
      have hbreaks : m.Breaks last.1 :=
        Moment.breaks_iff_complaint?.mpr ⟨⟨last.2, hcomplaint⟩, hfatal⟩
      have hreport : m.report? = some (m.reaction.target.report (.error last.1)) := by
        rw [Moment.report?, Reaction.report?, hbreaks.over]
        exact if_neg fun hsilent => by cases hsilent.2
      exact ⟨_, List.mem_filterMap.mpr ⟨m, List.mem_concat_self, hreport⟩, rfl⟩

/-- **Diagnostics mirror the run.** A target that is not to show its faults shows none. One that
is shows, in order, one diagnostic for each payload that was parsed with an error, with this
error and what was wrong; all but the last are errors of ordering, and the last ends a query
just if the report on the target says an error, which is then the same, with the same text. And
whether faults are shown makes no difference to what is queued and reported, as little as the
options by name. -/
theorem diagnostics_mirror :
    (∀ calls : List Call, ∀ t ∈ created calls,
      (t.config.showErrors = false → shownOf t.id calls = []) ∧
      (t.config.showErrors = true →
        shownOf t.id calls = (complaints t.id calls).map (fun fault =>
          ⟨t.id, t.address, t.protocol, fault.1, fault.2⟩) ∧
        (∀ d ∈ (shownOf t.id calls).dropLast, d.kind = .orderingError) ∧
        ((∃ d, (shownOf t.id calls).getLast? = some d ∧ d.kind.isFatal = true) ↔
          ∃ report ∈ reportsOn t.id calls, ∃ kind, report.status = .error kind) ∧
        ∀ report ∈ reportsOn t.id calls, ∀ kind, report.status = .error kind →
          ∃ d, (shownOf t.id calls).getLast? = some d ∧ d.kind = kind ∧
            report.error = some d.message)) ∧
    ∀ calls calls' : List Call, calls.map Call.hushed = calls'.map Call.hushed →
      answers calls = answers calls' ∧ queued calls = queued calls' ∧
        reported calls = reported calls' := by
  refine ⟨fun calls t ht => ⟨shownOf_of_hidden ht, fun hshown => ?_⟩, fun _ _ => run_alike⟩
  rw [shownOf_of_shown ht hshown]
  refine ⟨rfl, ?_, ⟨?_, ?_⟩, ?_⟩
  · rw [← List.map_dropLast]
    intro d hd
    obtain ⟨fault, hfault, rfl⟩ := List.mem_map.mp hd
    exact ordering_of_not_last ht fault hfault
  · rw [List.getLast?_map]
    rintro ⟨d, hlast, hfatal⟩
    obtain ⟨fault, hfault, rfl⟩ := Option.map_eq_some_iff.mp hlast
    obtain ⟨report, hreport, hstatus⟩ := report_of_last ht hfault hfatal
    exact ⟨report, hreport, fault.1, hstatus⟩
  · rintro ⟨report, hreport, kind, hstatus⟩
    obtain ⟨hfatal, text, hlast, -⟩ := last_of_report ht hreport hstatus
    exact ⟨_, by rw [List.getLast?_map, hlast]; rfl, hfatal⟩
  · intro report hreport kind hstatus
    obtain ⟨-, text, hlast, htext⟩ := last_of_report ht hreport hstatus
    exact ⟨_, by rw [List.getLast?_map, hlast]; rfl, rfl, htext⟩

/-- A query whose status comes twice and is followed by nonsense, with its faults shown or
not. -/
def stammering (showErrors : Bool) : List Call :=
  [.add .unicast "a2s" ⟨"192.0.2.1", 27015⟩ { wantPlayers := true, showErrors } 0 0,
    .receive ⟨"192.0.2.1", 27015⟩ shortStatus 1, .receive ⟨"192.0.2.1", 27015⟩ shortStatus 2,
    .receive ⟨"192.0.2.1", 27015⟩ [0xFF] 3]

/-- The second status is out of order, and the nonsense is what the report says. Shown or not,
the reports are the same. -/
theorem diagnostics_mirror_stammering :
    (shownOf 1 (stammering true)).map Diagnostic.kind = [.orderingError, .malformedPacket] ∧
    (∃ report ∈ reportsOn 1 (stammering true), ∃ kind, report.status = .error kind) ∧
    shownOf 1 (stammering false) = [] ∧
    reported (stammering true) = reported (stammering false) := by
  obtain ⟨hmirror, halike⟩ := diagnostics_mirror
  have hcreated : ∀ showErrors, ∃ t ∈ created (stammering showErrors),
      t.id = 1 ∧ t.config.showErrors = showErrors := by
    intro showErrors
    have hone : (created (stammering showErrors)).map (fun t => (t.id, t.config.showErrors))
        = [(1, showErrors)] := by
      cases showErrors <;> decide +kernel
    obtain ⟨t, ht, hpair⟩ := List.mem_map.mp (hone ▸ List.mem_singleton_self _)
    obtain ⟨hid, hshown⟩ := Prod.mk.inj hpair
    exact ⟨t, ht, hid, hshown⟩
  have hkinds : (shownOf 1 (stammering true)).map Diagnostic.kind
      = [.orderingError, .malformedPacket] := by decide +kernel
  obtain ⟨t, ht, hid, hshown⟩ := hcreated true
  obtain ⟨-, -, hfatal, -⟩ := (hmirror (stammering true) t ht).2 hshown
  obtain ⟨t', ht', hid', hhidden⟩ := hcreated false
  have hnone := (hmirror (stammering false) t' ht').1 hhidden
  rw [hid] at hfatal
  rw [hid'] at hnone
  refine ⟨hkinds, hfatal.mp ?_, hnone, (halike _ _ rfl).2.2⟩
  have hlast := congrArg List.getLast? hkinds
  rw [List.getLast?_map] at hlast
  obtain ⟨d, hd, hkind⟩ := Option.map_eq_some_iff.mp hlast
  exact ⟨d, hd, by rw [hkind]; rfl⟩

end Engine

end ServerProbe
