/-
Every target is reported once.

Ids are given in order, so no two targets have the same. A target lives its life, and a
life ends with the first moment at which the target is over; only that moment leaves a
report, and it leaves none just if the target is a broadcast that ends without an error.
So each target that was created is active and not reported, or has ended and was reported
once, or was such a broadcast. The report waits until the reports are taken, and is gone
from then on. What is taken comes in the order of the ids, and since there are no two
reports on one target the ids ascend strictly. Nothing happens any more to a target that has
ended: no datagram is queued for it, and it is not reported again.
-/
import ServerProbe.Proofs.Life

set_option autoImplicit false

namespace ServerProbe

/-! ## Reports of one life -/

/-- The moment that ends a target leaves a report, unless the target is a broadcast. -/
theorem Moment.report?_cases {m : Moment} (hover : m.reaction.fate ≠ .goesOn) :
    (∃ report, m.report? = some report) ∨ (m.target.mode = .broadcast ∧ m.report? = none) := by
  unfold Moment.report? Reaction.report?
  rcases hfate : m.reaction.fate with _ | status
  · exact absurd hfate hover
  · dsimp only
    split
    · next hsilent =>
      right
      rw [Moment.reaction, Target.react_mode] at hsilent
      exact ⟨hsilent.1, rfl⟩
    · exact .inl ⟨_, rfl⟩

/-- A target that goes on is not reported. -/
theorem Moment.report?_of_goesOn {m : Moment} (h : m.reaction.fate = .goesOn) :
    m.report? = none := by
  rw [Moment.report?, Reaction.report?, h]

namespace Life

variable {newborn : Target} {past : List Moment}

/-- An active target has gone on at every moment of its life. -/
theorem goesOn {t : Target} (h : Life newborn past (some t)) :
    ∀ m ∈ past, m.reaction.fate = .goesOn := by
  intro m hm
  obtain ⟨before, after, rfl⟩ := List.append_of_mem hm
  by_contra hover
  cases (h.split.2 hover).2

theorem reports_of_active {t : Target} (h : Life newborn past (some t)) :
    past.filterMap Moment.report? = [] := by
  apply List.filterMap_eq_nil_iff.mpr
  intro m hm
  exact Moment.report?_of_goesOn (h.goesOn m hm)

/-- A life that is over has ended with its last moment. -/
theorem ended (h : Life newborn past none) : ∃ before m, past = before ++ [m] ∧
    Life newborn before (some m.target) ∧ m.reaction.fate ≠ .goesOn := by
  generalize hnow : (none : Option Target) = now at h
  cases h with
  | born => cases hnow
  | noted => cases hnow
  | @acted before m hbefore =>
    refine ⟨before, m, rfl, hbefore, ?_⟩
    intro hfate
    rw [Moment.after?, if_pos hfate] at hnow
    cases hnow

/-- A life that is over has left one report, or none if it was that of a broadcast. -/
theorem reports_of_ended (h : Life newborn past none) :
    (∃ report, past.filterMap Moment.report? = [report]) ∨
    (newborn.mode = .broadcast ∧ past.filterMap Moment.report? = []) := by
  obtain ⟨before, m, rfl, hbefore, hover⟩ := h.ended
  rw [List.filterMap_append, hbefore.reports_of_active, List.nil_append]
  rcases Moment.report?_cases hover with ⟨report, hreport⟩ | ⟨hmode, hreport⟩
  · left
    rw [List.filterMap_cons_some hreport, List.filterMap_nil]
    exact ⟨report, rfl⟩
  · right
    rw [List.filterMap_cons_none hreport, List.filterMap_nil]
    exact ⟨(congrArg Identity.mode hbefore.identity).symm.trans hmode, rfl⟩

/-- However it stands with a life, it leaves one report at most. -/
theorem reports_le {now : Option Target} (h : Life newborn past now) :
    (past.filterMap Moment.report?).length ≤ 1 := by
  rcases now with _ | t
  · rcases h.reports_of_ended with ⟨report, hreports⟩ | ⟨-, hreports⟩
    · rw [hreports, List.length_singleton]
    · rw [hreports]
      exact Nat.zero_le 1
  · rw [h.reports_of_active]
    exact Nat.zero_le 1

end Life

namespace Engine

/-! ## Ids -/

/-- The targets that were created in a run, as they were then. -/
def created (calls : List Call) : List Target := (journal calls).filterMap Event.created?

/-- The ids that a call tells its caller. -/
def announced (e : Engine) (call : Call) : List Nat :=
  match (e.perform call).2 with
  | .added id => [id]
  | _ => []

/-- **Ids are given in order.** -/
theorem Told.ids {past : List Event} {e : Engine} (h : Told past e) :
    (past.filterMap Event.created?).map Target.id
        = List.range' 1 (past.filterMap Event.created?).length ∧
      e.nextId = 1 + (past.filterMap Event.created?).length := by
  induction h with
  | start => exact ⟨rfl, rfl⟩
  | @tell past e event htold hfits ih =>
    obtain ⟨hids, hnext⟩ := ih
    rw [tell_nextId htold.wellKept hfits, List.filterMap_append]
    rcases hcreated : event.created? with _ | t
    · rw [List.filterMap_cons_none hcreated, List.filterMap_nil, List.append_nil]
      exact ⟨hids, hnext⟩
    · rw [List.filterMap_cons_some hcreated, List.filterMap_nil, List.map_append,
        List.length_append, List.length_singleton, List.range'_1_concat, hids, List.map_singleton,
        hfits.created_id hcreated, hnext, Option.toList_some, List.length_singleton]
      exact ⟨rfl, Nat.add_assoc _ _ _⟩
  | take _ hsame _ ih =>
    rw [hsame.nextId]
    exact ih

/-- A host that answered a broadcast is a target that is asked at its own address. -/
theorem Told.mode_of_parent {past : List Event} {e : Engine} (h : Told past e) {event : Event}
    (hevent : event ∈ past) {t : Target} (hcreated : event.created? = some t)
    (hparent : t.parent ≠ none) : t.mode = .unicast := by
  obtain ⟨before, after, rfl⟩ := List.append_of_mem hevent
  obtain ⟨e₀, -, hfits⟩ := h.split
  cases hfits with
  | added =>
    obtain rfl := Option.some.inj hcreated
    exact absurd rfl hparent
  | spawned =>
    obtain rfl := Option.some.inj hcreated
    rfl
  | reacted => cases hcreated

theorem announced_story (e : Engine) (call : Call) :
    (e.announced call).Sublist (((e.story call).filterMap Event.created?).map Target.id) := by
  cases call with
  | add mode protocol address config nonce now =>
    rcases e.answer_add mode protocol address config nonce now with ⟨error, h⟩ | ⟨id, h⟩
    · rw [announced, h]
      exact List.nil_sublist _
    · obtain ⟨p, -, -, -, hstory⟩ := story_of_added h
      rw [announced, h, hstory]
      exact List.Sublist.refl _
  | deliver id payload now =>
    rcases e.answer_deliver id payload now with ⟨error, h⟩ | h
    · rw [announced, h]
      exact List.nil_sublist _
    · rw [announced, h]
      exact List.nil_sublist _
  | _ => exact List.nil_sublist _

/-- The ids that the callers are told are ids of targets that were created, in their order. -/
theorem announced_created (calls : List Call) :
    (collect announced {} calls).Sublist ((created calls).map Target.id) := by
  induction calls using List.reverseRecOn with
  | nil => exact List.Sublist.refl _
  | append_singleton calls call ih =>
    rw [created, journal, collect_concat, collect_concat, List.filterMap_append, List.map_append]
    exact ih.append (announced_story _ call)

/-! ## Reports -/

/-- The reports on a target that were handed out in a run. -/
def handedOut (id : Nat) (calls : List Call) : List Report :=
  (collect taken {} calls).filter fun report => report.id == id

/-- The reports on a target that wait to be taken after a run. -/
def held (id : Nat) (calls : List Call) : List Report :=
  (run calls).completed.filter fun report => report.id == id

theorem reportsOn_append (id : Nat) (calls : List Call) :
    reportsOn id calls = handedOut id calls ++ held id calls := by
  rw [reportsOn, reported, List.filter_append, handedOut, held]

theorem life_of_created {calls : List Call} {t : Target} (h : t ∈ created calls) :
    Life t (moments t.id (journal calls)) ((run calls).target? t.id) := by
  obtain ⟨event, hevent, hcreated⟩ := List.mem_filterMap.mp h
  exact (told_journal calls).life hevent hcreated

/-- A report on a target is left by the last moment of its life. -/
theorem life_of_reportsOn {id : Nat} {calls : List Call} {newborn : Target} {now : Option Target}
    (hlife : Life newborn (moments id (journal calls)) now) {report : Report}
    (h : report ∈ reportsOn id calls) : ∃ past m, moments id (journal calls) = past ++ [m] ∧
      Life newborn past (some m.target) ∧ m.report? = some report := by
  rw [reportsOn_eq] at h
  obtain ⟨m, hm, hreport⟩ := List.mem_filterMap.mp h
  obtain ⟨past, rest, hmoments⟩ := List.append_of_mem hm
  rw [hmoments] at hlife ⊢
  obtain ⟨hbefore, hend⟩ := hlife.split
  obtain rfl : rest = [] := (hend (Moment.report?_eq hreport).1).1
  exact ⟨past, m, rfl, hbefore, hreport⟩

/-- Whoever is reported was created. -/
theorem created_of_reported {calls : List Call} {report : Report} (h : report ∈ reported calls) :
    ∃ t ∈ created calls, t.id = report.id := by
  obtain ⟨m, hm, hreport⟩ := moment_of_reported h
  obtain ⟨other, hother, t, hcreated, hid⟩ := (told_journal calls).moment_created hm
  exact ⟨t, List.mem_filterMap.mpr ⟨other, hother, hcreated⟩,
    hid.trans (Moment.report?_id hreport).symm⟩

/-- No two reports that wait are on the same target. -/
theorem completed_nodup (calls : List Call) :
    ((run calls).completed.map Report.id).Nodup := by
  rw [List.nodup_iff_count_le_one]
  intro id
  -- what waits is a part of what was reported
  have hcount : ((run calls).completed.map Report.id).count id = (held id calls).length := by
    rw [held, List.count, List.countP_map, List.countP_eq_length_filter]
    rfl
  have hle : (held id calls).length ≤ (reportsOn id calls).length := by
    rw [reportsOn_append, List.length_append]
    exact Nat.le_add_left _ _
  rw [hcount]
  by_contra hmany
  obtain ⟨report, hreport⟩ := List.exists_mem_of_ne_nil (held id calls) (by
    intro hnone
    rw [hnone] at hmany
    exact hmany (Nat.zero_le 1))
  obtain ⟨hcompleted, hid⟩ := List.mem_filter.mp hreport
  obtain ⟨t, ht, htid⟩ := created_of_reported (List.mem_append_right _ hcompleted :
    report ∈ reported calls)
  have hone := (life_of_created ht).reports_le
  rw [htid, eq_of_beq hid, ← reportsOn_eq] at hone
  exact hmany (hle.trans hone)

/-- The reports that are taken are those that waited, and then none does. -/
theorem takeCompleted_all (e : Engine) : e.takeCompleted.2.Perm e.completed ∧
    e.takeCompleted.1 = { e with completed := [] } :=
  ⟨e.completed.mergeSort_perm _, rfl⟩

/-- **Taken reports are in the order of their ids, without repetition.** -/
theorem takeCompleted_ascending (calls : List Call) :
    ((run calls).takeCompleted.2.map Report.id).Pairwise (· < ·) := by
  have hperm := (takeCompleted_all (run calls)).1
  have hnodup := (hperm.map Report.id).nodup_iff.mpr (completed_nodup calls)
  have hsorted : ((run calls).completed.mergeSort fun a b => a.id ≤ b.id).Pairwise
      fun a b => decide (a.id ≤ b.id) = true := by
    apply List.pairwise_mergeSort
    · intro a b c hab hbc
      rw [decide_eq_true_iff] at hab hbc ⊢
      omega
    · intro a b
      rw [Bool.or_eq_true, decide_eq_true_iff, decide_eq_true_iff]
      omega
  -- what does not descend and does not repeat ascends
  have hboth := hsorted.and (List.pairwise_map.mp hnodup)
  apply List.pairwise_map.mpr
  refine hboth.imp fun {a b} hab => ?_
  have hle := of_decide_eq_true hab.1
  have hne := hab.2
  omega

/-! ## After the end -/

/-- Nothing is queued or reported any more for a target that has ended. -/
theorem ended_for_good {calls : List Call} {t : Target} (h : t ∈ created calls)
    (hgone : (run calls).target? t.id = none) (later : List Call) :
    (run (calls ++ later)).target? t.id = none ∧
      sentTo t.id (calls ++ later) = sentTo t.id calls ∧
      reportsOn t.id (calls ++ later) = reportsOn t.id calls := by
  obtain ⟨event, hevent, hcreated⟩ := List.mem_filterMap.mp h
  have htold := told_journal calls
  have hgiven := htold.lt_nextId hevent hcreated
  obtain ⟨hmoments, hend⟩ := htold.wellKept.gone_run hgiven hgone later
  have hsame : moments t.id (journal (calls ++ later)) = moments t.id (journal calls) := by
    rw [journal_append, moments_append, hmoments, List.append_nil]
  rw [run_append, sentTo_eq, sentTo_eq, reportsOn_eq, reportsOn_eq, hsame]
  exact ⟨hend, rfl, rfl⟩

/-- **Every target is reported once.** After every run:

* the targets that were created, hosts that answered a broadcast among them, have the ids
  from 1 on, each its own; the callers were told of ids among these, and whoever was
  reported is one of these targets;
* each of them is active and was not reported, or it has ended and there is one report on
  it, which waits to be taken or was handed out once, or it is a broadcast that has ended
  and is not reported at all;
* a target that is no broadcast, so every host that answered one, is reported when it has
  ended;
* the reports that are taken next are all that wait, and ascend strictly in their ids; then
  none waits, and nothing else has changed;
* whatever comes later, a target that has ended stays so, and nothing more is queued for it
  or reported on it. -/
theorem reported_once (calls : List Call) :
    ((created calls).map Target.id = List.range' 1 (created calls).length ∧
      (run calls).nextId = 1 + (created calls).length ∧
      (collect announced {} calls).Sublist ((created calls).map Target.id) ∧
      ∀ report ∈ reported calls, ∃ t ∈ created calls, t.id = report.id) ∧
    (∀ t ∈ created calls,
      ((run calls).target? t.id ≠ none ∧ handedOut t.id calls = [] ∧ held t.id calls = []) ∨
      ((run calls).target? t.id = none ∧ ∃ report,
        (handedOut t.id calls = [] ∧ held t.id calls = [report]) ∨
        (handedOut t.id calls = [report] ∧ held t.id calls = [])) ∨
      ((run calls).target? t.id = none ∧ t.mode = .broadcast ∧
        handedOut t.id calls = [] ∧ held t.id calls = [])) ∧
    (∀ t ∈ created calls, t.mode = .unicast ∨ t.parent ≠ none →
      (run calls).target? t.id = none → ∃ report, reportsOn t.id calls = [report]) ∧
    ((run calls).takeCompleted.2.Perm (run calls).completed ∧
      ((run calls).takeCompleted.2.map Report.id).Pairwise (· < ·) ∧
      (run calls).takeCompleted.1 = { run calls with completed := [] }) ∧
    ∀ t ∈ created calls, (run calls).target? t.id = none → ∀ later,
      (run (calls ++ later)).target? t.id = none ∧
      sentTo t.id (calls ++ later) = sentTo t.id calls ∧
      reportsOn t.id (calls ++ later) = reportsOn t.id calls := by
  obtain ⟨hids, hnext⟩ := (told_journal calls).ids
  obtain ⟨hall, hnone⟩ := takeCompleted_all (run calls)
  refine ⟨⟨hids, hnext, announced_created calls, fun report => created_of_reported⟩, ?_, ?_,
    ⟨hall, takeCompleted_ascending calls, hnone⟩, fun t ht hgone => ended_for_good ht hgone⟩
  · intro t ht
    have hlife := life_of_created ht
    rcases hnow : (run calls).target? t.id with _ | active
    · right
      rw [hnow] at hlife
      rcases hlife.reports_of_ended with ⟨report, hreports⟩ | ⟨hmode, hreports⟩
      · left
        rw [← reportsOn_eq, reportsOn_append, List.append_eq_singleton_iff] at hreports
        exact ⟨rfl, report, hreports⟩
      · right
        rw [← reportsOn_eq, reportsOn_append, List.append_eq_nil_iff] at hreports
        exact ⟨rfl, hmode, hreports⟩
    · left
      rw [hnow] at hlife
      have hreports := hlife.reports_of_active
      rw [← reportsOn_eq, reportsOn_append, List.append_eq_nil_iff] at hreports
      exact ⟨Option.some_ne_none active, hreports⟩
  · intro t ht hkind hgone
    have hmode : t.mode = .unicast := by
      rcases hkind with hmode | hparent
      · exact hmode
      · obtain ⟨event, hevent, hcreated⟩ := List.mem_filterMap.mp ht
        exact (told_journal calls).mode_of_parent hevent hcreated hparent
    have hlife := life_of_created ht
    rw [hgone] at hlife
    rw [reportsOn_eq]
    rcases hlife.reports_of_ended with hreports | ⟨hbroadcast, -⟩
    · exact hreports
    · rw [hmode] at hbroadcast
      cases hbroadcast

/-- A broadcast, a host that answers it with nonsense, and a server that refuses; when time
is up, another server. -/
def mixed : List Call :=
  [.add .broadcast "a2s" ⟨"192.0.2.255", 27015⟩ { retries := 0 } 0 0,
    .add .unicast "a2s" ⟨"192.0.2.1", 27015⟩ { retries := 0 } 0 0,
    .receive ⟨"192.0.2.7", 27015⟩ [0xFF] 1,
    .sendFailed 2 { kind := .connectionRefused },
    .tick 600000000,
    .add .unicast "a2s" ⟨"192.0.2.2", 27015⟩ { retries := 0 } 0 700000000]

/-- The broadcast has ended without a report, the reports on the first server and on the
host wait, and the last server is active. When the reports have been taken, and time is up
again, there still is one report on the first server, and no further datagram for it. -/
theorem reported_once_mixed :
    (run mixed).nextId = 5 ∧ (run mixed).targets.map Target.id = [4] ∧
    reportsOn 1 mixed = [] ∧ (held 2 mixed).length = 1 ∧ (held 3 mixed).length = 1 ∧
    (reportsOn 2 (mixed ++ [.takeCompleted, .tick 1200000000])).length = 1 ∧
    sentTo 2 (mixed ++ [.takeCompleted, .tick 1200000000]) = sentTo 2 mixed := by
  have hnext : (run mixed).nextId = 5 := by decide +kernel
  have hgone : (run mixed).target? 2 = none := by decide +kernel
  have hone : (reportsOn 2 mixed).length = 1 := by decide +kernel
  obtain ⟨⟨hids, hcount, -⟩, -, -, -, hlater⟩ := reported_once mixed
  -- four targets were created, so one of them has the second id
  have hfour : (created mixed).length = 4 := by omega
  have hmem : 2 ∈ (created mixed).map Target.id := by
    rw [hids, hfour]
    decide
  obtain ⟨t, ht, hid⟩ := List.mem_map.mp hmem
  have hended := hlater t ht
  rw [hid] at hended
  obtain ⟨-, hsent, hreports⟩ := hended hgone [.takeCompleted, .tick 1200000000]
  rw [← hreports] at hone
  exact ⟨hnext, by decide +kernel, by decide +kernel, by decide +kernel, by decide +kernel,
    hone, hsent⟩

end Engine

end ServerProbe
