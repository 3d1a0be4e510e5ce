/-
The life of one target.

A run interleaves the targets; here one of them is taken out of it. `moments` picks the
moments of one id from a list of events, and `Life` says that they follow one another:
each starts with the target that the one before ended with, a broadcast only having
noted who answered in between, and none comes after the one that ends the target.
`Told.life` is the reason why whatever holds along every life holds of every target in
every run.
-/
import ServerProbe.Proofs.Journal

set_option autoImplicit false

namespace ServerProbe

/-! ## Moments of one target -/

/-- The moments of the target with an id. -/
def moments (id : Nat) (events : List Event) : List Moment :=
  (events.filterMap Event.moment?).filter fun m => m.target.id == id

theorem moments_append (id : Nat) (events more : List Event) :
    moments id (events ++ more) = moments id events ++ moments id more := by
  rw [moments, List.filterMap_append, List.filter_append, moments, moments]

theorem mem_moments {id : Nat} {events : List Event} {m : Moment} :
    m ∈ moments id events ↔ .reacted m ∈ events ∧ m.target.id = id := by
  simp only [moments, List.mem_filter, List.mem_filterMap, beq_iff_eq, and_congr_left_iff]
  intro _
  constructor
  · rintro ⟨event, hevent, h⟩
    cases event with
    | reacted moment =>
      obtain rfl : moment = m := Option.some.inj h
      exact hevent
    | added t => cases h
    | spawned parent child => cases h
  · intro h
    exact ⟨_, h, rfl⟩

theorem moments_reacted (m : Moment) : moments m.target.id [.reacted m] = [m] := by
  simp [moments, Event.moment?]

theorem moments_of_not_concerns {id : Nat} {event : Event} (h : ¬event.Concerns id) :
    moments id [event] = [] := by
  refine List.eq_nil_iff_forall_not_mem.mpr fun m hm => ?_
  obtain ⟨hevent, hid⟩ := mem_moments.mp hm
  obtain rfl : .reacted m = event := by simpa using hevent
  exact h hid

/-! ## Moments of one payload and of one tick -/

/-- At every moment of a payload something is heard, by what the target has become. -/
theorem Target.digest_forall {P : Target → Prop} {now : Instant}
    (heard : ∀ t payload, P t → P (t.hear payload now).target) {t : Target} (ht : P t)
    (payload : List UInt8) :
    ∀ m ∈ t.digest payload now, P m.target ∧ ∃ whole, m.cue = .hear whole now := by
  induction t, payload using Target.digest_induction now with
  | last t payload hwaiting =>
    intro m hm
    rw [Target.digest_of_none hwaiting] at hm
    obtain rfl : m = _ := by simpa using hm
    exact ⟨ht, payload, rfl⟩
  | more t payload whole hwaiting ih =>
    intro m hm
    rw [Target.digest_of_some hwaiting] at hm
    rcases List.mem_cons.mp hm with rfl | hrest
    · exact ⟨ht, payload, rfl⟩
    · exact ih (heard t payload ht) m hrest

theorem Target.digest_id (t : Target) (payload : List UInt8) (now : Instant) :
    ∀ m ∈ t.digest payload now, m.target.id = t.id :=
  fun m hm => (digest_forall (P := fun t' => t'.id = t.id)
    (fun t' heard ht' => (t'.react_id (.hear heard now)).trans ht') rfl payload m hm).1

theorem moments_map_reacted (id : Nat) (ms : List Moment) :
    moments id (ms.map .reacted) = ms.filter fun m => m.target.id == id := by
  rw [moments, List.filterMap_map]
  congr 1
  exact List.filterMap_some

theorem moments_digest (t : Target) (payload : List UInt8) (now : Instant) (id : Nat) :
    moments id ((t.digest payload now).map .reacted)
      = if t.id = id then t.digest payload now else [] := by
  rw [moments_map_reacted]
  split
  · next hid =>
    exact List.filter_eq_self.mpr fun m hm => by simp [t.digest_id payload now m hm, hid]
  · next hid =>
    exact List.filter_eq_nil_iff.mpr fun m hm => by simp [t.digest_id payload now m hm, hid]

namespace Engine

theorem moments_clockEvents (now : Instant) (targets : List Target) (id : Nat) :
    moments id (clockEvents now targets)
      = moments id (clockEvents now (targets.filter fun t => t.id == id)) := by
  -- target by target: those with another id give nothing here
  induction targets with
  | nil => rfl
  | cons t rest ih =>
    by_cases hid : t.id = id
    · rw [List.filter_cons_of_pos (by simpa using hid)]
      rcases hcue : t.clockCue? now with _ | cue
      · simpa [clockEvents, hcue] using ih
      · have hboth : ∀ others, clockEvents now (t :: others)
            = [.reacted ⟨t, cue⟩] ++ clockEvents now others := by
          intro others
          simp [clockEvents, hcue]
        rw [hboth, hboth, moments_append, moments_append, ih]
    · rw [List.filter_cons_of_neg (by simpa using hid)]
      rcases hcue : t.clockCue? now with _ | cue
      · simpa [clockEvents, hcue] using ih
      · have hother : clockEvents now (t :: rest)
            = [.reacted ⟨t, cue⟩] ++ clockEvents now rest := by
          simp [clockEvents, hcue]
        have hnone : moments id [.reacted ⟨t, cue⟩] = [] := moments_of_not_concerns hid
        rw [hother, moments_append, hnone, List.nil_append, ih]

/-- Where ids ascend, there is one target of an id at most. -/
theorem WellKept.filter_id {e : Engine} (h : e.WellKept) (id : Nat) :
    (e.targets.filter fun t => t.id == id) = (e.target? id).toList := by
  -- by induction on the targets: what comes after the one with the id has greater ids
  have along : ∀ targets : List Target, (targets.map Target.id).Pairwise (· < ·) →
      (targets.filter fun t => t.id == id) = (targets.find? fun t => t.id == id).toList := by
    intro targets
    induction targets with
    | nil => exact fun _ => rfl
    | cons t rest ih =>
      intro hascending
      rw [List.map_cons, List.pairwise_cons] at hascending
      by_cases hid : t.id = id
      · have hrest : (rest.filter fun t => t.id == id) = [] := by
          refine List.filter_eq_nil_iff.mpr fun other hother hsame => ?_
          have hlt := hascending.1 other.id (List.mem_map_of_mem hother)
          have heq : other.id = id := by simpa using hsame
          omega
        rw [List.filter_cons_of_pos (by simpa using hid), hrest,
          List.find?_cons_of_pos (by simpa using hid)]
        rfl
      · rw [List.filter_cons_of_neg (by simpa using hid),
          List.find?_cons_of_neg (by simpa using hid)]
        exact ih hascending.2
  exact along e.targets h.ascending

end Engine

/-! ## Lives -/

/-- The moments of one target since it was created, and what it is then. -/
inductive Life (newborn : Target) : List Moment → Option Target → Prop where
  | born : Life newborn [] (some newborn)
  /-- A broadcast notes who has answered. -/
  | noted {past : List Moment} {t : Target} (responders : List Address) :
      Life newborn past (some t) → Life newborn past (some { t with responders })
  | acted {past : List Moment} {m : Moment} : Life newborn past (some m.target) →
      Life newborn (past ++ [m]) m.after?

namespace Life

variable {newborn : Target}

/-- Something that holds at birth and is kept by noting and acting holds of every target
that lives. -/
theorem induction_on {P : List Moment → Target → Prop} (born : P [] newborn)
    (noted : ∀ {past : List Moment} {t : Target} (responders : List Address), P past t →
      P past { t with responders })
    (acted : ∀ {past : List Moment} {m : Moment}, P past m.target →
      P (past ++ [m]) m.reaction.target)
    {past : List Moment} {t : Target} (h : Life newborn past (some t)) : P past t := by
  generalize hnow : some t = now at h
  induction h generalizing t with
  | born =>
    cases hnow
    exact born
  | noted responders _ ih =>
    cases hnow
    exact noted responders (ih rfl)
  | @acted past m _ ih =>
    unfold Moment.after? at hnow
    split at hnow
    · cases hnow
      exact acted (ih rfl)
    · cases hnow

/-- What came before a moment is a life, and nothing comes after the moment that ends a
target. -/
theorem split {before after : List Moment} {m : Moment} {now : Option Target}
    (h : Life newborn (before ++ m :: after) now) : Life newborn before (some m.target) ∧
      (m.reaction.fate ≠ .goesOn → after = [] ∧ now = none) := by
  -- by induction on the life, where the moment stands further and further back
  generalize hall : before ++ m :: after = all at h
  induction h generalizing after with
  | born => simp at hall
  | noted responders _ ih =>
    obtain ⟨hbefore, hover⟩ := ih hall
    refine ⟨hbefore, fun hfate => ?_⟩
    cases (hover hfate).2
  | @acted past last hlife ih =>
    rcases after.eq_nil_or_concat with rfl | ⟨after', last', rfl⟩
    · obtain ⟨rfl, hlast⟩ := List.append_inj' hall rfl
      obtain rfl : m = last := by simpa using hlast
      refine ⟨hlife, fun hfate => ⟨rfl, ?_⟩⟩
      rw [Moment.after?, if_neg hfate]
    · rw [List.concat_eq_append, ← List.cons_append, ← List.append_assoc] at hall
      obtain ⟨hbefore, hover⟩ := ih (List.append_inj' hall rfl).1
      refine ⟨hbefore, fun hfate => ?_⟩
      cases (hover hfate).2

/-- What holds before anything happened, and after every moment of a target that lived up
to then, holds of every life. -/
theorem whole {P : List Moment → Prop} (born : P [])
    (acted : ∀ {before : List Moment} {m : Moment}, Life newborn before (some m.target) →
      P (before ++ [m])) {past : List Moment} {now : Option Target} (h : Life newborn past now) :
    P past := by
  rcases past.eq_nil_or_concat with rfl | ⟨before, m, rfl⟩
  · exact born
  · rw [List.concat_eq_append] at h ⊢
    exact acted h.split.1

end Life

/-! ## What no moment changes -/

/-- What a target is, apart from what happens to it. -/
structure Identity where
  id : Nat
  address : Address
  mode : TargetMode
  parent : Option Nat
  protocol : Protocol
  config : Config
  deriving Repr, DecidableEq

/-- The identity of a target. -/
def Target.identity (t : Target) : Identity where
  id := t.id
  address := t.address
  mode := t.mode
  parent := t.parent
  protocol := t.protocol
  config := t.config

theorem Target.react_identity (t : Target) (cue : Cue) :
    (t.react cue).target.identity = t.identity := by
  obtain ⟨x, m, l, n, h⟩ := t.react_target cue
  rw [h, identity, identity]

theorem Life.identity {newborn t : Target} {past : List Moment}
    (h : Life newborn past (some t)) : t.identity = newborn.identity :=
  h.induction_on (P := fun _ t => t.identity = newborn.identity) rfl (fun _ hpast => hpast)
    fun {_ m} hpast => (m.target.react_identity m.cue).trans hpast

/-- Only a target that is over is reported, and a broadcast only if it has ended with a status;
the report is about the target as its last moment leaves it. -/
theorem Moment.report?_eq_some {m : Moment} {report : Report} (h : m.report? = some report) :
    ∃ status, m.reaction.fate = .over status ∧
      (m.reaction.target.mode = .broadcast → status ≠ none) ∧
      report = m.reaction.target.report (status.getD m.reaction.target.plainStatus) := by
  unfold Moment.report? Reaction.report? at h
  rcases hfate : m.reaction.fate with _ | status
  · rw [hfate] at h
    cases h
  · rw [hfate] at h
    dsimp only at h
    split at h
    · cases h
    · next hsilent =>
      exact ⟨status, rfl, fun hmode hnone => hsilent ⟨hmode, hnone⟩, (Option.some.inj h).symm⟩

theorem Moment.report?_eq {m : Moment} {report : Report} (h : m.report? = some report) :
    m.reaction.fate ≠ .goesOn ∧ ∃ status, report = m.reaction.target.report status := by
  obtain ⟨status, hfate, -, hreport⟩ := Moment.report?_eq_some h
  rw [hfate]
  exact ⟨nofun, _, hreport⟩

theorem Moment.report?_id {m : Moment} {report : Report} (h : m.report? = some report) :
    report.id = m.target.id := by
  obtain ⟨-, status, rfl⟩ := Moment.report?_eq h
  exact m.reaction_id

/-! ## Lives in a run -/

namespace Engine

theorem tell_nextId {e : Engine} (h : e.WellKept) {event : Event} (hfits : e.Fits event) :
    (e.tell event).nextId = e.nextId + event.created?.toList.length := by
  cases hfits with
  | added => rfl
  | spawned => rfl
  | reacted m hmem => exact nextId_enact (h.holds hmem) m.reaction_id

/-- An id that has been given stays given. -/
theorem WellKept.given_tell {e : Engine} (h : e.WellKept) {id : Nat} (hgiven : id < e.nextId)
    {event : Event} (hfits : e.Fits event) : id < (e.tell event).nextId := by
  rw [tell_nextId h hfits]
  omega

theorem Course.nextId_le {e e' : Engine} {events : List Event} (h : Course e events e')
    (he : e.WellKept) : e.nextId + (events.filterMap Event.created?).length ≤ e'.nextId := by
  induction h with
  | nil => exact Nat.le_refl _
  | @cons e e' event rest hfits _ ih =>
    have hrest := ih (he.tell hfits)
    rw [tell_nextId he hfits] at hrest
    rw [List.filterMap_cons]
    rcases hcreated : event.created? with _ | t
    · rw [hcreated] at hrest
      exact hrest
    · rw [hcreated, Option.toList_some, List.length_singleton] at hrest
      rw [List.length_cons]
      omega

theorem WellKept.nextId_after {e : Engine} (h : e.WellKept) (call : Call) :
    e.nextId + ((e.story call).filterMap Event.created?).length ≤ (e.after call).nextId := by
  have hcourse := (course_story h call).nextId_le (h.take call)
  rw [(sameRegister_take e call).nextId] at hcourse
  exact hcourse

theorem WellKept.given_after {e : Engine} (h : e.WellKept) {id : Nat} (hgiven : id < e.nextId)
    (call : Call) : id < (e.after call).nextId := by
  have hle := h.nextId_after call
  omega

/-- An id that has not been given has no moments, and no target was created with it. -/
theorem Told.of_le {past : List Event} {e : Engine} (h : Told past e) {id : Nat}
    (hid : e.nextId ≤ id) : moments id past = [] ∧
      ∀ event ∈ past, ∀ t, event.created? = some t → t.id ≠ id := by
  induction h with
  | start => exact ⟨rfl, fun event hevent => absurd hevent List.not_mem_nil⟩
  | @tell past e event htold hfits ih =>
    rw [tell_nextId htold.wellKept hfits] at hid
    obtain ⟨hmoments, hnew⟩ := ih (by omega)
    refine ⟨?_, ?_⟩
    · -- an event is about a target that is there, whose id has been given
      rw [moments_append, hmoments, List.nil_append]
      refine List.eq_nil_iff_forall_not_mem.mpr fun m hm => ?_
      obtain ⟨hevent, rfl⟩ := mem_moments.mp hm
      obtain rfl : .reacted m = event := by simpa using hevent
      have := htold.wellKept.fresh m.target hfits.target_mem
      omega
    · intro other hother t hcreated
      rcases List.mem_append.mp hother with hpast | hlast
      · exact hnew other hpast t hcreated
      · obtain rfl : other = event := by simpa using hlast
        rw [hcreated, Option.toList_some, List.length_singleton] at hid
        have := hfits.created_id hcreated
        omega
  | take _ hsame _ ih => exact ih (hsame.nextId ▸ hid)

theorem Told.lt_nextId {past : List Event} {e : Engine} (h : Told past e) {event : Event}
    (hevent : event ∈ past) {t : Target} (hcreated : event.created? = some t) :
    t.id < e.nextId := by
  by_contra hid
  exact (h.of_le (Nat.le_of_not_lt hid)).2 event hevent t hcreated rfl

/-- An event goes on with the life of a target whose id has been given. -/
theorem WellKept.life_tell {e : Engine} (hkept : e.WellKept) {id : Nat} (hgiven : id < e.nextId)
    {newborn : Target} {past : List Moment} (hlife : Life newborn past (e.target? id))
    {event : Event} (hfits : e.Fits event) :
    Life newborn (past ++ moments id [event]) ((e.tell event).target? id) := by
  -- only an event that concerns the target can change what is found under its id
  by_cases hconcerns : event.Concerns id
  · cases event with
    | added t =>
      -- the id of a new target is not one that has been given
      have hid := hfits.created_id rfl
      rw [Event.Concerns] at hconcerns
      omega
    | spawned parent child =>
      have hid := hfits.created_id rfl
      rcases hconcerns with rfl | hchild
      · rw [hkept.target?_of_mem hfits.parent_mem] at hlife
        rw [target?_tell_parent hkept hfits]
        exact (List.append_nil _).symm ▸ hlife.noted _
      · omega
    | reacted m =>
      obtain rfl : m.target.id = id := hconcerns
      rw [moments_reacted, target?_tell_reacted hkept hfits]
      rw [hkept.target?_of_mem hfits.target_mem] at hlife
      exact hlife.acted
  · rw [target?_tell_of_ne hkept hfits hconcerns, moments_of_not_concerns hconcerns,
      List.append_nil]
    exact hlife

/-- **Every target that was created lives its life.** -/
theorem Told.life {past : List Event} {e : Engine} (h : Told past e) {event : Event}
    (hevent : event ∈ past) {newborn : Target} (hcreated : event.created? = some newborn) :
    Life newborn (moments newborn.id past) (e.target? newborn.id) := by
  induction h with
  | start => cases hevent
  | @tell past e last htold hfits ih =>
    have hkept := htold.wellKept
    rcases List.mem_append.mp hevent with hpast | hlast
    · rw [moments_append]
      exact hkept.life_tell (htold.lt_nextId hpast hcreated) (ih hpast) hfits
    · obtain rfl : event = last := by simpa using hlast
      have hid : newborn.id = e.nextId := hfits.created_id hcreated
      have hpast : moments newborn.id past = [] := (htold.of_le (Nat.le_of_eq hid.symm)).1
      have hlast : moments newborn.id [event] = [] := by
        cases event with
        | reacted m => cases hcreated
        | added t => rfl
        | spawned parent child => rfl
      rw [moments_append, hpast, hlast, target?_tell_created hkept hfits hcreated]
      exact .born
  | take _ hsame _ ih =>
    rw [hsame.target?]
    exact ih hevent

theorem Course.life {e e' : Engine} {events : List Event} (h : Course e events e')
    (hkept : e.WellKept) {id : Nat} (hgiven : id < e.nextId) {newborn : Target}
    {past : List Moment} (hlife : Life newborn past (e.target? id)) :
    Life newborn (past ++ moments id events) (e'.target? id) := by
  induction h generalizing past with
  | nil => exact (List.append_nil past).symm ▸ hlife
  | @cons e e' event rest hfits _ ih =>
    have hrest := ih (hkept.tell hfits) (hkept.given_tell hgiven hfits)
      (hkept.life_tell hgiven hlife hfits)
    rw [← List.singleton_append, moments_append, ← List.append_assoc]
    exact hrest

/-- A call goes on with the life of every target that is active. -/
theorem WellKept.life_after {e : Engine} (h : e.WellKept) {t : Target} (hmem : t ∈ e.targets)
    (call : Call) : Life t (moments t.id (e.story call)) ((e.after call).target? t.id) := by
  have hsame := sameRegister_take e call
  have hborn : Life t [] ((e.take call).target? t.id) := by
    rw [hsame.target?, h.target?_of_mem hmem]
    exact .born
  exact (course_story h call).life (h.take call) (hsame.nextId.symm ▸ h.fresh t hmem) hborn

/-- Every active target was created. -/
theorem Told.created {past : List Event} {e : Engine} (h : Told past e) {id : Nat}
    (hactive : e.target? id ≠ none) : ∃ event ∈ past, ∃ newborn,
      event.created? = some newborn ∧ newborn.id = id := by
  induction h with
  | start => exact absurd rfl hactive
  | @tell past e last htold hfits ih =>
    have hkept := htold.wellKept
    have hbefore : e.target? id ≠ none → ∃ event ∈ past ++ [last], ∃ newborn,
        event.created? = some newborn ∧ newborn.id = id := by
      intro h
      obtain ⟨event, hevent, hnewborn⟩ := ih h
      exact ⟨event, List.mem_append_left _ hevent, hnewborn⟩
    by_cases hconcerns : last.Concerns id
    · have hnew : last ∈ past ++ [last] := List.mem_append_right _ (List.mem_singleton_self _)
      cases last with
      | added t => exact ⟨_, hnew, t, rfl, hconcerns⟩
      | spawned parent child =>
        rcases hconcerns with rfl | hchild
        · exact hbefore (by rw [hkept.target?_of_mem hfits.parent_mem]; nofun)
        · exact ⟨_, hnew, child, rfl, hchild⟩
      | reacted m =>
        obtain rfl : m.target.id = id := hconcerns
        exact hbefore (by rw [hkept.target?_of_mem hfits.target_mem]; nofun)
    · rw [target?_tell_of_ne hkept hfits hconcerns] at hactive
      exact hbefore hactive
  | take _ hsame _ ih => exact ih (hsame.target? id ▸ hactive)

/-- A target that something happened to was created. -/
theorem Told.moment_created {past : List Event} {e : Engine} (h : Told past e) {m : Moment}
    (hm : .reacted m ∈ past) : ∃ event ∈ past, ∃ newborn,
      event.created? = some newborn ∧ newborn.id = m.target.id := by
  obtain ⟨before, after, rfl⟩ := List.append_of_mem hm
  obtain ⟨e₀, htold, hfits⟩ := h.split
  -- it was active then, so it had been created by then
  have hactive : e₀.target? m.target.id ≠ none := by
    rw [htold.wellKept.target?_of_mem hfits.target_mem]
    exact Option.some_ne_none _
  obtain ⟨event, hbefore, hnewborn⟩ := htold.created hactive
  exact ⟨event, List.mem_append_left _ hbefore, hnewborn⟩

/-! ### Targets that have ended -/

theorem WellKept.gone_tell {e : Engine} (h : e.WellKept) {id : Nat} (hgiven : id < e.nextId)
    (hgone : e.target? id = none) {event : Event} (hfits : e.Fits event) :
    moments id [event] = [] ∧ (e.tell event).target? id = none := by
  -- a target that is new has another id, and one that reacts is active
  have hconcerns : ¬event.Concerns id := by
    intro hconcerns
    cases event with
    | added t =>
      have hid := hfits.created_id rfl
      rw [Event.Concerns] at hconcerns
      omega
    | spawned parent child =>
      have hid := hfits.created_id rfl
      rcases hconcerns with rfl | hchild
      · rw [h.target?_of_mem hfits.parent_mem] at hgone
        cases hgone
      · omega
    | reacted m =>
      obtain rfl : m.target.id = id := hconcerns
      rw [h.target?_of_mem hfits.target_mem] at hgone
      cases hgone
  exact ⟨moments_of_not_concerns hconcerns, (target?_tell_of_ne h hfits hconcerns).trans hgone⟩

theorem Course.gone {e e' : Engine} {events : List Event} (h : Course e events e')
    (hkept : e.WellKept) {id : Nat} (hgiven : id < e.nextId) (hgone : e.target? id = none) :
    moments id events = [] ∧ e'.target? id = none := by
  induction h with
  | nil => exact ⟨rfl, hgone⟩
  | @cons e e' event rest hfits _ ih =>
    obtain ⟨hmoments, hstill⟩ := hkept.gone_tell hgiven hgone hfits
    obtain ⟨hrest, hend⟩ := ih (hkept.tell hfits) (hkept.given_tell hgiven hfits) hstill
    rw [← List.singleton_append, moments_append, hmoments, hrest]
    exact ⟨rfl, hend⟩

theorem WellKept.gone_after {e : Engine} (h : e.WellKept) {id : Nat} (hgiven : id < e.nextId)
    (hgone : e.target? id = none) (call : Call) :
    moments id (e.story call) = [] ∧ (e.after call).target? id = none := by
  have hsame := sameRegister_take e call
  exact (course_story h call).gone (h.take call) (hsame.nextId.symm ▸ hgiven)
    ((hsame.target? id).trans hgone)

/-- **Nothing happens any more to a target that has ended.** -/
theorem WellKept.gone_run {e : Engine} (h : e.WellKept) {id : Nat} (hgiven : id < e.nextId)
    (hgone : e.target? id = none) (later : List Call) :
    moments id (collect story e later) = [] ∧ (later.foldl Engine.after e).target? id = none := by
  induction later generalizing e with
  | nil => exact ⟨rfl, hgone⟩
  | cons call rest ih =>
    obtain ⟨hmoments, hstill⟩ := h.gone_after hgiven hgone call
    obtain ⟨hrest, hend⟩ := ih (h.after call) (h.given_after hgiven call) hstill
    rw [collect, moments_append, hmoments, hrest]
    exact ⟨rfl, hend⟩

/-! ## Targets that were added -/

section Added

variable {mode : TargetMode} {protocol : String} {address : Address} {config : Config}
  {nonce : UInt32} {now : Instant} {id : Nat}

/-- The answer to a call tells the id of the target that it adds. -/
theorem story_of_added {e : Engine}
    (h : (e.perform (.add mode protocol address config nonce now)).2 = .added id) :
    ∃ p, Protocol.ofId? protocol = some p ∧ id = e.nextId ∧
      ¬(mode = .unicast ∧ (e.idAt? address).isSome) ∧
      e.story (.add mode protocol address config nonce now)
        = [.added (.fresh id address mode p config nonce),
          .reacted ⟨.fresh id address mode p config nonce, .ask now⟩] := by
  rcases hp : Protocol.ofId? protocol with _ | p
  · simp only [perform, add, hp] at h
    cases h
  · by_cases hfree : mode = .unicast ∧ (e.idAt? address).isSome
    · simp only [perform, add, hp, if_pos hfree] at h
      cases h
    · simp only [perform, add, hp, if_neg hfree, Answer.added.injEq] at h
      subst h
      exact ⟨p, rfl, rfl, hfree, by simp only [story, hp, if_neg hfree]⟩

/-- A target that was added lives from then on. -/
theorem life_of_added {before : List Call} (later : List Call)
    (h : ((run before).perform (.add mode protocol address config nonce now)).2 = .added id) :
    ∃ p, Protocol.ofId? protocol = some p ∧
      Life (.fresh id address mode p config nonce)
        (moments id (journal (before ++ .add mode protocol address config nonce now :: later)))
        ((run (before ++ .add mode protocol address config nonce now :: later)).target? id) := by
  obtain ⟨p, hp, -, -, hstory⟩ := story_of_added h
  refine ⟨p, hp, ?_⟩
  have hevent : .added (.fresh id address mode p config nonce) ∈
      journal (before ++ .add mode protocol address config nonce now :: later) := by
    rw [journal_append, collect]
    refine List.mem_append_right _ (List.mem_append_left _ ?_)
    rw [hstory]
    exact List.mem_cons_self
  exact (told_journal _).life hevent rfl

end Added

/-! ## What a target queues and reports -/

/-- What the moments of one target give is what is marked with its id. -/
theorem filter_filterMap_moment {α : Type} (f : Moment → Option α) (key : α → Nat)
    (hkey : ∀ m a, f m = some a → key a = m.target.id) (id : Nat) (events : List Event) :
    (events.filterMap fun event => event.moment?.bind f).filter (fun a => key a == id)
      = (moments id events).filterMap f := by
  rw [moments, ← List.filterMap_filterMap]
  generalize events.filterMap Event.moment? = ms
  -- moment by moment: it has the id and so has what it gives, or neither has it
  induction ms with
  | nil => rfl
  | cons m rest ih =>
    by_cases hid : m.target.id = id
    · rw [List.filter_cons_of_pos (by simpa using hid)]
      rcases hm : f m with _ | a
      · rw [List.filterMap_cons_none hm, List.filterMap_cons_none hm]
        exact ih
      · rw [List.filterMap_cons_some hm, List.filterMap_cons_some hm,
          List.filter_cons_of_pos (by simpa [hkey m a hm] using hid), ih]
    · rw [List.filter_cons_of_neg (by simpa using hid)]
      rcases hm : f m with _ | a
      · rw [List.filterMap_cons_none hm]
        exact ih
      · rw [List.filterMap_cons_some hm,
          List.filter_cons_of_neg (by simpa [hkey m a hm] using hid)]
        exact ih

/-- The datagrams that were queued for a target in a run. -/
def sentTo (id : Nat) (calls : List Call) : List Transmit :=
  (queued calls).filter fun transmit => transmit.target == id

/-- The reports on a target in a run. -/
def reportsOn (id : Nat) (calls : List Call) : List Report :=
  (reported calls).filter fun report => report.id == id

/-- What is queued for a target in a run is what it queues in its moments. -/
theorem sentTo_eq (id : Nat) (calls : List Call) :
    sentTo id calls = (moments id (journal calls)).filterMap Moment.transmit? := by
  rw [sentTo, queued_eq]
  refine filter_filterMap_moment Moment.transmit? Transmit.target ?_ id (journal calls)
  intro m transmit h
  obtain ⟨request, -, rfl⟩ := Option.map_eq_some_iff.mp h
  rfl

/-- What is reported of a target in a run is what it leaves in its moments. -/
theorem reportsOn_eq (id : Nat) (calls : List Call) :
    reportsOn id calls = (moments id (journal calls)).filterMap Moment.report? := by
  rw [reportsOn, reported_filter]
  exact filter_filterMap_moment Moment.report? Report.id (fun m report => Moment.report?_id) id
    (journal calls)

end Engine

end ServerProbe
