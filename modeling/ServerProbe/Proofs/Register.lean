/-
The register of targets.

Ids ascend, addresses of active unicast targets are found by the index and no others
are, and between calls nothing waits: an engine of which this holds is `WellKept`. A
call is made of events, and there are three kinds of them: a target is added, a host
that answered a broadcast becomes a target, and a target reacts to a cue. Each event
that `Fits` a well kept engine leaves it well kept, so the three facts about the
register have to be seen for three kinds of change only.

Ids tell targets apart, so an event of one target leaves what is found under every
other id as it was. That is what `target?_enact_of_ne` and its kin say.
-/
import Mathlib.Data.List.Basic
import Mathlib.Data.List.Pairwise
import ServerProbe.Proofs.Enactment

set_option autoImplicit false

namespace ServerProbe

/-! ## Events -/

/-- One thing that happens within a call. -/
inductive Event where
  /-- A query starts. -/
  | added (t : Target)
  /-- A host that answered a broadcast becomes a target. -/
  | spawned (parent child : Target)
  /-- Something happens to a target. -/
  | reacted (moment : Moment)
  deriving Repr, DecidableEq

/-- A broadcast that has noted who answered. -/
def Target.noting (t : Target) (sender : Address) : Target :=
  { t with responders := t.responders ++ [sender] }

/-- The target after a moment, unless it has ended. -/
def Moment.after? (m : Moment) : Option Target :=
  if m.reaction.fate = .goesOn then some m.reaction.target else none

namespace Event

/-- The target that an event creates. -/
def created? : Event → Option Target
  | added t => some t
  | spawned _ child => some child
  | reacted _ => none

/-- The moment of an event at which a target reacts. -/
def moment? : Event → Option Moment
  | reacted moment => some moment
  | _ => none

/-- Whether an event has to do with the target of an id. -/
def Concerns : Event → Nat → Prop
  | added t, id => t.id = id
  | spawned parent child, id => parent.id = id ∨ child.id = id
  | reacted moment, id => moment.target.id = id

end Event

namespace Engine

/-- The engine after an event. -/
def tell (e : Engine) : Event → Engine
  | .added t => e.insert t
  | .spawned parent child =>
    (e.put (parent.noting child.address)).insert child
  | .reacted moment => e.enact moment.reaction

/-- The events that can happen to an engine. -/
inductive Fits (e : Engine) : Event → Prop where
  | added (address : Address) (mode : TargetMode) (p : Protocol) (config : Config)
      (nonce : UInt32) : (mode = .unicast → e.idAt? address = none) →
      Fits e (.added (.fresh e.nextId address mode p config nonce))
  | spawned (parent : Target) (sender : Address) : parent ∈ e.targets → parent.mode = .broadcast →
      e.idAt? sender = none → Fits e (.spawned parent (parent.child e.nextId sender))
  | reacted (moment : Moment) : moment.target ∈ e.targets → Fits e (.reacted moment)

theorem Fits.target_mem {e : Engine} {m : Moment} (h : e.Fits (.reacted m)) :
    m.target ∈ e.targets := by
  cases h with
  | reacted _ hmem => exact hmem

theorem Fits.parent_mem {e : Engine} {parent child : Target} (h : e.Fits (.spawned parent child)) :
    parent ∈ e.targets := by
  cases h with
  | spawned _ _ hmem => exact hmem

/-- A new target gets the next id. -/
theorem Fits.created_id {e : Engine} {event : Event} (h : e.Fits event) {t : Target}
    (hcreated : event.created? = some t) : t.id = e.nextId := by
  cases h with
  | added =>
    cases hcreated
    rfl
  | spawned =>
    cases hcreated
    rfl
  | reacted => cases hcreated

/-- What holds of an engine between two events. -/
structure WellKept (e : Engine) : Prop where
  /-- Ids ascend. -/
  ascending : (e.targets.map Target.id).Pairwise (· < ·)
  /-- The next id is new. -/
  fresh : ∀ t ∈ e.targets, t.id < e.nextId
  /-- The index finds the active unicast targets, by their addresses. -/
  indexed : ∀ address id, e.idAt? address = some id ↔
    ∃ t, e.target? id = some t ∧ t.mode = .unicast ∧ t.address = address
  /-- Nothing waits. -/
  quiet : e.pending = []

theorem wellKept_empty : WellKept {} where
  ascending := List.Pairwise.nil
  fresh := by simp
  indexed := by simp [idAt?, target?]
  quiet := rfl

/-! ## Finding targets -/

/-- Where ids ascend, a target that is there is the one that is found. -/
theorem find?_of_ascending {targets : List Target} (h : (targets.map Target.id).Pairwise (· < ·))
    {t : Target} (hmem : t ∈ targets) : (targets.find? fun other => other.id == t.id) = some t := by
  induction targets with
  | nil => cases hmem
  | cons first rest ih =>
    rw [List.map_cons, List.pairwise_cons] at h
    rcases List.mem_cons.mp hmem with rfl | hrest
    · simp
    · -- the first one has a smaller id, so the search goes on
      have hlt := h.1 t.id (List.mem_map_of_mem hrest)
      rw [List.find?_cons_of_neg (by simpa using Nat.ne_of_lt hlt)]
      exact ih h.2 hrest

theorem WellKept.target?_of_mem {e : Engine} (h : e.WellKept) {t : Target} (hmem : t ∈ e.targets) :
    e.target? t.id = some t :=
  find?_of_ascending h.ascending hmem

theorem WellKept.holds {e : Engine} (h : e.WellKept) {t : Target} (hmem : t ∈ e.targets) :
    e.Holds t := by
  refine ⟨h.target?_of_mem hmem, ?_⟩
  -- putting a target back where it is changes no entry
  have hself : (e.targets.map fun other => if other.id = t.id then t else other) = e.targets := by
    conv_rhs => rw [← List.map_id e.targets]
    apply List.map_congr_left
    intro other hother
    by_cases hid : other.id = t.id
    · have hfound := h.target?_of_mem hother
      rw [hid, h.target?_of_mem hmem] at hfound
      rw [if_pos hid]
      exact Option.some.inj hfound
    · rw [if_neg hid, id]
  rw [put, hself]

/-- No target has an id that has not been given. -/
theorem WellKept.target?_of_le {e : Engine} (h : e.WellKept) {id : Nat} (hid : e.nextId ≤ id) :
    e.target? id = none := by
  rcases hfound : e.target? id with _ | t
  · rfl
  · obtain ⟨hmem, rfl⟩ := target?_mem hfound
    have := h.fresh t hmem
    omega

/-! ## What each change does to the register -/

theorem put_ids (e : Engine) (t : Target) :
    (e.put t).targets.map Target.id = e.targets.map Target.id := by
  rw [put, List.map_map]
  apply List.map_congr_left
  intro other _
  by_cases hid : other.id = t.id
  · simp [hid]
  · simp [hid]

theorem target?_put_of_ne (e : Engine) {t : Target} {id : Nat} (h : id ≠ t.id) :
    (e.put t).target? id = e.target? id := by
  -- by induction on the targets: the one that is replaced is not looked for
  have along : ∀ targets : List Target,
      ((targets.map fun other => if other.id = t.id then t else other).find?
        fun other => other.id == id) = targets.find? fun other => other.id == id := by
    intro targets
    induction targets with
    | nil => rfl
    | cons first rest ih =>
      by_cases hfirst : first.id = t.id
      · rw [List.map_cons, if_pos hfirst, List.find?_cons_of_neg (by simpa using Ne.symm h),
          List.find?_cons_of_neg (by simpa [hfirst] using Ne.symm h)]
        exact ih
      · rw [List.map_cons, if_neg hfirst, List.find?_cons, List.find?_cons, ih]
  exact along e.targets

theorem target?_insert (e : Engine) (t : Target) (id : Nat) :
    (e.insert t).target? id = (e.target? id).or (if t.id = id then some t else none) := by
  simp only [target?, insert, List.find?_append, List.find?_singleton, beq_iff_eq]

theorem target?_remove_self (e : Engine) (t : Target) : (e.remove t).target? t.id = none := by
  simp [target?, remove]

theorem target?_remove_of_ne (e : Engine) {t : Target} {id : Nat} (h : id ≠ t.id) :
    (e.remove t).target? id = e.target? id := by
  simp only [target?, remove, List.find?_filter]
  congr 1
  funext other
  by_cases hid : other.id = id
  · simp [hid, h]
  · simp [hid]

theorem idAt?_insert (e : Engine) (t : Target) (address : Address) :
    (e.insert t).idAt? address
      = (e.idAt? address).or
          (if t.mode = .unicast ∧ t.address = address then some t.id else none) := by
  unfold idAt? insert
  dsimp only
  by_cases hmode : t.mode = .unicast
  · simp only [hmode, if_true, List.find?_append, List.find?_singleton, beq_iff_eq, true_and,
      Option.map_or]
    split <;> rfl
  · simp [hmode]

theorem idAt?_remove (e : Engine) (t : Target) (address : Address) :
    (e.remove t).idAt? address
      = if e.idAt? t.address = some t.id ∧ address = t.address then none
        else e.idAt? address := by
  by_cases hindexed : e.idAt? t.address = some t.id
  · -- an entry is taken out only if the index finds the target at its address
    have hentries : (e.remove t).byAddress
        = e.byAddress.filter fun entry => entry.1 != t.address := if_pos hindexed
    by_cases haddress : address = t.address
    · rw [if_pos ⟨hindexed, haddress⟩]
      simp [idAt?, hentries, haddress]
    · rw [if_neg (by simp [haddress])]
      simp only [idAt?, hentries, List.find?_filter]
      congr 2
      funext entry
      by_cases hentry : entry.1 = address
      · simp [hentry, haddress]
      · simp [hentry]
  · have hentries : (e.remove t).byAddress = e.byAddress := if_neg hindexed
    rw [if_neg (by simp [hindexed]), idAt?, hentries, idAt?]

/-! ## What a reaction does to the register -/

/-- Whether two engines have the same targets, index and next id. -/
structure SameRegister (e e' : Engine) : Prop where
  targets : e'.targets = e.targets
  byAddress : e'.byAddress = e.byAddress
  nextId : e'.nextId = e.nextId

theorem SameRegister.target? {e e' : Engine} (h : SameRegister e e') (id : Nat) :
    e'.target? id = e.target? id := by
  rw [Engine.target?, h.targets, Engine.target?]

theorem SameRegister.idAt? {e e' : Engine} (h : SameRegister e e') (address : Address) :
    e'.idAt? address = e.idAt? address := by
  rw [Engine.idAt?, h.byAddress, Engine.idAt?]

theorem SameRegister.wellKept {e e' : Engine} (h : SameRegister e e') (hquiet : e'.pending = [])
    (hkept : e.WellKept) : e'.WellKept where
  ascending := h.targets ▸ hkept.ascending
  fresh := by
    rw [h.targets, h.nextId]
    exact hkept.fresh
  indexed address id := by
    rw [h.idAt?]
    simp only [h.target?]
    exact hkept.indexed address id
  quiet := hquiet

theorem sameRegister_queue (e : Engine) (r : Reaction) :
    SameRegister (e.put r.target) (((e.passOn r).put r.target).queue r) := by
  unfold passOn queue diagnose
  split <;> split <;> first | exact ⟨rfl, rfl, rfl⟩ | (split <;> exact ⟨rfl, rfl, rfl⟩)

/-- A reaction puts its target back, and takes it out if it is over. -/
theorem sameRegister_enact {e : Engine} {t : Target} (h : e.Holds t) {r : Reaction}
    (hid : r.target.id = t.id) :
    SameRegister (if r.fate = .goesOn then e.put r.target else (e.put r.target).remove r.target)
      (e.enact r) := by
  have hqueue := sameRegister_queue e r
  have hfound := h.found_queue hid
  unfold enact
  generalize ((e.passOn r).put r.target).queue r = queued at hqueue hfound ⊢
  unfold settle
  rcases r.fate with _ | status
  · exact hqueue
  · -- what was passed on and queued is not part of the register
    have hremove : SameRegister ((e.put r.target).remove r.target) (queued.remove r.target) := by
      refine ⟨?_, ?_, hqueue.nextId⟩
      · rw [remove, hqueue.targets, remove]
      · rw [remove, hqueue.idAt?, hqueue.byAddress, remove]
    have hover : Fate.over status ≠ .goesOn := by
      intro heq
      cases heq
    rw [if_neg hover]
    dsimp only
    unfold finalize
    rw [hfound]
    dsimp only
    split
    · exact hremove
    · exact ⟨hremove.targets, hremove.byAddress, hremove.nextId⟩

section Reactions

variable {e : Engine} {t : Target} (h : e.Holds t) {r : Reaction} (hid : r.target.id = t.id)
include h hid

theorem nextId_enact : (e.enact r).nextId = e.nextId := by
  rw [(sameRegister_enact h hid).nextId]
  split
  · rfl
  · rfl

theorem target?_enact_self :
    (e.enact r).target? t.id = if r.fate = .goesOn then some r.target else none := by
  rw [(sameRegister_enact h hid).target?]
  split
  · exact target?_put_self h.found hid
  · rw [← hid]
    exact target?_remove_self _ _

theorem target?_enact_of_ne {id : Nat} (hne : id ≠ t.id) :
    (e.enact r).target? id = e.target? id := by
  have hput : (e.put r.target).target? id = e.target? id := target?_put_of_ne e (hid ▸ hne)
  rw [(sameRegister_enact h hid).target?]
  split
  · exact hput
  · exact (target?_remove_of_ne _ (hid ▸ hne)).trans hput

end Reactions

/-! ## Events keep the register -/

section Keeping

variable {e : Engine} (h : e.WellKept) {t : Target}
include h

theorem WellKept.put (hmem : t ∈ e.targets) {t' : Target} (hid : t'.id = t.id)
    (hmode : t'.mode = t.mode) (haddress : t'.address = t.address) : (e.put t').WellKept where
  ascending := by
    rw [put_ids]
    exact h.ascending
  fresh := by
    intro other hother
    obtain ⟨before, hbefore, rfl⟩ := List.mem_map.mp hother
    split
    · rw [hid]
      exact h.fresh t hmem
    · exact h.fresh before hbefore
  indexed := by
    intro address id
    refine (h.indexed address id).trans ?_
    -- the target is found under its id as before, with the same mode and address
    by_cases heq : id = t.id
    · rw [heq, h.target?_of_mem hmem, target?_put_self (h.target?_of_mem hmem) hid]
      simp [hmode, haddress]
    · rw [target?_put_of_ne e (hid ▸ heq)]
  quiet := h.quiet

theorem WellKept.remove (hmem : t ∈ e.targets) : (e.remove t).WellKept where
  ascending := h.ascending.sublist (List.filter_sublist.map Target.id)
  fresh other hother := h.fresh other (List.mem_of_mem_filter hother)
  indexed := by
    intro address id
    have hfound := h.target?_of_mem hmem
    have hindexed := h.indexed address id
    rw [idAt?_remove]
    -- the index loses what it has at the address of the target, if that is the target
    by_cases hclear : e.idAt? t.address = some t.id ∧ address = t.address
    · obtain ⟨hself, rfl⟩ := hclear
      rw [if_pos ⟨hself, rfl⟩]
      refine ⟨fun hnone => absurd hnone (by simp), ?_⟩
      rintro ⟨other, hother, hmode, haddress⟩
      by_cases heq : id = t.id
      · rw [heq, target?_remove_self] at hother
        cases hother
      · rw [target?_remove_of_ne e heq] at hother
        -- two targets at one address would both be what the index finds there
        rw [hindexed.mpr ⟨other, hother, hmode, haddress⟩] at hself
        exact absurd (Option.some.inj hself) heq
    · rw [if_neg hclear]
      by_cases heq : id = t.id
      · subst heq
        rw [target?_remove_self]
        constructor
        · intro hat
          obtain ⟨other, hother, -, haddress⟩ := hindexed.mp hat
          obtain rfl : t = other := Option.some.inj (hfound.symm.trans hother)
          exact absurd ⟨haddress ▸ hat, haddress.symm⟩ hclear
        · rintro ⟨other, hother, -⟩
          cases hother
      · rw [target?_remove_of_ne e heq]
        exact hindexed
  quiet := by simp [Engine.remove, h.quiet]

theorem WellKept.insert (hid : t.id = e.nextId)
    (hfree : t.mode = .unicast → e.idAt? t.address = none) : (e.insert t).WellKept where
  ascending := by
    rw [Engine.insert, List.map_append, List.pairwise_append]
    refine ⟨h.ascending, List.pairwise_singleton _ _, ?_⟩
    intro a ha b hb
    obtain ⟨before, hbefore, rfl⟩ := List.mem_map.mp ha
    obtain rfl : b = t.id := by simpa using hb
    have := h.fresh before hbefore
    omega
  fresh := by
    intro other hother
    change other.id < e.nextId + 1
    rcases List.mem_append.mp hother with hbefore | hnew
    · have := h.fresh other hbefore
      omega
    · obtain rfl : other = t := by simpa using hnew
      omega
  indexed := by
    intro address id
    -- the id is new, so nothing was found under it
    have hnone : e.target? t.id = none := h.target?_of_le (Nat.le_of_eq hid.symm)
    have hindexed := h.indexed address id
    rw [idAt?_insert, target?_insert]
    by_cases heq : id = t.id
    · subst heq
      rw [hnone] at hindexed ⊢
      -- and the index did not find it anywhere
      have hnot : e.idAt? address ≠ some t.id := by simpa using hindexed
      constructor
      · intro hat
        rcases hold : e.idAt? address with _ | other
        · rw [hold] at hat
          have hboth : t.mode = .unicast ∧ t.address = address := by simpa using hat
          exact ⟨t, by simp, hboth⟩
        · rw [hold] at hat hnot
          exact absurd hat hnot
      · rintro ⟨other, hother, hmode, rfl⟩
        obtain rfl : other = t := by simpa using hother.symm
        rw [hfree hmode, if_pos ⟨hmode, rfl⟩]
        rfl
    · rw [if_neg (Ne.symm heq), Option.or_none, ← hindexed]
      rcases e.idAt? address with _ | other
      · simpa using fun _ _ => Ne.symm heq
      · rfl
  quiet := h.quiet

/-- **An event that fits keeps the register.** -/
theorem WellKept.tell {event : Event} (hfits : e.Fits event) : (e.tell event).WellKept := by
  cases hfits with
  | added address mode p config nonce hfree => exact h.insert rfl hfree
  | spawned parent sender hmem hmode hfree =>
    have hput : (e.put (parent.noting sender)).WellKept := h.put hmem rfl rfl rfl
    exact hput.insert rfl fun _ => hfree
  | reacted moment hmem =>
    have hholds := h.holds hmem
    have hid : moment.reaction.target.id = moment.target.id := moment.reaction_id
    -- the target is put back as it was, but for what happened to it
    have hput : (e.put moment.reaction.target).WellKept :=
      h.put hmem hid (moment.target.react_mode moment.cue) (moment.target.react_address moment.cue)
    refine (sameRegister_enact hholds hid).wellKept (enact_quiet h.quiet _) ?_
    split
    · exact hput
    · refine hput.remove ?_
      exact (target?_mem (hid ▸ target?_put_self hholds.found hid)).1

end Keeping

/-! ## What an event leaves alone -/

section Frame

variable {e : Engine} (h : e.WellKept)
include h

/-- A new target is found as it was created. -/
theorem target?_tell_created {event : Event} (hfits : e.Fits event) {t : Target}
    (hcreated : event.created? = some t) : (e.tell event).target? t.id = some t := by
  cases hfits with
  | added address mode p config nonce hfree =>
    obtain rfl := Option.some.inj hcreated
    have hnone : e.target? e.nextId = none := h.target?_of_le (Nat.le_refl _)
    have hinsert := target?_insert e (.fresh e.nextId address mode p config nonce) e.nextId
    rw [hnone, Option.none_or] at hinsert
    exact hinsert.trans (if_pos rfl)
  | spawned parent sender hmem hmode hfree =>
    obtain rfl := Option.some.inj hcreated
    -- the broadcast is older, so its id is another one
    have hne : e.nextId ≠ parent.id := Nat.ne_of_gt (h.fresh parent hmem)
    have hnone : (e.put (parent.noting sender)).target? e.nextId = none :=
      (target?_put_of_ne e (t := parent.noting sender) hne).trans
        (h.target?_of_le (Nat.le_refl _))
    have hinsert := target?_insert (e.put (parent.noting sender)) (parent.child e.nextId sender)
      e.nextId
    rw [hnone, Option.none_or] at hinsert
    exact hinsert.trans (if_pos rfl)
  | reacted => cases hcreated

/-- A broadcast is found with what it has noted. -/
theorem target?_tell_parent {parent child : Target} (hfits : e.Fits (.spawned parent child)) :
    (e.tell (.spawned parent child)).target? parent.id
      = some (parent.noting child.address) := by
  cases hfits with
  | spawned _ sender hmem hmode hfree =>
    have hput : (e.put (parent.noting sender)).target? parent.id = some (parent.noting sender) :=
      target?_put_self (h.target?_of_mem hmem) rfl
    have hinsert := target?_insert (e.put (parent.noting sender)) (parent.child e.nextId sender)
      parent.id
    rw [hput, Option.some_or] at hinsert
    exact hinsert

/-- A target is found as its reaction leaves it, unless it is over. -/
theorem target?_tell_reacted {m : Moment} (hfits : e.Fits (.reacted m)) :
    (e.tell (.reacted m)).target? m.target.id = m.after? :=
  target?_enact_self (h.holds hfits.target_mem) m.reaction_id

/-- **Frame.** An event leaves every target alone that it does not concern. -/
theorem target?_tell_of_ne {event : Event} (hfits : e.Fits event) {id : Nat}
    (hid : ¬event.Concerns id) : (e.tell event).target? id = e.target? id := by
  cases hfits with
  | added address mode p config nonce hfree =>
    have hnew : ¬e.nextId = id := hid
    have hinsert := target?_insert e (.fresh e.nextId address mode p config nonce) id
    exact hinsert.trans ((congrArg _ (if_neg hnew)).trans Option.or_none)
  | spawned parent sender hmem hmode hfree =>
    have hparent : id ≠ parent.id := fun heq => hid (.inl heq.symm)
    have hchild : ¬(parent.child e.nextId sender).id = id := fun heq => hid (.inr heq)
    refine (target?_insert _ _ _).trans ?_
    rw [if_neg hchild, Option.or_none]
    exact target?_put_of_ne e (t := parent.noting sender) hparent
  | reacted m hmem =>
    exact target?_enact_of_ne (h.holds hmem) m.reaction_id (Ne.symm hid)

/-- What an active target was before an event: the event is not about it, or it is new, or
it is a broadcast that has noted a host, or it has reacted and goes on. -/
theorem target?_tell_cases {event : Event} (hfits : e.Fits event) {id : Nat} {t : Target}
    (hfound : (e.tell event).target? id = some t) :
    (¬event.Concerns id ∧ e.target? id = some t) ∨
    (event.created? = some t ∧ t.id = id) ∨
    (∃ parent child, event = .spawned parent child ∧ parent.id = id ∧
      t = parent.noting child.address) ∨
    ∃ m, event = .reacted m ∧ m.target.id = id ∧ m.reaction.fate = .goesOn ∧
      t = m.reaction.target := by
  by_cases hconcerns : event.Concerns id
  · cases event with
    | added newborn =>
      obtain rfl : newborn.id = id := hconcerns
      rw [target?_tell_created h hfits rfl] at hfound
      exact .inr (.inl ⟨hfound, congrArg Target.id (Option.some.inj hfound).symm⟩)
    | spawned parent child =>
      rcases hconcerns with rfl | rfl
      · rw [target?_tell_parent h hfits] at hfound
        exact .inr (.inr (.inl ⟨parent, child, rfl, rfl, (Option.some.inj hfound).symm⟩))
      · rw [target?_tell_created h hfits rfl] at hfound
        exact .inr (.inl ⟨hfound, congrArg Target.id (Option.some.inj hfound).symm⟩)
    | reacted m =>
      obtain rfl : m.target.id = id := hconcerns
      rw [target?_tell_reacted h hfits, Moment.after?] at hfound
      split at hfound
      case isTrue hfate =>
        exact .inr (.inr (.inr ⟨m, rfl, rfl, hfate, (Option.some.inj hfound).symm⟩))
      case isFalse => cases hfound
  · rw [target?_tell_of_ne h hfits hconcerns] at hfound
    exact .inl ⟨hconcerns, hfound⟩

end Frame

end Engine

end ServerProbe
