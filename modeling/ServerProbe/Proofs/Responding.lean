/-
Who answers a broadcast.

A datagram from an address that no active target has may be answering a broadcast on its
port. The first time it does, the address becomes a target of its own: it goes on from where
the broadcast is then, knows nothing yet, and hears the datagram. The broadcast notes the
address and is left as it was in everything else.

So the addresses that an active broadcast has noted are those of the targets that came out of
it, in their order (`Told.responders`). An address that is noted is turned away, so none of
them comes twice (`children_nodup`). Which of those targets are still active does not matter
here: it is the list of the broadcast that decides, and it outlasts them.
-/
import ServerProbe.Proofs.Reporting
import ServerProbe.Proofs.Ticking

set_option autoImplicit false

namespace ServerProbe.Engine

/-! ## Targets that came out of a broadcast -/

/-- The targets that came out of a broadcast by some events, as they were then. -/
def offspring (id : Nat) (events : List Event) : List Target :=
  (events.filterMap Event.created?).filter fun t => t.parent == some id

/-- The targets that came out of a broadcast in a run, as they were when they did. -/
def children (id : Nat) (calls : List Call) : List Target :=
  (created calls).filter fun t => t.parent == some id

theorem offspring_append (id : Nat) (events more : List Event) :
    offspring id (events ++ more) = offspring id events ++ offspring id more := by
  rw [offspring, List.filterMap_append, List.filter_append, offspring, offspring]

theorem created_concat (calls : List Call) (call : Call) :
    created (calls ++ [call])
      = created calls ++ ((run calls).story call).filterMap Event.created? := by
  rw [created, journal, collect_concat, List.filterMap_append, created, journal]

theorem children_concat (id : Nat) (calls : List Call) (call : Call) :
    children id (calls ++ [call]) = children id calls ++ offspring id ((run calls).story call) := by
  rw [children, created_concat, List.filter_append, children, offspring]

/-- Reactions create nobody. -/
theorem created?_reacted (ms : List Moment) :
    (ms.map Event.reacted).filterMap Event.created? = [] := by
  apply List.filterMap_eq_nil_iff.mpr
  intro event hevent
  obtain ⟨m, -, rfl⟩ := List.mem_map.mp hevent
  rfl

theorem offspring_reacted (id : Nat) (ms : List Moment) :
    offspring id (ms.map .reacted) = [] := by
  rw [offspring, created?_reacted, List.filter_nil]

theorem offspring_spawned {e : Engine} {parent child : Target}
    (hfits : e.Fits (.spawned parent child)) :
    offspring parent.id [.spawned parent child] = [child] := by
  cases hfits with
  | spawned parent sender => simp [offspring, Event.created?, Target.child]

/-- Only the event that makes an answer a target has to do with both. -/
theorem offspring_of_not_concerns {e : Engine} {event : Event} (hfits : e.Fits event) {id : Nat}
    (h : ¬event.Concerns id) : offspring id [event] = [] := by
  cases hfits with
  | added => rfl
  | spawned parent sender =>
    have hne : parent.id ≠ id := fun hid => h (.inl hid)
    simp [offspring, Event.created?, Target.child, hne]
  | reacted => rfl

/-! ## What a broadcast has noted -/

/-- Nobody has come out of a target that is not there yet. -/
theorem Told.offspring_of_le {past : List Event} {e : Engine} (h : Told past e) {id : Nat}
    (hid : e.nextId ≤ id) : offspring id past = [] := by
  induction h with
  | start => rfl
  | @tell past e event htold hfits ih =>
    rw [tell_nextId htold.wellKept hfits] at hid
    rw [offspring_append, ih (by omega), List.nil_append]
    cases hfits with
    | added => rfl
    | spawned parent sender hmem =>
      -- a broadcast that is answered is active, so its id has been given
      have hgiven := htold.wellKept.fresh parent hmem
      have hne : parent.id ≠ id := by omega
      simp [offspring, Event.created?, Target.child, hne]
    | reacted => rfl
  | take _ hsame _ ih => exact ih (hsame.nextId ▸ hid)

/-- **An active target has noted the addresses of those that came out of it,** in their order. -/
theorem Told.responders {past : List Event} {e : Engine} (h : Told past e) {id : Nat} {t : Target}
    (hfound : e.target? id = some t) : t.responders = (offspring id past).map Target.address := by
  induction h generalizing id t with
  | start => cases hfound
  | @tell past e event htold hfits ih =>
    have hkept := htold.wellKept
    rw [offspring_append, List.map_append]
    rcases target?_tell_cases hkept hfits hfound with ⟨hconcerns, hold⟩ | ⟨hcreated, rfl⟩ |
      ⟨parent, child, rfl, rfl, rfl⟩ | ⟨m, rfl, rfl, -, rfl⟩
    · rw [offspring_of_not_concerns hfits hconcerns, List.map_nil, List.append_nil]
      exact ih hold
    · -- a new target has noted nobody, and its id is a new one
      have hid := hfits.created_id hcreated
      rw [htold.offspring_of_le (Nat.le_of_eq hid.symm)]
      cases hfits with
      | added =>
        obtain rfl := Option.some.inj hcreated
        rfl
      | spawned parent sender hmem =>
        obtain rfl := Option.some.inj hcreated
        have hne : parent.id ≠ e.nextId := Nat.ne_of_lt (hkept.fresh parent hmem)
        simp [offspring, Event.created?, Target.child, hne]
      | reacted => cases hcreated
    · rw [offspring_spawned hfits, ← ih (hkept.target?_of_mem hfits.parent_mem)]
      rfl
    · obtain ⟨x, machine, lastError, sendErrors, hreact⟩ := m.target.react_target m.cue
      have hnone : offspring m.target.id [.reacted m] = [] := rfl
      rw [hnone, List.map_nil, List.append_nil, ← ih (hkept.target?_of_mem hfits.target_mem),
        Moment.reaction, hreact]
  | take _ hsame _ ih => exact ih (hsame.target? id ▸ hfound)

/-! ## Who becomes a target -/

/-- Whether a datagram from an address finds a new host for a broadcast. -/
structure Finds (e : Engine) (parent : Target) (sender : Address) : Prop where
  active : e.target? parent.id = some parent
  mode : parent.mode = .broadcast
  port : parent.address.port = sender.port
  /-- No active target has the address. -/
  unknown : e.idAt? sender = none
  /-- It has not become a target before. -/
  new : sender ∉ parent.responders

/-- A call brings nobody out of a broadcast, or it is a datagram that finds a host for it. -/
theorem WellKept.offspring_story {e : Engine} (h : e.WellKept) (id : Nat) (call : Call) :
    offspring id (e.story call) = [] ∨
    ∃ parent sender payload now, call = .receive sender payload now ∧ parent.id = id ∧
      e.Finds parent sender ∧
      e.route sender = (e.tell (.spawned parent (parent.child e.nextId sender)), some e.nextId) ∧
      offspring id (e.story call) = [parent.child e.nextId sender] := by
  cases call with
  | add mode protocol address config nonce now =>
    left
    unfold story
    dsimp only
    split
    · rfl
    · split
      · rfl
      · rfl
  | receive sender payload now =>
    rcases hat : e.idAt? sender with _ | known
    · rcases hparent : e.targets.find?
          (fun t => t.mode == .broadcast && t.address.port == sender.port) with _ | parent
      · left
        simp only [story, hat, hparent]
        rfl
      · by_cases hnoted : parent.responders.contains sender = true
        · left
          simp only [story, hat, hparent, if_pos hnoted]
          rfl
        · have hon := List.find?_some hparent
          simp only [Bool.and_eq_true, beq_iff_eq] at hon
          have hmem := List.mem_of_find?_eq_some hparent
          have hfits : e.Fits (.spawned parent (parent.child e.nextId sender)) :=
            .spawned parent sender hmem hon.1 hat
          have hstory : e.story (.receive sender payload now)
              = [.spawned parent (parent.child e.nextId sender)]
                ++ ((parent.child e.nextId sender).digest payload now).map .reacted := by
            simp only [story, hat, hparent, if_neg hnoted, List.singleton_append]
          by_cases hid : parent.id = id
          · right
            refine ⟨parent, sender, payload, now, rfl, hid,
              ⟨h.target?_of_mem hmem, hon.1, hon.2, hat, by simpa using hnoted⟩, ?_, ?_⟩
            · simp only [route, hat, hparent, if_neg hnoted]
              rfl
            · rw [hstory, offspring_append, offspring_reacted, List.append_nil, ← hid]
              exact offspring_spawned hfits
          · left
            rw [hstory, offspring_append, offspring_reacted, List.append_nil]
            simp [offspring, Event.created?, Target.child, hid]
    · left
      simp only [story, hat]
      exact offspring_reacted id _
  | deliver receiver payload now => exact .inl (offspring_reacted id _)
  | tick now =>
    left
    have hmoments : e.story (.tick now)
        = (e.targets.filterMap fun t => (t.clockCue? now).map (Moment.mk t)).map .reacted := by
      rw [List.map_filterMap]
      simp only [Option.map_map]
      rfl
    rw [hmoments]
    exact offspring_reacted id _
  | sendFailed receiver error =>
    left
    have hmoments : e.story (.sendFailed receiver error)
        = ((e.target? receiver).toList.map fun t => ⟨t, .unsent error⟩).map .reacted := by
      rw [List.map_map]
      rfl
    rw [hmoments]
    exact offspring_reacted id _
  | poll => exact .inl rfl
  | takeCompleted => exact .inl rfl

/-- **No address comes out of a broadcast twice.** -/
theorem children_nodup (id : Nat) (calls : List Call) :
    ((children id calls).map Target.address).Nodup := by
  induction calls using List.reverseRecOn with
  | nil => exact List.nodup_nil
  | append_singleton calls call ih =>
    have htold := told_journal calls
    rw [children_concat, List.map_append]
    rcases htold.wellKept.offspring_story id call with hnone |
      ⟨parent, sender, payload, now, -, rfl, hfinds, -, hchild⟩
    · rw [hnone, List.map_nil, List.append_nil]
      exact ih
    · -- the addresses so far are those that the broadcast has noted
      have hnew := hfinds.new
      rw [htold.responders hfinds.active] at hnew
      rw [hchild]
      exact List.nodup_append.mpr ⟨ih, List.nodup_singleton _, by
        rintro address haddress _ hsender rfl
        obtain rfl : address = sender := by simpa [Target.child] using hsender
        exact hnew haddress⟩

/-! ## What a datagram is to a broadcast -/

/-- A datagram leaves a broadcast as it was, but for the addresses of those that came out of
it. -/
theorem WellKept.target?_receive {e : Engine} (h : e.WellKept) {parent : Target}
    (hmem : parent ∈ e.targets) (hmode : parent.mode = .broadcast) (sender : Address)
    (payload : List UInt8) (now : Instant) :
    (e.receive sender payload now).target? parent.id = some
      { parent with
        responders := parent.responders ++
          (offspring parent.id (e.story (.receive sender payload now))).map Target.address } := by
  have hfound := h.target?_of_mem hmem
  -- what a target of another id hears is nothing to the broadcast
  have hheard : ∀ {e₀ e₁ : Engine} {t : Target}, e₀.WellKept → t.id ≠ parent.id →
      Course e₀ ((t.digest payload now).map .reacted) e₁ →
      e₁.target? parent.id = e₀.target? parent.id := by
    intro e₀ e₁ t hkept hid hcourse
    rw [hcourse.target?_eq hkept, moments_digest, if_neg hid]
    · rfl
    · intro event hevent
      obtain ⟨m, -, rfl⟩ := List.mem_map.mp hevent
      rfl
  have hcourse := course_receive h sender payload now
  have hroutes := h.route_cases sender payload now
  generalize e.route sender = routed at hroutes
  cases hroutes with
  | @known t ht hat hstory =>
    rw [hstory] at hcourse ⊢
    -- the index finds no broadcast
    have hid : t.id ≠ parent.id := by
      intro hid
      obtain ⟨other, hother, hunicast, -⟩ := (h.indexed sender t.id).mp hat
      rw [hid, hfound] at hother
      cases hother
      rw [hmode] at hunicast
      cases hunicast
    rw [hheard h hid hcourse, hfound, offspring_reacted, List.map_nil, List.append_nil]
  | @spawned finder hfits hstory =>
    rw [hstory] at hcourse ⊢
    have hkept := h.tell hfits
    have hid : (finder.child e.nextId sender).id ≠ parent.id := Nat.ne_of_gt (h.fresh parent hmem)
    rw [hheard hkept hid hcourse.of_cons.2, ← List.singleton_append, offspring_append,
      offspring_reacted, List.append_nil]
    by_cases hself : finder.id = parent.id
    · obtain rfl : finder = parent := by
        have hfinder := h.target?_of_mem hfits.parent_mem
        rw [hself, hfound] at hfinder
        exact (Option.some.inj hfinder).symm
      rw [target?_tell_parent h hfits, offspring_spawned hfits]
      rfl
    · have hconcerns : ¬Event.Concerns (.spawned finder (finder.child e.nextId sender)) parent.id :=
        fun hconcerns => hconcerns.elim hself hid
      rw [target?_tell_of_ne h hfits hconcerns, offspring_of_not_concerns hfits hconcerns, hfound,
        List.map_nil, List.append_nil]
  | nobody hstory =>
    rw [hstory] at hcourse ⊢
    rw [hcourse.of_nil, hfound]
    have hnone : offspring parent.id [] = [] := rfl
    rw [hnone, List.map_nil, List.append_nil]

/-! ## Answers -/

/-- **An answer is a target of its own.** After every run:

* those that came out of a broadcast have different addresses, and these are the addresses
  that the broadcast, as long as it is active, has noted;
* whatever is called next, nobody comes out of the broadcast, or one target does: then the
  call is a datagram from an address that is not noted and that no active target has, and the
  target starts with the protocol, the options, the session and the machine that the broadcast
  has then, with nothing learned and no pieces, and is found so when the datagram has been
  routed and before it is heard;
* whatever datagram comes next, an active broadcast is afterwards what it was before, but
  for the addresses of those that came out of it by the datagram. -/
theorem answers_isolated (calls : List Call) :
    (∀ id, ((children id calls).map Target.address).Nodup ∧
      ∀ t, (run calls).target? id = some t →
        t.responders = (children id calls).map Target.address) ∧
    (∀ id call, children id (calls ++ [call]) = children id calls ∨
      ∃ parent sender payload now, call = .receive sender payload now ∧ parent.id = id ∧
        (run calls).Finds parent sender ∧
        let child : Target :=
          { id := (run calls).nextId
            address := sender
            mode := .unicast
            parent := some parent.id
            protocol := parent.protocol
            config := parent.config
            exchange := { server := {}, session := parent.exchange.session, fragments := {} }
            machine := parent.machine
            responders := []
            lastError := none
            sendErrors := 0 }
        children id (calls ++ [call]) = children id calls ++ [child] ∧
        ((run calls).route sender).2 = some child.id ∧
        ((run calls).route sender).1.target? child.id = some child) ∧
    ∀ parent sender payload now, (run calls).target? parent.id = some parent →
      parent.mode = .broadcast →
      ∃ born, children parent.id (calls ++ [.receive sender payload now])
          = children parent.id calls ++ born ∧
        (run (calls ++ [.receive sender payload now])).target? parent.id
          = some { parent with responders := parent.responders ++ born.map Target.address } := by
  have htold := told_journal calls
  have hkept := htold.wellKept
  refine ⟨fun id => ⟨children_nodup id calls, fun t => htold.responders⟩, ?_, ?_⟩
  · intro id call
    rw [children_concat]
    rcases hkept.offspring_story id call with hnone |
      ⟨parent, sender, payload, now, hcall, hid, hfinds, hroute, hchild⟩
    · left
      rw [hnone, List.append_nil]
    · right
      have hfits : (run calls).Fits
          (.spawned parent (parent.child (run calls).nextId sender)) :=
        .spawned parent sender (target?_mem hfinds.active).1 hfinds.mode hfinds.unknown
      refine ⟨parent, sender, payload, now, hcall, hid, hfinds, by rw [hchild]; rfl, ?_, ?_⟩
      · rw [hroute]
      · rw [hroute]
        exact target?_tell_created hkept hfits rfl
  · intro parent sender payload now hactive hmode
    refine ⟨_, children_concat parent.id calls (.receive sender payload now), ?_⟩
    rw [run_concat]
    exact hkept.target?_receive (target?_mem hactive).1 hmode sender payload now

/-- A broadcast, and a host that answers it with nonsense. -/
def garbled : List Call :=
  [.add .broadcast "a2s" ⟨"192.0.2.255", 27015⟩ { retries := 0 } 0 0,
    .receive ⟨"192.0.2.7", 27015⟩ [0xFF] 1]

/-- The broadcast then: it has asked and noted the host. -/
def asking : Target :=
  ((Target.fresh 1 ⟨"192.0.2.255", 27015⟩ .broadcast .a2s { retries := 0 } 0).ask 0).target.noting
    ⟨"192.0.2.7", 27015⟩

/-- The host has ended with an error. It is turned away when it answers again, and another
host is not. -/
theorem answers_isolated_ended :
    (run garbled).target? asking.id = some asking ∧ asking.mode = .broadcast ∧
    (run garbled).targets = [asking] ∧
    (children 1 garbled).map Target.address = [⟨"192.0.2.7", 27015⟩] ∧
    (run (garbled ++ [.receive ⟨"192.0.2.7", 27015⟩ [0xFF] 2])).target? asking.id
      = some asking ∧
    (run (garbled ++ [.receive ⟨"192.0.2.8", 27015⟩ [0xFF] 2])).target? asking.id
      = some (asking.noting ⟨"192.0.2.8", 27015⟩) := by
  obtain ⟨hnoted, -, hreceive⟩ := answers_isolated garbled
  have hactive : (run garbled).target? asking.id = some asking := by decide +kernel
  have hresponders := (hnoted asking.id).2 asking hactive
  have hagain : (children asking.id (garbled ++ [.receive ⟨"192.0.2.7", 27015⟩ [0xFF] 2])).map
      Target.address = [⟨"192.0.2.7", 27015⟩] := by decide +kernel
  have hother : (children asking.id (garbled ++ [.receive ⟨"192.0.2.8", 27015⟩ [0xFF] 2])).map
      Target.address = [⟨"192.0.2.7", 27015⟩, ⟨"192.0.2.8", 27015⟩] := by decide +kernel
  obtain ⟨nobody, hnone, hkeeps⟩ := hreceive asking ⟨"192.0.2.7", 27015⟩ [0xFF] 2 hactive rfl
  obtain ⟨one, hone, hnotes⟩ := hreceive asking ⟨"192.0.2.8", 27015⟩ [0xFF] 2 hactive rfl
  rw [hnone, List.map_append, ← hresponders] at hagain
  rw [hone, List.map_append, ← hresponders] at hother
  rw [hagain] at hkeeps
  rw [hother] at hnotes
  exact ⟨hactive, rfl, by decide +kernel, hresponders.symm, hkeeps, hnotes⟩

end ServerProbe.Engine
