/-
Which broadcast finds a host.

A datagram from an address at which no server is being queried may be an answer to any
broadcast on its port, and several can be active there, in other protocols or on other
networks. It goes to the first of them and to no other: if that one has noted the address, the
datagram is dropped, whatever the later ones have noted (`responder_found_iff`). So as long as
the first is active, nobody comes out of the later ones, and a host that answers one of them is
heard in the protocol of the first, or, if it has answered before, not at all
(`responder_missed`).
-/
import ServerProbe.Proofs.Indexing
import ServerProbe.Proofs.Responding

set_option autoImplicit false

namespace ServerProbe

/-- Whether a broadcast may have been answered from an address. -/
def Target.Awaits (t : Target) (sender : Address) : Prop :=
  t.mode = .broadcast ∧ t.address.port = sender.port

namespace Engine

/-! ## The first broadcast on a port -/

/-- Whether a broadcast is the oldest active one that may have been answered from an address. -/
structure FirstOn (e : Engine) (sender : Address) (t : Target) : Prop where
  active : t ∈ e.targets
  awaits : t.Awaits sender
  least : ∀ other ∈ e.targets, other.Awaits sender → t.id ≤ other.id

section First

variable {e : Engine} (h : e.WellKept) {sender : Address} {t : Target}
include h

/-- Since ids ascend, the first broadcast that is met is the oldest one. -/
theorem WellKept.firstOn_of_find?
    (hfind : (e.targets.find? fun t => t.mode == .broadcast && t.address.port == sender.port)
      = some t) : e.FirstOn sender t := by
  obtain ⟨hawaits, before, after, htargets, hbefore⟩ := List.find?_eq_some_iff_append.mp hfind
  have hascending := h.ascending
  rw [htargets, List.map_append, List.map_cons, List.pairwise_append, List.pairwise_cons]
    at hascending
  refine ⟨htargets ▸ List.mem_append_right _ List.mem_cons_self,
    by simpa [Target.Awaits] using hawaits, fun other hother hothers => ?_⟩
  rw [htargets] at hother
  rcases List.mem_append.mp hother with hearlier | hlater
  · -- what is met earlier does not await the sender
    have hnot := hbefore other hearlier
    simp [hothers.1, hothers.2] at hnot
  · rcases List.mem_cons.mp hlater with rfl | hlater
    · exact Nat.le_refl _
    · exact Nat.le_of_lt (hascending.2.1.1 other.id (List.mem_map_of_mem hlater))

theorem WellKept.exists_firstOn (hmem : t ∈ e.targets) (hawaits : t.Awaits sender) :
    ∃ first, e.FirstOn sender first := by
  have hsome : (e.targets.find? fun t =>
      t.mode == .broadcast && t.address.port == sender.port).isSome = true :=
    List.find?_isSome.mpr ⟨t, hmem, by simp [hawaits.1, hawaits.2]⟩
  obtain ⟨first, hfind⟩ := Option.isSome_iff_exists.mp hsome
  exact ⟨first, h.firstOn_of_find? hfind⟩

/-- And the oldest one is the first that is met. -/
theorem WellKept.find?_eq_some_iff :
    (e.targets.find? fun t => t.mode == .broadcast && t.address.port == sender.port) = some t ↔
      e.FirstOn sender t := by
  refine ⟨h.firstOn_of_find?, fun hfirst => ?_⟩
  rcases hfind : e.targets.find? _ with _ | found
  · have hnot := List.find?_eq_none.mp hfind t hfirst.active
    simp [hfirst.awaits.1, hfirst.awaits.2] at hnot
  · -- there is one oldest broadcast only
    have hfound := h.firstOn_of_find? hfind
    have hid : found.id = t.id := Nat.le_antisymm
      (hfound.least t hfirst.active hfirst.awaits) (hfirst.least found hfound.active hfound.awaits)
    rw [h.eq_of_id hfound.active hfirst.active hid]

end First

/-! ## What becomes of an answer -/

section Answer

variable {e : Engine} (h : e.WellKept) {sender : Address} (hnobody : e.idAt? sender = none)
  (payload : List UInt8) (now : Instant)
include h hnobody

/-- The first broadcast on the port finds the host, if it has not noted it. -/
theorem WellKept.created_receive {parent : Target} (hfirst : e.FirstOn sender parent)
    (hnew : sender ∉ parent.responders) :
    (e.story (.receive sender payload now)).filterMap Event.created?
      = [parent.child e.nextId sender] := by
  have hunknown : ¬parent.responders.contains sender = true := by simpa using hnew
  have hstory : e.story (.receive sender payload now)
      = .spawned parent (parent.child e.nextId sender)
        :: ((parent.child e.nextId sender).digest payload now).map .reacted := by
    simp only [story, hnobody, h.find?_eq_some_iff.mpr hfirst, if_neg hunknown]
  have hcreated : Event.created? (.spawned parent (parent.child e.nextId sender))
    = some (parent.child e.nextId sender) := rfl
  rw [hstory, List.filterMap_cons_some hcreated, created?_reacted]

/-- Otherwise nothing happens. -/
theorem WellKept.story_receive
    (hnoted : ∀ parent, e.FirstOn sender parent → sender ∈ parent.responders) :
    e.story (.receive sender payload now) = [] := by
  rcases hfind : e.targets.find?
      (fun t => t.mode == .broadcast && t.address.port == sender.port) with _ | parent
  · simp only [story, hnobody, hfind]
  · have hknown : parent.responders.contains sender = true := by
      simpa using hnoted parent (h.firstOn_of_find? hfind)
    simp only [story, hnobody, hfind, if_pos hknown]

end Answer

/-- Whether a host at an address has come out of a broadcast in a run. -/
def Answered (id : Nat) (calls : List Call) (sender : Address) : Prop :=
  sender ∈ (children id calls).map Target.address

instance (id : Nat) (calls : List Call) (sender : Address) :
    Decidable (Answered id calls sender) :=
  inferInstanceAs (Decidable (sender ∈ (children id calls).map Target.address))

section Run

variable {calls : List Call} {sender : Address}

/-- What a broadcast has noted is what has come out of it. -/
theorem mem_responders_iff {t : Target} (ht : t ∈ (run calls).targets) :
    sender ∈ t.responders ↔ Answered t.id calls sender := by
  have htold := told_journal calls
  rw [htold.responders (htold.wellKept.target?_of_mem ht)]
  exact Iff.rfl

variable (hunknown : (run calls).idAt? sender = none) (payload : List UInt8) (now : Instant)
include hunknown

theorem created_of_firstOn {parent : Target} (hfirst : (run calls).FirstOn sender parent)
    (hnew : ¬Answered parent.id calls sender) :
    created (calls ++ [.receive sender payload now])
      = created calls ++ [parent.child (run calls).nextId sender] := by
  have hkept := (told_journal calls).wellKept
  rw [created_concat, hkept.created_receive hunknown payload now hfirst
    (mt (mem_responders_iff hfirst.active).mp hnew)]

theorem dropped_of_answered
    (hall : ∀ parent, (run calls).FirstOn sender parent → Answered parent.id calls sender) :
    created (calls ++ [.receive sender payload now]) = created calls ∧
      run (calls ++ [.receive sender payload now]) = run calls := by
  have hkept := (told_journal calls).wellKept
  have hstory := hkept.story_receive hunknown payload now fun parent hfirst =>
    (mem_responders_iff hfirst.active).mpr (hall parent hfirst)
  have hcourse := course_story hkept (.receive sender payload now)
  rw [hstory] at hcourse
  rw [created_concat, hstory, run_concat]
  exact ⟨List.append_nil _, hcourse.of_nil⟩

end Run

/-- **The first broadcast on the port decides.** Take a run, and after it a datagram from an
address at which no server is being queried:

* if the first active broadcast on the port has not been answered from the address, one target
  is added, a host at the address whose parent is that broadcast;
* if it has been, or there is none, the datagram is dropped: nobody is added, and everything is
  as it was;
* so a host is found whenever some broadcast on the port has not been answered from the address,
  just if the first of them has not been, or all have been. -/
theorem responder_found_iff (calls : List Call) (sender : Address) (payload : List UInt8)
    (now : Instant)
    (hnobody : ∀ t ∈ (run calls).targets, t.mode = .unicast → t.address ≠ sender) :
    let call := .receive sender payload now
    (∀ parent, (run calls).FirstOn sender parent → ¬Answered parent.id calls sender →
      ∃ child, created (calls ++ [call]) = created calls ++ [child] ∧
        child.parent = some parent.id ∧ child.address = sender ∧ child.mode = .unicast) ∧
    ((∀ parent, (run calls).FirstOn sender parent → Answered parent.id calls sender) →
      created (calls ++ [call]) = created calls ∧ run (calls ++ [call]) = run calls) ∧
    (((∃ t ∈ (run calls).targets, t.Awaits sender ∧ ¬Answered t.id calls sender) →
        created (calls ++ [call]) ≠ created calls) ↔
      ∀ parent, (run calls).FirstOn sender parent → Answered parent.id calls sender →
        ∀ t ∈ (run calls).targets, t.Awaits sender → Answered t.id calls sender) := by
  intro call
  have hkept := (told_journal calls).wellKept
  have hunknown : (run calls).idAt? sender = none := by
    rw [← Option.not_isSome_iff_eq_none, hkept.isSome_idAt?_iff]
    rintro ⟨t, ht, hmode, haddress⟩
    exact hnobody t ht hmode haddress
  refine ⟨fun parent hfirst hnew =>
    ⟨_, created_of_firstOn hunknown payload now hfirst hnew, rfl, rfl, rfl⟩,
    dropped_of_answered hunknown payload now, ?_⟩
  constructor
  · intro hall parent hfirst hanswered t ht hawaits
    by_contra hmissed
    -- there is one first broadcast, and it has been answered, so the datagram is dropped
    refine hall ⟨t, ht, hawaits, hmissed⟩
      (dropped_of_answered hunknown payload now fun other hother => ?_).1
    have hsame := hkept.find?_eq_some_iff.mpr hother
    rw [hkept.find?_eq_some_iff.mpr hfirst] at hsame
    exact Option.some.inj hsame ▸ hanswered
  · rintro hall ⟨t, ht, hawaits, hmissed⟩ hsame
    obtain ⟨parent, hfirst⟩ := hkept.exists_firstOn ht hawaits
    rw [created_of_firstOn hunknown payload now hfirst fun hanswered =>
      hmissed (hall parent hfirst hanswered t ht hawaits)] at hsame
    exact absurd hsame (by simp)

/-- A broadcast for servers of one protocol, on the port at which another one is spoken. -/
def a2sBroadcast : Target :=
  ((Target.fresh 1 ⟨"192.0.2.255", 27960⟩ .broadcast .a2s {} 0).ask 0).target

/-- The broadcast for the servers that are there. -/
def q3Broadcast : Target :=
  ((Target.fresh 2 ⟨"192.0.2.255", 27960⟩ .broadcast .q3 {} 0).ask 0).target

/-- Both broadcasts, side by side. -/
def sideBySide : List Call :=
  [.add .broadcast "a2s" ⟨"192.0.2.255", 27960⟩ {} 0 0,
    .add .broadcast "q3" ⟨"192.0.2.255", 27960⟩ {} 0 0]

/-- What a server answers to the second. -/
def statusReply : List UInt8 :=
  [0xFF, 0xFF, 0xFF, 0xFF] ++ Text.Utf8.encode "statusResponse\n\\sv_hostname\\x\n".toList

/-- The server comes out of the first broadcast. -/
theorem responder_found_iff_first :
    ∃ child, created (sideBySide ++ [.receive ⟨"192.0.2.7", 27960⟩ statusReply 1000000])
        = created sideBySide ++ [child] ∧
      child.parent = some 1 ∧ child.address = ⟨"192.0.2.7", 27960⟩ ∧ child.mode = .unicast := by
  have htargets : (run sideBySide).targets = [a2sBroadcast, q3Broadcast] := by decide +kernel
  have hnobody : ∀ t ∈ (run sideBySide).targets, t.mode = .unicast →
      t.address ≠ ⟨"192.0.2.7", 27960⟩ := by
    rw [htargets]
    decide +kernel
  have hfirst : (run sideBySide).FirstOn ⟨"192.0.2.7", 27960⟩ a2sBroadcast := by
    refine ⟨htargets ▸ List.mem_cons_self, ⟨rfl, rfl⟩, fun other hother _ => ?_⟩
    rw [htargets] at hother
    rcases List.mem_pair.mp hother with rfl | rfl
    · exact Nat.le_refl 1
    · exact Nat.le_succ 1
  exact (responder_found_iff sideBySide ⟨"192.0.2.7", 27960⟩ statusReply 1000000 hnobody).1
    a2sBroadcast hfirst (by decide +kernel)

/-- It cannot be understood in the protocol of the first, and has ended when it answers again.
Then it is dropped, although nobody has come out of the second broadcast, which is active. -/
theorem responder_missed :
    (∀ t ∈ (run (sideBySide
        ++ [.receive ⟨"192.0.2.7", 27960⟩ statusReply 1000000])).targets, t.mode = .broadcast) ∧
    q3Broadcast ∈ (run (sideBySide
        ++ [.receive ⟨"192.0.2.7", 27960⟩ statusReply 1000000])).targets ∧
    q3Broadcast.Awaits ⟨"192.0.2.7", 27960⟩ ∧
    ¬Answered q3Broadcast.id (sideBySide ++ [.receive ⟨"192.0.2.7", 27960⟩ statusReply 1000000])
      ⟨"192.0.2.7", 27960⟩ ∧
    run (sideBySide ++ [.receive ⟨"192.0.2.7", 27960⟩ statusReply 1000000,
        .receive ⟨"192.0.2.7", 27960⟩ statusReply 2000000])
      = run (sideBySide ++ [.receive ⟨"192.0.2.7", 27960⟩ statusReply 1000000]) := by
  refine ⟨by decide +kernel, by decide +kernel, ⟨rfl, rfl⟩, by decide +kernel, by decide +kernel⟩

end Engine

end ServerProbe
