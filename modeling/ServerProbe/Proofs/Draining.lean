/-
The drain ends on every payload.

Between calls nothing waits. A payload that comes in is handled in turns, one payload a
turn, and it takes as many turns as it has moments (`emptiesIn_digest`). A turn may make a
reply whole that waits then instead, and that reply may be a piece again, to any depth; but
the piece that made it whole had a head of nine octets, which are gone, and a reply is made
of octets that came in or were held. So with every turn but the first, nine octets less wait
or are held, and there are no more turns than that allows (`Target.length_digest_le`).
-/
import ServerProbe.Proofs.Journal

set_option autoImplicit false

namespace ServerProbe.Engine

/-! ## Payloads that come in -/

/-- A datagram is routed to a target that is active then. -/
theorem WellKept.routed {e e' : Engine} (h : e.WellKept) {sender : Address} {id : Nat}
    (hroute : e.route sender = (e', some id)) :
    e'.WellKept ∧ ∃ t ∈ e'.targets, t.id = id := by
  have hroutes := h.route_cases sender [] 0
  rw [hroute] at hroutes
  cases hroutes with
  | known hmem => exact ⟨h, _, hmem, rfl⟩
  | spawned hfits => exact ⟨h.tell hfits, _, target?_mem (target?_tell_created h hfits rfl)⟩

/-- A payload that comes in for an active target is handled in a bounded number of turns. -/
theorem WellKept.drain_emptiesIn {e : Engine} (h : e.WellKept) {t : Target} (hmem : t ∈ e.targets)
    (payload : List UInt8) (now : Instant) :
    ∃ n, n ≤ 1 + (payload.length + t.exchange.fragments.buffered) / 9 ∧
      EmptiesIn now n { e with pending := [(t.id, payload)] }
        ({ e with pending := e.pending ++ [(t.id, payload)] }.drain now) := by
  have hholds := h.holds hmem
  refine ⟨(t.digest payload now).length, t.length_digest_le payload now, ?_⟩
  rw [h.quiet, List.nil_append, drain_eq hholds h.quiet]
  exact emptiesIn_digest hholds h.quiet payload now

/-- **The drain ends on every payload.** In every engine that a run leads to nothing waits.
A payload for an active target, whether it was delivered to the target or routed to it by
the address it came from, is handled in turns, of which there are no more than one and a
ninth of the octets that came in and that the target held; before each turn exactly one
payload waits, and after the last, which is when the call returns, there is none. -/
theorem drain_ends {e : Engine} (h : e.Reachable) :
    e.pending = [] ∧
    (∀ t ∈ e.targets, ∀ payload now,
      ∃ n, n ≤ 1 + (payload.length + t.exchange.fragments.buffered) / 9 ∧
        EmptiesIn now n { e with pending := [(t.id, payload)] }
          (e.deliver t.id payload now).1) ∧
    ∀ sender id e', e.route sender = (e', some id) → ∃ t ∈ e'.targets, t.id = id ∧
      ∀ payload now, ∃ n, n ≤ 1 + (payload.length + t.exchange.fragments.buffered) / 9 ∧
        EmptiesIn now n { e' with pending := [(id, payload)] } (e.receive sender payload now) := by
  have hkept := h.wellKept
  refine ⟨hkept.quiet, ?_, ?_⟩
  · intro t hmem payload now
    rw [deliver, hkept.target?_of_mem hmem]
    exact hkept.drain_emptiesIn hmem payload now
  · intro sender id e' hroute
    obtain ⟨hkept', t, hmem, rfl⟩ := hkept.routed hroute
    refine ⟨t, hmem, rfl, fun payload now => ?_⟩
    rw [receive, hroute]
    exact hkept'.drain_emptiesIn hmem payload now

/-- A piece wrapped up in a piece, each the only one of its series; the reply in the inner
one is a token. -/
def wrapped : List UInt8 :=
  [0xFE, 0xFF, 0xFF, 0xFF, 1, 0, 0, 0, 1, 0, 0, 0,
    0xFE, 0xFF, 0xFF, 0xFF, 2, 0, 0, 0, 1, 0, 0, 0,
    0xFF, 0xFF, 0xFF, 0xFF, 0x41, 7, 0, 0, 0]

/-- The datagram has 33 octets, so there are four turns at most. After two of them the token
still waits; in the end it has made the target ask again. -/
theorem drain_ends_wrapped :
    let e := run [.add .unicast "a2s" ⟨"192.0.2.1", 27015⟩ {} 0 0]
    (∃ n, n ≤ 4 ∧ EmptiesIn 1 n { e with pending := [(1, wrapped)] }
      (e.receive ⟨"192.0.2.1", 27015⟩ wrapped 1)) ∧
    ((turn 1)^[2] { e with pending := [(1, wrapped)] }).pending.length = 1 ∧
    (e.receive ⟨"192.0.2.1", 27015⟩ wrapped 1).outbox.length = 2 := by
  intro e
  have hreachable : e.Reachable := ⟨_, rfl⟩
  have hroute : e.route ⟨"192.0.2.1", 27015⟩ = (e, some 1) := by decide +kernel
  obtain ⟨-, -, hroutes⟩ := drain_ends hreachable
  obtain ⟨t, hmem, -, hdrains⟩ := hroutes _ _ _ hroute
  -- the target holds nothing yet
  have hnothing : ∀ t ∈ e.targets, t.exchange.fragments.buffered = 0 := by decide +kernel
  obtain ⟨n, hn, hempties⟩ := hdrains wrapped 1
  rw [hnothing t hmem] at hn
  exact ⟨⟨n, hn, hempties⟩, by decide +kernel, by decide +kernel⟩

end ServerProbe.Engine
