/-
What a payload did to an exchange, and what is left of its parsing for whoever handed it
in.
-/
import ServerProbe.Protocol

set_option autoImplicit false

namespace ServerProbe

/-- What a payload did, apart from what was learned. -/
structure Receipt where
  outcome : Outcome
  /-- The phases it answered. -/
  answered : PhaseSet := ∅
  /-- Whether the request should be sent again. -/
  resend : Bool := false
  /-- What was wrong with it. -/
  message : Option String := none
  /-- The replies that it made whole. -/
  completed : List (List UInt8) := []
  deriving Repr, DecidableEq

/-- The reply that a payload made whole, if it made one. -/
def Receipt.joined (r : Receipt) : Option (List UInt8) := r.completed.head?

/-- What a parser left in a context, with what became of the payload. -/
def Context.receipt (c : Context) (outcome : Outcome) : Receipt where
  outcome := outcome
  answered := c.answered
  resend := c.resend
  message := c.error
  completed := c.completed

/-- Takes in one payload while `current` is asked and replies to `sealed` are not
welcome. -/
def Exchange.receive (x : Exchange) (p : Protocol) (params : RequestParams)
    (current : Option Phase) (sealed : PhaseSet) (payload : List UInt8) : Exchange × Receipt :=
  let (outcome, c) := p.parse.respond payload (Context.start x params current sealed)
  (c.exchange, c.receipt outcome)

end ServerProbe
