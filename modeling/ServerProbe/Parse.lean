/-
Parsing a payload for one exchange.

A `Context` is what a parser is handed: the exchange, the options, the phase that is
being asked and those to which no reply is welcome any more. It is also where the
parser leaves its effects. Which phases were answered, whether the request should be
sent again, which replies became whole and what was wrong are kept apart from each
other and from the outcome, and a parser that ends with a fault leaves the context as
it is then; nothing here makes them agree.

The bodies of replies are read by readers of replies (`Parse.learn`). Their facts are
learned in order up to the first that does not fit, which ends the parser, as it would
have done if it had been learned as soon as it was noted: whatever a reader does after
it has no effect on the exchange.
-/
import ServerProbe.Config
import ServerProbe.Exchange

set_option autoImplicit false

namespace ServerProbe

/-- What a payload is parsed with, and what that does. -/
structure Context where
  exchange : Exchange
  params : RequestParams := {}
  /-- The phase that is being asked. -/
  current : Option Phase
  /-- The phases to which no reply is welcome any more. -/
  sealed : PhaseSet
  /-- The replies that became whole. -/
  completed : List (List UInt8) := []
  /-- The phases that were answered. -/
  answered : PhaseSet := ∅
  /-- Whether the request should be sent again. -/
  resend : Bool := false
  /-- What was wrong. -/
  error : Option String := none
  deriving Repr, DecidableEq

namespace Context

/-- A context in which nothing has been parsed. -/
def start (x : Exchange) (params : RequestParams) (current : Option Phase) (sealed : PhaseSet) :
    Context :=
  { exchange := x, params, current, sealed }

/-- Learns facts in order, up to the first that does not fit. -/
def learnAll (c : Context) (facts : List Fact) : Context × Option Fault :=
  let (exchange, misfit) := c.exchange.learnAll c.params.rulePolicy facts
  ({ c with exchange }, misfit)

end Context

/-! ## Parsers -/

/-- Where a parser has come to: on to a value, or to a fault. -/
inductive Parse.Step (α : Type) where
  | next (value : α) (reader : Reader) (context : Context)
  | stop (fault : Fault) (context : Context)

/-- A parser. -/
def Parse (α : Type) : Type := Reader → Context → Parse.Step α

namespace Parse

/-- Yields a value. -/
@[inline] protected def pure {α : Type} (value : α) : Parse α := fun r c => .next value r c

/-- Goes on from where the first parser got to. -/
@[inline] protected def bind {α β : Type} (m : Parse α) (k : α → Parse β) : Parse β := fun r c =>
  match m r c with
  | .next value r' c' => k value r' c'
  | .stop fault c' => .stop fault c'

instance : Monad Parse where
  pure := Parse.pure
  bind := Parse.bind

/-- Ends with a fault. -/
@[inline] def fail {α : Type} (fault : Fault) : Parse α := fun _ c => .stop fault c

/-- The context. -/
@[inline] def context : Parse Context := fun r c => .next c r c

/-- Changes the context. -/
@[inline] def change (f : Context → Context) : Parse Unit := fun r c => .next () r (f c)

/-- Reads with one of the reads of a `Reader`. -/
@[inline] def read {α : Type} (op : Reader.Read α) : Parse α := fun r c =>
  match op r with
  | .ok (value, r') => .next value r' c
  | .error e => .stop (.unreadable e) c

/-- Reads on with a reader of replies, and learns what it notes. -/
def learn {α : Type} (m : Reply α) : Parse α := fun r c =>
  match m r [] with
  | .next value r' noted =>
    match c.learnAll noted.reverse with
    | (c', none) => .next value r' c'
    | (c', some misfit) => .stop misfit c'
  | .stop fault noted =>
    let (c', misfit) := c.learnAll noted.reverse
    .stop (misfit.getD fault) c'

/-! ## What a parser does to its context -/

/-- Ends with a fault if replies to `phase` are not welcome any more. -/
def accept (phase : Phase) : Parse Unit := fun r c =>
  if phase ∈ c.sealed then .stop (.unexpected phase) c else .next () r c

/-- Counts `phase` as answered. -/
def answer (phase : Phase) : Parse Unit :=
  change fun c => { c with answered := c.answered.insert phase }

/-- Asks for the request to be sent again. -/
def requestResend : Parse Unit := change fun c => { c with resend := true }

/-- Keeps a piece of a reply. If that makes the reply whole, it is handed out to be parsed
later, so more is expected in any case. -/
def ingest (series : UInt32) (index count : Nat) (payload : List UInt8) : Parse Outcome := do
  change fun c =>
    let (fragments, joined) := c.exchange.fragments.ingest series index count payload
    { c with exchange.fragments := fragments, completed := c.completed ++ joined.toList }
  pure .inProgress

/-- Takes a token. It answers the challenge if that is asked. Otherwise it is kept, and the
request sent again with it, unless it is the one that is held already: that answers nothing. -/
def takeToken (token : Int32) : Parse Outcome := do
  let c ← context
  if c.current = some .challenge then
    accept .challenge
    learn (.note (.token token))
    answer .challenge
    pure (.done true)
  else if c.exchange.session.challenge = some token then fail (.unexpected .challenge)
  else
    learn (.note (.token token))
    requestResend
    pure .inProgress

/-- What became of a payload, and what that did. The text of a fault is kept. -/
def Step.settle : Step Outcome → Outcome × Context
  | .next outcome _ c => (outcome, c)
  | .stop fault c => (fault.outcome, { c with error := some fault.message })

/-- Parses a payload. -/
def respond (m : Parse Outcome) (payload : List UInt8) (c : Context) : Outcome × Context :=
  (m (Reader.ofPayload payload) c).settle

end Parse

end ServerProbe
