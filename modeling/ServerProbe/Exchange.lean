/-
The exchange with one server: what is known about it, the state of the
conversation, and the pieces of replies that have not come together yet.

Facts are learned one by one until one does not fit. What was learned before it
stays.
-/
import ServerProbe.Fragment
import ServerProbe.Reading

set_option autoImplicit false

namespace ServerProbe

/-- An exchange with one server. -/
structure Exchange where
  server : Server := {}
  session : Session := {}
  fragments : Fragment.Table := {}
  deriving Repr, DecidableEq

namespace Exchange

/-! ## Learning -/

/-- Keeps a server, or leaves the exchange as it is with a fault. -/
def keep (x : Exchange) : Except Fault Server → Exchange × Option Fault
  | .ok server => ({ x with server }, none)
  | .error fault => (x, some fault)

/-- Learns one fact. A player that the server does not number uses up a number even
if there is no room for it. -/
def learn (policy : DuplicatePolicy) (x : Exchange) : Fact → Exchange × Option Fault
  | .name text => ({ x with server.name := some text }, none)
  | .map text => ({ x with server.map := some text }, none)
  | .game text => ({ x with server.game := some text }, none)
  | .numPlayers count => ({ x with server.numPlayers := count }, none)
  | .maxPlayers count => ({ x with server.maxPlayers := count }, none)
  | .rule name value => x.keep ((x.server.addRule policy name value).map Prod.fst)
  | .newcomer fields =>
    let number := x.session.nextPlayer
    { x with session.nextPlayer := number + 1 }.keep
      (x.server.addPlayer (Player.setAll { number } fields))
  | .seen number => x.keep (x.server.ensurePlayer number)
  | .field number value =>
    ({ x with server := x.server.changePlayer number fun p => p.set value }, none)
  | .token value => ({ x with session.challenge := some value }, none)
  | .revision value => ({ x with session.revision := some value }, none)
  | .datagram number final => ({ x with session := x.session.arrived number final }, none)

/-- Learns facts in order, up to the first that does not fit. -/
def learnAll (policy : DuplicatePolicy) : Exchange → List Fact → Exchange × Option Fault
  | x, [] => (x, none)
  | x, fact :: rest =>
    match x.learn policy fact with
    | (x', some fault) => (x', some fault)
    | (x', none) => learnAll policy x' rest

end Exchange

end ServerProbe
