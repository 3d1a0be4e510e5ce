/-
What a query remembers about the conversation itself, as opposed to the server:
the token to echo, the id that replies must carry, which form of split header
the server uses, and which datagrams of a numbered reply have arrived.
-/
import ServerProbe.Phase

set_option autoImplicit false

namespace ServerProbe

/-- The state of one conversation. -/
structure Session where
  /-- The token the server handed out last. -/
  challenge : Option Int32 := none
  /-- The id that the client chose and that some protocols repeat in replies. -/
  sessionId : UInt32 := 0
  /-- The form of the protocol, once a status reply showed it. -/
  revision : Option UInt8 := none
  /-- Bit `n` is set once datagram `n` of a numbered reply has arrived. -/
  received : UInt64 := 0
  /-- The number of the datagram that was marked as the last. -/
  finalIndex : Option UInt8 := none
  /-- The number of the next player that the server does not number itself. -/
  nextPlayer : Int32 := 0
  deriving Repr, DecidableEq

namespace Session

/-- The bit of datagram `n`. -/
def datagramBit (n : UInt8) : UInt64 := 1 <<< n.toUInt64

/-- Whether a mask holds the bit of datagram `n`. -/
def maskHas (mask : UInt64) (n : UInt8) : Bool := mask &&& datagramBit n != 0

/-- Notes that datagram `n` has arrived, and that it is the last if `final`. -/
def arrived (s : Session) (n : UInt8) (final : Bool) : Session :=
  { s with
    received := s.received ||| datagramBit n
    finalIndex := if final then some n else s.finalIndex }

/-- Whether every datagram up to the last has arrived. -/
def isWhole (s : Session) : Bool :=
  match s.finalIndex with
  | none => false
  | some last => (List.range' 1 last.toNat).all fun n => maskHas s.received (UInt8.ofNat n)

end Session

end ServerProbe
