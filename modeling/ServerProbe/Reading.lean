/-
What a payload says. Reading a reply and acting on it are kept apart: what stands
in a reply is read into a list of facts, in the order in which they stand in it.
The facts found before a fault still count, since half a reply is better than none.

`Reply` is the language in which the bodies of replies are read: a reader that moves
through the payload and notes facts as it goes.
-/
import ServerProbe.Server
import ServerProbe.Session

set_option autoImplicit false

namespace ServerProbe

/-! ## Facts -/

/-- One thing that a payload tells, about the server or about the conversation. -/
inductive Fact where
  | name (text : String)
  | map (text : String)
  | game (text : String)
  | numPlayers (count : UInt32)
  | maxPlayers (count : UInt32)
  | rule (name value : String)
  /-- A player that the server does not number. -/
  | newcomer (fields : List PlayerField)
  /-- There is a player with this number. -/
  | seen (number : Int32)
  /-- A field of the player with this number. -/
  | field (number : Int32) (value : PlayerField)
  /-- A token to echo. -/
  | token (value : Int32)
  /-- The form of the protocol that the server uses. -/
  | revision (value : UInt8)
  /-- The number of this datagram in its reply, and whether it is the last one. -/
  | datagram (number : UInt8) (final : Bool)
  deriving Repr, DecidableEq

/-! ## Readers of replies -/

/-- Where a reader of replies has come to: on to a value, or to a fault. The facts
noted so far are kept last first. -/
inductive Reply.Step (α : Type) where
  | next (value : α) (reader : Reader) (noted : List Fact)
  | stop (fault : Fault) (noted : List Fact)

/-- A reader of replies. -/
def Reply (α : Type) : Type := Reader → List Fact → Reply.Step α

namespace Reply

/-- Yields a value without reading. -/
@[inline] protected def pure {α : Type} (value : α) : Reply α := fun r noted => .next value r noted

/-- Reads on from where the first reader got to. -/
@[inline] protected def bind {α β : Type} (m : Reply α) (k : α → Reply β) : Reply β :=
  fun r noted =>
    match m r noted with
    | .next value r' noted' => k value r' noted'
    | .stop fault noted' => .stop fault noted'

instance : Monad Reply where
  pure := Reply.pure
  bind := Reply.bind

/-- Ends with a fault. -/
@[inline] def fail {α : Type} (fault : Fault) : Reply α := fun _ noted => .stop fault noted

/-- Yields what `value` holds; without a value, ends with the fault. -/
@[inline] def require {α : Type} (value : Option α) (fault : Fault) : Reply α :=
  match value with
  | some a => Reply.pure a
  | none => fail fault

/-- Reads with one of the reads of a `Reader`. -/
@[inline] def read {α : Type} (op : Reader.Read α) : Reply α := fun r noted =>
  match op r with
  | .ok (value, r') => .next value r' noted
  | .error e => .stop (.unreadable e) noted

/-- Notes a fact. -/
@[inline] def note (fact : Fact) : Reply Unit := fun r noted => .next () r (fact :: noted)

/-- The next octet, if there is one; it stays unread. -/
@[inline] def peek? : Reply (Option UInt8) := fun r noted => .next r.peek? r noted

/-- All that is left. -/
@[inline] def takeRest : Reply (List UInt8) := fun r noted =>
  .next r.takeRest.1 r.takeRest.2 noted

/-! ## One step at a time -/

variable {α β : Type}

@[simp] theorem pure_run (a : α) (r : Reader) (noted : List Fact) :
    (pure a : Reply α) r noted = .next a r noted := rfl

theorem bind_next {m : Reply α} {k : α → Reply β} {a : α} {r r' : Reader}
    {noted noted' : List Fact} (h : m r noted = .next a r' noted') :
    (m >>= k) r noted = k a r' noted' := by
  show Reply.bind m k r noted = _
  simp [Reply.bind, h]

theorem bind_stop {m : Reply α} {k : α → Reply β} {fault : Fault} {r : Reader}
    {noted noted' : List Fact} (h : m r noted = .stop fault noted') :
    (m >>= k) r noted = .stop fault noted' := by
  show Reply.bind m k r noted = _
  simp [Reply.bind, h]

instance : LawfulMonad Reply := LawfulMonad.mk' Reply
  (fun m => by
    funext r noted
    show Reply.bind m (fun a => Reply.pure (id a)) r noted = m r noted
    simp only [Reply.bind, Reply.pure, id]
    cases m r noted <;> rfl)
  (fun _ _ => rfl)
  (fun m k l => by
    funext r noted
    show Reply.bind (Reply.bind m k) l r noted = Reply.bind m (fun a => Reply.bind (k a) l) r noted
    simp only [Reply.bind]
    cases m r noted <;> rfl)

end Reply

end ServerProbe
