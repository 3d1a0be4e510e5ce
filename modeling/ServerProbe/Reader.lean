/-
Reading a payload from its front. A `Reader` is how many octets have been
consumed together with the octets that are left, so nothing can be read beyond
the end: there is nothing there. Every read either hands back what it read and
the reader after it, or says why it could not, and then the caller still holds
the reader it had. A text counts as read only when its terminator is inside the
payload.

A `Cursor`, which goes over octets in memory by position and has to put itself back,
comes to the same.
-/
import ServerProbe.Octets
import ServerProbe.Text.Numeral
import ServerProbe.Text.Utf8

set_option autoImplicit false

namespace ServerProbe

/-! ## Why a read fails -/

/-- Why a payload could not be read on. -/
inductive ReadError where
  /-- Fewer octets are left than the read needs. -/
  | truncated (offset needed remaining : Nat)
  /-- A text starts at `offset` and its terminator does not follow. -/
  | unterminated (offset : Nat)
  /-- Fixed octets are expected and others are there. -/
  | mismatch (offset : Nat) (expected actual : List UInt8)
  deriving Repr, DecidableEq

namespace ReadError

/-- Where the failed read started. -/
def offset : ReadError → Nat
  | truncated offset _ _ => offset
  | unterminated offset => offset
  | mismatch offset _ _ => offset

/-- The text shown for a failed read. -/
def message : ReadError → String
  | truncated offset needed remaining =>
    "truncated packet: needed " ++ Text.decimalText needed ++ " bytes at offset "
      ++ Text.decimalText offset ++ ", " ++ Text.decimalText remaining ++ " remaining"
  | unterminated offset => "unterminated string at offset " ++ Text.decimalText offset
  | mismatch offset expected actual =>
    "unexpected bytes at offset " ++ Text.decimalText offset ++ ": expected "
      ++ Text.octetsHex expected ++ ", got " ++ Text.octetsHex actual

end ReadError

/-! ## The reader -/

/-- A payload that is being read. -/
structure Reader where
  /-- How many octets have been consumed. -/
  pos : Nat
  /-- The octets that have not. -/
  rest : List UInt8
  deriving Repr, DecidableEq

namespace Reader

/-- A reader at the front of a payload. -/
def ofPayload (payload : List UInt8) : Reader := ⟨0, payload⟩

/-- How many octets are left. -/
def remaining (r : Reader) : Nat := r.rest.length

/-- Whether nothing is left. -/
def isEmpty (r : Reader) : Bool := r.rest.isEmpty

/-- The next octet, which stays unread. -/
def peek? (r : Reader) : Option UInt8 := r.rest.head?

/-- A read: what it yields and the reader after it, or why it fails. -/
abbrev Read (α : Type) := Reader → Except ReadError (α × Reader)

/-! ## Octets -/

/-- The next `n` octets. Asking for more than there are is an error, however
large `n` is. -/
def bytes (n : Nat) : Read (List UInt8) := fun r =>
  let piece := r.rest.take n
  if piece.length = n then .ok (piece, ⟨r.pos + n, r.rest.drop n⟩)
  else .error (.truncated r.pos n r.remaining)

/-- Passes over the next `n` octets. -/
def skip (n : Nat) : Read Unit := fun r =>
  (r.bytes n).map fun (_, after) => ((), after)

/-- All that is left. -/
def takeRest (r : Reader) : List UInt8 × Reader :=
  (r.rest, ⟨r.pos + r.rest.length, []⟩)

/-- Passes over `marker`, which has to come next. -/
def expect (marker : List UInt8) : Read Unit := fun r =>
  match r.bytes marker.length with
  | .error e => .error e
  | .ok (actual, after) =>
    if actual = marker then .ok ((), after) else .error (.mismatch r.pos marker actual)

/-- The octets before the next `delimiter`, which is passed over. -/
def takeUntil (delimiter : UInt8) : Read (List UInt8) := fun r =>
  match r.rest.dropWhile (· != delimiter) with
  | [] => .error (.unterminated r.pos)
  | _ :: after =>
    let piece := r.rest.takeWhile (· != delimiter)
    .ok (piece, ⟨r.pos + piece.length + 1, after⟩)

/-! ## Numbers and text -/

/-- A number of `width` octets, least significant first. -/
def littleEndian (width : Nat) : Read Nat := fun r =>
  (r.bytes width).map fun (piece, after) => (Octets.ofLittleEndian piece, after)

/-- A number of `width` octets, most significant first. -/
def bigEndian (width : Nat) : Read Nat := fun r =>
  (r.bytes width).map fun (piece, after) => (Octets.ofBigEndian piece, after)

/-- One octet. -/
def uint8 : Read UInt8 := fun r =>
  (r.littleEndian 1).map fun (n, after) => (UInt8.ofNat n, after)

/-- A word of 16 bits, least significant octet first. -/
def uint16LE : Read UInt16 := fun r =>
  (r.littleEndian 2).map fun (n, after) => (UInt16.ofNat n, after)

/-- A word of 32 bits, least significant octet first. The bits of a
single-precision number are read this way too. -/
def uint32LE : Read UInt32 := fun r =>
  (r.littleEndian 4).map fun (n, after) => (UInt32.ofNat n, after)

/-- A word of 64 bits, least significant octet first. -/
def uint64LE : Read UInt64 := fun r =>
  (r.littleEndian 8).map fun (n, after) => (UInt64.ofNat n, after)

/-- A signed word of 32 bits, least significant octet first. -/
def int32LE : Read Int32 := fun r =>
  (r.littleEndian 4).map fun (n, after) => ((UInt32.ofNat n).toInt32, after)

/-- A signed word of 32 bits, most significant octet first. -/
def int32BE : Read Int32 := fun r =>
  (r.bigEndian 4).map fun (n, after) => ((UInt32.ofNat n).toInt32, after)

/-- A text that ends with a zero octet; damage in it is read as U+FFFD. -/
def cstring : Read String := fun r =>
  (r.takeUntil 0).map fun (piece, after) => (String.ofList (Text.Utf8.decode piece), after)

end Reader

end ServerProbe
