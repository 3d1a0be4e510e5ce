/-
Reading octets in memory.

A `Cursor` goes over a buffer by position. Positions and lengths are machine words, so
their sums may wrap, and a cursor that has gone on stays there until it is put back, whatever
came of it. It hands itself back in any case. Octets outside of the buffer cannot be had:
an access to them has no result, and the program would end there. That this never happens,
and that a cursor comes to what a `Reader` comes to, is what the checks are for.
-/
import ServerProbe.Reader

set_option autoImplicit false

namespace ServerProbe

/-! ## Buffers -/

/-- Octets in memory. There is no room for 2^63 of them. -/
structure Buffer where
  octets : List UInt8
  fits : octets.length < 0x8000000000000000
  deriving Repr, DecidableEq

namespace Buffer

/-- How many octets there are. -/
def size (b : Buffer) : UInt64 := UInt64.ofNat b.octets.length

/-- The octets from position `first` up to position `last`, if there are such. -/
def slice? (b : Buffer) (first last : UInt64) : Option (List UInt8) :=
  if first ≤ last ∧ last ≤ b.size then some ((b.octets.take last.toNat).drop first.toNat)
  else none

end Buffer

/-! ## The cursor -/

/-- A buffer that is being read. -/
structure Cursor where
  buffer : Buffer
  /-- The position of the next octet. -/
  pos : UInt64
  deriving Repr, DecidableEq

namespace Cursor

/-- A cursor at the front of a buffer. -/
def ofBuffer (buffer : Buffer) : Cursor := ⟨buffer, 0⟩

/-- How many octets are left. -/
def remaining (c : Cursor) : UInt64 := c.buffer.size - c.pos

/-- All that is left, which stays unread. -/
def rest? (c : Cursor) : Option (List UInt8) := c.buffer.slice? c.pos c.buffer.size

/-- The next octet, which stays unread. -/
def peek? (c : Cursor) : Option UInt8 := c.buffer.octets[c.pos.toNat]?

/-- An access: what it yields or why it fails, and the cursor after it. There is no result if
it leaves the buffer. -/
abbrev Access (α : Type) := Cursor → Option (Except ReadError α × Cursor)

/-- An access whose result is made something else. -/
def Access.map {α β : Type} (access : Access α) (f : α → β) : Access β := fun c =>
  (access c).map fun (result, after) => (result.map f, after)

/-! ## Octets -/

/-- The next `n` octets. -/
def bytes (n : UInt64) : Access (List UInt8) := fun c =>
  if c.remaining < n then
    some (.error (.truncated c.pos.toNat n.toNat c.remaining.toNat), c)
  else do
    let piece ← c.buffer.slice? c.pos (c.pos + n)
    some (.ok piece, { c with pos := c.pos + n })

/-- Passes over the next `n` octets. -/
def skip (n : UInt64) : Access Unit := (bytes n).map fun _ => ()

/-- All that is left. -/
def takeRest : Access (List UInt8) := fun c => do
  let piece ← c.rest?
  some (.ok piece, { c with pos := c.buffer.size })

/-- Passes over `marker`, which has to come next. If other octets come, the cursor has gone
past them and is put back. -/
def expect (marker : Buffer) : Access Unit := fun c => do
  match ← c.bytes marker.size with
  | (.error e, after) => some (.error e, after)
  | (.ok actual, after) =>
    if actual = marker.octets then some (.ok (), after)
    else some (.error (.mismatch c.pos.toNat marker.octets actual), { after with pos := c.pos })

/-- The octets before the next `delimiter`, which is passed over. -/
def takeUntil (delimiter : UInt8) : Access (List UInt8) := fun c => do
  match (← c.rest?).idxOf? delimiter with
  | none => some (.error (.unterminated c.pos.toNat), c)
  | some n =>
    let behind := c.pos + UInt64.ofNat n
    let piece ← c.buffer.slice? c.pos behind
    some (.ok piece, { c with pos := behind + 1 })

/-! ## Numbers and text -/

/-- A number of `width` octets, least significant first. -/
def littleEndian (width : UInt64) : Access Nat := (bytes width).map Octets.ofLittleEndian

/-- A number of `width` octets, most significant first. -/
def bigEndian (width : UInt64) : Access Nat := (bytes width).map Octets.ofBigEndian

/-- One octet. -/
def uint8 : Access UInt8 := (littleEndian 1).map UInt8.ofNat

/-- A word of 16 bits, least significant octet first. -/
def uint16LE : Access UInt16 := (littleEndian 2).map UInt16.ofNat

/-- A word of 32 bits, least significant octet first. The bits of a
single-precision number are read this way too. -/
def uint32LE : Access UInt32 := (littleEndian 4).map UInt32.ofNat

/-- A word of 64 bits, least significant octet first. -/
def uint64LE : Access UInt64 := (littleEndian 8).map UInt64.ofNat

/-- A signed word of 32 bits, least significant octet first. -/
def int32LE : Access Int32 := (littleEndian 4).map fun n => (UInt32.ofNat n).toInt32

/-- A signed word of 32 bits, most significant octet first. -/
def int32BE : Access Int32 := (bigEndian 4).map fun n => (UInt32.ofNat n).toInt32

/-- A text that ends with a zero octet; damage in it is read as U+FFFD. -/
def cstring : Access String :=
  (takeUntil 0).map fun piece => String.ofList (Text.Utf8.decode piece)

end Cursor

end ServerProbe
