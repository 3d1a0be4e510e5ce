/-
Replies that come in pieces. Each piece names its series, its place and how many
places there are. A `Series` keeps one slot per place and counts the pieces that
it took in; a slot is filled once, by the first piece that claims it, and when
the count reaches the number of places the pieces are joined in order and the
series is closed. Nothing looks at the slots to tell whether a series is whole, so
the count has to be right.

The table of open series is small on purpose: a server that opens more than a
handful at once is not answering a query. Nor can a series have any number of
places: all slots are there from the start, and memory for more than `maxPlaces`
of them cannot be had. What a piece does that would open a longer series is not
described here: the program ends.
-/
import ServerProbe.Total

set_option autoImplicit false

namespace ServerProbe.Fragment

/-- How many series may be open at once. -/
def maxSeries : Nat := 8

/-- How many places a series can have. A slot takes 24 octets, and no allocation is longer
than 2⁶³ - 1 octets. -/
def maxPlaces : Nat := 0x7FFFFFFFFFFFFFFF / 24

/-! ## One series -/

/-- The pieces of one reply. -/
structure Series where
  id : UInt32
  /-- One slot per place, empty until its piece arrives. -/
  slots : List (Option (List UInt8))
  /-- How many pieces have been taken in. -/
  received : Nat
  deriving Repr, DecidableEq

namespace Series

/-- A series of `count` places, none filled. -/
def opened (id : UInt32) (count : Nat) : Series := ⟨id, List.replicate count none, 0⟩

/-- How many pieces there are. -/
def expected (s : Series) : Nat := s.slots.length

/-- Whether as many pieces have been taken in as there are. -/
def isComplete (s : Series) : Bool := s.received == s.expected

/-- Fills an empty slot; gives nothing if there is no such slot or it is filled. -/
def fill? (s : Series) (index : Nat) (payload : List UInt8) : Option Series :=
  match s.slots[index]? with
  | some none =>
    some { s with slots := s.slots.set index (some payload), received := s.received + 1 }
  | _ => none

/-- The pieces joined in order. -/
def joined (s : Series) : List UInt8 := s.slots.flatMap fun slot => slot.getD []

/-- How many octets are held. -/
def buffered (s : Series) : Nat := total (s.slots.map fun slot => (slot.getD []).length)

theorem isComplete_iff {s : Series} : s.isComplete = true ↔ s.received = s.expected :=
  beq_iff_eq

end Series

/-! ## The table -/

/-- The open series of one conversation, oldest first. -/
structure Table where
  series : List Series := []
  deriving Repr, DecidableEq

namespace Table

/-- The series with an id. -/
def find? (t : Table) (id : UInt32) : Option Series :=
  t.series.find? fun s => s.id == id

/-- How many series are open. -/
def pending (t : Table) : Nat := t.series.length

/-- How many octets are held. -/
def buffered (t : Table) : Nat := total (t.series.map Series.buffered)

/-- The series with an id replaced. -/
def put (t : Table) (s : Series) : Table :=
  ⟨t.series.map fun other => if other.id = s.id then s else other⟩

/-- The table without the series with an id. -/
def close (t : Table) (id : UInt32) : Table :=
  ⟨t.series.filter fun s => s.id != id⟩

/-- The table in which the series `id` is open with `count` places: as it is, if
it is open so; with a new series, if there is none and there is room. -/
def withSeries? (t : Table) (id : UInt32) (count : Nat) : Option (Table × Series) :=
  match t.find? id with
  | some s => if s.expected = count then some (t, s) else none
  | none =>
    if maxSeries ≤ t.pending then none
    else some (⟨t.series ++ [Series.opened id count]⟩, Series.opened id count)

/-- Takes in one piece, and hands out the whole when it was the last one missing.
A piece is passed over if its place is out of range, if it disagrees with its
series about the number of places, if there is no room for its series, or if its
slot is filled. -/
def ingest (t : Table) (id : UInt32) (index count : Nat) (payload : List UInt8) :
    Table × Option (List UInt8) :=
  if count ≤ index then (t, none)
  else match t.withSeries? id count with
    | none => (t, none)
    | some (t', s) =>
      match s.fill? index payload with
      | none => (t, none)
      | some s' =>
        if s'.isComplete then (t'.close id, some s'.joined) else (t'.put s', none)

end Table

end ServerProbe.Fragment
