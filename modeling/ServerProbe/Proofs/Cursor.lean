/-
What a cursor consumes.

A call of a cursor yields what the next octets say and leaves the cursor behind them, or it
names the position at which it found something missing or wrong and leaves the cursor there.
That is shown by following a reader (`Enacts`): no position wraps and no octet outside of the
buffer is asked for, so whatever is called, the cursor comes to what the reader comes to, and
where the reader fails it has not moved (`enacts_perform`).

`Op.Takes` says of each call which octets it takes, without saying how, and a reader succeeds
exactly when such octets come next (`read_eq_ok_iff`). So whatever is called, in whatever order
and however often it fails, the pieces consumed one after another are the beginning of the
buffer, up to the position (`calls_account`).
-/
import ServerProbe.Cursor
import ServerProbe.Proofs.Reader

set_option autoImplicit false

namespace ServerProbe

/-! ## Buffers -/

namespace Buffer

theorem toNat_size (b : Buffer) : b.size.toNat = b.octets.length := by
  have hfits := b.fits
  exact UInt64.toNat_ofNat_of_lt' (by rw [UInt64.size]; omega)

theorem slice?_eq {b : Buffer} {first last : UInt64} (hfirst : first.toNat ≤ last.toNat)
    (hlast : last.toNat ≤ b.octets.length) : b.slice? first last
      = some ((b.octets.drop first.toNat).take (last.toNat - first.toNat)) := by
  rw [← toNat_size, ← UInt64.le_iff_toNat_le] at hlast
  rw [slice?, if_pos ⟨UInt64.le_iff_toNat_le.mpr hfirst, hlast⟩, List.drop_take]

end Buffer

/-! ## Calls and what they take -/

namespace Cursor

/-- A call: a read, or a look at what is left. -/
inductive Op where
  | bytes (n : UInt64)
  | skip (n : UInt64)
  | takeRest
  | expect (marker : Buffer)
  | takeUntil (delimiter : UInt8)
  | cstring
  | uint8
  | uint16LE
  /-- The bits of a single-precision number are read this way too. -/
  | uint32LE
  | uint64LE
  | int32LE
  | int32BE
  /-- The next octet stays unread. -/
  | peek
  /-- All that is left stays unread. -/
  | look
  deriving Repr, DecidableEq

/-- What a call yields. -/
inductive Value where
  | unit (value : Unit)
  | octets (value : List UInt8)
  | text (value : String)
  | uint8 (value : UInt8)
  | uint16 (value : UInt16)
  | uint32 (value : UInt32)
  | uint64 (value : UInt64)
  | int32 (value : Int32)
  | next (value : Option UInt8)
  deriving Repr, DecidableEq

namespace Op

/-- What a call does to a cursor. -/
def perform : Op → Access Value
  | bytes n => (Cursor.bytes n).map .octets
  | skip n => (Cursor.skip n).map .unit
  | takeRest => Cursor.takeRest.map .octets
  | expect marker => (Cursor.expect marker).map .unit
  | takeUntil delimiter => (Cursor.takeUntil delimiter).map .octets
  | cstring => Cursor.cstring.map .text
  | uint8 => Cursor.uint8.map .uint8
  | uint16LE => Cursor.uint16LE.map .uint16
  | uint32LE => Cursor.uint32LE.map .uint32
  | uint64LE => Cursor.uint64LE.map .uint64
  | int32LE => Cursor.int32LE.map .int32
  | int32BE => Cursor.int32BE.map .int32
  | peek => fun c => some (.ok (.next c.peek?), c)
  | look => fun c => c.rest?.map fun rest => (.ok (.octets rest), c)

/-- What a reader does for the same call. -/
def read : Op → Reader.Read Value
  | bytes n => Reader.yielding .octets (Reader.bytes n.toNat)
  | skip n => Reader.yielding .unit (Reader.skip n.toNat)
  | takeRest => Reader.yielding .octets (Reader.always Reader.takeRest)
  | expect marker => Reader.yielding .unit (Reader.expect marker.octets)
  | takeUntil delimiter => Reader.yielding .octets (Reader.takeUntil delimiter)
  | cstring => Reader.yielding .text Reader.cstring
  | uint8 => Reader.yielding .uint8 Reader.uint8
  | uint16LE => Reader.yielding .uint16 Reader.uint16LE
  | uint32LE => Reader.yielding .uint32 Reader.uint32LE
  | uint64LE => Reader.yielding .uint64 Reader.uint64LE
  | int32LE => Reader.yielding .int32 Reader.int32LE
  | int32BE => Reader.yielding .int32 Reader.int32BE
  | peek => Reader.always fun r => (.next r.peek?, r)
  | look => Reader.always fun r => (.octets r.rest, r)

/-- The octets that a call takes if `after` stands behind them, and what it yields. -/
inductive Takes (after : List UInt8) : Op → List UInt8 → Value → Prop where
  | bytes (n : UInt64) (piece : List UInt8) : piece.length = n.toNat →
      Takes after (.bytes n) piece (.octets piece)
  | skip (n : UInt64) (piece : List UInt8) : piece.length = n.toNat →
      Takes after (.skip n) piece (.unit ())
  | takeRest (piece : List UInt8) : after = [] → Takes after .takeRest piece (.octets piece)
  | expect (marker : Buffer) : Takes after (.expect marker) marker.octets (.unit ())
  /-- Up to the first delimiter, which is taken too. -/
  | takeUntil (delimiter : UInt8) (piece : List UInt8) : delimiter ∉ piece →
      Takes after (.takeUntil delimiter) (piece ++ [delimiter]) (.octets piece)
  | cstring (piece : List UInt8) : 0 ∉ piece →
      Takes after .cstring (piece ++ [0]) (.text (String.ofList (Text.Utf8.decode piece)))
  | uint8 (value : UInt8) : Takes after .uint8 [value] (.uint8 value)
  | uint16LE (value : UInt16) :
      Takes after .uint16LE (Octets.littleEndian 2 value.toNat) (.uint16 value)
  | uint32LE (value : UInt32) :
      Takes after .uint32LE (Octets.littleEndian 4 value.toNat) (.uint32 value)
  | uint64LE (value : UInt64) :
      Takes after .uint64LE (Octets.littleEndian 8 value.toNat) (.uint64 value)
  | int32LE (value : Int32) :
      Takes after .int32LE (Octets.littleEndian 4 value.toUInt32.toNat) (.int32 value)
  | int32BE (value : Int32) :
      Takes after .int32BE (Octets.bigEndian 4 value.toUInt32.toNat) (.int32 value)
  | peek : Takes after .peek [] (.next after.head?)
  | look : Takes after .look [] (.octets after)

end Op

/-! ### The reads -/

section Reads

variable {r after : Reader} {piece : List UInt8} {op : Op} {value : Value}

open Reader (yielding_eq_ok_iff)

/-- What a read takes has come next, and the reader has gone past it. -/
theorem takes_of_read (h : op.read r = .ok (value, after)) :
    ∃ piece, Op.Takes after.rest op piece value ∧ r.Passes piece after := by
  cases op with
  | peek =>
    cases h
    exact ⟨[], .peek, Reader.passes_nil_iff.mpr rfl⟩
  | look =>
    cases h
    exact ⟨[], .look, Reader.passes_nil_iff.mpr rfl⟩
  | bytes n =>
    obtain ⟨piece, hread, rfl⟩ := yielding_eq_ok_iff.mp h
    obtain ⟨hlength, hpasses⟩ := Reader.bytes_passes_iff.mp hread
    exact ⟨piece, .bytes n piece hlength, hpasses⟩
  | skip n =>
    obtain ⟨_, hread, rfl⟩ := yielding_eq_ok_iff.mp h
    obtain ⟨piece, hbytes, -⟩ := (Reader.map_eq_ok_iff (g := fun _ => ())).mp hread
    obtain ⟨hlength, hpasses⟩ := Reader.bytes_passes_iff.mp hbytes
    exact ⟨piece, .skip n piece hlength, hpasses⟩
  | takeRest =>
    obtain ⟨piece, hread, rfl⟩ := yielding_eq_ok_iff.mp h
    obtain ⟨hend, hpasses⟩ := Reader.takeRest_passes_iff.mp (Except.ok.inj hread)
    exact ⟨piece, .takeRest piece hend, hpasses⟩
  | expect marker =>
    obtain ⟨_, hread, rfl⟩ := yielding_eq_ok_iff.mp h
    exact ⟨_, .expect marker, Reader.expect_passes_iff.mp hread⟩
  | takeUntil delimiter =>
    obtain ⟨piece, hread, rfl⟩ := yielding_eq_ok_iff.mp h
    obtain ⟨hfree, hpasses⟩ := Reader.takeUntil_passes_iff.mp hread
    exact ⟨_, .takeUntil delimiter piece hfree, hpasses⟩
  | cstring =>
    obtain ⟨text, hread, rfl⟩ := yielding_eq_ok_iff.mp h
    obtain ⟨piece, hfree, rfl, hpasses⟩ := Reader.cstring_passes_iff.mp hread
    exact ⟨_, .cstring piece hfree, hpasses⟩
  | uint8 =>
    obtain ⟨value, hread, rfl⟩ := yielding_eq_ok_iff.mp h
    exact ⟨_, .uint8 value, Reader.uint8_passes_iff.mp hread⟩
  | uint16LE =>
    obtain ⟨value, hread, rfl⟩ := yielding_eq_ok_iff.mp h
    exact ⟨_, .uint16LE value, Reader.uint16LE_passes_iff.mp hread⟩
  | uint32LE =>
    obtain ⟨value, hread, rfl⟩ := yielding_eq_ok_iff.mp h
    exact ⟨_, .uint32LE value, Reader.uint32LE_passes_iff.mp hread⟩
  | uint64LE =>
    obtain ⟨value, hread, rfl⟩ := yielding_eq_ok_iff.mp h
    exact ⟨_, .uint64LE value, Reader.uint64LE_passes_iff.mp hread⟩
  | int32LE =>
    obtain ⟨value, hread, rfl⟩ := yielding_eq_ok_iff.mp h
    exact ⟨_, .int32LE value, Reader.int32LE_passes_iff.mp hread⟩
  | int32BE =>
    obtain ⟨value, hread, rfl⟩ := yielding_eq_ok_iff.mp h
    exact ⟨_, .int32BE value, Reader.int32BE_passes_iff.mp hread⟩

/-- A read takes what comes next if it can. -/
theorem read_of_takes (h : Op.Takes after.rest op piece value) (hpasses : r.Passes piece after) :
    op.read r = .ok (value, after) := by
  have hyields : ∀ {α : Type} {read : Reader.Read α} {toValue : α → Value} {a : α},
      read r = .ok (a, after) → Reader.yielding toValue read r = .ok (toValue a, after) :=
    fun hread => yielding_eq_ok_iff.mpr ⟨_, hread, rfl⟩
  cases h with
  | bytes n piece hlength => exact hyields (Reader.bytes_passes_iff.mpr ⟨hlength, hpasses⟩)
  | skip n piece hlength =>
    have hbytes := Reader.bytes_passes_iff.mpr ⟨hlength, hpasses⟩
    have hread : r.skip n.toNat = .ok ((), after) :=
      (Reader.map_eq_ok_iff (g := fun _ => ())).mpr ⟨piece, hbytes, rfl⟩
    exact hyields hread
  | takeRest piece hend =>
    have hread : Reader.always Reader.takeRest r = .ok (piece, after) :=
      congrArg Except.ok (Reader.takeRest_passes_iff.mpr ⟨hend, hpasses⟩)
    exact hyields hread
  | expect marker => exact hyields (Reader.expect_passes_iff.mpr hpasses)
  | takeUntil delimiter piece hfree =>
    exact hyields (Reader.takeUntil_passes_iff.mpr ⟨hfree, hpasses⟩)
  | cstring piece hfree =>
    exact hyields (Reader.cstring_passes_iff.mpr ⟨piece, hfree, rfl, hpasses⟩)
  | uint8 => exact hyields (Reader.uint8_passes_iff.mpr hpasses)
  | uint16LE => exact hyields (Reader.uint16LE_passes_iff.mpr hpasses)
  | uint32LE => exact hyields (Reader.uint32LE_passes_iff.mpr hpasses)
  | uint64LE => exact hyields (Reader.uint64LE_passes_iff.mpr hpasses)
  | int32LE => exact hyields (Reader.int32LE_passes_iff.mpr hpasses)
  | int32BE => exact hyields (Reader.int32BE_passes_iff.mpr hpasses)
  | peek =>
    obtain rfl := Reader.passes_nil_iff.mp hpasses
    rfl
  | look =>
    obtain rfl := Reader.passes_nil_iff.mp hpasses
    rfl

/-- **A read succeeds exactly when octets that it takes come next.** -/
theorem read_eq_ok_iff : op.read r = .ok (value, after) ↔
    ∃ piece, Op.Takes after.rest op piece value ∧ r.Passes piece after :=
  ⟨takes_of_read, fun ⟨_, htakes, hpasses⟩ => read_of_takes htakes hpasses⟩

/-- A read that fails names the position where it was tried. -/
theorem offset_of_read {e : ReadError} (h : op.read r = .error e) : e.offset = r.pos := by
  cases op with
  | takeRest => cases h
  | peek => cases h
  | look => cases h
  | bytes n => exact Reader.offset_of_map (fun _ => Reader.offset_of_bytes) h
  | skip n =>
    exact Reader.offset_of_map (fun _ => Reader.offset_of_map fun _ => Reader.offset_of_bytes) h
  | expect marker => exact Reader.offset_of_map (fun _ => Reader.offset_of_expect) h
  | takeUntil delimiter => exact Reader.offset_of_map (fun _ => Reader.offset_of_takeUntil) h
  | cstring =>
    exact Reader.offset_of_map
      (fun _ => Reader.offset_of_map fun _ => Reader.offset_of_takeUntil) h
  | int32BE =>
    exact Reader.offset_of_map (fun _ => Reader.offset_of_map fun _ =>
      Reader.offset_of_map fun _ => Reader.offset_of_bytes) h
  | _ =>
    exact Reader.offset_of_map
      (fun _ => Reader.offset_of_map fun _ => Reader.offset_of_littleEndian) h

end Reads

/-! ## Following a reader -/

/-- The octets that are left. -/
def left (c : Cursor) : List UInt8 := c.buffer.octets.drop c.pos.toNat

/-- The reader with the same octets left at the same position. -/
def reader (c : Cursor) : Reader := ⟨c.pos.toNat, c.left⟩

/-- Whether a cursor has not gone beyond the end of its buffer. -/
def Inside (c : Cursor) : Prop := c.pos.toNat ≤ c.buffer.octets.length

/-- Whether one cursor stands behind another one, in the same buffer, where a reader stands. -/
structure At (c : Cursor) (r : Reader) (after : Cursor) : Prop where
  buffer : after.buffer = c.buffer
  inside : after.Inside
  reader : after.reader = r

/-- Whether an access to a cursor comes to what a read comes to: it always has a result, goes
where the reader goes if that succeeds, and where that fails it is where it was. -/
structure Enacts {α : Type} (access : Access α) (read : Reader.Read α) : Prop where
  ok : ∀ {c : Cursor}, c.Inside → ∀ {a : α} {r : Reader}, read c.reader = .ok (a, r) →
    ∃ after, access c = some (.ok a, after) ∧ c.At r after
  error : ∀ {c : Cursor}, c.Inside → ∀ {e : ReadError}, read c.reader = .error e →
    access c = some (.error e, c)

section Enacts

variable {c : Cursor} {α β : Type} {access : Access α} {read : Reader.Read α}

theorem length_left (c : Cursor) : c.left.length = c.buffer.octets.length - c.pos.toNat := by
  rw [left, List.length_drop]

theorem reader_peek? (c : Cursor) : c.reader.peek? = c.peek? := by
  rw [peek?, Reader.peek?, reader, left, List.head?_drop]

namespace Inside

/-- The difference does not wrap. -/
theorem toNat_remaining (h : c.Inside) : c.remaining.toNat = c.left.length := by
  have hle : c.pos ≤ c.buffer.size := by
    rw [UInt64.le_iff_toNat_le, Buffer.toNat_size]
    exact h
  rw [remaining, UInt64.toNat_sub_of_le _ _ hle, Buffer.toNat_size, length_left]

theorem rest?_eq (h : c.Inside) : c.rest? = some c.left := by
  rw [rest?, Buffer.slice?_eq (by rwa [Buffer.toNat_size]) (Buffer.toNat_size _).le,
    Buffer.toNat_size, ← length_left, left, List.take_length]

/-- As long as there are `n` octets, going on by `n` does not wrap, and the cursor stays
inside. -/
theorem at_add (h : c.Inside) {n : UInt64} (hn : n.toNat ≤ c.left.length) :
    c.At ⟨c.pos.toNat + n.toNat, c.left.drop n.toNat⟩ { c with pos := c.pos + n } ∧
      (c.pos + n).toNat = c.pos.toNat + n.toNat := by
  have hfits := c.buffer.fits
  have hinside : c.pos.toNat ≤ c.buffer.octets.length := h
  rw [length_left] at hn
  have hsum : (c.pos + n).toNat = c.pos.toNat + n.toNat := by
    rw [UInt64.toNat_add, Nat.mod_eq_of_lt (by omega)]
  refine ⟨⟨rfl, ?_, ?_⟩, hsum⟩
  · show (c.pos + n).toNat ≤ c.buffer.octets.length
    omega
  · rw [reader, left, hsum, left, List.drop_drop]

end Inside

theorem Enacts.map (h : Enacts access read) (f : α → β) :
    Enacts (access.map f) (Reader.yielding f read) where
  ok := by
    intro c hinside b r hread
    obtain ⟨a, hyields, rfl⟩ := Reader.yielding_eq_ok_iff.mp hread
    obtain ⟨after, haccess, hat⟩ := h.ok hinside hyields
    exact ⟨after, by rw [Access.map, haccess]; rfl, hat⟩
  error := by
    intro c hinside e hread
    rw [Reader.yielding] at hread
    rcases hread' : read c.reader with e' | ⟨a, r⟩
    · rw [hread'] at hread
      cases hread
      rw [Access.map, h.error hinside hread']
      rfl
    · rw [hread'] at hread
      cases hread

theorem enacts_bytes (n : UInt64) : Enacts (bytes n) (Reader.bytes n.toNat) where
  ok := by
    intro c hinside piece r hread
    obtain ⟨hle, rfl, rfl⟩ := Reader.bytes_eq_ok_iff.mp hread
    obtain ⟨hat, hsum⟩ := hinside.at_add hle
    refine ⟨_, ?_, hat⟩
    have henough : ¬c.remaining < n := by
      rw [UInt64.lt_iff_toNat_lt, hinside.toNat_remaining]
      exact Nat.not_lt.mpr hle
    have hend : (c.pos + n).toNat ≤ c.buffer.octets.length := hat.inside
    rw [bytes, if_neg henough, Buffer.slice?_eq (by omega) hend, hsum, Nat.add_sub_cancel_left]
    rfl
  error := by
    intro c hinside e hread
    have hfew : c.left.length < n.toNat := by
      by_contra hle
      cases hread.symm.trans (Reader.bytes_eq_ok_iff.mpr ⟨Nat.not_lt.mp hle, rfl, rfl⟩)
    have hshort : c.remaining < n := by
      rwa [UInt64.lt_iff_toNat_lt, hinside.toNat_remaining]
    have hlength : ¬(c.left.take n.toNat).length = n.toNat := by
      rw [List.length_take]
      omega
    have hfails : c.reader.bytes n.toNat = _ := if_neg hlength
    rw [hfails] at hread
    cases hread
    rw [bytes, if_pos hshort, hinside.toNat_remaining]
    rfl

theorem enacts_takeRest : Enacts takeRest (Reader.always Reader.takeRest) where
  ok := by
    intro c hinside piece r hread
    cases hread
    refine ⟨{ c with pos := c.buffer.size }, ?_, rfl, (Buffer.toNat_size _).le, ?_⟩
    · rw [takeRest, hinside.rest?_eq]
      rfl
    · have hpos : c.pos.toNat + c.left.length = c.buffer.octets.length := by
        rw [length_left]
        exact Nat.add_sub_cancel' hinside
      show Cursor.reader _ = ⟨c.pos.toNat + c.left.length, []⟩
      rw [reader, left, Buffer.toNat_size, hpos, List.drop_length]
  error := nofun

/-- What a marker is compared with has been passed over by then. If it is something else, the
cursor goes back to where it was. -/
theorem enacts_expect (marker : Buffer) :
    Enacts (expect marker) (Reader.expect marker.octets) where
  ok := by
    intro c hinside _ r hread
    rw [Reader.expect, ← Buffer.toNat_size] at hread
    rcases hbytes : c.reader.bytes marker.size.toNat with e | ⟨actual, r'⟩
    · rw [hbytes] at hread
      cases hread
    · rw [hbytes] at hread
      dsimp only at hread
      obtain ⟨after, haccess, hat⟩ := (enacts_bytes marker.size).ok hinside hbytes
      split at hread
      · next heq =>
        cases hread
        refine ⟨after, ?_, hat⟩
        rw [expect, haccess]
        exact if_pos heq
      · cases hread
  error := by
    intro c hinside e hread
    rw [Reader.expect, ← Buffer.toNat_size] at hread
    rcases hbytes : c.reader.bytes marker.size.toNat with e' | ⟨actual, r'⟩
    · rw [hbytes] at hread
      cases hread
      rw [expect, (enacts_bytes marker.size).error hinside hbytes]
      rfl
    · rw [hbytes] at hread
      dsimp only at hread
      obtain ⟨after, haccess, hat⟩ := (enacts_bytes marker.size).ok hinside hbytes
      split at hread
      · cases hread
      · next hne =>
        cases hread
        rw [expect, haccess]
        refine (if_neg hne).trans ?_
        rw [hat.buffer]
        rfl

theorem idxOf?_delimiter {delimiter : UInt8} {piece after : List UInt8}
    (hfree : delimiter ∉ piece) :
    (piece ++ delimiter :: after).idxOf? delimiter = some piece.length := by
  have hnone : piece.idxOf? delimiter = none := List.idxOf?_eq_none_iff.mpr hfree
  rw [List.idxOf?] at hnone ⊢
  rw [List.findIdx?_append, hnone, List.findIdx?_cons, if_pos (beq_self_eq_true delimiter)]
  simp

theorem enacts_takeUntil (delimiter : UInt8) :
    Enacts (takeUntil delimiter) (Reader.takeUntil delimiter) where
  ok := by
    intro c hinside piece r hread
    obtain ⟨tail, hleft, hfree, rfl⟩ := Reader.takeUntil_eq_ok_iff.mp hread
    change c.left = piece ++ delimiter :: tail at hleft
    have hlong : piece.length + 1 ≤ c.left.length := by
      rw [hleft, List.length_append, List.length_cons]
      omega
    have hfits := c.buffer.fits
    have hlength := length_left c
    generalize hn : UInt64.ofNat piece.length = n
    have hpiece : n.toNat = piece.length := by
      rw [← hn]
      exact UInt64.toNat_ofNat_of_lt' (by rw [UInt64.size]; omega)
    have hnext : (n + 1).toNat = piece.length + 1 := by
      rw [UInt64.toNat_add, hpiece]
      exact Nat.mod_eq_of_lt (by rw [UInt64.toNat_one]; omega)
    -- the piece ends inside, and so does the delimiter behind it
    obtain ⟨hat, hbehind⟩ := hinside.at_add (n := n) (by omega)
    have hend : (c.pos + n).toNat ≤ c.buffer.octets.length := hat.inside
    have hslice : c.buffer.slice? c.pos (c.pos + n) = some piece := by
      rw [Buffer.slice?_eq (by omega) hend, hbehind, Nat.add_sub_cancel_left, hpiece, ← left,
        hleft, List.take_left]
    obtain ⟨hafter, -⟩ := hinside.at_add (n := n + 1) (by omega)
    have htail : c.left.drop (piece.length + 1) = tail := by
      rw [hleft, ← List.drop_drop, List.drop_left, List.drop_one, List.tail_cons]
    rw [← UInt64.add_assoc, hnext, htail] at hafter
    refine ⟨{ c with pos := c.pos + n + 1 }, ?_, hafter⟩
    rw [takeUntil, hinside.rest?_eq, hleft]
    simp only [Option.bind_eq_bind, Option.bind_some, idxOf?_delimiter hfree, hn, hslice]
  error := by
    intro c hinside e hread
    obtain ⟨hfree, rfl⟩ := Reader.unterminated_of_takeUntil hread
    have hnone : c.left.idxOf? delimiter = none := List.idxOf?_eq_none_iff.mpr hfree
    rw [takeUntil, hinside.rest?_eq]
    simp only [Option.bind_eq_bind, Option.bind_some, hnone]
    rfl

/-- **A cursor comes to what a reader comes to,** whatever is called. -/
theorem enacts_perform (op : Op) : Enacts op.perform op.read := by
  cases op with
  | bytes n => exact (enacts_bytes n).map _
  | skip n => exact ((enacts_bytes n).map _).map _
  | takeRest => exact enacts_takeRest.map _
  | expect marker => exact (enacts_expect marker).map _
  | takeUntil delimiter => exact (enacts_takeUntil delimiter).map _
  | cstring => exact ((enacts_takeUntil 0).map _).map _
  | uint8 => exact (((enacts_bytes 1).map _).map _).map _
  | uint16LE => exact (((enacts_bytes 2).map _).map _).map _
  | uint32LE => exact (((enacts_bytes 4).map _).map _).map _
  | uint64LE => exact (((enacts_bytes 8).map _).map _).map _
  | int32LE => exact (((enacts_bytes 4).map _).map _).map _
  | int32BE => exact (((enacts_bytes 4).map _).map _).map _
  | peek =>
    refine ⟨fun {c} hinside a r hread => ?_, nofun⟩
    cases hread
    exact ⟨c, by rw [reader_peek?]; rfl, rfl, hinside, rfl⟩
  | look =>
    refine ⟨fun {c} hinside a r hread => ?_, nofun⟩
    cases hread
    refine ⟨c, ?_, rfl, hinside, rfl⟩
    show c.rest?.map _ = _
    rw [hinside.rest?_eq]
    rfl

/-- An access yields what the read yields, and nothing else. -/
theorem Enacts.yields_iff (h : Enacts access read) (hinside : c.Inside) {a : α} :
    (∃ after, access c = some (.ok a, after)) ↔ ∃ r, read c.reader = .ok (a, r) := by
  rcases hread : read c.reader with e | ⟨b, r⟩
  · rw [h.error hinside hread]
    simp
  · obtain ⟨after, haccess, -⟩ := h.ok hinside hread
    rw [haccess]
    simp

end Enacts

/-! ## One call after another -/

/-- Whether a cursor has gone on to another place in its buffer by passing over a piece. -/
structure Passes (c : Cursor) (piece : List UInt8) (after : Cursor) : Prop where
  buffer : after.buffer = c.buffer
  inside : after.Inside
  left : c.left = piece ++ after.left
  pos : after.pos.toNat = c.pos.toNat + piece.length

/-- What one call came to, and the cursors before and after it. -/
structure Step where
  before : Cursor
  op : Op
  result : Except ReadError Value
  after : Cursor

/-- Calls one after another, and the cursor in the end. -/
def run : Cursor → List Op → Option (List Step × Cursor)
  | c, [] => some ([], c)
  | c, op :: rest => do
    let (result, after) ← op.perform c
    let (steps, last) ← after.run rest
    some (⟨c, op, result, after⟩ :: steps, last)

/-- What a call consumes: what it takes if it succeeds, and nothing if it fails, which it does
only where it can take nothing. -/
inductive Step.Consumes (s : Step) : List UInt8 → Prop where
  | taken {piece : List UInt8} {value : Value} : s.result = .ok value →
      s.before.Passes piece s.after → Op.Takes s.after.left s.op piece value → Consumes s piece
  | failed {e : ReadError} : s.result = .error e → s.after = s.before →
      e.offset = s.before.pos.toNat →
      (∀ piece after value, s.before.left = piece ++ after → ¬Op.Takes after s.op piece value) →
      Consumes s []

theorem Inside.passes_nil {c : Cursor} (h : c.Inside) : c.Passes [] c := ⟨rfl, h, rfl, rfl⟩

theorem Passes.trans {c₁ c₂ c₃ : Cursor} {piece more : List UInt8} (h : c₁.Passes piece c₂)
    (hmore : c₂.Passes more c₃) : c₁.Passes (piece ++ more) c₃ where
  buffer := hmore.buffer.trans h.buffer
  inside := hmore.inside
  left := by rw [h.left, hmore.left, List.append_assoc]
  pos := by rw [hmore.pos, h.pos, List.length_append, Nat.add_assoc]

/-- **One call** has a result and consumes something or nothing, and the cursor passes over just
that. -/
theorem exists_consumes {c : Cursor} (h : c.Inside) (op : Op) :
    ∃ result after piece, op.perform c = some (result, after) ∧
      Step.Consumes ⟨c, op, result, after⟩ piece ∧ c.Passes piece after := by
  rcases hread : op.read c.reader with e | ⟨value, r⟩
  · have hnone : ∀ piece after value, c.left = piece ++ after →
        ¬Op.Takes after op piece value := by
      intro piece after value hleft htakes
      have hpasses : c.reader.Passes piece ⟨c.pos.toNat + piece.length, after⟩ := ⟨hleft, rfl⟩
      cases hread.symm.trans (read_eq_ok_iff.mpr ⟨piece, htakes, hpasses⟩)
    exact ⟨_, _, [], (enacts_perform op).error h hread,
      .failed rfl rfl (offset_of_read hread) hnone, h.passes_nil⟩
  · obtain ⟨after, hperform, hbuffer, hinside, rfl⟩ := (enacts_perform op).ok h hread
    obtain ⟨piece, htakes, hleft, hpos⟩ := read_eq_ok_iff.mp hread
    have hpasses : c.Passes piece after := ⟨hbuffer, hinside, hleft, hpos⟩
    exact ⟨_, after, piece, hperform, .taken rfl hpasses htakes, hpasses⟩

/-- **Calls one after another** consume one piece each, and the cursor passes over all of
them. -/
theorem exists_run {c : Cursor} (h : c.Inside) (ops : List Op) :
    ∃ steps last pieces, c.run ops = some (steps, last) ∧
      List.Forall₂ Step.Consumes steps pieces ∧ c.Passes pieces.flatten last := by
  induction ops generalizing c with
  | nil => exact ⟨[], c, [], rfl, .nil, h.passes_nil⟩
  | cons op rest ih =>
    obtain ⟨result, after, piece, hperform, hconsumes, hpasses⟩ := exists_consumes h op
    obtain ⟨steps, last, pieces, hrun, hall, hmore⟩ := ih hpasses.inside
    refine ⟨⟨c, op, result, after⟩ :: steps, last, piece :: pieces, ?_, .cons hconsumes hall,
      hpasses.trans hmore⟩
    simp only [run, hperform, hrun, Option.bind_eq_bind, Option.bind_some]

/-- **Calls account for every octet.** Whatever is called on a buffer, every call has a result;
each consumes what it takes, or nothing if it fails, and then the cursor is where it was and the
fault names that position. The pieces consumed one after another are the buffer up to the
position, which never goes beyond the end. Reading up to a delimiter succeeds just if one is
left, and yields what stands before the first. -/
theorem calls_account (b : Buffer) (ops : List Op) :
    ∃ steps last, (ofBuffer b).run ops = some (steps, last) ∧
      last.buffer = b ∧ last.pos.toNat ≤ b.octets.length ∧
      (∃ pieces, List.Forall₂ Step.Consumes steps pieces ∧
        pieces.flatten = b.octets.take last.pos.toNat) ∧
      ∀ delimiter, (delimiter ∈ b.octets.drop last.pos.toNat ↔
          ∃ piece after, last.takeUntil delimiter = some (.ok piece, after)) ∧
        ∀ piece, (∃ after, last.takeUntil delimiter = some (.ok piece, after)) ↔
          delimiter ∉ piece ∧ piece ++ [delimiter] <+: b.octets.drop last.pos.toNat := by
  have hstart : (ofBuffer b).Inside := Nat.zero_le _
  obtain ⟨steps, last, pieces, hrun, hconsumes, hpasses⟩ := exists_run hstart ops
  have hbuffer : last.buffer = b := hpasses.buffer
  have hpos : last.pos.toNat = pieces.flatten.length := hpasses.pos.trans (Nat.zero_add _)
  have hleft : last.left = b.octets.drop last.pos.toNat := by rw [left, hbuffer]
  have hsplit : b.octets = pieces.flatten ++ last.left := hpasses.left
  refine ⟨steps, last, hrun, hbuffer, hbuffer ▸ hpasses.inside, ⟨pieces, hconsumes, ?_⟩,
    fun delimiter => ?_⟩
  · rw [hsplit, hpos, List.take_left]
  · rw [← hleft]
    simp only [(enacts_takeUntil delimiter).yields_iff hpasses.inside]
    exact ⟨Reader.mem_iff_takeUntil (r := last.reader),
      fun piece => Reader.takeUntil_iff_prefix (r := last.reader)⟩

/-- A marker that does not come next is put back, and asking for far too much moves nothing. -/
example :
    ((ofBuffer ⟨[0xFF, 0xFF, 0x2A, 0, 7], by decide⟩).run
      [.expect ⟨[0xFF, 0xFE], by decide⟩, .bytes 0xFFFFFFFFFFFFFFFF, .uint16LE, .cstring,
        .cstring]).map (fun ran => ran.2.pos) = some 4 := by
  decide

end Cursor

end ServerProbe
