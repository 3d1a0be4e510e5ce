/-
Text as it arrives in datagrams. Servers send names in whatever encoding they
like, so reading is lossy: octets that UTF-8 cannot hold are read as U+FFFD, one
for each longest run that still looked like the start of a character.

The lead octet alone says how many octets follow and which values the second
one may have, so the decoder is a machine with one character open at most; an
octet that does not fit the open character closes it as U+FFFD and is read again
as a lead octet. That is what makes "one U+FFFD per longest damaged start" come
out without looking back.
-/

set_option autoImplicit false

namespace ServerProbe.Text.Utf8

/-- What stands for octets that are no character. -/
def replacement : Char := '\uFFFD'

/-! ## One octet at a time -/

/-- A character of which some octets have been read. -/
structure Partial where
  /-- The bits read so far. -/
  value : Nat
  /-- How many octets are owed after the next one. -/
  owed : Nat
  /-- The least value the next octet may have. -/
  low : UInt8
  /-- The greatest value the next octet may have. -/
  high : UInt8
  deriving Repr, DecidableEq

/-- What an octet is when no character is open. -/
inductive Lead where
  | whole (c : Char)
  | begins (p : Partial)
  | stray
  deriving Repr, DecidableEq

/-- The role of an octet between characters. The bounds on the second octet keep
out overlong forms (after `E0` and `F0`), surrogates (after `ED`) and values above
U+10FFFF (after `F4`). -/
def lead (b : UInt8) : Lead :=
  if b < 0x80 then .whole (Char.ofNat b.toNat)
  else if b < 0xC2 then .stray
  else if b < 0xE0 then .begins ⟨b.toNat % 0x20, 0, 0x80, 0xBF⟩
  else if b < 0xF0 then
    .begins ⟨b.toNat % 0x10, 1, if b = 0xE0 then 0xA0 else 0x80, if b = 0xED then 0x9F else 0xBF⟩
  else if b < 0xF5 then
    .begins ⟨b.toNat % 0x08, 2, if b = 0xF0 then 0x90 else 0x80, if b = 0xF4 then 0x8F else 0xBF⟩
  else .stray

/-- The characters read so far, last first, and the one that is open. -/
structure Decoder where
  text : List Char
  pending : Option Partial
  deriving Repr, DecidableEq

/-- Reads an octet between characters. -/
def Decoder.fresh (text : List Char) (b : UInt8) : Decoder :=
  match lead b with
  | .whole c => ⟨c :: text, none⟩
  | .begins p => ⟨text, some p⟩
  | .stray => ⟨replacement :: text, none⟩

/-- Reads one octet. -/
def Decoder.step (d : Decoder) (b : UInt8) : Decoder :=
  match d.pending with
  | none => fresh d.text b
  | some p =>
    if p.low ≤ b ∧ b ≤ p.high then
      let value := p.value * 0x40 + b.toNat % 0x40
      if p.owed = 0 then ⟨Char.ofNat value :: d.text, none⟩
      else ⟨d.text, some ⟨value, p.owed - 1, 0x80, 0xBF⟩⟩
    else fresh (replacement :: d.text) b

/-- The text read, an open character counting as damaged. -/
def Decoder.finish (d : Decoder) : List Char :=
  match d.pending with
  | none => d.text.reverse
  | some _ => (replacement :: d.text).reverse

/-! ## Whole texts -/

/-- The characters of an octet string, damage read as U+FFFD. -/
def decode (bs : List UInt8) : List Char :=
  (bs.foldl Decoder.step ⟨[], none⟩).finish

/-- The octets of a text. -/
def encode (cs : List Char) : List UInt8 :=
  cs.flatMap String.utf8EncodeChar

@[simp] theorem decode_nil : decode [] = [] := rfl

@[simp] theorem encode_nil : encode [] = [] := rfl

theorem encode_append (a b : List Char) : encode (a ++ b) = encode a ++ encode b := by
  simp [encode]

end ServerProbe.Text.Utf8
