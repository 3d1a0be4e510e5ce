/-
Numbers as text. Replies carry numbers in decimal; a reader accepts a sign,
ASCII digits and nothing else, and only values that the type can hold. Leading
zeros are welcome, an empty text is not, and a minus sign is a sign only where
the type has negative values.
-/

set_option autoImplicit false

namespace ServerProbe.Text

/-! ## Reading -/

/-- The value of a non-empty text of ASCII digits. -/
def digits? (cs : List Char) : Option Nat :=
  if !cs.isEmpty && cs.all Char.isDigit then some (Nat.ofDigitChars 10 cs 0) else none

/-- A number below `bound`: digits with an optional plus sign. -/
def natBelow? (bound : Nat) (cs : List Char) : Option Nat :=
  let value := match cs with
    | '+' :: rest => digits? rest
    | _ => digits? cs
  value.filter (· < bound)

/-- An integer from `-bound` to `bound - 1`: digits with an optional sign. -/
def intWithin? (bound : Nat) (cs : List Char) : Option Int :=
  let value : Option Int := match cs with
    | '+' :: rest => (digits? rest).map Int.ofNat
    | '-' :: rest => (digits? rest).map fun n => -Int.ofNat n
    | _ => (digits? cs).map Int.ofNat
  value.filter fun v => -Int.ofNat bound ≤ v && v < Int.ofNat bound

/-- A decimal number of 8 bits. -/
def uint8? (cs : List Char) : Option UInt8 :=
  (natBelow? UInt8.size cs).map UInt8.ofNat

/-- A decimal number of 16 bits. -/
def uint16? (cs : List Char) : Option UInt16 :=
  (natBelow? UInt16.size cs).map UInt16.ofNat

/-- A decimal number of 32 bits. -/
def uint32? (cs : List Char) : Option UInt32 :=
  (natBelow? UInt32.size cs).map UInt32.ofNat

/-- A signed decimal number of 32 bits. -/
def int32? (cs : List Char) : Option Int32 :=
  (intWithin? 0x80000000 cs).map Int32.ofInt

/-- The value of a digit in a base up to sixteen, in either case. -/
def digitValue? (c : Char) : Option Nat :=
  if '0' ≤ c ∧ c ≤ '9' then some (c.toNat - '0'.toNat)
  else if 'a' ≤ c ∧ c ≤ 'f' then some (c.toNat - 'a'.toNat + 10)
  else if 'A' ≤ c ∧ c ≤ 'F' then some (c.toNat - 'A'.toNat + 10)
  else none

/-- A number in a base up to sixteen: one digit or more, all below the base. -/
def inBase? (base : Nat) (cs : List Char) : Option Nat := do
  let digits ← cs.mapM digitValue?
  if digits.isEmpty || digits.any (base ≤ ·) then none
  else some (digits.foldl (fun value digit => value * base + digit) 0)

/-! ## Writing -/

/-- A number in decimal, without leading zeros. -/
def decimal (n : Nat) : List Char :=
  Nat.toDigits 10 n

/-- An integer in decimal, a minus sign before a negative one. -/
def intDecimal (i : Int) : List Char :=
  if i < 0 then '-' :: decimal i.natAbs else decimal i.natAbs

/-- A number in decimal, as a string. -/
def decimalText (n : Nat) : String :=
  String.ofList (decimal n)

/-- The last `width` digits of a number in base sixteen, from `digit`. -/
def hexPadded (digit : Nat → Char) : Nat → Nat → List Char
  | 0, _ => []
  | width + 1, n => hexPadded digit width (n / 16) ++ [digit (n % 16)]

/-- A digit of base sixteen in lower case. -/
def lowerHexDigit (n : Nat) : Char :=
  "0123456789abcdef".toList.getD n '0'

/-- A digit of base sixteen in upper case. -/
def upperHexDigit (n : Nat) : Char :=
  "0123456789ABCDEF".toList.getD n '0'

/-- An octet as two upper-case digits. -/
def octetHex (b : UInt8) : String :=
  String.ofList (hexPadded upperHexDigit 2 b.toNat)

/-- A word as `0x` and eight lower-case digits. -/
def wordHex (w : UInt32) : String :=
  "0x" ++ String.ofList (hexPadded lowerHexDigit 8 w.toNat)

/-- Octets in brackets, each as two upper-case digits. -/
def octetsHex (bs : List UInt8) : String :=
  "[" ++ ", ".intercalate (bs.map octetHex) ++ "]"

theorem digits?_decimal (n : Nat) : digits? (decimal n) = some n := by
  have hne : decimal n ≠ [] := Nat.toDigits_ne_nil
  have hall : (decimal n).all Char.isDigit = true := by
    rw [List.all_eq_true]
    exact fun c hc => Nat.isDigit_of_mem_toDigits (by decide) (by decide) hc
  have hempty : (decimal n).isEmpty = false := by
    cases h : decimal n with
    | nil => exact absurd h hne
    | cons c r => rfl
  simp only [digits?, hempty, hall, Bool.not_false, Bool.and_self, ↓reduceIte]
  exact congrArg some (Nat.ofDigitChars_toDigits (by decide) (by decide))

end ServerProbe.Text
