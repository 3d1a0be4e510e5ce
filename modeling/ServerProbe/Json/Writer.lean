/-
Writing JSON for people: one item or field a line, two more spaces for each level,
and empty arrays and objects on one line. Text is written as it is; only quotes,
backslashes and controls are escaped.

A number in floating point is written with the fewest digits that read back, in
plain notation near one and with a signed exponent elsewhere, and always so that it
can be told from an integer. What is no finite number is null.
-/
import ServerProbe.Decimal.Shortest
import ServerProbe.Json
import ServerProbe.Text.Numeral

set_option autoImplicit false

namespace ServerProbe.Json

/-! ## Numbers -/

/-- Where plain notation is used: if the point stands after more than `least` and at
most `most` places. -/
structure PlainRange where
  least : Int
  most : Int
  deriving Repr, DecidableEq

/-- Plain notation for double precision. -/
def plain64 : PlainRange := ⟨-5, 16⟩

/-- Plain notation for single precision. -/
def plain32 : PlainRange := ⟨-6, 13⟩

/-- Digits without the zeros at their end, and how many these were. -/
def dropZeros (digits : List Char) : List Char × Nat :=
  let kept := (digits.reverse.dropWhile (· == '0')).reverse
  (kept, digits.length - kept.length)

/-- A decimal in text. -/
def decimalText (range : PlainRange) (d : Decimal.Scientific) : List Char :=
  let (digits, zeros) := dropZeros (Text.decimal d.digits)
  let count := digits.length
  let place : Int := count + zeros + d.exponent
  if range.least < place ∧ place ≤ range.most then
    if place ≤ 0 then '0' :: '.' :: List.replicate (-place).toNat '0' ++ digits
    else if count ≤ place then
      digits ++ List.replicate (place - count).toNat '0' ++ ['.', '0']
    else digits.take place.toNat ++ '.' :: digits.drop place.toNat
  else
    let exponent := if place < 1 then Text.intDecimal (place - 1)
      else '+' :: Text.intDecimal (place - 1)
    match digits with
    | [digit] => digit :: 'e' :: exponent
    | first :: rest => first :: '.' :: rest ++ 'e' :: exponent
    | [] => ['0']

/-- A floating-point number, from its bits. -/
def ofBits {τ : Type} (format : Decimal.BinaryFormat) (range : PlainRange) (bits : Nat) : Json τ :=
  let signed (negative : Bool) (text : List Char) : Json τ :=
    .number (String.ofList (if negative then '-' :: text else text))
  match Decimal.decode format bits with
  | .zero negative => signed negative ['0', '.', '0']
  | .finite negative value =>
    signed negative (decimalText range (Decimal.shortest value format.enoughDigits))
  | .infinite _ => .null
  | .nan => .null

/-- A number in double precision. -/
def ofFloat {τ : Type} (x : Float) : Json τ := ofBits Decimal.binary64 plain64 x.toBits.toNat

/-- A number in single precision, from its bits. -/
def ofBits32 {τ : Type} (bits : UInt32) : Json τ := ofBits Decimal.binary32 plain32 bits.toNat

/-- A natural number. -/
def ofNat {τ : Type} (n : Nat) : Json τ := .number (Text.decimalText n)

/-- An integer. -/
def ofInt {τ : Type} (i : Int) : Json τ := .number (String.ofList (Text.intDecimal i))

/-! ## Text -/

/-- A character inside quotes. -/
def escaped (c : Char) : List Char :=
  if c = '"' ∨ c = '\\' then ['\\', c]
  else if c = '\x08' then ['\\', 'b']
  else if c = '\x0c' then ['\\', 'f']
  else if c = '\n' then ['\\', 'n']
  else if c = '\r' then ['\\', 'r']
  else if c = '\t' then ['\\', 't']
  else if c.toNat < 0x20 then '\\' :: 'u' :: Text.hexPadded Text.lowerHexDigit 4 c.toNat
  else [c]

/-- A text in quotes. -/
def quotedText (s : String) : String := String.ofList ('"' :: s.toList.flatMap escaped ++ ['"'])

/-! ## Values -/

/-- The start of a line at a level. -/
def lineStart (level : Nat) : String := "\n" ++ String.ofList (List.replicate (2 * level) ' ')

mutual

/-- A value whose first line stands at a level. -/
def pretty (level : Nat) : Json String → String
  | .null => "null"
  | .bool true => "true"
  | .bool false => "false"
  | .number digits => digits
  | .text t => quotedText t
  | .array [] => "[]"
  | .array (item :: rest) =>
    "[" ++ lineStart (level + 1) ++ pretty (level + 1) item ++ prettyItems (level + 1) rest
      ++ lineStart level ++ "]"
  | .object [] => "\x7b\x7d"
  | .object ((key, value) :: rest) =>
    "\x7b" ++ lineStart (level + 1) ++ quotedText key ++ ": " ++ pretty (level + 1) value
      ++ prettyFields (level + 1) rest ++ lineStart level ++ "\x7d"

/-- Further items, each after a comma. -/
def prettyItems (level : Nat) : List (Json String) → String
  | [] => ""
  | item :: rest => "," ++ lineStart level ++ pretty level item ++ prettyItems level rest

/-- Further fields, each after a comma. -/
def prettyFields (level : Nat) : List (String × Json String) → String
  | [] => ""
  | (key, value) :: rest =>
    "," ++ lineStart level ++ quotedText key ++ ": " ++ pretty level value
      ++ prettyFields level rest

end

end ServerProbe.Json
