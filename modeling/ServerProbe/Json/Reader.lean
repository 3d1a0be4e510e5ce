/-
Reading JSON. A text is read strictly: nothing before or after the value but
blanks, no comma too many, no number with a leading zero or a bare point, no
control character in a string. Strings may hold the two halves of a surrogate pair
as two escapes; a half on its own is no error of the grammar, but the string then
stands for no text.
-/
import ServerProbe.Json
import ServerProbe.Text.Numeral

set_option autoImplicit false

namespace ServerProbe.Json

/-- Passes blanks. -/
def skipBlank (cs : List Char) : List Char :=
  cs.dropWhile fun c => c == ' ' || c == '\t' || c == '\n' || c == '\r'

/-! ## Numbers -/

/-- Digits in front, and what follows. -/
def spanDigits (cs : List Char) : List Char × List Char := cs.span Char.isDigit

/-- At least one digit, after `front`. -/
def moreDigits? (front cs : List Char) : Option (List Char × List Char) :=
  match spanDigits cs with
  | ([], _) => none
  | (digits, rest) => some (front ++ digits, rest)

/-- The part of a number before point and exponent. -/
def wholePart? : List Char → Option (List Char × List Char)
  | '-' :: '0' :: rest => some (['-', '0'], rest)
  | '0' :: rest => some (['0'], rest)
  | '-' :: rest => moreDigits? ['-'] rest
  | cs => moreDigits? [] cs

/-- The part from the point on, if there is one. -/
def fractionPart? (front : List Char) : List Char → Option (List Char × List Char)
  | '.' :: rest => moreDigits? (front ++ ['.']) rest
  | cs => some (front, cs)

/-- The exponent, if there is one. -/
def exponentPart? (front : List Char) : List Char → Option (List Char × List Char)
  | e :: rest =>
    if e = 'e' ∨ e = 'E' then
      match rest with
      | s :: rest' =>
        if s = '+' ∨ s = '-' then moreDigits? (front ++ [e, s]) rest'
        else moreDigits? (front ++ [e]) rest
      | [] => none
    else some (front, e :: rest)
  | [] => some (front, [])

/-- A number, as written, and what follows. -/
def number? (cs : List Char) : Option (String × List Char) := do
  let (front, cs) ← wholePart? cs
  let (front, cs) ← fractionPart? front cs
  let (front, cs) ← exponentPart? front cs
  some (String.ofList front, cs)

/-! ## Strings -/

/-- The value of four hexadecimal digits. -/
def hex4? (a b c d : Char) : Option Nat := Text.inBase? 16 [a, b, c, d]

/-- What a short escape stands for. -/
def shortEscape? (c : Char) : Option Char :=
  if c = '"' ∨ c = '\\' ∨ c = '/' then some c
  else if c = 'b' then some '\x08'
  else if c = 'f' then some '\x0c'
  else if c = 'n' then some '\n'
  else if c = 'r' then some '\r'
  else if c = 't' then some '\t'
  else none

/-- The code points of a string after its opening quote, and what follows its closing
one. `read` holds those before, last first; halves of surrogate pairs stand for
themselves. -/
def codePoints? (read : List Nat) : List Char → Option (List Nat × List Char)
  | [] => none
  | '"' :: rest => some (read.reverse, rest)
  | '\\' :: 'u' :: a :: b :: c :: d :: rest =>
    match hex4? a b c d with
    | some n => codePoints? (n :: read) rest
    | none => none
  | '\\' :: e :: rest =>
    match shortEscape? e with
    | some c => codePoints? (c.toNat :: read) rest
    | none => none
  | c :: rest => if c.toNat < 0x20 ∨ c = '\\' then none else codePoints? (c.toNat :: read) rest

/-- Joins the two halves of surrogate pairs; nothing if a half stands alone. -/
def joinHalves? (joined : List Char) : List Nat → Option (List Char)
  | [] => some joined.reverse
  | high :: rest =>
    if high < 0xD800 ∨ 0xDFFF < high then joinHalves? (Char.ofNat high :: joined) rest
    else match rest with
      | [] => none
      | low :: rest' =>
        if high < 0xDC00 ∧ 0xDC00 ≤ low ∧ low ≤ 0xDFFF then
          let whole := Char.ofNat (0x10000 + (high - 0xD800) * 0x400 + (low - 0xDC00))
          joinHalves? (whole :: joined) rest'
        else none

/-- A string after its opening quote, and what follows. -/
def text? (cs : List Char) : Option (Option String × List Char) :=
  (codePoints? [] cs).map fun (points, rest) => ((joinHalves? [] points).map String.ofList, rest)

/-! ## Values -/

/-- JSON as it is read: a string stands for a text or for none. -/
abbrev Source := Json (Option String)

mutual

/-- A value, and what follows. Each level of nesting and each item uses up a unit of
fuel. -/
def value? : Nat → List Char → Option (Source × List Char)
  | 0, _ => none
  | fuel + 1, cs =>
    match skipBlank cs with
    | 'n' :: 'u' :: 'l' :: 'l' :: rest => some (.null, rest)
    | 't' :: 'r' :: 'u' :: 'e' :: rest => some (.bool true, rest)
    | 'f' :: 'a' :: 'l' :: 's' :: 'e' :: rest => some (.bool false, rest)
    | '"' :: rest => (text? rest).map fun (content, rest) => (.text content, rest)
    | '[' :: rest =>
      match skipBlank rest with
      | ']' :: rest' => some (.array [], rest')
      | _ => items? fuel [] rest
    | '\x7b' :: rest =>
      match skipBlank rest with
      | '\x7d' :: rest' => some (.object [], rest')
      | _ => fields? fuel [] rest
    | cs => (number? cs).map fun (digits, rest) => (.number digits, rest)

/-- The items of an array that follow `read`, which holds those before, last first. -/
def items? : Nat → List Source → List Char → Option (Source × List Char)
  | 0, _, _ => none
  | fuel + 1, read, cs =>
    match value? fuel cs with
    | none => none
    | some (item, rest) =>
      match skipBlank rest with
      | ',' :: rest' => items? fuel (item :: read) rest'
      | ']' :: rest' => some (.array (item :: read).reverse, rest')
      | _ => none

/-- The fields of an object that follow `read`, which holds those before, last first. -/
def fields? : Nat → List (Option String × Source) → List Char → Option (Source × List Char)
  | 0, _, _ => none
  | fuel + 1, read, cs =>
    match skipBlank cs with
    | '"' :: rest =>
      match text? rest with
      | none => none
      | some (key, rest) =>
        match skipBlank rest with
        | ':' :: rest =>
          match value? fuel rest with
          | none => none
          | some (item, rest) =>
            match skipBlank rest with
            | ',' :: rest' => fields? fuel ((key, item) :: read) rest'
            | '\x7d' :: rest' => some (.object ((key, item) :: read).reverse, rest')
            | _ => none
        | _ => none
    | _ => none

end

/-- The value that a text is. Between two units of fuel at least one character is
read, so twice as many units as there are characters are enough. -/
def ofText? (text : String) : Option Source :=
  let cs := text.toList
  match value? (2 * cs.length + 2) cs with
  | some (v, rest) => if (skipBlank rest).isEmpty then some v else none
  | none => none

end ServerProbe.Json
