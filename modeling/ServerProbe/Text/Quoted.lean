/-
Quoted text, as it stands in error messages: between double quotes, with the
quote, the backslash and four controls behind a backslash, and every other
character that could not be seen as its number in braces. All else is itself, so
a message stays readable in any script.
-/
import ServerProbe.Text.Numeral
import ServerProbe.Text.Unprintable

set_option autoImplicit false

namespace ServerProbe.Text

/-- A character shown by its number, without leading zeros. -/
def numbered (c : Char) : List Char :=
  '\\' :: 'u' :: '\x7b' :: Nat.toDigits 16 c.toNat ++ ['\x7d']

/-- A character inside quotes. -/
def quotedChar (c : Char) : List Char :=
  if c = '"' ∨ c = '\\' then ['\\', c]
  else if c = '\t' then ['\\', 't']
  else if c = '\r' then ['\\', 'r']
  else if c = '\n' then ['\\', 'n']
  else if c = '\x00' then ['\\', '0']
  else if isUnprintable c then numbered c
  else [c]

/-- A text in double quotes. -/
def quoted (s : String) : String :=
  String.ofList ('"' :: s.toList.flatMap quotedChar ++ ['"'])

end ServerProbe.Text
