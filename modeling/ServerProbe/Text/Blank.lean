/-
Blank characters: the 25 characters with the White_Space property. Numbers in
replies may be surrounded by them, and they separate the numbers on a player
line. The set is small and closed, so it is written out.
-/

set_option autoImplicit false

namespace ServerProbe.Text

/-- White_Space: the controls U+0009 to U+000D, the space, U+0085, U+00A0 and the
typographic spaces and separators from U+1680 on. -/
def isBlank (c : Char) : Bool :=
  let n := c.toNat
  (0x09 ≤ n && n ≤ 0x0D) || n == 0x20 || n == 0x85 || n == 0xA0 || n == 0x1680
    || (0x2000 ≤ n && n ≤ 0x200A) || n == 0x2028 || n == 0x2029 || n == 0x202F
    || n == 0x205F || n == 0x3000

/-- A text without the characters at its end that satisfy `p`. -/
def dropEndWhile (p : Char → Bool) (cs : List Char) : List Char :=
  (cs.reverse.dropWhile p).reverse

/-- A text without the blanks around it. -/
def trim (cs : List Char) : List Char :=
  dropEndWhile isBlank (cs.dropWhile isBlank)

/-- The longest pieces of a text that hold no blank, in order. -/
def words (cs : List Char) : List (List Char) :=
  (cs.splitOnP isBlank).filter (fun w => !w.isEmpty)

@[simp] theorem trim_nil : trim [] = [] := rfl

end ServerProbe.Text
