/-
Names of hosts, as a name service takes them: labels of letters, digits, `-` and `_`
with points between them. A point may follow the last label, and then stands for
the root of all names, which is a name by itself. The sizes are those of a query,
where a label has its length in front, and the root is a label of length zero.

In a label a backslash takes the meaning from the character after it, or gives a
character by three digits.

What is no name cannot be asked for, so it is known without asking that it has no
address.
-/
import ServerProbe.Text.Numeral
import ServerProbe.Total

set_option autoImplicit false

namespace ServerProbe.Address

/-- The labels of a text, after a first one of which `label` has been read, last
character first. -/
def labels? (label : List Char) : List Char → Option (List (List Char))
  | [] => some [label.reverse]
  | '.' :: rest => (labels? [] rest).map (label.reverse :: ·)
  | ['\\'] => none
  | '\\' :: a :: rest =>
    if a.isDigit then
      match rest with
      | b :: c :: rest => do
        let code ← (Text.digits? [a, b, c]).filter (· < 0x100)
        labels? (Char.ofNat code :: label) rest
      | _ => none
    else labels? (a :: label) rest
  | c :: rest => labels? (c :: label) rest

/-- Whether a character may be in a label. -/
def isLabelChar (c : Char) : Bool := c.isAlphanum || c == '-' || c == '_'

/-- Whether labels, the root left out, make a name: none is empty or too long, the whole
is not too long, and the first one does not start with a dash. -/
def areLabels (labels : List (List Char)) : Bool :=
  !labels.isEmpty
    && labels.all (fun label => !label.isEmpty && label.length < 64 && label.all isLabelChar)
    && total (labels.map fun label => label.length + 1) < 255
    && labels.head?.bind List.head? != some '-'

/-- Whether a text is the name of a host. -/
def isName (cs : List Char) : Bool :=
  match labels? [] cs with
  | none => false
  | some [[], []] => true
  | some labels => areLabels (if labels.getLast? = some [] then labels.dropLast else labels)

end ServerProbe.Address
