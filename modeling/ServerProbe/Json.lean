/-
JSON values. Options are read from them and reports are written to them, and the
two need different texts: a string that is read may hold half of a surrogate pair
and then stands for no text at all, while a string that is written is always one.
So the kind of text is a parameter. Numbers keep the digits they are written with;
what they mean is for whoever asks for one.
-/

set_option autoImplicit false

namespace ServerProbe

/-- A JSON value whose strings stand for a `τ`. -/
inductive Json (τ : Type) where
  | null
  | bool (value : Bool)
  /-- A number, as written. -/
  | number (digits : String)
  | text (value : τ)
  | array (items : List (Json τ))
  /-- An object: its fields in the order in which they are written. -/
  | object (fields : List (τ × Json τ))
  deriving Repr

end ServerProbe
