/-
Cutting a text in two at a separator: at its first occurrence or at its last.
Both give nothing when the separator does not occur, so a caller has to say what
a missing separator means.
-/

set_option autoImplicit false

namespace ServerProbe.Text

/-- The text before and the text after the first `sep`. -/
def cutFirst? (sep : Char) (cs : List Char) : Option (List Char × List Char) :=
  match cs.dropWhile (· != sep) with
  | [] => none
  | _ :: after => some (cs.takeWhile (· != sep), after)

/-- The text before and the text after the last `sep`. -/
def cutLast? (sep : Char) (cs : List Char) : Option (List Char × List Char) :=
  match cutFirst? sep cs.reverse with
  | none => none
  | some (after, before) => some (before.reverse, after.reverse)

/-- The text after a leading `c`. -/
def stripHead? (c : Char) : List Char → Option (List Char)
  | [] => none
  | d :: rest => if d = c then some rest else none

theorem cutFirst?_eq_none_iff {sep : Char} {cs : List Char} :
    cutFirst? sep cs = none ↔ sep ∉ cs := by
  induction cs with
  | nil => simp [cutFirst?]
  | cons c r ih =>
    by_cases h : c = sep
    · subst h; simp [cutFirst?]
    · have h' : ¬ sep = c := fun e => h e.symm
      simp only [cutFirst?, List.dropWhile_cons, List.takeWhile_cons, bne_iff_ne, ne_eq, h,
        not_false_eq_true, ↓reduceIte, List.mem_cons, h', false_or] at ih ⊢
      rw [← ih]
      split <;> simp_all

theorem cutFirst?_append {sep : Char} {before after : List Char} (h : sep ∉ before) :
    cutFirst? sep (before ++ sep :: after) = some (before, after) := by
  have hb : ∀ x ∈ before, (x != sep) = true := by
    intro x hx
    simp only [bne_iff_ne, ne_eq]
    exact fun e => h (e ▸ hx)
  simp [cutFirst?, List.dropWhile_append_of_pos hb, List.takeWhile_append_of_pos hb]

end ServerProbe.Text
