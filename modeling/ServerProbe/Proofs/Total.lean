/-
Totals over lists: what one entry, a part of the entries or a change of one entry
has to do with the whole.
-/
import Mathlib.Data.List.Basic
import ServerProbe.Total

set_option autoImplicit false

namespace ServerProbe

variable {α : Type} (f : α → Nat)

/-- An entry is no more than the total. -/
theorem le_total_of_mem {a : α} {l : List α} (h : a ∈ l) : f a ≤ total (l.map f) := by
  induction l with
  | nil => simp at h
  | cons b rest ih =>
    simp only [List.map_cons, total_cons]
    rcases List.mem_cons.mp h with rfl | hrest
    · omega
    · have := ih hrest
      omega

/-- A total grows with its entries. -/
theorem total_map_le {g : α → Nat} {l : List α} (h : ∀ a ∈ l, f a ≤ g a) :
    total (l.map f) ≤ total (l.map g) := by
  induction l with
  | nil => exact Nat.le_refl _
  | cons a rest ih =>
    have ha := h a List.mem_cons_self
    have hrest := ih fun b hb => h b (List.mem_cons_of_mem a hb)
    simp only [List.map_cons, total_cons]
    omega

/-- A total is that of the entries which satisfy a condition and that of the others. -/
theorem total_filter_add (p : α → Bool) (l : List α) :
    total ((l.filter p).map f) + total ((l.filter fun a => !p a).map f) = total (l.map f) := by
  induction l with
  | nil => rfl
  | cons a rest ih =>
    by_cases h : p a = true
    · rw [List.filter_cons_of_pos h, List.filter_cons_of_neg (by simp [h])]
      simp only [List.map_cons, total_cons]
      omega
    · rw [List.filter_cons_of_neg h, List.filter_cons_of_pos (by simp [h])]
      simp only [List.map_cons, total_cons]
      omega

/-- Where a condition holds for nothing, and otherwise always for the same, the total is told by
how often it does not hold. -/
theorem total_map_ite (p : α → Bool) (n : Nat) (l : List α) :
    total (l.map fun a => if p a then 0 else n) = (l.filter fun a => !p a).length * n := by
  induction l with
  | nil => rw [List.filter_nil, List.length_nil, Nat.zero_mul]; rfl
  | cons a rest ih =>
    rw [List.map_cons, total_cons, ih]
    rcases h : p a with _ | _
    · rw [List.filter_cons_of_pos (by simp [h]), List.length_cons, Nat.succ_mul,
        if_neg Bool.false_ne_true, Nat.add_comm]
    · rw [List.filter_cons_of_neg (by simp [h]), if_pos rfl, Nat.zero_add]

/-- A total does not depend on the order. -/
theorem total_perm {l l' : List Nat} (h : l.Perm l') : total l = total l' := by
  induction h with
  | nil => rfl
  | cons n _ ih => rw [total_cons, total_cons, ih]
  | swap n m rest =>
    simp only [total_cons]
    omega
  | trans _ _ ih ih' => exact ih.trans ih'

/-- Changing one entry changes a total by the difference of the entries. -/
theorem total_set_add {a b : α} {l : List α} {i : Nat} (h : l[i]? = some b) :
    total ((l.set i a).map f) + f b = total (l.map f) + f a := by
  induction l generalizing i with
  | nil => simp at h
  | cons c rest ih =>
    cases i with
    | zero =>
      simp only [List.getElem?_cons_zero, Option.some.injEq] at h
      subst h
      simp only [List.set_cons_zero, List.map_cons, total_cons]
      omega
    | succ i =>
      have hrest := ih (i := i) (by simpa using h)
      simp only [List.set_cons_succ, List.map_cons, total_cons]
      omega

end ServerProbe
