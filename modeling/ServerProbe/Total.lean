/-
Totals of lists of natural numbers: of octets held, of requests left, of round
trips. A total is taken from the right, so that a list with one more number in
front has a total larger by that number.
-/

set_option autoImplicit false

namespace ServerProbe

/-- The total of a list of numbers. -/
def total (ns : List Nat) : Nat := ns.foldr (· + ·) 0

/-- The total of a list of numbers as a word of 32 bits. The sum wraps around. -/
def wordTotal (ns : List Nat) : UInt32 := ns.foldr (fun n sum => UInt32.ofNat n + sum) 0

@[simp] theorem total_nil : total [] = 0 := rfl

@[simp] theorem total_cons (n : Nat) (ns : List Nat) : total (n :: ns) = n + total ns := rfl

@[simp] theorem total_append (ns ms : List Nat) : total (ns ++ ms) = total ns + total ms := by
  induction ns with
  | nil => simp
  | cons n ns ih => simp [ih, Nat.add_assoc]

/-- A word holds the total up to a multiple of what it holds. -/
theorem toNat_wordTotal (ns : List Nat) : (wordTotal ns).toNat = total ns % UInt32.size := by
  induction ns with
  | nil => rfl
  | cons n ns ih =>
    change (UInt32.ofNat n + wordTotal ns).toNat = (n + total ns) % UInt32.size
    rw [UInt32.toNat_add, UInt32.toNat_ofNat', ih, ← Nat.add_mod]

end ServerProbe
