/-
Numbers as octets, least significant first or last. Both directions work on
natural numbers of any width; a fixed-width number is written by its natural
value and read back by keeping as many octets as it has.
-/

set_option autoImplicit false

namespace ServerProbe.Octets

/-- The number whose octets are given, least significant first. -/
def ofLittleEndian (bs : List UInt8) : Nat :=
  bs.foldr (fun b value => b.toNat + 0x100 * value) 0

/-- The number whose octets are given, most significant first. -/
def ofBigEndian (bs : List UInt8) : Nat :=
  ofLittleEndian bs.reverse

/-- The lowest `width` octets of a number, least significant first. -/
def littleEndian : Nat → Nat → List UInt8
  | 0, _ => []
  | width + 1, n => UInt8.ofNat n :: littleEndian width (n / 0x100)

/-- The lowest `width` octets of a number, most significant first. -/
def bigEndian (width n : Nat) : List UInt8 :=
  (littleEndian width n).reverse

/-! ## Reading what was written -/

@[simp] theorem length_littleEndian (width n : Nat) : (littleEndian width n).length = width := by
  induction width generalizing n with
  | zero => rfl
  | succ width ih => simp [littleEndian, ih]

@[simp] theorem length_bigEndian (width n : Nat) : (bigEndian width n).length = width := by
  simp [bigEndian]

theorem ofLittleEndian_littleEndian (width n : Nat) :
    ofLittleEndian (littleEndian width n) = n % Nat.pow 0x100 width := by
  induction width generalizing n with
  | zero => simp [littleEndian, ofLittleEndian, Nat.mod_one]
  | succ width ih =>
    have h := ih (n / 0x100)
    simp only [ofLittleEndian] at h
    have split : n % Nat.pow 0x100 (width + 1)
        = n % 0x100 + 0x100 * (n / 0x100 % Nat.pow 0x100 width) := by
      simp only [Nat.pow_eq, Nat.pow_succ', Nat.mod_mul]
    simp only [littleEndian, ofLittleEndian, List.foldr_cons, h, split, UInt8.toNat_ofNat',
      Nat.reducePow]

theorem ofBigEndian_bigEndian (width n : Nat) :
    ofBigEndian (bigEndian width n) = n % Nat.pow 0x100 width := by
  simp [ofBigEndian, bigEndian, ofLittleEndian_littleEndian]

end ServerProbe.Octets
