/-
The fewest decimal digits that read back as a given binary floating-point number.

A finite number is m · 2^q. The decimals that read back as it are those in an
interval around it: half-way to its neighbours, the ends included exactly if m is
even, since a reader sends a tie to the even one. If a grid of decimals has any
point in the interval, then it has one next to the number itself. So for one digit,
two digits and so on the two neighbours on the grid are tested, and the first grid
that has a point in the interval gives the digits; of two such points the nearer one
is taken, and the even one if they are equally near. All of it is done in whole
numbers, so nothing is rounded on the way.
-/

set_option autoImplicit false

namespace ServerProbe.Decimal

/-! ## Binary numbers -/

/-- The sizes of a binary format. -/
structure BinaryFormat where
  /-- Bits of the fraction. -/
  fractionBits : Nat
  /-- Bits of the exponent. -/
  exponentBits : Nat
  /-- Digits that are always enough. -/
  enoughDigits : Nat
  deriving Repr, DecidableEq

/-- Single precision. -/
def binary32 : BinaryFormat := ⟨23, 8, 9⟩

/-- Double precision. -/
def binary64 : BinaryFormat := ⟨52, 11, 17⟩

/-- A positive number m · 2^q. -/
structure Binary where
  m : Nat
  q : Int
  /-- Whether the neighbour below is only half as far away as the one above. -/
  closerBelow : Bool
  deriving Repr, DecidableEq

/-- What the bits of a number say. -/
inductive Decoded where
  | zero (negative : Bool)
  | finite (negative : Bool) (value : Binary)
  | infinite (negative : Bool)
  | nan
  deriving Repr, DecidableEq

/-- A power of two. -/
def pow2 (k : Nat) : Nat := Nat.pow 2 k

/-- A power of ten. -/
def pow10 (k : Nat) : Nat := Nat.pow 10 k

/-- Reads the bits of a number. -/
def decode (f : BinaryFormat) (bits : Nat) : Decoded :=
  let fraction := bits % pow2 f.fractionBits
  let exponent := bits / pow2 f.fractionBits % pow2 f.exponentBits
  let negative := bits / pow2 (f.fractionBits + f.exponentBits) % 2 == 1
  let bias : Int := Int.ofNat (pow2 (f.exponentBits - 1)) - 1
  if exponent = pow2 f.exponentBits - 1 then
    if fraction = 0 then .infinite negative else .nan
  else if exponent = 0 then
    if fraction = 0 then .zero negative
    else .finite negative ⟨fraction, 1 - bias - f.fractionBits, false⟩
  else
    .finite negative ⟨pow2 f.fractionBits + fraction, (exponent : Int) - bias - f.fractionBits,
      fraction == 0 && decide (1 < exponent)⟩

/-! ## Decimals -/

/-- A number digits · 10^exponent. -/
structure Scientific where
  digits : Nat
  exponent : Int
  deriving Repr, DecidableEq

/-- A quotient of natural numbers that is compared with others over one denominator. -/
structure Scaled where
  /-- The number and the ends of its interval, as multiples of `1 / den`. -/
  value : Nat
  low : Nat
  high : Nat
  den : Nat
  /-- Whether the ends belong to the interval. -/
  closed : Bool
  deriving Repr, DecidableEq

/-- A number with its interval. In units of a quarter of the last place the number is
4m, the upper end two above it, and the lower end two or one below. -/
def Binary.scaled (b : Binary) : Scaled :=
  let unit := pow2 (b.q - 2).toNat
  { value := 4 * b.m * unit
    low := (4 * b.m - if b.closerBelow then 1 else 2) * unit
    high := (4 * b.m + 2) * unit
    den := pow2 (2 - b.q).toNat
    closed := b.m % 2 == 0 }

/-- How many digits stand before the point of `num / den`, or less by one for each zero
that follows it. `limit` bounds the zeros. -/
def pointPlace (num den limit : Nat) : Int :=
  if den ≤ num then (Nat.toDigits 10 (num / den)).length
  else
    match (List.range limit).find? fun zeros => den ≤ num * pow10 (zeros + 1) with
    | some zeros => -(zeros : Int)
    | none => -(limit : Int)

/-- Whether `n · 10^e` is in the interval. -/
def Scaled.holds (s : Scaled) (n : Nat) (e : Int) : Bool :=
  let point := n * pow10 e.toNat * s.den
  let grain := pow10 (-e).toNat
  if s.closed then decide (s.low * grain ≤ point ∧ point ≤ s.high * grain)
  else decide (s.low * grain < point ∧ point < s.high * grain)

/-- The point of the grid of multiples of `10^e` that stands for the number: the one in
the interval, the nearer of two, the even one of two that are equally near. -/
def Scaled.onGrid? (s : Scaled) (e : Int) : Option Nat :=
  let num := s.value * pow10 (-e).toNat
  let den := s.den * pow10 e.toNat
  let below := num / den
  let excess := num % den
  match s.holds below e, s.holds (below + 1) e with
  | true, false => some below
  | false, true => some (below + 1)
  | false, false => none
  | true, true =>
    if 2 * excess < den then some below
    else if den < 2 * excess then some (below + 1)
    else some (if below % 2 = 0 then below else below + 1)

/-- The fewest digits that read back as the number, at most `most`. -/
def shortest (b : Binary) (most : Nat) : Scientific :=
  let s := b.scaled
  let place := pointPlace s.value s.den 400
  let grids := (List.range most).map fun k => place - (k + 1 : Nat)
  match grids.findSome? fun e => (s.onGrid? e).map fun n => (⟨n, e⟩ : Scientific) with
  | some d => d
  | none => ⟨s.value * pow10 (most - place).toNat / s.den, place - most⟩

end ServerProbe.Decimal
