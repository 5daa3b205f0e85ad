/-
Binary64 numbers as bit patterns. A number is its 64-bit word; everything said about it is exact arithmetic on
natural numbers, so no floating-point operation of the machine is involved.

A finite word denotes ± significand · 2^exponent, with exponent at least -1074. The model has:
- the fields of a word and the exact value they denote;
- the comparison of numbers (`same`): a NaN differs from itself, and the two zeros are one number;
- `nearest`: the word nearest to an exact ratio, a half going to the even neighbour, too large a ratio to infinity;
- products and quotients, which are the exact ones rounded once.
-/

namespace StyleTree

/-! ## Powers -/

/-- the powers of two -/
def exp2 (n : Nat) : Nat := Nat.pow 2 n

/-- the powers of ten -/
def exp10 (n : Nat) : Nat := Nat.pow 10 n

/-! ## Words -/

/-- a binary64 number, held as its bit pattern -/
structure Double where
  bits : UInt64
deriving DecidableEq, Repr

namespace Double

/-! ## The fields of a word -/

/-- the sign bit is set -/
def negative (x : Double) : Bool := exp2 63 ≤ x.bits.toNat

/-- the word without its sign bit -/
def magnitude (x : Double) : Nat := x.bits.toNat % exp2 63

/-- the eleven exponent bits, as stored -/
def biased (x : Double) : Nat := x.magnitude / exp2 52

/-- the fifty-two fraction bits -/
def fraction (x : Double) : Nat := x.magnitude % exp2 52

/-- neither an infinity nor a NaN -/
def isFinite (x : Double) : Bool := x.biased < 2047

/-- the word denotes no number -/
def isNaN (x : Double) : Bool := x.biased = 2047 ∧ x.fraction ≠ 0

/-- either of the two zeros -/
def isZero (x : Double) : Bool := x.magnitude = 0

/-- the integer factor of a finite number; below the normal range the leading bit is not implied -/
def significand (x : Double) : Nat := if x.biased = 0 then x.fraction else exp2 52 + x.fraction

/-- the power of two that scales the significand of a finite number -/
def exponent (x : Double) : Int := (max x.biased 1 : Nat) - 1075

/-- a finite number without fractional part -/
def isIntegral (x : Double) : Bool := x.isFinite ∧ x.significand % exp2 (-x.exponent).toNat = 0

/-! ## Construction -/

/-- the word of a sign and a magnitude -/
def ofMagnitude (negative : Bool) (magnitude : Nat) : Double :=
  ⟨UInt64.ofNat ((if negative then exp2 63 else 0) + magnitude)⟩

/-- the magnitude of the infinities -/
def infinite : Nat := 2047 * exp2 52

/-- the quiet NaN -/
def nan : Double := ofMagnitude false (infinite + exp2 51)

/-- the ratio `num / den` rounded to an integer, a half going to the even one -/
def roundDiv (num den : Nat) : Nat :=
  let q := num / den
  let twice := 2 * (num % den)
  if twice < den ∨ (twice = den ∧ q % 2 = 0) then q else q + 1

/-- the power of two at which `num / den` has a 53-bit integer part, or the least exponent if that is larger -/
def scaleOf (num den : Nat) : Int :=
  let e : Int := (Nat.log2 num : Int) - Nat.log2 den - 53
  let wide := num * exp2 (-e).toNat / (den * exp2 e.toNat)
  max (if exp2 53 ≤ wide then e + 1 else e) (-1074)

/-- the number nearest to `± num / den`; the significand's carry runs into the exponent bits, as it should -/
def nearest (negative : Bool) (num den : Nat) : Double :=
  if num = 0 then ofMagnitude negative 0
  else
    let e := scaleOf num den
    let m := roundDiv (num * exp2 (-e).toNat) (den * exp2 e.toNat)
    ofMagnitude negative (min infinite ((e + 1074).toNat * exp2 52 + m))

/-- the number nearest to an integer -/
def ofInt (i : Int) : Double := nearest (i < 0) i.natAbs 1

/-- the number nearest to a power of ten -/
def powerOfTen (n : Nat) : Double := nearest false (exp10 n) 1

/-! ## Arithmetic -/

/-- the size of a finite number, as an integer over `denominator` -/
def numerator (x : Double) : Nat := x.significand * exp2 x.exponent.toNat

/-- the power of two that the size of a finite number is a multiple of the inverse of -/
def denominator (x : Double) : Nat := exp2 (-x.exponent).toNat

/-- the integer part of a finite number's size -/
def floor (x : Double) : Nat := x.numerator / x.denominator

/-- the number of a given sign with the size of another -/
def withSign (x : Double) (negative : Bool) : Double := ofMagnitude negative x.magnitude

/-- the product of two finite numbers, rounded once -/
def mul (x y : Double) : Double :=
  nearest (x.negative != y.negative) (x.numerator * y.numerator) (x.denominator * y.denominator)

/-- the quotient of two finite numbers, rounded once; the divisor is not zero -/
def div (x y : Double) : Double :=
  nearest (x.negative != y.negative) (x.numerator * y.denominator) (x.denominator * y.numerator)

/-! ## Comparison -/

/-- equality as numbers: a NaN equals nothing, and the zeros equal each other -/
def same (x y : Double) : Bool :=
  !x.isNaN && !y.isNaN && (x.bits == y.bits || (x.isZero && y.isZero))

end Double

end StyleTree
