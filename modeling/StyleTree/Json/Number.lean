/-
JSON number literals: an optional minus, an integer without leading zeros, an optional fraction, an optional exponent.

A literal is read in two parts. Its leading digits, as many as fit in 64 bits, are an integer, and the rest of it is a
power of ten: the exponent, less the fraction digits taken, plus the integer digits left out. The integer is rounded to
binary64, then multiplied or divided by the power of ten, itself rounded, with one more rounding. So an integer of 64
bits is rounded correctly, and so is a literal of at most fifteen digits with a power of at most twenty-two; longer
ones may be off in the last place. A minus before zero is kept, and a literal too large for any finite number denotes
nothing.
-/
import StyleTree.Decimal
import StyleTree.Double

namespace StyleTree.Json

/-- the digits at the front of a text, and the rest -/
def digitsOf (cs : List Char) : List Char × List Char := (cs.takeWhile Char.isDigit, cs.dropWhile Char.isDigit)

/-- the integer part: one or more digits, a leading zero standing alone -/
def integerPart? (cs : List Char) : Option (List Char × List Char) :=
  match digitsOf cs with
  | ([], _) => none
  | ('0' :: _ :: _, _) => none
  | (ds, rest) => some (ds, rest)

/-- the fraction: a point and one or more digits, or nothing -/
def fractionPart? : List Char → Option (List Char × List Char)
  | '.' :: cs =>
    match digitsOf cs with
    | ([], _) => none
    | (ds, rest) => some (ds, rest)
  | cs => some ([], cs)

/-- the digits of an exponent, which has to end the literal -/
def exponentDigits? (cs : List Char) : Option Nat :=
  match digitsOf cs with
  | ([], _) => none
  | (ds, []) => some (Decimal.ofFigures ds)
  | _ => none

/-- the exponent: its mark, an optional sign and one or more digits, or nothing at all -/
def exponentPart? : List Char → Option Int
  | [] => some 0
  | c :: cs =>
    if c = 'e' ∨ c = 'E' then
      match cs with
      | '+' :: ds => (exponentDigits? ds).map fun n => (n : Int)
      | '-' :: ds => (exponentDigits? ds).map fun n => -(n : Int)
      | ds => (exponentDigits? ds).map fun n => (n : Int)
    else none

/-! ## The number of a literal -/

/-- appends digits to a number as long as it fits in 64 bits; gives also the digits that did not fit -/
def gather (n : Nat) : List Char → Nat × List Char
  | [] => (n, [])
  | d :: ds =>
    let next := 10 * n + (d.toNat - '0'.toNat)
    if next < exp2 64 then gather next ds else (n, d :: ds)

/-- the largest power of ten that one step can scale by -/
def maxPower : Nat := 308

/-- scales `x` by `10^power` in one step; zero stays zero, and too large a number is none -/
def scaleOnce? (x : Double) (power : Int) : Option Double :=
  if x.isZero then some x
  else if power < 0 then some (x.div (Double.powerOfTen (-power).toNat))
  else if maxPower < power then none
  else
    let y := x.mul (Double.powerOfTen power.toNat)
    if y.isFinite then some y else none

/-- scales `x` by `10^power`; below the range of one step, `x` is first brought down by at most `steps` divisions -/
def scaled? : (steps : Nat) → (x : Double) → (power : Int) → Option Double
  | 0, x, power => scaleOnce? x power
  | steps + 1, x, power =>
    if power < -(maxPower : Int) ∧ !x.isZero then
      scaled? steps (x.div (Double.powerOfTen maxPower)) (power + maxPower)
    else scaleOnce? x power

/-- the divisions after which nothing is left of a 64-bit integer -/
def maxSteps : Nat := 2

/-- the number of a literal without its sign: its leading digits as a 64-bit integer, scaled by a power of ten -/
def unsigned? (cs : List Char) : Option Double := do
  let (whole, afterWhole) ← integerPart? cs
  let (fraction, afterFraction) ← fractionPart? afterWhole
  let power ← exponentPart? afterFraction
  let (n, skipped) := gather 0 whole
  let (n, dropped) := gather n fraction
  scaled? maxSteps (Double.ofInt n) (power + skipped.length - (fraction.length - dropped.length : Nat))

/-- the number that a literal denotes -/
def number? : List Char → Option Double
  | '-' :: cs => (unsigned? cs).map fun x => x.withSign true
  | cs => unsigned? cs

end StyleTree.Json
