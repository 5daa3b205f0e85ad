/-
The texts of a number, and the shortest decimal that reads back as it.

The reals that round to a finite number form an interval around it, closed exactly when the significand is even. A
decimal with fewer digits is a point of a coarser grid of powers of ten, so the shortest decimal is found by going
down through the grids until one has a point in the interval. On each grid only the two neighbours of the number
need a look: of two hits the nearer one is taken, and the upper one if they are equally near. Everything is measured in
quarters of the number's last binary place, where the ends of the interval are integers. The number itself lies on the
grid of its own power of two, so the descent ends there at the latest.

`Double.display` is the plain text used in messages: the shortest digits that read back, padded with zeros and never
with an exponent, a minus also before a negative zero. `Double.cssText` is the text written into a stylesheet: an
integer has all its exact digits and both zeros are `0`; any other number is displayed.
-/
import StyleTree.Decimal
import StyleTree.Double

namespace StyleTree

/-! ## The shortest decimal -/

/-- the reals that round to `centre · 2^scale`; `low` and `high` are in the same unit -/
structure Interval where
  low : Nat
  centre : Nat
  high : Nat
  closed : Bool
  scale : Int
deriving DecidableEq, Repr

namespace Interval

/-- the rounding interval of a finite number; below a power of two the neighbours are twice as close -/
def around (x : Double) : Interval where
  low := 4 * x.significand - (if x.fraction = 0 ∧ 1 < x.biased then 1 else 2)
  centre := 4 * x.significand
  high := 4 * x.significand + 2
  closed := x.significand % 2 = 0
  scale := x.exponent - 2

/-- so many steps `n` of the interval's unit, in the common measure of that unit and the grid `10^power` -/
def steps (i : Interval) (power : Int) (n : Nat) : Nat := n * exp2 i.scale.toNat * exp10 (-power).toNat

/-- the grid point `d · 10^power`, in the same common measure -/
def point (i : Interval) (power : Int) (d : Nat) : Nat := d * exp10 power.toNat * exp2 (-i.scale).toNat

/-- the grid point `d · 10^power` lies in the interval -/
def holds (i : Interval) (power : Int) (d : Nat) : Bool :=
  let p := i.point power d
  let low := i.steps power i.low
  let high := i.steps power i.high
  if i.closed then low ≤ p ∧ p ≤ high else low < p ∧ p < high

/-- the last grid point not above the centre -/
def below (i : Interval) (power : Int) : Nat := i.steps power i.centre / i.point power 1

/-- the grid's best point in the interval, if it has one -/
def pick? (i : Interval) (power : Int) : Option Nat :=
  let d := i.below power
  match i.holds power d, i.holds power (d + 1) with
  | true, true =>
    if i.steps power i.centre - i.point power d < i.point power (d + 1) - i.steps power i.centre then some d
    else some (d + 1)
  | true, false => some d
  | false, true => some (d + 1)
  | false, false => none

/-- the best point of the coarsest grid that has one, from `power` down by at most `more` powers of ten -/
def coarsest (i : Interval) : (more : Nat) → (power : Int) → Decimal
  | 0, power => ⟨i.below power, power⟩
  | more + 1, power =>
    match i.pick? power with
    | some d => ⟨d, power⟩
    | none => i.coarsest more (power - 1)

end Interval

/-- the decimal with the fewest digits that reads back as the size of a finite number other than zero -/
def Double.shortest (x : Double) : Decimal :=
  let i := Interval.around x
  let top : Int := (Decimal.figures x.floor).length
  i.coarsest (top - min i.scale 0).toNat top

namespace Double

/-! ## Texts -/

/-- a minus sign where one is wanted -/
def signed (negative : Bool) (s : String) : String := if negative then "-" ++ s else s

/-- plain text of a number: the shortest digits that read back, in positional form -/
def display (x : Double) : String :=
  if x.isNaN then "NaN"
  else if !x.isFinite then signed x.negative "inf"
  else if x.isZero then signed x.negative "0"
  else signed x.negative x.shortest.text

/-- stylesheet text of a number: integers exactly, everything else as displayed -/
def cssText (x : Double) : String :=
  if x.isZero then "0"
  else if x.isIntegral then signed x.negative (Decimal.text ⟨x.floor, 0⟩)
  else x.display

end Double

end StyleTree
