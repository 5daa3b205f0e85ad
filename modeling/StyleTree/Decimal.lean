/-
Decimal numerals in positional form: an integer of digits and a power of ten. `Decimal.text` writes the numeral
without an exponent mark, whatever its size: zeros fill the places between the digits and the point.
-/

namespace StyleTree

/-- the number `digits · 10^power` -/
structure Decimal where
  digits : Nat
  power : Int
deriving DecidableEq, Repr

namespace Decimal

/-- the digits of a natural number, most significant first -/
def figures (n : Nat) : List Char := Nat.toDigits 10 n

/-- the natural number that digits denote -/
def ofFigures (ds : List Char) : Nat := ds.foldl (fun n c => 10 * n + (c.toNat - '0'.toNat)) 0

/-- puts the point `places` digits from the right, with at least one digit before it -/
def pointed (ds : List Char) (places : Nat) : List Char :=
  let padded := List.replicate (places + 1 - ds.length) '0' ++ ds
  padded.take (padded.length - places) ++ '.' :: padded.drop (padded.length - places)

/-- the numeral in positional form -/
def chars (d : Decimal) : List Char :=
  if d.power < 0 then pointed (figures d.digits) (-d.power).toNat
  else if d.digits = 0 then ['0']
  else figures d.digits ++ List.replicate d.power.toNat '0'

/-- the numeral as text -/
def text (d : Decimal) : String := String.ofList d.chars

end Decimal

end StyleTree
