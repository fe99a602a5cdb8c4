/-!
# Rounding to double precision

A double of the standard binary64 format is a whole number of *units*, the unit being the least
positive double `2 ^ -1074`. So a finite double is a natural number of units and a sign, and
rounding a non-negative fraction to the nearest double is a rounded division of natural numbers.
A double has at most 53 significant bits, so above `2 ^ 53` units the representable numbers are the
multiples of a power of two, the *step*.
-/

namespace SearchFilter.Decimal

/-- The number of units in one. -/
def unitsPerOne : Nat := Nat.pow 2 1074

/-- The first number of units beyond the range of the format. -/
def unitLimit : Nat := Nat.pow 2 2098

/-- The quotient rounded to the nearest whole number, a half going to the even neighbour. -/
def divRoundEven (num den : Nat) : Nat :=
  let q := num / den
  let twice := 2 * (num % den)
  if twice < den then q
  else if den < twice then q + 1
  else q + q % 2

/-- The step of the doubles around `units`, as an exponent of two. -/
def stepExponent (units : Nat) : Nat :=
  units.log2 - 52

/-- The units of the double nearest to `num / den`, a tie going to the even significand. The
exponent range is not bounded here: a result of `unitLimit` or more stands for an overflow. -/
def nearestUnits (num den : Nat) : Nat :=
  let scaled := num * unitsPerOne
  let step := Nat.pow 2 (stepExponent (scaled / den))
  divRoundEven scaled (den * step) * step

/-- A finite double: a sign and a number of units. Zero has both signs. -/
structure Binary64 where
  negative : Bool
  units : Nat
  deriving DecidableEq, Repr

namespace Binary64

/-- The double nearest to a natural number. -/
def ofNat (n : Nat) : Binary64 :=
  ⟨false, nearestUnits n 1⟩

/-- The double nearest to the power of ten `10 ^ k`. -/
def powerOfTen (k : Nat) : Binary64 :=
  ofNat (Nat.pow 10 k)

/-- The double nearest to the product, if it is in range. -/
def mul? (x y : Binary64) : Option Binary64 :=
  let units := nearestUnits (x.units * y.units) (unitsPerOne * unitsPerOne)
  if units < unitLimit then some ⟨x.negative != y.negative, units⟩ else none

/-- The double nearest to the quotient by a double that is not zero, if it is in range. -/
def div? (x y : Binary64) : Option Binary64 :=
  let units := nearestUnits x.units y.units
  if units < unitLimit then some ⟨x.negative != y.negative, units⟩ else none

/-- The same magnitude with the other sign. -/
def neg (x : Binary64) : Binary64 :=
  ⟨!x.negative, x.units⟩

end Binary64

end SearchFilter.Decimal
