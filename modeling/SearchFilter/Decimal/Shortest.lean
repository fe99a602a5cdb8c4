import SearchFilter.Decimal.Binary64

/-!
# The fewest digits that read back

The text of a double shows the fewest decimal digits from which the same double is read back, and
of those the digits nearest to its value. For each number of digits only the two neighbours of the
value on that decimal grid can be nearest, so they are all that is tried; seventeen digits always
suffice. A `Layout` says how the digits are set: up to which magnitude with a point in place, and
how an exponent is written.
-/

namespace SearchFilter.Decimal

/-- `digits · 10 ^ exponent`. -/
structure Scaled where
  digits : Nat
  exponent : Int
  deriving DecidableEq, Repr

namespace Scaled

/-- The value as a fraction. -/
def fraction (s : Scaled) : Nat × Nat :=
  match s.exponent with
  | .ofNat e => (s.digits * Nat.pow 10 e, 1)
  | .negSucc e => (s.digits, Nat.pow 10 (e + 1))

/-- The number of units nearest to the value. -/
def units (s : Scaled) : Nat :=
  nearestUnits s.fraction.1 s.fraction.2

/-- The distance to a number of units, as the numerator over the denominator of the value. -/
def distance (s : Scaled) (units : Nat) : Nat :=
  let value := s.fraction.1 * unitsPerOne
  let target := units * s.fraction.2
  (value - target) + (target - value)

end Scaled

/-- The number of decimal digits of a natural number. -/
def digitCount (n : Nat) : Nat :=
  (Nat.toDigits 10 n).length

/-- The exponent `e` with `10 ^ e ≤ units · 2 ^ -1074 < 10 ^ (e + 1)`, for a positive number of
units. -/
def decimalExponent (units : Nat) : Int :=
  if unitsPerOne ≤ units then (digitCount (units / unitsPerOne) : Int) - 1
  else (digitCount (units * Nat.pow 10 400 / unitsPerOne) : Int) - 401

/-- The greatest multiple of `10 ^ exponent` that is not above the value. -/
def floorAt (units : Nat) (exponent : Int) : Scaled :=
  match exponent with
  | .ofNat e => ⟨units / (unitsPerOne * Nat.pow 10 e), exponent⟩
  | .negSucc e => ⟨units * Nat.pow 10 (e + 1) / unitsPerOne, exponent⟩

/-- The neighbour on the grid of `10 ^ exponent` that reads back and is nearest, if one does; of
two equally near the even one. -/
def nearestAt? (units : Nat) (exponent : Int) : Option Scaled :=
  let low := floorAt units exponent
  let high : Scaled := ⟨low.digits + 1, exponent⟩
  match low.units == units, high.units == units with
  | true, true =>
    let below := low.distance units
    let above := high.distance units
    some (if below < above ∨ (below = above ∧ low.digits % 2 = 0) then low else high)
  | true, false => some low
  | false, true => some high
  | false, false => none

/-- Tries the grids from `count` digits on, at most `fuel` of them. -/
def shortestFrom (units count : Nat) : Nat → Scaled
  | 0 => floorAt units (decimalExponent units - 16)
  | fuel + 1 =>
    match nearestAt? units (decimalExponent units - ((count : Int) - 1)) with
    | some s => s
    | none => shortestFrom units (count + 1) fuel

/-- The digits without zeros at the end, for at most `fuel` of them. -/
def Scaled.strip (s : Scaled) : Nat → Scaled
  | 0 => s
  | fuel + 1 =>
    if s.digits ≠ 0 ∧ s.digits % 10 = 0 then
      Scaled.strip ⟨s.digits / 10, s.exponent + 1⟩ fuel
    else s

/-- The fewest digits that read back as the positive number of units. -/
def shortest (units : Nat) : Scaled :=
  (shortestFrom units 1 17).strip 17

/-- How the digits of a number are set. A number is written with a point in place if the position
of the point, counted from the front of the digits, is above `lowest` and at most `highest`. -/
structure Layout where
  lowest : Int
  highest : Int
  /-- Written before an exponent that is not negative. -/
  exponentSign : String
  /-- Written after a whole number. -/
  wholeTail : String

namespace Layout

/-- `count` zeros. -/
def zeros (count : Nat) : List Char :=
  List.replicate count '0'

/-- The text of the digits `ds` scaled by `10 ^ exponent`. -/
def setDigits (l : Layout) (ds : List Char) (exponent : Int) : String :=
  let point := exponent + ds.length
  if 0 ≤ exponent ∧ point ≤ l.highest then
    String.ofList (ds ++ zeros exponent.toNat) ++ l.wholeTail
  else if 0 < point ∧ point ≤ l.highest then
    String.ofList (ds.take point.toNat ++ '.' :: ds.drop point.toNat)
  else if l.lowest < point ∧ point ≤ 0 then
    String.ofList ('0' :: '.' :: zeros (-point).toNat ++ ds)
  else
    let lead := ds.take 1
    let tail := if ds.length ≤ 1 then [] else '.' :: ds.drop 1
    let e := point - 1
    String.ofList (lead ++ tail) ++ "e" ++ (if e < 0 then "" else l.exponentSign) ++ toString e

/-- The text of a double. -/
def render (l : Layout) (x : Binary64) : String :=
  let sign := if x.negative then "-" else ""
  if x.units = 0 then sign ++ "0" ++ l.wholeTail
  else
    let s := shortest x.units
    sign ++ l.setDigits (Nat.toDigits 10 s.digits) s.exponent

end Layout

end SearchFilter.Decimal
