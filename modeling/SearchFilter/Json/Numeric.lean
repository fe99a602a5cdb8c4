import SearchFilter.Decimal.Numeral
import SearchFilter.Json.Basic

/-!
# Reading JSON numbers

A number without a point and an exponent that fits a 64-bit word is whole. Any other number is a
double: its leading digits, as many as fit an unsigned 64-bit word, are scaled by a power of ten in
double precision, and further digits only count towards that power. The number minus zero is a
double too, for only a double keeps its sign. A number beyond the range of doubles is refused.
-/

namespace SearchFilter.Json.Number

open SearchFilter.Decimal

/-- The first number beyond an unsigned 64-bit word. -/
def wordLimit : Nat := Nat.pow 2 64

/-- The greatest power of ten in the range of doubles. -/
def greatestPower : Nat := 308

/-- Appends digits to a number while the result fits a word. Answers the number and how many digits
were taken. -/
def takeFitting (n : Nat) : List Char → Nat × Nat
  | [] => (n, 0)
  | d :: ds =>
    let next := 10 * n + (d.toNat - '0'.toNat)
    if next < wordLimit then
      let r := takeFitting next ds
      (r.1, r.2 + 1)
    else (n, 0)

/-- The double scaled by a power of ten. Each step divides by at most the greatest power of ten, so
after `fuel = 3` steps nothing is left of a number that fits a word. -/
def scale? (x : Binary64) (exponent : Int) : Nat → Option Binary64
  | 0 => some ⟨x.negative, 0⟩
  | fuel + 1 =>
    if exponent.natAbs ≤ greatestPower then
      if 0 ≤ exponent then x.mul? (.powerOfTen exponent.natAbs)
      else x.div? (.powerOfTen exponent.natAbs)
    else if x.units = 0 then some x
    else if 0 ≤ exponent then none
    else
      match x.div? (.powerOfTen greatestPower) with
      | some y => scale? y (exponent + greatestPower) fuel
      | none => none

/-- The double with the sign, the significand and the power of ten. -/
def real? (negative : Bool) (significand : Nat) (exponent : Int) : Option Number :=
  (scale? (.ofNat significand) exponent 3).map fun x => .real ⟨negative, x.units⟩

/-- A number without a point and an exponent. -/
def ofWhole? (negative : Bool) (digits : List Char) : Option Number :=
  let r := takeFitting 0 digits
  if r.2 < digits.length then
    real? negative r.1 (digits.length - r.2 : Nat)
  else if negative then
    if r.1 = 0 ∨ Nat.pow 2 63 < r.1 then some (.real (Binary64.ofNat r.1).neg)
    else some (.whole (-(r.1 : Int)))
  else some (.whole r.1)

/-- A number with a point or an exponent. -/
def ofParts? (n : Numeral) : Option Number :=
  let whole := takeFitting 0 n.whole
  let all := takeFitting whole.1 n.fraction
  let e : Int := Numeral.digitsValue n.exponent
  real? n.negative all.1
    ((n.whole.length - whole.2 : Nat) - (all.2 : Int) + (if n.exponentNegative then -e else e))

/-- The digits before the point: a zero alone, or digits that do not start with one. -/
def isWholePart (ds : List Char) : Bool :=
  match ds with
  | [] => false
  | ['0'] => true
  | d :: _ => d != '0'

/-- Reads a number without its sign. -/
def readUnsigned? (negative : Bool) (cs : List Char) : Option Number :=
  let whole := cs.takeWhile Text.isAsciiDigit
  if isWholePart whole then
    match cs.dropWhile Text.isAsciiDigit with
    | [] => ofWhole? negative whole
    | '.' :: rest =>
      let fraction := rest.takeWhile Text.isAsciiDigit
      if fraction = [] then none
      else (Numeral.readExponent? Text.isAsciiDigit (rest.dropWhile Text.isAsciiDigit)).bind
        fun e => ofParts? ⟨negative, whole, fraction, e.1, e.2⟩
    | rest =>
      (Numeral.readExponent? Text.isAsciiDigit rest).bind
        fun e => ofParts? ⟨negative, whole, [], e.1, e.2⟩
  else none

/-- Reads a text as a JSON number. -/
def read? (cs : List Char) : Option Number :=
  match cs with
  | '-' :: rest => readUnsigned? true rest
  | cs => readUnsigned? false cs

end SearchFilter.Json.Number
