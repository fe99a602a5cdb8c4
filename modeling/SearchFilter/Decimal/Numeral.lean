import SearchFilter.Decimal.Binary64
import SearchFilter.Text.Character

/-!
# Decimal numerals

A numeral is an optional minus sign, digits with an optional decimal point among, before or after
them, and an optional exponent. Which characters count as digits is a parameter. A numeral of ASCII
digits has an exact value; two such values are compared in double precision.
-/

namespace SearchFilter.Decimal

/-- The parts of a numeral as written. -/
structure Numeral where
  negative : Bool
  whole : List Char
  fraction : List Char
  exponentNegative : Bool
  exponent : List Char
  deriving DecidableEq, Repr

namespace Numeral

/-- Reads a non-empty run of digits that ends the text. -/
def readExponentDigits? (isDigit : Char → Bool) (cs : List Char) : Option (List Char) :=
  if cs ≠ [] ∧ cs.all isDigit then some cs else none

/-- Reads what may follow the digits: nothing, or an exponent with an optional sign. -/
def readExponent? (isDigit : Char → Bool) (cs : List Char) : Option (Bool × List Char) :=
  match cs with
  | [] => some (false, [])
  | c :: rest =>
    if c = 'e' ∨ c = 'E' then
      match rest with
      | '-' :: ds => (readExponentDigits? isDigit ds).map fun ds => (true, ds)
      | '+' :: ds => (readExponentDigits? isDigit ds).map fun ds => (false, ds)
      | ds => (readExponentDigits? isDigit ds).map fun ds => (false, ds)
    else none

/-- Reads the digits, the point and the exponent of a numeral without its sign. -/
def readUnsigned? (isDigit : Char → Bool) (negative : Bool) (cs : List Char) : Option Numeral :=
  let whole := cs.takeWhile isDigit
  match cs.dropWhile isDigit with
  | '.' :: rest =>
    let fraction := rest.takeWhile isDigit
    if whole = [] ∧ fraction = [] then none
    else (readExponent? isDigit (rest.dropWhile isDigit)).map fun e =>
      ⟨negative, whole, fraction, e.1, e.2⟩
  | rest =>
    if whole = [] then none
    else (readExponent? isDigit rest).map fun e => ⟨negative, whole, [], e.1, e.2⟩

/-- Reads a text as a numeral. -/
def read? (isDigit : Char → Bool) (cs : List Char) : Option Numeral :=
  match cs with
  | '-' :: rest => readUnsigned? isDigit true rest
  | cs => readUnsigned? isDigit false cs

/-- The value of a run of ASCII digits. -/
def digitsValue (ds : List Char) : Nat :=
  ds.foldl (fun n d => 10 * n + (d.toNat - '0'.toNat)) 0

/-- The digits before and after the point, read as one whole number. -/
def coefficient (n : Numeral) : Nat :=
  digitsValue (n.whole ++ n.fraction)

/-- The power of ten by which the coefficient is scaled. -/
def scale (n : Numeral) : Int :=
  let e : Int := digitsValue n.exponent
  (if n.exponentNegative then -e else e) - n.fraction.length

/-- The units of the double nearest to the magnitude of the numeral, `unitLimit` for one beyond the
range. Outside the bounds below the power of ten alone decides, so it is not computed. -/
def magnitude (n : Numeral) : Nat :=
  let c := n.coefficient
  let s := n.scale
  if c = 0 then 0
  else if 400 < s then unitLimit
  else if s + (n.whole ++ n.fraction).length < -400 then 0
  else
    min unitLimit <|
      match s with
      | .ofNat e => nearestUnits (c * Nat.pow 10 e) 1
      | .negSucc e => nearestUnits c (Nat.pow 10 (e + 1))

/-- Signed units: the order of these integers is the order of the doubles nearest to the numerals,
both zeros being equal. -/
def key (n : Numeral) : Int :=
  if n.negative then -(n.magnitude : Int) else n.magnitude

end Numeral

/-- The text is a numeral in the decimal digits of any scripts. -/
def isNumeral (s : String) : Bool :=
  (Numeral.read? Text.isDigit s.toList).isSome

/-- The double order key of a numeral in ASCII digits; none for any other text. -/
def orderKey? (s : String) : Option Int :=
  (Numeral.read? Text.isAsciiDigit s.toList).map Numeral.key

end SearchFilter.Decimal
