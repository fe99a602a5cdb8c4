import SearchFilter.Clause.Date
import SearchFilter.Decimal.Numeral
import SearchFilter.Error
import SearchFilter.Field.Namespaces
import SearchFilter.Text.Literal

/-!
# Operands of clauses

What a clause is made of: the identifier of the rule's field, and its literals, checked and written
as the type of the rule's values asks.
-/

namespace SearchFilter.Clause

/-- The identifier of the rule's field. -/
def fieldOf (res : Resolver) (r : Rule) : Except QueryError String :=
  match res.identify? r.field with
  | none => .error (.malformed r (.unresolvedField r.field))
  | some identifier =>
    if Field.isIdentifier identifier then .ok identifier
    else .error (.malformed r (.invalidField identifier))

/-- The literal at a position. -/
def literalAt (r : Rule) (i : Nat) : Except QueryError String :=
  match r.literal? i with
  | some s => .ok s
  | none => .error (.malformed r (.notLiteral (i + 1)))

/-- The literals at all positions. -/
def allLiterals (r : Rule) : Except QueryError (List String) :=
  (List.range r.values.length).mapM (literalAt r)

/-- The texts are equal but for the case of ASCII letters. -/
def sameLetters (a b : String) : Bool :=
  a.toList.map Char.toLower == b.toList.map Char.toLower

/-- The truth value that a literal names. -/
def truthOf (r : Rule) (literal : String) : Except QueryError Bool :=
  if sameLetters literal "true" then .ok true
  else if sameLetters literal "false" then .ok false
  else .error (.malformed r (.notBoolean literal))

/-- The written form of a literal without the blanks at its ends: a number as it is, anything else
between quotes. Numbers and dates have to be of the right form. -/
def scalarOf (r : Rule) (literal : String) : Except QueryError String :=
  let s := Text.trim literal
  match r.type with
  | .numeric => if Decimal.isNumeral s then .ok s else .error (.malformed r (.notNumber s))
  | .date => if isDate s then .ok (Text.quote s) else .error (.malformed r (.notDate s))
  | _ => .ok (Text.quote s)

end SearchFilter.Clause
