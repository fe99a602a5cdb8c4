import SearchFilter.Clause.Operand
import SearchFilter.Query.Writer

/-!
# Intervals

Clauses that compare a field with numbers or dates. A square bracket includes its bound, an angle
bracket excludes it, and `MIN` and `MAX` stand for open ends. The bounds of a numeric interval have
to be in order, as doubles; dates may mix words and days, so they are not compared.
-/

namespace SearchFilter.Clause

open Query (Token)

/-- The ways to compare a field with bounds. -/
inductive IntervalTest where
  | equals
  | greaterThan
  | greaterOrEqual
  | lessThan
  | lessOrEqual
  | between
  deriving DecidableEq, Repr

namespace IntervalTest

/-- All tests, in the order in which they are listed. -/
def all : List IntervalTest :=
  [.equals, .greaterThan, .greaterOrEqual, .lessThan, .lessOrEqual, .between]

/-- The name in rules. -/
def operation : IntervalTest → String
  | .equals => "equals"
  | .greaterThan => "greater_than"
  | .greaterOrEqual => "greater_or_equal"
  | .lessThan => "less_than"
  | .lessOrEqual => "less_or_equal"
  | .between => "between"

/-- The name in listings. -/
def name : IntervalTest → String
  | .equals => "range-equals"
  | .greaterThan => "range-greater-than"
  | .greaterOrEqual => "range-greater-or-equal"
  | .lessThan => "range-less-than"
  | .lessOrEqual => "range-less-or-equal"
  | .between => "range-between"

/-- An interval with two ends takes two bounds. -/
def arity : IntervalTest → Arity
  | .between => .exactly 2
  | _ => .exactly 1

end IntervalTest

/-- The doubles nearest to the two numerals are in descending order. A text that is no numeral in
ASCII digits is not compared. -/
def isInverted (lower upper : String) : Bool :=
  match Decimal.orderKey? lower, Decimal.orderKey? upper with
  | some l, some u => u < l
  | _, _ => false

/-- Refuses bounds of a numeric interval that are not in order. -/
def checkBounds (r : Rule) (lower upper : String) : Except QueryError Unit :=
  if r.type = .numeric ∧ isInverted lower upper then
    .error (.malformed r (.invertedBounds lower upper))
  else .ok ()

/-- The clause of a rule. -/
def IntervalTest.clause (t : IntervalTest) (res : Resolver) (r : Rule) :
    Except QueryError (List Token) := do
  let field ← fieldOf res r
  let value ← scalarOf r (← literalAt r 0)
  match t with
  | .equals => return [.text (field ++ ":" ++ value)]
  | .greaterThan => return [.text (field ++ ":<" ++ value ++ " TO MAX]")]
  | .greaterOrEqual => return [.text (field ++ ":[" ++ value ++ " TO MAX]")]
  | .lessThan => return [.text (field ++ ":[MIN TO " ++ value ++ ">")]
  | .lessOrEqual => return [.text (field ++ ":[MIN TO " ++ value ++ "]")]
  | .between =>
    let upper ← scalarOf r (← literalAt r 1)
    checkBounds r value upper
    return [.text (field ++ ":[" ++ value ++ " TO " ++ upper ++ "]")]

end SearchFilter.Clause
