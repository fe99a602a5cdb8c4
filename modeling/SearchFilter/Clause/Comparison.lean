import SearchFilter.Clause.Operand
import SearchFilter.Query.Writer
import SearchFilter.Text.Literal

/-!
# Comparisons with literals

Clauses that compare a field with texts or with a truth value, or ask whether it is set at all.
-/

namespace SearchFilter.Clause

open Query (Token)

/-- The ways to compare a field with texts. -/
inductive TextTest where
  | equals
  | notEquals
  | contains
  | startsWith
  | anyOf
  deriving DecidableEq, Repr

namespace TextTest

/-- The name in rules. -/
def operation : TextTest → String
  | .equals => "equals"
  | .notEquals => "not_equals"
  | .contains => "contains"
  | .startsWith => "starts_with"
  | .anyOf => "in"

/-- The name in listings. -/
def name : TextTest → String
  | .equals => "text-equals"
  | .notEquals => "text-not-equals"
  | .contains => "text-contains"
  | .startsWith => "text-starts-with"
  | .anyOf => "text-any-of"

/-- All but the list of alternatives take one text. -/
def arity : TextTest → Arity
  | .anyOf => .atLeast 1
  | _ => .exactly 1

/-- The clause of a rule. Texts that stand next to a wildcard are escaped, all others quoted. -/
def clause (t : TextTest) (res : Resolver) (r : Rule) : Except QueryError (List Token) := do
  let field ← fieldOf res r
  match t with
  | .equals =>
    let s ← literalAt r 0
    return [.text (field ++ ":" ++ Text.quote s)]
  | .notEquals =>
    let s ← literalAt r 0
    return [.mark .exclude, .text (field ++ ":" ++ Text.quote s)]
  | .contains =>
    let s ← literalAt r 0
    return [.text (field ++ ":*" ++ Text.escapeTerm s ++ "*")]
  | .startsWith =>
    let s ← literalAt r 0
    return [.text (field ++ ":" ++ Text.escapeTerm s ++ "*")]
  | .anyOf =>
    let ss ← allLiterals r
    return .text (field ++ ":") :: .groupOpen
      :: (Token.joined .or (ss.map fun s => [.text (Text.quote s)]) ++ [.groupClose])

end TextTest

/-- The clause that compares a field with a truth value, or with its opposite. -/
def truthClause (inverted : Bool) (res : Resolver) (r : Rule) :
    Except QueryError (List Token) := do
  let field ← fieldOf res r
  let b ← truthOf r (← literalAt r 0)
  return [.text (field ++ ":" ++ if b != inverted then "true" else "false")]

/-- The clause that asks whether a field is set. -/
def presenceClause (present : Bool) (res : Resolver) (r : Rule) :
    Except QueryError (List Token) := do
  let field ← fieldOf res r
  return [.text ((if present then "ISNOTNULL:" else "ISNULL:") ++ Text.quote field)]

end SearchFilter.Clause
