import SearchFilter.Catalogue
import SearchFilter.Proofs.Query.StockRegistry

/-!
# Query expressions

The syntax trees of the query language. A search tree stands for an expression, or for none if it
writes nothing, and an expression has a list of tokens. Neither depends on the dialect.
-/

namespace SearchFilter

namespace Query

/-- A literal in a comparison: a number is written bare, anything else between quotes. -/
inductive Scalar where
  | number (text : String)
  | quoted (text : String)
  deriving DecidableEq, Repr

/-- The written form of a literal. -/
def Scalar.text : Scalar → String
  | .number s => s
  | .quoted s => Text.quote s

/-- An end of an interval. -/
inductive Bound where
  | unbounded
  | inclusive (value : Scalar)
  | exclusive (value : Scalar)
  deriving DecidableEq, Repr

/-- The written form of the lower end of an interval. -/
def Bound.lowerText : Bound → String
  | .unbounded => "[MIN"
  | .inclusive v => "[" ++ v.text
  | .exclusive v => "<" ++ v.text

/-- The written form of the upper end of an interval. -/
def Bound.upperText : Bound → String
  | .unbounded => "MAX]"
  | .inclusive v => v.text ++ "]"
  | .exclusive v => v.text ++ ">"

/-- What a comparison asks of its field. -/
inductive Test where
  | equals (value : Scalar)
  | truth (value : Bool)
  | contains (text : String)
  | startsWith (text : String)
  | anyOf (texts : List String)
  | interval (lower upper : Bound)
  deriving DecidableEq, Repr

/-- The tokens behind the field of a comparison. -/
def Test.tokens (field : String) : Test → List Token
  | .equals v => [.text (field ++ ":" ++ v.text)]
  | .truth b => [.text (field ++ ":" ++ if b then "true" else "false")]
  | .contains s => [.text (field ++ ":*" ++ Text.escapeTerm s ++ "*")]
  | .startsWith s => [.text (field ++ ":" ++ Text.escapeTerm s ++ "*")]
  | .anyOf ss =>
    .text (field ++ ":") :: .groupOpen
      :: (Token.joined .or (ss.map fun s => [.text (Text.quote s)]) ++ [.groupClose])
  | .interval lower upper =>
    [.text (field ++ ":" ++ lower.lowerText ++ " TO " ++ upper.upperText)]

/-- A clause that holds no other clause. -/
inductive Leaf where
  | test (field : String) (test : Test)
  /-- The field does not have the value. -/
  | excluded (field text : String)
  /-- The field is set, or it is not set. -/
  | presence (present : Bool) (field : String)
  deriving DecidableEq, Repr

/-- The word that asks whether a field is set. -/
def presenceWord (present : Bool) : String :=
  if present then "ISNOTNULL" else "ISNULL"

/-- The tokens of a leaf. -/
def Leaf.tokens : Leaf → List Token
  | .test field t => t.tokens field
  | .excluded field s => [.mark .exclude, .text (field ++ ":" ++ Text.quote s)]
  | .presence present field => [.text (presenceWord present ++ ":" ++ Text.quote field)]

/-- A query expression. -/
inductive Expr where
  | leaf (leaf : Leaf)
  /-- The field leads to what matches the query. -/
  | traversal (field : String) (query : Expr)
  | group (boost : Boost) (junction : Junction) (members : List Expr)

namespace Expr

mutual

/-- The tokens of an expression. -/
def tokens (form : Clause.Traversal) : Expr → List Token
  | .leaf l => l.tokens
  | .traversal field query =>
    .text (String.ofList (Clause.replace Clause.fieldSlot field.toList form.before))
      :: (query.tokens form
        ++ [.text (String.ofList (Clause.replace Clause.fieldSlot field.toList form.after))])
  | .group b j members =>
    .mark b :: .groupOpen :: (Token.joined j (tokensOfAll form members) ++ [.groupClose])

/-- The tokens of each of the expressions. -/
def tokensOfAll (form : Clause.Traversal) : List Expr → List (List Token)
  | [] => []
  | e :: es => e.tokens form :: tokensOfAll form es

end

end Expr

end Query

namespace Clause

open Query

/-- The literal of a comparison, checked as the type of the rule's values asks. -/
def operandOf (r : Rule) (literal : String) : Except QueryError Scalar :=
  let s := Text.trim literal
  match r.type with
  | .numeric =>
    if Decimal.isNumeral s then .ok (.number s) else .error (.malformed r (.notNumber s))
  | .date => if isDate s then .ok (.quoted s) else .error (.malformed r (.notDate s))
  | _ => .ok (.quoted s)

/-- The comparison of a field with texts that a rule asks for. -/
def TextTest.leaf (t : TextTest) (res : Resolver) (r : Rule) : Except QueryError Leaf := do
  let field ← fieldOf res r
  match t with
  | .equals => return .test field (.equals (.quoted (← literalAt r 0)))
  | .notEquals => return .excluded field (← literalAt r 0)
  | .contains => return .test field (.contains (← literalAt r 0))
  | .startsWith => return .test field (.startsWith (← literalAt r 0))
  | .anyOf => return .test field (.anyOf (← allLiterals r))

/-- The comparison of a field with bounds that a rule asks for. -/
def IntervalTest.leaf (t : IntervalTest) (res : Resolver) (r : Rule) :
    Except QueryError Leaf := do
  let field ← fieldOf res r
  let value ← operandOf r (← literalAt r 0)
  match t with
  | .equals => return .test field (.equals value)
  | .greaterThan => return .test field (.interval (.exclusive value) .unbounded)
  | .greaterOrEqual => return .test field (.interval (.inclusive value) .unbounded)
  | .lessThan => return .test field (.interval .unbounded (.exclusive value))
  | .lessOrEqual => return .test field (.interval .unbounded (.inclusive value))
  | .between =>
    let upper ← operandOf r (← literalAt r 1)
    checkBounds r value.text upper.text
    return .test field (.interval (.inclusive value) (.inclusive upper))

end Clause

namespace StockOperation

open Query Clause

/-- The expression of a rule, given the expressions of its embedded queries. -/
def expr (o : StockOperation) (res : Resolver)
    (embedded : Nat → Option (Except QueryError (Option Expr))) (r : Rule) :
    Except QueryError Expr := do
  match o with
  | .text t _ => return .leaf (← t.leaf res r)
  | .interval t _ => return .leaf (← t.leaf res r)
  | .truth inverted =>
    let field ← fieldOf res r
    let b ← truthOf r (← literalAt r 0)
    return .leaf (.test field (.truth (b != inverted)))
  | .presence present _ => return .leaf (.presence present (← fieldOf res r))
  | .traversal inverted =>
    let field ← fieldOf res r
    match embedded 0 with
    | none => .error (.malformed r .noEmbeddedQuery)
    | some result =>
      match ← result with
      | none => .error (.malformed r .emptyEmbeddedQuery)
      | some query =>
        let traversal := Expr.traversal field query
        return if inverted then .group .exclude .and [traversal] else traversal

end StockOperation

namespace Node

open Query

/-- The expression of a rule whose embedded queries have the given expressions. -/
def ruleExpr (res : Resolver) (embedded : List (Option (Except QueryError (Option Expr))))
    (r : Rule) : Except QueryError (Option Expr) :=
  match StockOperation.find? r with
  | none => if r.optional then .ok none else .error (.unknown r)
  | some o =>
    if o.arity.accepts r.values.length then
      (o.expr res (fun i => embedded[i]?.join) r).map some
    else .error (.malformed r (.wrongArity o.arity r.values.length))

mutual

/-- The expression that a tree stands for; none if it writes nothing. -/
def expr (res : Resolver) : Node → Except QueryError (Option Expr)
  | .rule ⟨id, field, type, operation, values, optional⟩ =>
    ruleExpr res (queryExprs res values) ⟨id, field, type, operation, values, optional⟩
  | .condition ⟨_, junction, boost, children⟩ => do
    let members ← memberExprs res children
    return some (.group boost junction members)

/-- The expressions of the nodes that write something. -/
def memberExprs (res : Resolver) : List Node → Except QueryError (List Expr)
  | [] => .ok []
  | n :: ns => do
    let e ← n.expr res
    return e.toList ++ (← memberExprs res ns)

/-- The expressions of the embedded queries among the values. -/
def queryExprs (res : Resolver) : List Value → List (Option (Except QueryError (Option Expr)))
  | [] => []
  | .literal _ :: vs => none :: queryExprs res vs
  | .query n :: vs => some (n.expr res) :: queryExprs res vs

end

end Node

end SearchFilter
