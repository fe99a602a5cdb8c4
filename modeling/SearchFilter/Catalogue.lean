import SearchFilter.Clause.Comparison
import SearchFilter.Clause.Interval
import SearchFilter.Clause.Traversal
import SearchFilter.Operation.Registry

/-!
# The stock operations

The operations of a full-text query language with clauses of the form `field:value`. Each of them
computes its clause without looking at the dialect, which only spells the tokens of the clause.
-/

namespace SearchFilter

open Clause Query

/-- A stock operation. Texts, intervals and presence are tested for values of a given type. -/
inductive StockOperation where
  | text (test : TextTest) (type : ValueType)
  | interval (test : IntervalTest) (type : ValueType)
  | truth (inverted : Bool)
  | presence (present : Bool) (type : ValueType)
  | traversal (inverted : Bool)
  deriving DecidableEq, Repr

namespace StockOperation

/-- The name in listings. -/
def name : StockOperation → String
  | .text t _ => t.name
  | .interval t _ => t.name
  | .truth false => "boolean-equals"
  | .truth true => "boolean-is-not"
  | .presence true _ => "is-set"
  | .presence false _ => "is-not-set"
  | .traversal false => "relation-set-to-query"
  | .traversal true => "relation-not-set-to-query"

/-- The rules that the operation is for. -/
def signature : StockOperation → Signature
  | .text t type => ⟨type, t.operation⟩
  | .interval t type => ⟨type, t.operation⟩
  | .truth false => ⟨.boolean, "equals"⟩
  | .truth true => ⟨.boolean, "is_not"⟩
  | .presence true type => ⟨type, "is_set"⟩
  | .presence false type => ⟨type, "is_not_set"⟩
  | .traversal false => ⟨.uri, "set_to_query"⟩
  | .traversal true => ⟨.uri, "not_set_to_query"⟩

/-- How many values the operation takes. -/
def arity : StockOperation → Arity
  | .text t _ => t.arity
  | .interval t _ => t.arity
  | .truth _ => .exactly 1
  | .presence _ _ => .exactly 0
  | .traversal _ => .exactly 1

/-- The clause of a rule, given the text of the query that is its first value, if that is one. -/
def clause (o : StockOperation) (res : Resolver) (form : Traversal)
    (embedded : Option (Except QueryError String)) (r : Rule) :
    Except QueryError (List Token) :=
  match o with
  | .text t _ => t.clause res r
  | .interval t _ => t.clause res r
  | .truth inverted => truthClause inverted res r
  | .presence present _ => presenceClause present res r
  | .traversal inverted => form.clause inverted res embedded r

/-- The operation for fields identified by the resolver and traversals of the given form. -/
def toOperation (o : StockOperation) (res : Resolver) (form : Traversal) : Operation where
  name := o.name
  signature := o.signature
  arity := o.arity
  write cx r := do
    let ts ← Writer.lift (o.clause res form (cx.embedded r 0) r)
    Token.writeAll cx.dialect ts

/-- All stock operations, in the order of registration. -/
def catalogue : List StockOperation :=
  [TextTest.equals, .notEquals, .contains, .startsWith, .anyOf].map (.text · .string)
  ++ [TextTest.equals, .notEquals].map (.text · .uri)
  ++ IntervalTest.all.map (.interval · .numeric)
  ++ IntervalTest.all.map (.interval · .date)
  ++ [.truth false, .truth true]
  ++ ValueType.all.flatMap (fun type => [.presence true type, .presence false type])
  ++ [.traversal false, .traversal true]

/-- The registrations of all stock operations, at the default priority. -/
def registrations (res : Resolver) (form : Traversal) : List Registration :=
  catalogue.map fun o => ⟨Registration.defaultPriority, o.toOperation res form⟩

end StockOperation

end SearchFilter
