import SearchFilter.Operation.Signature
import SearchFilter.Tree.Fault

/-!
# Errors

Every cause for which a document is refused or a query is not written has a constructor, and
`message` is its wording.
-/

namespace SearchFilter

/-- Why a rule cannot be written although an operation applies to it. -/
inductive RuleFault where
  | wrongArity (expected : Arity) (count : Nat)
  | unresolvedField (field : String)
  | invalidField (identifier : String)
  /-- The value at a position, counted from one, is missing or not a literal. -/
  | notLiteral (position : Nat)
  | notBoolean (literal : String)
  | notNumber (literal : String)
  | notDate (literal : String)
  | invertedBounds (lower upper : String)
  | noEmbeddedQuery
  | emptyEmbeddedQuery
  /-- No level is left for the query that the operation of the rule asks for. -/
  | noLevelLeft
  /-- A cause that an operation of its own states. -/
  | other (reason : String)
  deriving DecidableEq, Repr

/-- The wording of a rule's fault. -/
def RuleFault.message : RuleFault → String
  | .wrongArity expected count => "expected " ++ expected.render ++ ", got " ++ toString count
  | .unresolvedField field => "cannot resolve field '" ++ field ++ "'"
  | .invalidField identifier => "'" ++ identifier ++ "' is not a valid field identifier"
  | .notLiteral position => "value " ++ toString position ++ " must be a literal"
  | .notBoolean literal => "'" ++ literal ++ "' is not a boolean literal"
  | .notNumber literal => "'" ++ literal ++ "' is not a number"
  | .notDate literal => "'" ++ literal ++ "' is not an ISO-8601 date"
  | .invertedBounds lower upper =>
    "lower bound " ++ lower ++ " is greater than upper bound " ++ upper
  | .noEmbeddedQuery => "expected an embedded query"
  | .emptyEmbeddedQuery => "embedded query compiled to nothing"
  | .noLevelLeft => "queries are nested too deeply"
  | .other reason => reason

/-- Why a JSON document is refused before its nodes are looked at. -/
inductive TreeFault where
  /-- The document is not well-formed JSON. -/
  | notJson
  | shape (fault : Tree.Fault)
  deriving DecidableEq, Repr

/-- Why a query is not written. -/
inductive QueryError where
  | unknownOperator (field operation : String) (type : ValueType)
  | ambiguousOperator (signature : Signature) (priority : Int) (first second : String)
  | malformedRule (field operation : String) (fault : RuleFault)
  | unsupportedNodeType (id type : String)
  | duplicateId (id : String)
  | invalidTree (fault : TreeFault)
  deriving DecidableEq, Repr

namespace QueryError

/-- The error for a rule to which no operation applies. -/
def unknown (r : Rule) : QueryError :=
  .unknownOperator r.field r.operation r.type

/-- The error for a rule that cannot be written. -/
def malformed (r : Rule) (fault : RuleFault) : QueryError :=
  .malformedRule r.field r.operation fault

/-- The wording of an error. -/
def message : QueryError → String
  | .unknownOperator field operation type =>
    "no operation '" ++ operation ++ "' registered for " ++ type.name ++ " values (field '"
      ++ field ++ "')"
  | .ambiguousOperator signature priority first second =>
    "operations '" ++ first ++ "' and '" ++ second ++ "' both claim '" ++ signature.operation
      ++ "' on " ++ signature.type.name ++ " values at priority " ++ toString priority
  | .malformedRule field operation fault =>
    "malformed rule for field '" ++ field ++ "' (" ++ operation ++ "): " ++ fault.message
  | .unsupportedNodeType id type => "unsupported node type '" ++ type ++ "' (node '" ++ id ++ "')"
  | .duplicateId id => "duplicate node id '" ++ id ++ "'"
  | .invalidTree .notJson => "invalid criteria tree: not well-formed JSON"
  | .invalidTree (.shape fault) => "invalid criteria tree: " ++ fault.message

end QueryError

end SearchFilter
