import SearchFilter.Operation.Registry

/-!
# Scripted operations

A script is a list of actions that write a rule one after the other. A scripted operation is an
operation given as data; with a test of its own it may apply to rules beyond its signature.
-/

namespace SearchFilter

/-- One action of a script. -/
inductive Action where
  | text (s : String)
  /-- Writes the field as the rule names it. -/
  | field
  /-- Writes the literal at a position, or nothing if there is none. -/
  | literal (position : Nat)
  /-- Writes the word of a junction. -/
  | junction (j : Junction)
  | mark (b : Boost)
  /-- Writes the embedded query at a position. -/
  | embedded (position : Nat)
  /-- Writes the result of other actions as an excluded group. -/
  | negated (actions : List Action)
  | fail (reason : String)
  /-- Fails as if no operation applied to the rule. -/
  | unknown

namespace Action

mutual

/-- Plays an action. -/
def play (cx : Context) (r : Rule) : Action → Writer Unit
  | .text s => Writer.append s
  | .field => Writer.append r.field
  | .literal i => Writer.append ((r.literal? i).getD "")
  | .junction j => Writer.append (cx.dialect.junctionToken j)
  | .mark b => do
    let _ ← cx.dialect.writeMark b
  | .embedded i =>
    match cx.embedded r i with
    | some query => do Writer.append (← Writer.lift query)
    | none => throw (.malformed r .noEmbeddedQuery)
  | .negated actions => cx.dialect.writeNegated (playAll cx r actions)
  | .fail reason => throw (.malformed r (.other reason))
  | .unknown => throw (.unknown r)

/-- Plays actions one after the other. -/
def playAll (cx : Context) (r : Rule) : List Action → Writer Unit
  | [] => pure ()
  | a :: rest => do
    a.play cx r
    playAll cx r rest

end

end Action

/-- Which rules a scripted operation applies to. -/
inductive Scope where
  | signature
  | all
  | none
  /-- The rules of the same value type. -/
  | type
  /-- The rules that name the same operation. -/
  | operation
  deriving DecidableEq, Repr

/-- The rule lies in the scope of the signature. -/
def Scope.covers (scope : Scope) (s : Signature) (r : Rule) : Bool :=
  match scope with
  | .signature => s.accepts r
  | .all => true
  | .none => false
  | .type => s.type == r.type
  | .operation => s.operation == r.operation

/-- The operation that plays a script. -/
def Operation.ofScript (name : String) (signature : Signature) (arity : Arity) (scope : Scope)
    (script : List Action) : Operation where
  name := name
  signature := signature
  arity := arity
  applies := scope.covers signature
  write cx r := Action.playAll cx r script

end SearchFilter
