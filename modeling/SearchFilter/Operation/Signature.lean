import SearchFilter.Tree.Basic

/-!
# What an operation claims

A signature names the rules that an operation is for, by value type and operation name. An arity
says how many values such a rule must have.
-/

namespace SearchFilter

/-- A value type and an operation name. -/
structure Signature where
  type : ValueType
  operation : String
  deriving DecidableEq, Repr

namespace Signature

/-- The rule has the value type and names the operation. -/
def accepts (s : Signature) (r : Rule) : Bool :=
  s.type == r.type && s.operation == r.operation

/-- The form in listings. -/
def render (s : Signature) : String :=
  s.type.name ++ "/" ++ s.operation

end Signature

/-- How many values an operation takes. -/
inductive Arity where
  | exactly (count : Nat)
  | atLeast (count : Nat)
  deriving DecidableEq, Repr

namespace Arity

/-- A rule with `count` values has the arity. -/
def accepts (a : Arity) (count : Nat) : Bool :=
  match a with
  | .exactly n => count == n
  | .atLeast n => n ≤ count

/-- The form in messages. -/
def render : Arity → String
  | .exactly n => "exactly " ++ values n
  | .atLeast n => "at least " ++ values n
where
  /-- A number of values, in words. -/
  values (n : Nat) : String :=
    toString n ++ (if n = 1 then " value" else " values")

end Arity

end SearchFilter
