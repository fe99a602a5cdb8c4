import SearchFilter.Operation.Registry
import SearchFilter.Tree.Ids

/-!
# Writing a tree as a query

A rule is written by the operation to which it belongs. A condition is written as its marker and a
group of its children with the junction between them. A child that writes nothing takes the
junction before it away again, so no junction is left without a member on both sides; an optional
rule to which no operation applies is such a child.

While an operation writes a rule it may ask for the query of any tree, be it embedded in the rule or
made by the operation. The tree is written on its own, apart from the text around the rule, and the
operations that write it may ask again. The levels of such questions are numbered, and on the last
one no question is answered: a rule whose operation asks there is malformed.
-/

namespace SearchFilter

/-- What trees are written with. -/
structure Compiler where
  registry : Registry
  dialect : Dialect

namespace Compiler

/-- Writes a rule. Its operation gets the queries that it asks for from `nested`. -/
def writeRule (c : Compiler) (nested : Rule → Node → Except QueryError String) (r : Rule) :
    Writer Unit :=
  match c.registry.find? r with
  | none => if r.optional then pure () else throw (.unknown r)
  | some o =>
    if o.arity.accepts r.values.length then o.write ⟨c.dialect, nested r⟩ r
    else throw (.malformed r (.wrongArity o.arity r.values.length))

mutual

/-- Writes a node. -/
def writeNode (c : Compiler) (nested : Rule → Node → Except QueryError String) :
    Node → Writer Unit
  | .rule r => c.writeRule nested r
  | .condition ⟨_, junction, boost, children⟩ => do
    let _ ← c.dialect.writeMark boost
    Writer.append c.dialect.groupOpen
    let text ← get
    c.writeChildren nested junction text.utf8ByteSize children
    Writer.append c.dialect.groupClose

/-- Writes the children of a group whose content starts at `start`. -/
def writeChildren (c : Compiler) (nested : Rule → Node → Except QueryError String)
    (junction : Junction) (start : Nat) : List Node → Writer Unit
  | [] => pure ()
  | n :: ns => do
    let before ← get
    if start < before.utf8ByteSize then
      Writer.append (" " ++ c.dialect.junctionToken junction ++ " ")
    let body ← get
    c.writeNode nested n
    let after ← get
    if after.utf8ByteSize = body.utf8ByteSize then set before
    c.writeChildren nested junction start ns

end

/-- The answer to the operation that writes a rule and asks for the query of a tree, with so many
levels left. -/
def nested (c : Compiler) : Nat → Rule → Node → Except QueryError String
  | 0, r, _ => .error (.malformed r .noLevelLeft)
  | levels + 1, _, n => (c.writeNode (c.nested levels) n).text

/-- The query of a tree, if its ids are unique and each of its rules can be written. There are
levels enough for the queries embedded in the tree, and `room` more for trees that operations
make. -/
def compile (c : Compiler) (n : Node) (room : Nat := 64) : Except QueryError String := do
  n.checkIds
  (c.writeNode (c.nested (n.height + room)) n).text

end Compiler

end SearchFilter
