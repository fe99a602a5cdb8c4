import SearchFilter.Error

/-!
# Unique ids

Within a tree every id occurs once. An embedded query is a tree of its own with ids of its own. The
check walks the tree from left to right, a rule's embedded queries directly after the rule, and
reports the first id that occurred before in the same tree.
-/

namespace SearchFilter.Node

mutual

/-- Checks a node of a tree in which the ids `seen` occurred before, and adds its ids. -/
def collectIds (seen : List String) : Node → Except QueryError (List String)
  | .rule ⟨id, _, _, _, values, _⟩ =>
    if seen.contains id then .error (.duplicateId id)
    else do
      checkEmbedded values
      return id :: seen
  | .condition ⟨id, _, _, children⟩ =>
    if seen.contains id then .error (.duplicateId id)
    else collectAllIds (id :: seen) children

/-- Checks nodes of one tree, one after the other. -/
def collectAllIds (seen : List String) : List Node → Except QueryError (List String)
  | [] => .ok seen
  | n :: ns => do
    let seen ← collectIds seen n
    collectAllIds seen ns

/-- Checks each embedded query as a tree of its own. -/
def checkEmbedded : List Value → Except QueryError Unit
  | [] => .ok ()
  | .literal _ :: vs => checkEmbedded vs
  | .query n :: vs => do
    let _ ← collectIds [] n
    checkEmbedded vs

end

/-- Within the tree, and within each embedded query, no id occurs twice. -/
def checkIds (n : Node) : Except QueryError Unit := do
  let _ ← collectIds [] n
  return ()

end SearchFilter.Node
