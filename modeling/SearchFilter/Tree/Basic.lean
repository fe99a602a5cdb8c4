/-!
# Search trees

A search filter is a tree. A rule compares one field with literal values or with the results of an
embedded tree; a condition joins the nodes below it by AND or OR and says how the group takes part
in its own parent.
-/

namespace SearchFilter

/-- What the values of a rule mean. -/
inductive ValueType where
  | string
  | numeric
  | boolean
  | date
  | uri
  deriving DecidableEq, Repr

namespace ValueType

/-- All value types, in the order in which they are listed. -/
def all : List ValueType := [.string, .numeric, .boolean, .date, .uri]

/-- The name in documents and messages. -/
def name : ValueType → String
  | .string => "string"
  | .numeric => "numeric"
  | .boolean => "boolean"
  | .date => "date"
  | .uri => "uri"

/-- The value type with the name. -/
def ofName? (s : String) : Option ValueType :=
  all.find? fun t => t.name == s

end ValueType

/-- The connective between the children of a condition. -/
inductive Junction where
  | and
  | or
  deriving DecidableEq, Repr

namespace Junction

/-- Both junctions. -/
def all : List Junction := [.and, .or]

/-- The name in documents. -/
def name : Junction → String
  | .and => "AND"
  | .or => "OR"

/-- The junction with the name. -/
def ofName? (s : String) : Option Junction :=
  all.find? fun j => j.name == s

end Junction

/-- How a clause takes part in the group around it. -/
inductive Boost where
  | none
  | must
  | should
  | exclude
  deriving DecidableEq, Repr

namespace Boost

/-- All boosts. -/
def all : List Boost := [.none, .must, .should, .exclude]

/-- The name in documents and settings. -/
def name : Boost → String
  | .none => "NONE"
  | .must => "MUST"
  | .should => "SHOULD"
  | .exclude => "EXCLUDE"

/-- The boost with the name. -/
def ofName? (s : String) : Option Boost :=
  all.find? fun b => b.name == s

end Boost

/-- The two kinds of nodes. -/
inductive NodeKind where
  | rule
  | condition
  deriving DecidableEq, Repr

namespace NodeKind

/-- Both kinds. -/
def all : List NodeKind := [.rule, .condition]

/-- The tag in documents. -/
def name : NodeKind → String
  | .rule => "RULE"
  | .condition => "CONDITION"

/-- The kind with the tag. -/
def ofName? (s : String) : Option NodeKind :=
  all.find? fun k => k.name == s

end NodeKind

mutual

/-- A node of a search tree. -/
inductive Node where
  | rule (r : Rule)
  | condition (c : Condition)

/-- A comparison of one field. An optional rule is left out of the query if no operation applies to
it; any other rule has to be written. -/
structure Rule where
  id : String
  field : String
  type : ValueType
  operation : String
  values : List Value
  optional : Bool

/-- A group of nodes. -/
structure Condition where
  id : String
  junction : Junction
  boost : Boost
  children : List Node

/-- An operand of a rule. -/
inductive Value where
  | literal (text : String)
  | query (tree : Node)

end

namespace Value

/-- The text of a literal. -/
def literal? : Value → Option String
  | .literal s => some s
  | .query _ => none

/-- The tree of an embedded query. -/
def query? : Value → Option Node
  | .literal _ => none
  | .query n => some n

end Value

namespace Rule

/-- A rule without values. -/
def new (id field : String) (type : ValueType) (operation : String) : Rule :=
  ⟨id, field, type, operation, [], false⟩

/-- The rule with one more value. -/
def addValue (r : Rule) (v : Value) : Rule :=
  { r with values := r.values ++ [v] }

/-- The rule marked as optional. -/
def setOptional (r : Rule) : Rule :=
  { r with optional := true }

/-- The literal at a position, if there is a value and it is a literal. -/
def literal? (r : Rule) (i : Nat) : Option String :=
  r.values[i]?.bind Value.literal?

/-- The tree at a position, if there is a value and it is an embedded query. -/
def query? (r : Rule) (i : Nat) : Option Node :=
  r.values[i]?.bind Value.query?

/-- The literals among the values. -/
def literals (r : Rule) : List String :=
  r.values.filterMap Value.literal?

end Rule

namespace Condition

/-- A condition without children and without a boost. -/
def new (id : String) (junction : Junction) : Condition :=
  ⟨id, junction, .none, []⟩

/-- The condition with the boost. -/
def setBoost (c : Condition) (b : Boost) : Condition :=
  { c with boost := b }

/-- The condition with one more child. -/
def addChild (c : Condition) (n : Node) : Condition :=
  { c with children := c.children ++ [n] }

end Condition

namespace Node

/-- The id of the node. -/
def id : Node → String
  | .rule r => r.id
  | .condition c => c.id

/-- The kind of the node. -/
def kind : Node → NodeKind
  | .rule _ => .rule
  | .condition _ => .condition

mutual

/-- The number of conditions in the tree, embedded queries not counted. -/
def conditionCount : Node → Nat
  | .rule _ => 0
  | .condition ⟨_, _, _, children⟩ => 1 + conditionCounts children

/-- The number of conditions in the trees. -/
def conditionCounts : List Node → Nat
  | [] => 0
  | n :: ns => n.conditionCount + conditionCounts ns

end

mutual

/-- The number of nodes in the longest chain of nodes, each a part of the one before. -/
def height : Node → Nat
  | .rule ⟨_, _, _, _, values, _⟩ => heightOfQueries values + 1
  | .condition ⟨_, _, _, children⟩ => heightOfAll children + 1

/-- The height of the highest of the nodes. -/
def heightOfAll : List Node → Nat
  | [] => 0
  | n :: ns => max n.height (heightOfAll ns)

/-- The height of the highest embedded query. -/
def heightOfQueries : List Value → Nat
  | [] => 0
  | .literal _ :: vs => heightOfQueries vs
  | .query n :: vs => max n.height (heightOfQueries vs)

end

theorem height_pos (n : Node) : 0 < n.height := by
  match n with
  | .rule ⟨_, _, _, _, values, _⟩ => exact Nat.succ_pos (heightOfQueries values)
  | .condition ⟨_, _, _, children⟩ => exact Nat.succ_pos (heightOfAll children)

theorem heightOfAll_le_iff {ns : List Node} {k : Nat} :
    heightOfAll ns ≤ k ↔ ∀ n ∈ ns, n.height ≤ k := by
  induction ns with
  | nil => simp [heightOfAll]
  | cons n ns ih => rw [heightOfAll, Nat.max_le, ih, List.forall_mem_cons]

end Node

end SearchFilter
