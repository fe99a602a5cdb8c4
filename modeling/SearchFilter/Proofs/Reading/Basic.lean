import SearchFilter.Proofs.Query.Spelling

/-!
# Readings

What the text of a query in the standard dialect tells about the tree behind it: the groups with
their marks, the order of the clauses, the junction where a group has two members, and every leaf
with its field and its literals. The reading of a tree takes this off the expression of the tree.
-/

namespace SearchFilter

namespace Query

/-- How a group takes part in the group around it, as far as the standard dialect writes it. -/
inductive GroupMark where
  | plain
  | must
  | excluded
  deriving DecidableEq, Repr

namespace GroupMark

/-- The mark of a boost. -/
def ofBoost : Boost → GroupMark
  | .none => .plain
  | .should => .plain
  | .must => .must
  | .exclude => .excluded

/-- The written form of a mark. -/
def chars : GroupMark → List Char
  | .plain => []
  | .must => ['+']
  | .excluded => ['-']

end GroupMark

/-- What a query says. -/
inductive Reading where
  | leaf (leaf : Leaf)
  | traversal (field : String) (query : Reading)
  /-- A group with less than two members shows no junction. -/
  | group (mark : GroupMark) (junction : Option Junction) (members : List Reading)

/-- The junction that the text of a group with so many members shows. -/
def visibleJunction (j : Junction) (count : Nat) : Option Junction :=
  if count < 2 then none else some j

@[simp] theorem visibleJunction_add_two (j : Junction) (n : Nat) :
    visibleJunction j (n + 2) = some j := by
  rw [visibleJunction, if_neg (by omega)]

namespace Expr

mutual

/-- The reading of an expression. -/
def reading : Expr → Reading
  | .leaf l => .leaf l
  | .traversal field query => .traversal field query.reading
  | .group b j members =>
    .group (.ofBoost b) (visibleJunction j members.length) (readings members)

/-- The reading of each of the expressions. -/
def readings : List Expr → List Reading
  | [] => []
  | e :: es => e.reading :: readings es

end

theorem readings_eq_map (es : List Expr) : readings es = es.map reading := by
  induction es with
  | nil => rfl
  | cons e es ih => rw [readings, ih, List.map_cons]

end Expr

/-- The field of a leaf. -/
def Leaf.field : Leaf → String
  | .test field _ => field
  | .excluded field _ => field
  | .presence _ field => field

namespace Reading

mutual

/-- The fields of the leaves and traversals of a reading. -/
def fields : Reading → List String
  | .leaf l => [l.field]
  | .traversal field query => field :: query.fields
  | .group _ _ members => fieldsOfAll members

/-- The fields of the leaves and traversals of the readings. -/
def fieldsOfAll : List Reading → List String
  | [] => []
  | r :: rs => r.fields ++ fieldsOfAll rs

end

theorem fields_subset {r : Reading} {rs : List Reading} (h : r ∈ rs) :
    r.fields ⊆ fieldsOfAll rs := by
  induction rs with
  | nil => cases h
  | cons s rs ih =>
    rw [fieldsOfAll]
    cases h with
    | head => exact List.subset_append_left _ _
    | tail _ h => exact List.subset_append_of_subset_right _ (ih h)

/-- No field of the reading is a word that asks whether a field is set. -/
def AvoidsPresenceWords (r : Reading) : Prop :=
  ∀ f ∈ r.fields, ∀ present, f ≠ presenceWord present

end Reading

/-- The literal is written as its kind asks. -/
def Scalar.WellFormed : Scalar → Prop
  | .number s => Decimal.isNumeral s = true
  | .quoted _ => True

/-- The literal of a bound is written as its kind asks. -/
def Bound.WellFormed : Bound → Prop
  | .unbounded => True
  | .inclusive v => v.WellFormed
  | .exclusive v => v.WellFormed

/-- The literals of a test are written as their kinds ask. -/
def Test.WellFormed : Test → Prop
  | .equals v => v.WellFormed
  | .interval lower upper => lower.WellFormed ∧ upper.WellFormed
  | _ => True

/-- The field of a leaf is an identifier, and its literals are written as their kinds ask. -/
def Leaf.WellFormed : Leaf → Prop
  | .test field t => Field.isIdentifier field = true ∧ t.WellFormed
  | .excluded field _ => Field.isIdentifier field = true
  | .presence _ field => Field.isIdentifier field = true

/-- Every field is an identifier, every number is a numeral, and a group shows a junction exactly
if it has two members. -/
inductive Reading.WellFormed : Reading → Prop
  | leaf {l : Leaf} (hleaf : l.WellFormed) : WellFormed (.leaf l)
  | traversal {field : String} {query : Reading} (hfield : Field.isIdentifier field = true)
    (hquery : WellFormed query) : WellFormed (.traversal field query)
  | group {members : List Reading} (mark : GroupMark) (j : Junction)
    (hmembers : ∀ r ∈ members, WellFormed r) :
    WellFormed (.group mark (visibleJunction j members.length) members)

end Query

/-- The reading of what a tree stands for; none if it writes nothing. -/
def Node.reading (res : Resolver) (n : Node) : Except QueryError (Option Query.Reading) :=
  (n.expr res).map (Option.map Query.Expr.reading)

end SearchFilter
