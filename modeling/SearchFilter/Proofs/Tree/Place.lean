import SearchFilter.Proofs.Tree.Scope

/-!
# Places in a tree

A place is a tree with one node left out. It is kept as the way down to that node, and filled with
a node it is a tree again.
-/

namespace SearchFilter

/-- One level of the way down to a node: a condition or a rule, and what it holds before and after
the node. -/
inductive Step where
  | child (id : String) (junction : Junction) (boost : Boost) (before after : List Node)
  | query (id field : String) (type : ValueType) (operation : String) (optional : Bool)
    (before after : List Value)

/-- The way down to a node, from the root on. -/
abbrev Place := List Step

/-- The level with the node in it. -/
def Step.fill : Step → Node → Node
  | .child id junction boost before after, n =>
    .condition ⟨id, junction, boost, before ++ n :: after⟩
  | .query id field type operation optional before after, n =>
    .rule ⟨id, field, type, operation, before ++ .query n :: after, optional⟩

/-- The tree with the node in the place. -/
def Place.fill (p : Place) (n : Node) : Node :=
  p.foldr Step.fill n

@[simp] theorem Place.fill_nil (n : Node) : Place.fill [] n = n := rfl

@[simp] theorem Place.fill_cons (s : Step) (p : Place) (n : Node) :
    Place.fill (s :: p) n = s.fill (Place.fill p n) := rfl

namespace Node

/-! ## Ids -/

theorem collectAllIds_congr {n n' : Node} (h : ∀ seen, collectIds seen n = collectIds seen n')
    (before after : List Node) (seen : List String) :
    collectAllIds seen (before ++ n :: after) = collectAllIds seen (before ++ n' :: after) := by
  induction before generalizing seen with
  | nil =>
    rw [List.nil_append, List.nil_append, collectAllIds, collectAllIds, h seen]
  | cons m before ih =>
    rw [List.cons_append, List.cons_append, collectAllIds, collectAllIds]
    simp only [ih]

theorem checkEmbedded_congr {n n' : Node} (h : n.checkIds = n'.checkIds)
    (before after : List Value) :
    checkEmbedded (before ++ .query n :: after) = checkEmbedded (before ++ .query n' :: after) := by
  induction before with
  | nil => rw [List.nil_append, List.nil_append, checkEmbedded_query, checkEmbedded_query, h]
  | cons v before ih =>
    rw [List.cons_append, List.cons_append]
    cases v with
    | literal s => rw [checkEmbedded, checkEmbedded, ih]
    | query m => rw [checkEmbedded, checkEmbedded, ih]

theorem collectIds_step_congr {n n' : Node} (h : ∀ seen, collectIds seen n = collectIds seen n')
    (s : Step) (seen : List String) : collectIds seen (s.fill n) = collectIds seen (s.fill n') := by
  cases s with
  | child id junction boost before after =>
    rw [Step.fill, Step.fill, collectIds, collectIds, collectAllIds_congr h]
  | query id field type operation optional before after =>
    have hids : n.checkIds = n'.checkIds := by rw [checkIds, checkIds, h []]
    rw [Step.fill, Step.fill, collectIds, collectIds, checkEmbedded_congr hids]

/-- Nodes with the same ids make trees with the same ids. -/
theorem collectIds_fill_congr {n n' : Node} (h : ∀ seen, collectIds seen n = collectIds seen n')
    (p : Place) (seen : List String) :
    collectIds seen (p.fill n) = collectIds seen (p.fill n') := by
  induction p generalizing seen with
  | nil => exact h seen
  | cons s p ih => exact collectIds_step_congr ih s seen

/-- Junction and boost of a condition have no part in its ids. -/
theorem checkIds_fill_condition (p : Place) (id : String) (j j' : Junction) (b b' : Boost)
    (children : List Node) : (p.fill (.condition ⟨id, j, b, children⟩)).checkIds
      = (p.fill (.condition ⟨id, j', b', children⟩)).checkIds := by
  have hids (seen : List String) : collectIds seen (.condition ⟨id, j, b, children⟩)
      = collectIds seen (.condition ⟨id, j', b', children⟩) := by
    rw [collectIds, collectIds]
  rw [checkIds, checkIds, collectIds_fill_congr hids]

end Node

end SearchFilter
