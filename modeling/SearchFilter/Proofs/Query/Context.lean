import SearchFilter.Proofs.Query.Alike
import SearchFilter.Proofs.Query.Place

/-!
# The text of a tree from the text of a node in it

All that a place takes from the node in it is the node's text. So a node may be exchanged for
another one with the same text, at any depth and inside of embedded queries; and where only the
texts are of interest and not the errors, for one that has the same text whenever either has one.
-/

namespace SearchFilter

open Compiler

/-- What a level makes of the text of the node in it. -/
def Step.text (c : Compiler) : Step → Except QueryError String → Except QueryError String
  | .child _ junction boost before after, x => do
    let pre ← c.memberTexts before
    let s ← x
    let post ← c.memberTexts after
    return c.dialect.groupText boost junction (pre ++ s :: post)
  | .query id field type operation optional before after, x =>
    -- The tree of the embedded query is not looked at, so any will do. With another value before it
    -- or after it the rule is no traversal, so no other query is asked for.
    c.ruleText (fun _ => x)
      ⟨id, field, type, operation, before ++ .query (.condition (.new "" .and)) :: after, optional⟩

/-- What a place makes of the text of the node in it. -/
def Place.text (c : Compiler) (p : Place) (x : Except QueryError String) :
    Except QueryError String :=
  p.foldr (Step.text c) x

namespace Compiler

variable {res : Resolver} {form : Clause.Traversal} {d : Dialect}

theorem nodeText_step_fill (s : Step) (n : Node) : (stock res form d).nodeText (s.fill n)
    = s.text (stock res form d) ((stock res form d).nodeText n) := by
  cases s with
  | child id junction boost before after =>
    rw [Step.fill, nodeText, memberTexts_append, memberTexts, Step.text]
    simp
  | query id field type operation optional before after =>
    rw [Step.fill, nodeText_rule (isStock_stock res form d), Step.text]
    apply ruleText_alike
    · exact ⟨rfl, rfl, rfl, by simp [Value.literal?]⟩
    · intro _
      rfl
    · intro hone
      have hbefore : before = [] := List.length_eq_zero_iff.mp (by simp at hone; omega)
      rw [hbefore]
      rfl

/-- The text of a tree is what the place of a node makes of the text of the node. -/
theorem nodeText_place_fill (p : Place) (n : Node) : (stock res form d).nodeText (p.fill n)
    = p.text (stock res form d) ((stock res form d).nodeText n) := by
  induction p with
  | nil => rfl
  | cons s p ih =>
    rw [Place.fill_cons, nodeText_step_fill, ih, Place.text, Place.text, List.foldr_cons]

end Compiler

/-! ## Texts that are only compared where there are any -/

theorem StockOperation.sameResults_clause {embedded embedded' : Option (Except QueryError String)}
    (h : ∀ q, embedded = some (.ok q) ↔ embedded' = some (.ok q)) (o : StockOperation)
    (res : Resolver) (form : Clause.Traversal) (r : Rule) :
    SameResults (o.clause res form embedded r) (o.clause res form embedded' r) := by
  intro ts
  cases o with
  | traversal inverted =>
    rw [clause, clause, Clause.Traversal.clause_eq_ok_iff, Clause.Traversal.clause_eq_ok_iff]
    simp only [h]
  | _ => rfl

namespace Compiler

variable {res : Resolver} {form : Clause.Traversal} {d : Dialect}

theorem sameResults_ruleText {x y : Except QueryError String} (h : SameResults x y) (r : Rule) :
    SameResults ((stock res form d).ruleText (fun _ => x) r)
      ((stock res form d).ruleText (fun _ => y) r) := by
  have hembedded (q : String) : (r.query? 0).map (fun _ => x) = some (.ok q) ↔
      (r.query? 0).map (fun _ => y) = some (.ok q) := by
    simp only [Option.map_eq_some_iff, h q]
  intro s
  rw [ruleText_eq_clause, ruleText_eq_clause]
  cases StockOperation.find? r with
  | none => rfl
  | some o =>
    dsimp only
    by_cases harity : o.arity.accepts r.values.length
    · rw [if_pos harity, if_pos harity]
      exact (o.sameResults_clause hembedded res form r).map _ s
    · rw [if_neg harity, if_neg harity]

theorem sameResults_step_text {x y : Except QueryError String} (h : SameResults x y) (s : Step) :
    SameResults (s.text (stock res form d) x) (s.text (stock res form d) y) := by
  cases s with
  | child id junction boost before after =>
    intro t
    simp only [Step.text, except_bind_eq_ok, h _]
  | query id field type operation optional before after =>
    rw [Step.text, Step.text]
    exact sameResults_ruleText h _

/-- Nodes with the same texts make trees with the same texts. -/
theorem sameResults_place_fill {n n' : Node} (h : SameResults ((stock res form d).nodeText n)
    ((stock res form d).nodeText n')) (p : Place) :
    SameResults ((stock res form d).nodeText (p.fill n))
      ((stock res form d).nodeText (p.fill n')) := by
  rw [nodeText_place_fill, nodeText_place_fill]
  induction p with
  | nil => exact h
  | cons s p ih => exact sameResults_step_text ih s

end Compiler

end SearchFilter
