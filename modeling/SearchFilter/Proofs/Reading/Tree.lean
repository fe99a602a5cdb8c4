import SearchFilter.Proofs.Field.Identifier
import SearchFilter.Proofs.Reading.Basic

/-!
# Readings of trees are well-formed

Whatever a stock operation writes, it has checked its field and its numbers before.
-/

namespace SearchFilter

namespace Clause

open Query

theorem isIdentifier_of_fieldOf {res : Resolver} {r : Rule} {field : String}
    (h : fieldOf res r = .ok field) : Field.isIdentifier field = true :=
  (fieldOf_eq_ok_iff.mp h).2

theorem wellFormed_of_operandOf {r : Rule} {literal : String} {v : Scalar}
    (h : operandOf r literal = .ok v) : v.WellFormed := by
  unfold operandOf at h
  dsimp only at h
  split at h
  · split at h
    · cases h
      assumption
    · cases h
  · split at h <;> cases h
    trivial
  · cases h
    trivial

theorem TextTest.wellFormed_of_leaf {t : TextTest} {res : Resolver} {r : Rule} {l : Leaf}
    (h : t.leaf res r = .ok l) : l.WellFormed := by
  obtain ⟨field, hfield, h⟩ := except_bind_eq_ok.mp h
  have hidentifier : Field.isIdentifier field = true := isIdentifier_of_fieldOf hfield
  cases t with
  | notEquals =>
    obtain ⟨s, _, h⟩ := except_bind_eq_ok.mp h
    cases h
    exact hidentifier
  | _ =>
    obtain ⟨s, _, h⟩ := except_bind_eq_ok.mp h
    cases h
    exact ⟨hidentifier, trivial⟩

theorem IntervalTest.wellFormed_of_leaf {t : IntervalTest} {res : Resolver} {r : Rule} {l : Leaf}
    (h : t.leaf res r = .ok l) : l.WellFormed := by
  obtain ⟨field, hfield, h⟩ := except_bind_eq_ok.mp h
  obtain ⟨literal, _, h⟩ := except_bind_eq_ok.mp h
  obtain ⟨value, hvalue, h⟩ := except_bind_eq_ok.mp h
  have hidentifier : Field.isIdentifier field = true := isIdentifier_of_fieldOf hfield
  have hscalar : value.WellFormed := wellFormed_of_operandOf hvalue
  cases t with
  | equals =>
    cases h
    exact ⟨hidentifier, hscalar⟩
  | greaterThan | greaterOrEqual =>
    cases h
    exact ⟨hidentifier, hscalar, trivial⟩
  | lessThan | lessOrEqual =>
    cases h
    exact ⟨hidentifier, trivial, hscalar⟩
  | between =>
    obtain ⟨literal', _, h⟩ := except_bind_eq_ok.mp h
    obtain ⟨upper, hupper, h⟩ := except_bind_eq_ok.mp h
    obtain ⟨_, _, h⟩ := except_bind_eq_ok.mp h
    cases h
    exact ⟨hidentifier, hscalar, wellFormed_of_operandOf hupper⟩

end Clause

namespace StockOperation

open Query Clause

/-- The expression of a traversal around the expression of the query that it embeds. -/
theorem exists_query_of_traversal {inverted : Bool} {res : Resolver}
    {embedded : Nat → Option (Except QueryError (Option Expr))} {r : Rule} {e : Expr}
    (h : (traversal inverted).expr res embedded r = .ok e) :
    ∃ field query, fieldOf res r = .ok field ∧ embedded 0 = some (.ok (some query)) ∧
      e = if inverted then .group .exclude .and [.traversal field query]
        else .traversal field query := by
  obtain ⟨field, hfield, h⟩ := except_bind_eq_ok.mp h
  cases hquery : embedded 0 with
  | none => simp [hquery] at h
  | some result =>
    simp only [hquery] at h
    obtain ⟨query, rfl, h⟩ := except_bind_eq_ok.mp h
    cases query with
    | none => cases h
    | some query => exact ⟨field, query, hfield, rfl, (Except.ok.inj h).symm⟩

/-- A traversal is well-formed if the query embedded in it is, inverted or not. -/
theorem wellFormed_of_traversal {inverted : Bool} {res : Resolver}
    {embedded : Nat → Option (Except QueryError (Option Expr))}
    (hembedded : ∀ i e, embedded i = some (.ok (some e)) → e.reading.WellFormed) {r : Rule}
    {e : Expr} (h : (traversal inverted).expr res embedded r = .ok e) : e.reading.WellFormed := by
  obtain ⟨field, query, hfield, hquery, rfl⟩ := exists_query_of_traversal h
  have htraversal : (Expr.traversal field query).reading.WellFormed :=
    .traversal (isIdentifier_of_fieldOf hfield) (hembedded 0 query hquery)
  cases inverted with
  | false => exact htraversal
  | true =>
    have hmembers : ∀ r ∈ [(Expr.traversal field query).reading], r.WellFormed := by
      intro r hr
      rw [List.mem_singleton.mp hr]
      exact htraversal
    exact .group .excluded .and hmembers

theorem wellFormed_of_expr {o : StockOperation} {res : Resolver}
    {embedded : Nat → Option (Except QueryError (Option Expr))}
    (hembedded : ∀ i e, embedded i = some (.ok (some e)) → e.reading.WellFormed) {r : Rule}
    {e : Expr} (h : o.expr res embedded r = .ok e) : e.reading.WellFormed := by
  cases o with
  | text t type =>
    obtain ⟨l, hl, h⟩ := except_bind_eq_ok.mp h
    cases h
    exact .leaf (TextTest.wellFormed_of_leaf hl)
  | interval t type =>
    obtain ⟨l, hl, h⟩ := except_bind_eq_ok.mp h
    cases h
    exact .leaf (IntervalTest.wellFormed_of_leaf hl)
  | truth inverted =>
    obtain ⟨field, hfield, h⟩ := except_bind_eq_ok.mp h
    obtain ⟨literal, _, h⟩ := except_bind_eq_ok.mp h
    obtain ⟨b, _, h⟩ := except_bind_eq_ok.mp h
    cases h
    exact .leaf ⟨isIdentifier_of_fieldOf hfield, trivial⟩
  | presence present type =>
    obtain ⟨field, hfield, h⟩ := except_bind_eq_ok.mp h
    cases h
    exact .leaf (isIdentifier_of_fieldOf hfield)
  | traversal inverted => exact wellFormed_of_traversal hembedded h

end StockOperation

namespace Node

open Query

mutual

theorem wellFormed_of_expr (res : Resolver) (n : Node) {e : Expr}
    (h : n.expr res = .ok (some e)) : e.reading.WellFormed := by
  match n with
  | .rule ⟨id, field, type, operation, values, optional⟩ =>
    rw [expr, ruleExpr] at h
    split at h
    · split at h <;> cases h
    · split at h
      · obtain ⟨e', he', h⟩ := except_map_eq_ok.mp h
        cases h
        refine StockOperation.wellFormed_of_expr (fun i query hquery => ?_) he'
        have hmem : some (.ok (some query)) ∈ queryExprs res values :=
          List.mem_of_getElem? (Option.join_eq_some_iff.mp hquery)
        exact wellFormed_of_queryExprs res values hmem
      · cases h
  | .condition ⟨id, junction, boost, children⟩ =>
    obtain ⟨members, hmembers, h⟩ := except_bind_eq_ok.mp h
    cases h
    rw [Expr.reading, Expr.readings_eq_map, ← List.length_map (f := Expr.reading)]
    refine .group _ _ fun r hr => ?_
    obtain ⟨e, he, rfl⟩ := List.mem_map.mp hr
    exact wellFormed_of_memberExprs res children hmembers he

theorem wellFormed_of_memberExprs (res : Resolver) (ns : List Node) {es : List Expr}
    (h : memberExprs res ns = .ok es) {e : Expr} (he : e ∈ es) : e.reading.WellFormed := by
  match ns with
  | [] =>
    cases h
    cases he
  | n :: ns =>
    obtain ⟨first, hfirst, h⟩ := except_bind_eq_ok.mp h
    obtain ⟨rest, hrest, h⟩ := except_bind_eq_ok.mp h
    cases h
    rcases List.mem_append.mp he with he | he
    · rw [Option.mem_toList] at he
      cases he
      exact wellFormed_of_expr res n hfirst
    · exact wellFormed_of_memberExprs res ns hrest he

theorem wellFormed_of_queryExprs (res : Resolver) (vs : List Value) {e : Expr}
    (h : some (.ok (some e)) ∈ queryExprs res vs) : e.reading.WellFormed := by
  match vs with
  | [] => cases h
  | .literal _ :: vs =>
    rw [queryExprs] at h
    cases h with
    | tail _ h => exact wellFormed_of_queryExprs res vs h
  | .query n :: vs =>
    rw [queryExprs] at h
    rcases List.mem_cons.mp h with h | h
    · exact wellFormed_of_expr res n (Option.some.inj h).symm
    · exact wellFormed_of_queryExprs res vs h

end

end Node

end SearchFilter
