import SearchFilter.Proofs.Query.Context
import SearchFilter.Proofs.Tree.Pruning

/-!
# Rules that are passed over

Whether an optional rule without an operation stands in a condition or not cannot be seen in the
query, nor in the error if there is none: the group of the condition only has the texts that are not
empty. For a rule with an operation it makes no difference whether it is optional.
-/

namespace SearchFilter.Compiler

open Clause

variable {res : Resolver} {form : Traversal} {d : Dialect}

theorem nodeText_of_passesOver {c : Compiler} {n : Node} (h : c.registry.passesOver n = true) :
    c.nodeText n = .ok "" := by
  cases n with
  | condition => cases h
  | rule r =>
    rw [Registry.passesOver, Bool.and_eq_true, Option.isNone_iff_eq_none] at h
    obtain ⟨hoptional, hnone⟩ := h
    cases r
    rw [nodeText, ruleText, hnone]
    exact if_pos hoptional

theorem literals_pruneValues (g : Registry) (vs : List Value) :
    (Node.pruneValues g vs).map Value.literal? = vs.map Value.literal? := by
  induction vs with
  | nil => rfl
  | cons v vs ih => cases v <;> simp [Node.pruneValues, Value.literal?, ih]

mutual

/-- A pruned tree has the text of the tree, or fails as the tree does. -/
theorem nodeText_prune (n : Node) :
    (stock res form d).nodeText (n.prune (stock res form d).registry)
      = (stock res form d).nodeText n := by
  match n with
  | .rule ⟨id, field, type, operation, values, optional⟩ =>
    have hstock : (stock res form d).registry.IsStock := isStock_stock res form d
    rw [Node.prune, nodeText_rule hstock, nodeText_rule hstock]
    apply ruleText_alike
    · exact ⟨rfl, rfl, rfl, literals_pruneValues _ values⟩
    · intro _
      rfl
    · intro _
      exact firstQuery_pruneValues values
  | .condition ⟨id, junction, boost, children⟩ =>
    rw [Node.prune, nodeText, nodeText, except_bind_pure, except_bind_pure]
    refine except_map_congr (memberTexts_pruneChildren children) ?_
    intro texts texts' htexts
    rw [Dialect.groupText, Dialect.groupText, htexts]

theorem memberTexts_pruneChildren (ns : List Node) :
    ((stock res form d).memberTexts (Node.pruneChildren (stock res form d).registry ns)).map
        (List.filter fun s => !s.isEmpty)
      = ((stock res form d).memberTexts ns).map (List.filter fun s => !s.isEmpty) := by
  match ns with
  | [] => rfl
  | n :: ns =>
    have hrest := memberTexts_pruneChildren ns
    rw [Node.pruneChildren, memberTexts]
    by_cases hpassed : (stock res form d).registry.passesOver n = true
    · rw [if_pos hpassed, hrest, nodeText_of_passesOver hpassed, except_ok_bind, except_bind_pure,
        except_map_map]
      rfl
    · rw [if_neg hpassed, memberTexts, nodeText_prune n]
      cases (stock res form d).nodeText n with
      | error e => rfl
      | ok s =>
        rw [except_ok_bind, except_ok_bind, except_bind_pure, except_bind_pure, except_map_map,
          except_map_map]
        refine except_map_congr hrest ?_
        intro texts texts' htexts
        simp only [Function.comp_apply, List.filter_cons, htexts]

theorem firstQuery_pruneValues (vs : List Value) :
    ((Node.pruneValues (stock res form d).registry vs)[0]?.bind Value.query?).map
        (stock res form d).nodeText
      = (vs[0]?.bind Value.query?).map (stock res form d).nodeText := by
  match vs with
  | [] => rfl
  | .literal _ :: _ => rfl
  | .query n :: _ => exact congrArg some (nodeText_prune n)

end

/-- A rule with an operation has the same text whether it is optional or not. -/
theorem nodeText_optional {r : Rule} (h : (StockOperation.find? r).isSome = true) (b : Bool) :
    (stock res form d).nodeText (.rule { r with optional := b })
      = (stock res form d).nodeText (.rule r) := by
  have halike : r.Alike { r with optional := b } := ⟨rfl, rfl, rfl, rfl⟩
  have hoptional : StockOperation.find? r = none → r.optional = b := by
    intro hnone
    rw [hnone] at h
    cases h
  have hstock : (stock res form d).registry.IsStock := isStock_stock res form d
  rw [nodeText_rule hstock, nodeText_rule hstock]
  exact (ruleText_alike halike hoptional fun _ => rfl).symm

theorem checkIds_fill_optional (p : Place) (r : Rule) (b : Bool) :
    (p.fill (.rule { r with optional := b })).checkIds = (p.fill (.rule r)).checkIds := by
  rw [Node.checkIds, Node.checkIds, Node.collectIds_fill_congr]
  intro seen
  rw [Node.collectIds_rule, Node.collectIds_rule]

/-- A tree with unique ids has the same query, or fails in the same way, as the tree without the
optional rules to which no operation applies. Whether a rule is optional makes no difference if an
operation applies to it. -/
theorem skipped_rules_may_be_left_out (res : Resolver) (form : Traversal) (d : Dialect) :
    ∃ g, Registry.build (StockOperation.registrations res form) = .ok g ∧
      (∀ n : Node, n.checkIds = .ok () →
        (Compiler.mk g d).compile (n.prune g) = (Compiler.mk g d).compile n) ∧
      ∀ (p : Place) (r : Rule) (b : Bool), (g.find? r).isSome = true →
        (Compiler.mk g d).compile (p.fill (.rule { r with optional := b }))
          = (Compiler.mk g d).compile (p.fill (.rule r)) := by
  have hstock : (stock res form d).registry.IsStock := isStock_stock res form d
  refine ⟨_, StockOperation.build_registrations res form, ?_, ?_⟩
  · intro n hids
    have hids' := Node.checkIds_prune (stock res form d).registry hids
    have htext : (stock res form d).nodeText (n.prune (stock res form d).registry) = _ :=
      nodeText_prune n
    show (stock res form d).compile (n.prune (stock res form d).registry)
      = (stock res form d).compile n
    rw [compile_eq_nodeText hstock, compile_eq_nodeText hstock, hids, hids', htext]
  · intro p r b hmatched
    have hfound : (StockOperation.find? r).isSome = true := by
      rwa [StockOperation.find?_registrations, Option.isSome_map] at hmatched
    show (stock res form d).compile _ = (stock res form d).compile _
    rw [compile_eq_nodeText hstock, compile_eq_nodeText hstock, checkIds_fill_optional,
      nodeText_place_fill, nodeText_place_fill, nodeText_optional hfound]

/-- Rules that are passed over at both ends of a group, next to each other and inside of an embedded
query, whose root is one of them and stays. -/
theorem skipped_rules_may_be_left_out_of_embedded_queries :
    let res := Namespaces.toResolver {}
    let g : Registry := ⟨StockOperation.registrations res .standard⟩
    let d : Dialect := { groupOpen := "", groupClose := "" }
    let skipped (id : String) : Node := .rule ⟨id, "x", .date, "fuzzy", [], true⟩
    let named (id : String) : Node := .rule ⟨id, "name", .string, "equals", [.literal "x"], false⟩
    let owner (n : Node) : Rule := ⟨"o", "owner", .uri, "set_to_query", [.query n], false⟩
    let p : Place := [.child "c" .or .exclude [skipped "a", named "b"] [skipped "e"]]
    let n := p.fill (.rule (owner (.condition ⟨"c", .and, .must,
      [skipped "p", skipped "q", .rule (owner (skipped "s")), named "r"]⟩)))
    let n' : Node := .condition ⟨"c", .or, .exclude, [named "b", .rule (owner (.condition
      ⟨"c", .and, .must, [.rule (owner (skipped "s")), named "r"]⟩))]⟩
    let e := QueryError.malformed (owner (skipped "s")) .emptyEmbeddedQuery
    n.checkIds = .ok () ∧ n.prune g = n' ∧ (Compiler.mk g d).compile n' = .error e ∧
      (Compiler.mk g d).compile n = .error e ∧
      (g.find? (owner (named "r"))).isSome = true ∧
      (Compiler.mk g d).compile (p.fill (.rule { owner (named "r") with optional := true }))
        = .ok "-name:\"x\" OR owner:\x7bname:\"x\"\x7d" := by
  intro res g d skipped named owner p n n' e
  obtain ⟨g', hg', hpruned, hflag⟩ := skipped_rules_may_be_left_out res .standard d
  obtain rfl : g = g' := StockOperation.eq_of_build_registrations hg'
  have hids : n.checkIds = .ok () := by rfl
  have hprune : n.prune g = n' := by rfl
  have herror : (Compiler.mk g d).compile n' = .error e := by decide +kernel
  have hfound : (g.find? (owner (named "r"))).isSome = true := by rfl
  have hquery : (Compiler.mk g d).compile (p.fill (.rule (owner (named "r"))))
      = .ok "-name:\"x\" OR owner:\x7bname:\"x\"\x7d" := by decide +kernel
  refine ⟨hids, hprune, herror, ?_, hfound, ?_⟩
  · rw [← hpruned n hids, hprune, herror]
  · rw [hflag p (owner (named "r")) true hfound, hquery]

end SearchFilter.Compiler
