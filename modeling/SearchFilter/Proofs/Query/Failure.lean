import SearchFilter.Proofs.Query.Composition
import SearchFilter.Proofs.Query.StockRegistry
import SearchFilter.Proofs.Tree.Scope

/-!
# Why a tree has no query

A rule is written the same way wherever it stands, so it fails in a tree exactly if it fails on its
own. A condition never fails by itself. What comes of a tree is therefore what comes of its rules,
one after the other, and their grouping plays no part.
-/

namespace SearchFilter.Compiler

mutual

/-- A tree fails as the first of its rules that fails, and has a text if none of them does. -/
theorem outcome_nodeText (c : Compiler) (n : Node) :
    outcome (c.nodeText n) = forM n.rules fun r => outcome (c.nodeText (.rule r)) := by
  match n with
  | .rule r =>
    rw [Node.rules, List.forM_cons, List.forM_nil]
    cases c.nodeText (.rule r) <;> rfl
  | .condition ⟨id, junction, boost, children⟩ =>
    rw [nodeText, Node.rules, ← outcome_memberTexts c children, except_bind_pure, outcome_map]

theorem outcome_memberTexts (c : Compiler) (ns : List Node) :
    outcome (c.memberTexts ns)
      = forM (Node.rulesOfAll ns) fun r => outcome (c.nodeText (.rule r)) := by
  match ns with
  | [] => rfl
  | n :: ns =>
    rw [memberTexts, outcome_bind_map, Node.rulesOfAll, List.forM_append, outcome_nodeText c n,
      outcome_memberTexts c ns]

end

/-- What comes of the query of a tree is what comes of the queries of its rules. -/
theorem outcome_compile {c : Compiler} (hc : c.registry.IsStock) {n : Node}
    (h : n.checkIds = .ok ()) :
    outcome (c.compile n) = forM n.rules fun r => outcome (c.compile (.rule r)) := by
  rw [compile_eq_nodeText hc, h, except_ok_bind, outcome_nodeText]
  apply forM_congr
  intro r hr
  rw [compile_eq_nodeText hc, Node.checkIds_of_mem_rules h r hr, except_ok_bind]

/-- Of the rules that have no query of their own, the first one has none because of the error. -/
def FailsFirst (c : Compiler) (rs : List Rule) (e : QueryError) : Prop :=
  ∃ before r after, rs = before ++ r :: after ∧
    (∀ r' ∈ before, ∃ s, c.compile (.rule r') = .ok s) ∧ c.compile (.rule r) = .error e

theorem failsFirst_iff {c : Compiler} {rs : List Rule} {e : QueryError} :
    c.FailsFirst rs e ↔ (forM rs fun r => outcome (c.compile (.rule r))) = .error e := by
  simp only [FailsFirst, forM_eq_error_iff, outcome_eq_ok_iff, outcome_eq_error_iff]

/-- A tree with unique ids has no query exactly if one of its rules has none of its own, and then
because of the first such rule. So trees with the same rules, however they are grouped, have no
query for the same reason or both have one. -/
theorem fails_as_first_failing_rule (res : Resolver) (form : Clause.Traversal) (d : Dialect) :
    ∃ g, Registry.build (StockOperation.registrations res form) = .ok g ∧
      (∀ n : Node, n.checkIds = .ok () →
        ((∃ e, (Compiler.mk g d).compile n = .error e) ↔
          ∃ r ∈ n.rules, ∃ e, (Compiler.mk g d).compile (.rule r) = .error e) ∧
        ∀ e, (Compiler.mk g d).compile n = .error e ↔ (Compiler.mk g d).FailsFirst n.rules e) ∧
      ∀ n n' : Node, n.checkIds = .ok () → n'.checkIds = .ok () → n.rules = n'.rules →
        ((∃ s, (Compiler.mk g d).compile n = .ok s) ∧ ∃ s', (Compiler.mk g d).compile n' = .ok s') ∨
          ∃ e, (Compiler.mk g d).compile n = .error e ∧ (Compiler.mk g d).compile n' = .error e := by
  let c : Compiler := ⟨⟨StockOperation.registrations res form⟩, d⟩
  have hstock : c.registry.IsStock := StockOperation.isStock_registrations res form
  refine ⟨_, StockOperation.build_registrations res form, ?_, ?_⟩
  · intro n hids
    have houtcome : outcome (c.compile n) = _ := outcome_compile hstock hids
    refine ⟨?_, ?_⟩
    · have hfails : (∃ e, (forM n.rules fun r => outcome (c.compile (.rule r))) = .error e) ↔
          ∃ r ∈ n.rules, ∃ e, outcome (c.compile (.rule r)) = .error e := exists_forM_eq_error_iff
      simpa only [← houtcome, outcome_eq_error_iff] using hfails
    · intro e
      rw [failsFirst_iff, ← houtcome, outcome_eq_error_iff]
  · intro n n' hids hids' hrules
    have houtcome : outcome (c.compile n) = outcome (c.compile n') := by
      rw [outcome_compile hstock hids, outcome_compile hstock hids', hrules]
    cases h : c.compile n with
    | ok s =>
      rw [h, outcome_ok] at houtcome
      exact .inl ⟨⟨s, rfl⟩, outcome_eq_ok_iff.mp houtcome.symm⟩
    | error e =>
      rw [h, outcome_error] at houtcome
      exact .inr ⟨e, rfl, outcome_eq_error_iff.mp houtcome.symm⟩

/-- Two groupings of the same rules. The first of the rules that fails embeds a query that is a group
without members, which writes nothing between empty delimiters. -/
theorem fails_as_first_failing_rule_in_groups :
    let res := Namespaces.toResolver {}
    let g : Registry := ⟨StockOperation.registrations res .standard⟩
    let d : Dialect := { groupOpen := "", groupClose := "" }
    let skipped : Rule := ⟨"a", "x", .date, "fuzzy", [], true⟩
    let written : Rule := ⟨"b", "name", .string, "equals", [.literal "x"], false⟩
    let silent : Rule := ⟨"c", "owner", .uri, "not_set_to_query",
      [.query (.condition ⟨"a", .and, .none, []⟩)], false⟩
    let unknown : Rule := ⟨"d", "name", .string, "fuzzy", [], false⟩
    let n : Node := .condition ⟨"p", .or, .exclude, [.rule skipped,
      .condition ⟨"q", .and, .none, [.rule written, .rule silent]⟩, .rule unknown]⟩
    let n' : Node := .condition ⟨"p", .and, .none, [.condition ⟨"q", .or, .must, [.rule skipped]⟩,
      .rule written, .condition ⟨"s", .and, .none, [.rule silent, .rule unknown]⟩]⟩
    let e := QueryError.malformed silent .emptyEmbeddedQuery
    n.checkIds = .ok () ∧ n'.checkIds = .ok () ∧ n.rules = n'.rules ∧
      (Compiler.mk g d).FailsFirst n.rules e ∧
      (Compiler.mk g d).compile n = .error e ∧ (Compiler.mk g d).compile n' = .error e := by
  intro res g d skipped written silent unknown n n' e
  obtain ⟨g', hg', hfails, hsame⟩ := fails_as_first_failing_rule res .standard d
  obtain rfl : g = g' := StockOperation.eq_of_build_registrations hg'
  have hids : n.checkIds = .ok () := by rfl
  have hids' : n'.checkIds = .ok () := by rfl
  have hrules : n.rules = n'.rules := by rfl
  have hfirst : (Compiler.mk g d).FailsFirst n.rules e := by
    refine ⟨[skipped, written], silent, [unknown], rfl, ?_, by decide +kernel⟩
    intro r hr
    simp only [List.mem_cons, List.not_mem_nil, or_false] at hr
    rcases hr with rfl | rfl
    · exact ⟨"", by decide +kernel⟩
    · exact ⟨"name:\"x\"", by decide +kernel⟩
  have herror : (Compiler.mk g d).compile n = .error e := ((hfails n hids).2 e).mpr hfirst
  have herror' : (Compiler.mk g d).compile n' = .error e := by
    rcases hsame n n' hids hids' hrules with ⟨⟨s, hs⟩, -⟩ | ⟨e', he, he'⟩
    · rw [herror] at hs
      cases hs
    · rw [herror] at he
      rw [he', Except.error.inj he]
  exact ⟨hids, hids', hrules, hfirst, herror, herror'⟩

end SearchFilter.Compiler
