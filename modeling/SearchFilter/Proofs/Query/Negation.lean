import SearchFilter.Proofs.Query.Context
import SearchFilter.Proofs.Tree.Fresh

/-!
# Negated traversals

A negated traversal is the same clause as an excluded group of the traversal alone, in every dialect
and at every place in a tree. They only differ where no operation applies: an optional rule is passed
over, but a group around it is written all the same.
-/

namespace SearchFilter

/-- The rule as a traversal that is not negated. -/
def Rule.affirmed (r : Rule) : Rule :=
  { r with operation := "set_to_query" }

/-- The excluded group of the traversal that a rule negates. -/
def Rule.excludedGroup (r : Rule) (id : String) (j : Junction) : Node :=
  .condition ⟨id, j, .exclude, [.rule r.affirmed]⟩

theorem Dialect.groupText_singleton (d : Dialect) (b : Boost) (j : Junction) {s : String}
    (h : s ≠ "") : d.groupText b j [s] = d.markText b ++ d.groupOpen ++ s ++ d.groupClose := by
  simp [groupText, h]

namespace Compiler

open Clause

variable {res : Resolver} {form : Traversal} {d : Dialect}

theorem nodeText_singleton (c : Compiler) (id : String) (j : Junction) (b : Boost) (n : Node) :
    c.nodeText (.condition ⟨id, j, b, [n]⟩)
      = (c.nodeText n).map fun s => c.dialect.groupText b j [s] := by
  rw [nodeText, memberTexts, memberTexts]
  cases c.nodeText n <;> rfl

/-- The text of a traversal. -/
theorem ruleText_traversal_eq_ok_iff {nested : Node → Except QueryError String} {r : Rule}
    {inverted : Bool} (hfound : StockOperation.find? r = some (.traversal inverted))
    {s : String} : (stock res form d).ruleText nested r = .ok s ↔
      r.values.length = 1 ∧ ∃ field query, fieldOf res r = .ok field ∧
        (r.query? 0).map nested = some (.ok query) ∧ query ≠ "" ∧
        s = if inverted then
            d.markText .exclude ++ d.groupOpen ++ form.fill field query ++ d.groupClose
          else form.fill field query := by
  have harity : (StockOperation.traversal inverted).arity.accepts r.values.length = true ↔
      r.values.length = 1 := by simp [StockOperation.arity, Arity.accepts]
  rw [ruleText_eq_clause, hfound]
  dsimp only
  by_cases hone : r.values.length = 1
  · rw [if_pos (harity.mpr hone), StockOperation.clause, except_map_eq_ok]
    simp only [Traversal.clause_eq_ok_iff, hone, true_and]
    constructor
    · rintro ⟨ts, ⟨field, query, hfield, hquery, hne, rfl⟩, rfl⟩
      refine ⟨field, query, hfield, hquery, hne, ?_⟩
      cases inverted <;> simp [Query.Token.negated, Query.Token.spell, String.append_assoc]
    · rintro ⟨field, query, hfield, hquery, hne, rfl⟩
      refine ⟨_, ⟨field, query, hfield, hquery, hne, rfl⟩, ?_⟩
      cases inverted <;> simp [Query.Token.negated, Query.Token.spell, String.append_assoc]
  · rw [if_neg (fun h => hone (harity.mp h))]
    simp [hone]

theorem fill_ne_empty (form : Traversal) (field : String) {query : String} (h : query ≠ "") :
    form.fill field query ≠ "" := by
  simp [Traversal.fill, h]

/-- Where an operation applies, a negated traversal has the text of its excluded group. -/
theorem sameResults_excludedGroup {r : Rule} (hoperation : r.operation = "not_set_to_query")
    (hmatched : r.optional = true → r.type = .uri) (id : String) (j : Junction) :
    SameResults ((stock res form d).nodeText (.rule r))
      ((stock res form d).nodeText (r.excludedGroup id j)) := by
  intro s
  have hnegated := StockOperation.find?_of_traversal true hoperation
  have hplain := StockOperation.find?_of_traversal false (r := r.affirmed) rfl
  rw [Rule.excludedGroup, nodeText_singleton, except_map_eq_ok]
  by_cases huri : r.type = .uri
  · have huri' : r.affirmed.type = .uri := huri
    rw [if_pos huri] at hnegated
    rw [if_pos huri'] at hplain
    have hstock : (stock res form d).registry.IsStock := isStock_stock res form d
    rw [nodeText_rule hstock, nodeText_rule hstock, ruleText_traversal_eq_ok_iff hnegated]
    simp only [ruleText_traversal_eq_ok_iff hplain]
    constructor
    · rintro ⟨hone, field, query, hfield, hquery, hne, rfl⟩
      have hfield' : fieldOf res r.affirmed = .ok field := fieldOf_congr hfield rfl
      refine ⟨form.fill field query, ⟨hone, field, query, hfield', hquery, hne, rfl⟩, ?_⟩
      exact d.groupText_singleton .exclude j (fill_ne_empty form field hne)
    · rintro ⟨x, ⟨hone, field, query, hfield', hquery, hne, rfl⟩, rfl⟩
      have hfield : fieldOf res r = .ok field := fieldOf_congr hfield' rfl
      refine ⟨hone, field, query, hfield, hquery, hne, ?_⟩
      exact d.groupText_singleton .exclude j (fill_ne_empty form field hne)
  · have hrequired : r.optional = false := by
      cases hoptional : r.optional with
      | false => rfl
      | true => exact absurd (hmatched hoptional) huri
    have huri' : r.affirmed.type ≠ .uri := huri
    have hrequired' : r.affirmed.optional = false := hrequired
    rw [if_neg huri] at hnegated
    rw [if_neg huri'] at hplain
    have hfails : (stock res form d).nodeText (.rule r) = .error (.unknown r) := by
      rw [nodeText_rule (isStock_stock res form d), ruleText_eq_clause, hnegated, hrequired]
      rfl
    have hfails' : (stock res form d).nodeText (.rule r.affirmed)
        = .error (.unknown r.affirmed) := by
      rw [nodeText_rule (isStock_stock res form d), ruleText_eq_clause, hplain, hrequired']
      rfl
    simp [hfails, hfails']

theorem sameResults_compile {n n' : Node} (hids : n.checkIds = n'.checkIds)
    (h : SameResults ((stock res form d).nodeText n) ((stock res form d).nodeText n')) :
    SameResults ((stock res form d).compile n) ((stock res form d).compile n') := by
  intro s
  rw [compile_eq_ok_iff, compile_eq_ok_iff, hids, h s]

/-- A rule with the operation `not_set_to_query` may be exchanged for the excluded group of the
traversal, wherever it stands in a tree, as long as it is not optional or its values are queries. The
tree then has the same query, or it had none before and has none now. -/
theorem negated_traversal_is_excluded_group (res : Resolver) (form : Traversal) (d : Dialect) :
    ∃ g, Registry.build (StockOperation.registrations res form) = .ok g ∧
      ∀ (p : Place) (r : Rule) (id : String) (j : Junction), r.operation = "not_set_to_query" →
        (r.optional = true → r.type = .uri) → id ∉ r.id :: p.ids →
        (∀ s, (Compiler.mk g d).compile (p.fill (.rule r)) = .ok s ↔
          (Compiler.mk g d).compile (p.fill (r.excludedGroup id j)) = .ok s) ∧
        ((∃ e, (Compiler.mk g d).compile (p.fill (.rule r)) = .error e) ↔
          ∃ e, (Compiler.mk g d).compile (p.fill (r.excludedGroup id j)) = .error e) := by
  refine ⟨_, StockOperation.build_registrations res form, ?_⟩
  intro p r id j hoperation hmatched hfresh
  rw [List.mem_cons, not_or] at hfresh
  obtain ⟨hrule, hplace⟩ := hfresh
  have hids : (p.fill (.rule r)).checkIds = (p.fill (r.excludedGroup id j)).checkIds := by
    have hentries : id ∉ (Node.rule r).entries.map Prod.fst := by
      simpa [Node.entries] using hrule
    have hsame : (Node.rule r.affirmed).entries = (Node.rule r).entries := rfl
    exact (Node.checkIds_fill_wrap hplace hentries hsame j .exclude).symm
  have htext : SameResults ((stock res form d).nodeText (.rule r))
      ((stock res form d).nodeText (r.excludedGroup id j)) :=
    sameResults_excludedGroup hoperation hmatched id j
  have hquery : SameResults ((stock res form d).compile (p.fill (.rule r)))
      ((stock res form d).compile (p.fill (r.excludedGroup id j))) :=
    sameResults_compile hids (sameResults_place_fill htext p)
  exact ⟨hquery, hquery.exists_error_iff⟩

/-- A negated traversal between other members of a group that is itself embedded in one, where the
fresh id is used outside of the embedded query, in a dialect that writes neither delimiters nor
exclusion. -/
theorem negated_traversal_is_excluded_group_in_traversal :
    let res := Namespaces.toResolver {}
    let g : Registry := ⟨StockOperation.registrations res .standard⟩
    let d : Dialect := { groupOpen := "", groupClose := "", excludeMarker := "" }
    let p : Place := [.child "e" .and .none [] [],
      .query "a" "team" .uri "not_set_to_query" false [] [],
      .child "c" .or .must [.rule ⟨"s", "x", .date, "fuzzy", [], true⟩]
        [.rule ⟨"b", "name", .string, "equals", [.literal "x"], false⟩]]
    let r : Rule := ⟨"r", "owner", .uri, "not_set_to_query",
      [.query (.rule ⟨"r", "name", .string, "is_set", [], false⟩)], true⟩
    let s := "team:\x7b+owner:\x7bISNOTNULL:\"name\"\x7d OR name:\"x\"\x7d"
    r.operation = "not_set_to_query" ∧ (r.optional = true → r.type = .uri) ∧ "e" ∉ r.id :: p.ids ∧
      (Compiler.mk g d).compile (p.fill (.rule r)) = .ok s ∧
      (Compiler.mk g d).compile (p.fill (r.excludedGroup "e" .or)) = .ok s := by
  intro res g d p r s
  obtain ⟨g', hg', hexchange⟩ := negated_traversal_is_excluded_group res .standard d
  obtain rfl : g = g' := StockOperation.eq_of_build_registrations hg'
  have hmatched : r.optional = true → r.type = .uri := fun _ => rfl
  have hfresh : "e" ∉ r.id :: p.ids := by decide
  have hs : (Compiler.mk g d).compile (p.fill (.rule r)) = .ok s :=
    compile_eq_ok_iff.mpr ⟨by rfl, by decide +kernel⟩
  exact ⟨rfl, hmatched, hfresh, hs, ((hexchange p r "e" .or rfl hmatched hfresh).1 s).mp hs⟩

/-- An optional rule with texts for values is passed over, as there is no such operation for texts,
but the excluded group of it is written. -/
theorem excluded_group_of_skipped_rule :
    let res := Namespaces.toResolver {}
    let g : Registry := ⟨StockOperation.registrations res .standard⟩
    let p : Place := [.child "c" .and .none [] []]
    let r : Rule := ⟨"r", "owner", .string, "not_set_to_query",
      [.query (.condition ⟨"q", .and, .none, []⟩)], true⟩
    Registry.build (StockOperation.registrations res .standard) = .ok g ∧
      r.operation = "not_set_to_query" ∧ "e" ∉ r.id :: p.ids ∧
      (Compiler.mk g {}).compile (p.fill (.rule r)) = .ok "()" ∧
      (Compiler.mk g {}).compile (p.fill (r.excludedGroup "e" .and)) = .ok "(-())" := by
  intro res g p r
  refine ⟨StockOperation.build_registrations res .standard, rfl, by decide, ?_, ?_⟩
  · exact compile_eq_ok_iff.mpr ⟨by rfl, by decide +kernel⟩
  · exact compile_eq_ok_iff.mpr ⟨by rfl, by decide +kernel⟩

end Compiler

end SearchFilter
