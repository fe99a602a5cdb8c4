import SearchFilter.Proofs.Query.Place
import SearchFilter.Proofs.Reading.Groups
import SearchFilter.Proofs.Reading.Tree

/-!
# Queries are balanced

In the standard dialect with the standard form of traversals, the query of a tree is balanced
whatever its literals are, and it has one group for each node that is written as a group: for each
condition, each rule that lists alternatives and each negated traversal.
-/

namespace SearchFilter

namespace Node

mutual

/-- The nodes that are written with a tree: those of the tree and of the queries embedded in its
rules, without the rules that are passed over and what these embed. -/
def written (g : Registry) : Node → List Node
  | .rule ⟨id, field, type, operation, values, optional⟩ =>
    if (g.find? ⟨id, field, type, operation, values, optional⟩).isSome then
      .rule ⟨id, field, type, operation, values, optional⟩ :: writtenEmbedded g values
    else []
  | .condition ⟨id, junction, boost, children⟩ =>
    .condition ⟨id, junction, boost, children⟩ :: writtenOfAll g children

/-- The nodes that are written with the trees. -/
def writtenOfAll (g : Registry) : List Node → List Node
  | [] => []
  | n :: ns => n.written g ++ writtenOfAll g ns

/-- The nodes that are written with the embedded queries among the values. -/
def writtenEmbedded (g : Registry) : List Value → List Node
  | [] => []
  | .literal _ :: vs => writtenEmbedded g vs
  | .query n :: vs => n.written g ++ writtenEmbedded g vs

end

/-- The operation that a rule asks for; none for a condition. -/
def operation? : Node → Option String
  | .rule r => some r.operation
  | .condition _ => none

/-- How many of the nodes are written as groups. -/
def groupCount (ns : List Node) : Nat :=
  ns.countP (fun n => n.kind = .condition) + ns.countP (fun n => n.operation? = some "in")
    + ns.countP fun n => n.operation? = some "not_set_to_query"

theorem groupCount_append (ns ms : List Node) :
    groupCount (ns ++ ms) = groupCount ns + groupCount ms := by
  simp only [groupCount, List.countP_append]
  omega

theorem groupCount_condition (c : Condition) (ns : List Node) :
    groupCount (.condition c :: ns) = groupCount ns + 1 := by
  simp only [groupCount, List.countP_cons, kind, operation?, decide_true, if_true, reduceCtorEq,
    decide_false, Bool.false_eq_true, if_false]
  omega

theorem written_rule (g : Registry) (r : Rule) : (Node.rule r).written g
    = if (g.find? r).isSome then .rule r :: writtenEmbedded g r.values else [] := by
  cases r
  rfl

theorem writtenEmbedded_of_literals (g : Registry) {vs : List Value}
    (h : ∀ n, Value.query n ∉ vs) : writtenEmbedded g vs = [] := by
  induction vs with
  | nil => rfl
  | cons v vs ih =>
    cases v with
    | literal s =>
      rw [writtenEmbedded]
      exact ih fun n hn => h n (List.mem_cons_of_mem _ hn)
    | query n => exact absurd List.mem_cons_self (h n)

end Node

namespace StockOperation

open Query

/-- How many groups an operation writes around what it embeds. -/
def groups : StockOperation → Nat
  | .text .anyOf _ => 1
  | .traversal true => 1
  | _ => 0

/-- An operation writes a group of its own if it lists alternatives or negates a traversal. -/
theorem groups_eq (o : StockOperation) : o.groups
    = (if o.signature.operation = "in" then 1 else 0)
      + if o.signature.operation = "not_set_to_query" then 1 else 0 := by
  cases o with
  | text t type => cases t <;> rfl
  | interval t type => cases t <;> rfl
  | truth inverted => cases inverted <;> rfl
  | presence present type => cases present <;> rfl
  | traversal inverted => cases inverted <;> rfl

theorem groupCount_rule {o : StockOperation} {r : Rule} (h : o.signature.accepts r = true)
    (ns : List Node) : Node.groupCount (.rule r :: ns) = Node.groupCount ns + o.groups := by
  have hoperation : r.operation = o.signature.operation := by
    simp only [Signature.accepts, Bool.and_eq_true, beq_iff_eq] at h
    exact h.2.symm
  rw [groups_eq, ← hoperation]
  simp only [Node.groupCount, List.countP_cons, Node.kind, Node.operation?, reduceCtorEq,
    decide_false, Bool.false_eq_true, if_false, decide_eq_true_eq, Option.some.injEq]
  omega

/-- A rule with an expression has a clause. -/
theorem exists_clause_of_expr {o : StockOperation} {res : Resolver}
    {embedded : Nat → Option (Except QueryError (Option Expr))} {r : Rule} {e : Expr}
    (h : o.expr res embedded r = .ok e) : ∃ text ts, o.clause res .standard text r = .ok ts := by
  have hspell := spell_clause (d := {}) (by decide) .standard o res
    ((embedded 0).map (Except.map (Expr.spell? {} .standard))) embedded rfl r
  rw [h] at hspell
  obtain ⟨ts, hts, -⟩ := except_map_eq_ok.mp hspell
  exact ⟨_, ts, hts⟩

/-- An operation that is no traversal has no expression for a rule with an embedded query. -/
theorem query_notMem_of_expr {o : StockOperation} {res : Resolver}
    {embedded : Nat → Option (Except QueryError (Option Expr))} {r : Rule} {e : Expr}
    (ho : ∀ inverted, o ≠ .traversal inverted) (harity : o.arity.accepts r.values.length)
    (h : o.expr res embedded r = .ok e) (n : Node) : Value.query n ∉ r.values := by
  intro hn
  obtain ⟨before, after, hvalues⟩ := List.append_of_mem hn
  obtain ⟨text, ts, hclause⟩ := exists_clause_of_expr h
  obtain ⟨⟨inverted, heq⟩, -, -⟩ := eq_traversal_of_clause hvalues harity hclause
  exact ho inverted heq

/-- An operation that is no traversal writes the groups of its leaf. -/
theorem groups_of_leaf {o : StockOperation} {res : Resolver}
    {embedded : Nat → Option (Except QueryError (Option Expr))} {r : Rule} {e : Expr}
    (ho : ∀ inverted, o ≠ .traversal inverted) (h : o.expr res embedded r = .ok e) :
    e.reading.groups = o.groups := by
  cases o with
  | text t type =>
    obtain ⟨l, hl, h⟩ := except_bind_eq_ok.mp h
    cases h
    obtain ⟨field, -, hl⟩ := except_bind_eq_ok.mp hl
    cases t with
    | _ =>
      obtain ⟨s, -, hl⟩ := except_bind_eq_ok.mp hl
      cases hl
      rfl
  | interval t type =>
    obtain ⟨l, hl, h⟩ := except_bind_eq_ok.mp h
    cases h
    obtain ⟨field, -, hl⟩ := except_bind_eq_ok.mp hl
    obtain ⟨literal, -, hl⟩ := except_bind_eq_ok.mp hl
    obtain ⟨value, -, hl⟩ := except_bind_eq_ok.mp hl
    cases t with
    | between =>
      obtain ⟨literal', -, hl⟩ := except_bind_eq_ok.mp hl
      obtain ⟨upper, -, hl⟩ := except_bind_eq_ok.mp hl
      obtain ⟨-, -, hl⟩ := except_bind_eq_ok.mp hl
      cases hl
      rfl
    | _ =>
      cases hl
      rfl
  | truth inverted =>
    obtain ⟨field, -, h⟩ := except_bind_eq_ok.mp h
    obtain ⟨literal, -, h⟩ := except_bind_eq_ok.mp h
    obtain ⟨b, -, h⟩ := except_bind_eq_ok.mp h
    cases h
    rfl
  | presence present type =>
    obtain ⟨field, -, h⟩ := except_bind_eq_ok.mp h
    cases h
    rfl
  | traversal inverted => exact absurd rfl (ho inverted)

/-- A traversal writes the groups of the query that it embeds, and one more if it is negated. -/
theorem groups_of_traversal {inverted : Bool} {res : Resolver}
    {embedded : Nat → Option (Except QueryError (Option Expr))} {r : Rule} {e : Expr}
    (h : (traversal inverted).expr res embedded r = .ok e) :
    ∃ query, embedded 0 = some (.ok (some query)) ∧
      e.reading.groups = query.reading.groups + (traversal inverted).groups := by
  obtain ⟨field, query, -, hquery, rfl⟩ := exists_query_of_traversal h
  refine ⟨query, hquery, ?_⟩
  cases inverted with
  | false => rfl
  | true => simp [Expr.reading, Expr.readings, Reading.groups, Reading.groupsOfAll, groups]

end StockOperation

namespace Node

open Query StockOperation

/-- How many groups the expressions are written with. -/
def groupsOfAll (es : List Expr) : Nat :=
  (es.map fun e => e.reading.groups).sum

theorem groupsOfAll_some (e : Expr) : groupsOfAll (some e).toList = e.reading.groups :=
  Nat.add_zero _

theorem groupsOfAll_append (es fs : List Expr) :
    groupsOfAll (es ++ fs) = groupsOfAll es + groupsOfAll fs := by
  simp [groupsOfAll]

variable {res : Resolver} {form : Clause.Traversal}

/-- If the one value of a rule is an embedded query, it is the first one. -/
theorem eq_query_of_embedded {vs : List Value} {e : Except QueryError (Option Expr)}
    (hone : vs.length = 1) (h : (queryExprs res vs)[0]?.join = some e) :
    ∃ n, vs = [.query n] ∧ n.expr res = e := by
  obtain ⟨v, rfl⟩ := List.length_eq_one_iff.mp hone
  cases v with
  | literal s => simp [queryExprs] at h
  | query n => exact ⟨n, rfl, by simpa [queryExprs] using h⟩

/-- The groups of a rule are its own ones and those of the query that it embeds. -/
theorem groups_of_ruleExpr {r : Rule}
    (hqueries : ∀ n, Value.query n ∈ r.values → ∀ e, n.expr res = .ok e →
      groupsOfAll e.toList = groupCount (n.written ⟨registrations res form⟩)) {e : Option Expr}
    (h : ruleExpr res (queryExprs res r.values) r = .ok e) :
    groupsOfAll e.toList = groupCount ((Node.rule r).written ⟨registrations res form⟩) := by
  rw [written_rule, find?_registrations, Option.isSome_map]
  rw [ruleExpr] at h
  cases hfound : StockOperation.find? r with
  | none =>
    rw [hfound] at h
    dsimp only at h
    split at h <;> cases h
    rfl
  | some o =>
    rw [hfound] at h
    dsimp only at h
    obtain ⟨-, haccepts⟩ := accepts_of_find? hfound
    split at h
    next harity =>
      obtain ⟨e, he, rfl⟩ := except_map_eq_ok.mp h
      rw [Option.isSome_some, if_pos rfl, groupCount_rule haccepts, groupsOfAll_some]
      by_cases ho : ∃ inverted, o = .traversal inverted
      · obtain ⟨inverted, rfl⟩ := ho
        obtain ⟨query, hquery, heq⟩ := groups_of_traversal he
        have hone : r.values.length = 1 := by
          simpa [StockOperation.arity, Arity.accepts] using harity
        obtain ⟨n, hvalues, hn⟩ := eq_query_of_embedded hone hquery
        have hn' := hqueries n (by rw [hvalues]; exact List.mem_singleton_self _) _ hn
        rw [heq, hvalues, writtenEmbedded, writtenEmbedded, List.append_nil, ← hn',
          groupsOfAll_some]
      · rw [not_exists] at ho
        rw [groups_of_leaf ho he, writtenEmbedded_of_literals _ (query_notMem_of_expr ho harity he)]
        exact (Nat.zero_add _).symm
    · cases h

mutual

/-- A tree stands for an expression with a group for each node that is written as one. -/
theorem groups_of_expr (n : Node) {e : Option Expr} (h : n.expr res = .ok e) :
    groupsOfAll e.toList = groupCount (n.written ⟨registrations res form⟩) := by
  match n with
  | .rule ⟨id, field, type, operation, values, optional⟩ =>
    apply groups_of_ruleExpr _ h
    intro n hn e he
    exact groups_of_embedded values n hn he
  | .condition ⟨id, junction, boost, children⟩ =>
    obtain ⟨members, hmembers, h⟩ := except_bind_eq_ok.mp h
    cases h
    rw [written, groupCount_condition, ← groups_of_memberExprs children hmembers]
    simp [groupsOfAll, Expr.reading, Expr.readings_eq_map, Reading.groups,
      Reading.groupsOfAll_eq_sum, Function.comp_def]

theorem groups_of_memberExprs (ns : List Node) {es : List Expr}
    (h : memberExprs res ns = .ok es) :
    groupsOfAll es = groupCount (writtenOfAll ⟨registrations res form⟩ ns) := by
  match ns with
  | [] =>
    cases h
    rfl
  | n :: ns =>
    obtain ⟨first, hfirst, h⟩ := except_bind_eq_ok.mp h
    obtain ⟨rest, hrest, h⟩ := except_bind_eq_ok.mp h
    cases h
    rw [writtenOfAll, groupCount_append, ← groups_of_expr n hfirst,
      ← groups_of_memberExprs ns hrest, groupsOfAll_append]

theorem groups_of_embedded (vs : List Value) (n : Node) (hn : Value.query n ∈ vs)
    {e : Option Expr} (h : n.expr res = .ok e) :
    groupsOfAll e.toList = groupCount (n.written ⟨registrations res form⟩) := by
  match vs with
  | [] => cases hn
  | .literal s :: vs =>
    cases hn with
    | tail _ hn => exact groups_of_embedded vs n hn h
  | .query m :: vs =>
    cases hn with
    | head => exact groups_of_expr n h
    | tail _ hn => exact groups_of_embedded vs n hn h

end

end Node

namespace Compiler

open Query Text

/-- The query of a tree is balanced, with a group for each node that is written as one. -/
theorem balanced_of_compile {res : Resolver} {n : Node} {s : String}
    (h : (stock res .standard {}).compile n = .ok s) :
    Balanced s.toList (Node.groupCount (n.written (stock res .standard {}).registry)) := by
  rw [compile_stock (by decide)] at h
  obtain ⟨e, he, rfl⟩ := except_map_eq_ok.mp h
  obtain ⟨-, he⟩ := except_seq_eq_ok.mp he
  have hgroups : Node.groupsOfAll e.toList
      = Node.groupCount (n.written (stock res .standard {}).registry) := n.groups_of_expr he
  rw [← hgroups]
  cases e with
  | none => exact .nil
  | some e =>
    have hchars : (Expr.spell? {} .standard (some e)).toList = e.reading.chars := e.toList_spell
    rw [hchars, Node.groupsOfAll_some]
    exact balanced_chars (Node.wellFormed_of_expr res n he)

/-- Whatever the literals of a tree are, the parentheses in its query match one another, apart from
those between double quotes and those behind a backslash. There is one pair for each condition that
is written, for each rule that lists alternatives and for each negated traversal. -/
theorem groups_are_balanced (res : Resolver) :
    ∃ g, Registry.build (StockOperation.registrations res .standard) = .ok g ∧
      ∀ (n : Node) (s : String), (Compiler.mk g {}).compile n = .ok s →
        (∀ pre, pre <+: s.toList → (Scan.ofChars pre).closed ≤ (Scan.ofChars pre).opened) ∧
        (Scan.ofChars s.toList).quoted = false ∧ (Scan.ofChars s.toList).escaped = false ∧
        (Scan.ofChars s.toList).closed = (Scan.ofChars s.toList).opened ∧
        (Scan.ofChars s.toList).opened
          = (n.written g).countP (fun m => m.kind = .condition)
            + (n.written g).countP (fun m => m.operation? = some "in")
            + (n.written g).countP (fun m => m.operation? = some "not_set_to_query") := by
  refine ⟨_, StockOperation.build_registrations res .standard, ?_⟩
  intro n s h
  have hbalanced := balanced_of_compile h
  refine ⟨hbalanced.closed_le_opened, ?_⟩
  rw [hbalanced.ofChars_eq]
  exact ⟨rfl, rfl, rfl, rfl⟩

/-- Literals that are a backslash or hold parentheses and quotation marks, in a tree with a rule that
is passed over together with the condition that it embeds. -/
theorem groups_are_balanced_around_parentheses :
    let res := Namespaces.toResolver {}
    let g : Registry := ⟨StockOperation.registrations res .standard⟩
    let rule (id field operation : String) (type : ValueType) (values : List Value) : Node :=
      .rule ⟨id, field, type, operation, values, true⟩
    let n : Node := .condition ⟨"c", .and, .exclude,
      [rule "a" "x" "fuzzy" .date [.query (.condition ⟨"p", .and, .none, []⟩)],
        rule "b" "title" "equals" .string [.literal "\\"],
        rule "d" "text" "contains" .string [.literal ")\"("],
        rule "e" "tag" "in" .string [.literal "a)", .literal "\\\")"],
        rule "f" "owner" "not_set_to_query" .uri [.query (.condition ⟨"q", .or, .must,
          [rule "r" "name" "in" .string [.literal ")"]]⟩)]]⟩
    let s := "-(title:\"\\\\\" AND text:*\\)\\\"\\(* AND tag:(\"a)\" OR \"\\\\\\\")\")"
      ++ " AND -(owner:\x7b+(name:(\")\"))\x7d))"
    (Compiler.mk g {}).compile n = .ok s ∧ s.toList.count '(' = 6 ∧ s.toList.count ')' = 9 ∧
      (n.written g).countP (fun m => m.kind = .condition) = 2 ∧
      (n.written g).countP (fun m => m.operation? = some "in") = 2 ∧
      (n.written g).countP (fun m => m.operation? = some "not_set_to_query") = 1 ∧
      (Scan.ofChars s.toList).opened = 5 ∧ (Scan.ofChars s.toList).closed = 5 := by
  intro res g rule n s
  obtain ⟨g', hg', hbalanced⟩ := groups_are_balanced res
  obtain rfl : g = g' := StockOperation.eq_of_build_registrations hg'
  have hs : (Compiler.mk g {}).compile n = .ok s := by decide +kernel
  have hconditions : (n.written g).countP (fun m => m.kind = .condition) = 2 := by decide +kernel
  have hlists : (n.written g).countP (fun m => m.operation? = some "in") = 2 := by decide +kernel
  have hnegated : (n.written g).countP (fun m => m.operation? = some "not_set_to_query") = 1 := by
    decide +kernel
  obtain ⟨-, -, -, hclosed, hopened⟩ := hbalanced n s hs
  rw [hconditions, hlists, hnegated] at hopened
  refine ⟨hs, by decide +kernel, by decide +kernel, hconditions, hlists, hnegated, hopened, ?_⟩
  rw [hclosed, hopened]

end Compiler

end SearchFilter
