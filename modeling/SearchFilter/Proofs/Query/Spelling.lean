import SearchFilter.Proofs.Query.Composition
import SearchFilter.Proofs.Query.Expr

/-!
# A dialect only spells the tokens of a query

The text of a tree is the spelling of the tokens of its expression. The one thing that depends on
the dialect elsewhere is whether a text is empty, and no expression has an empty spelling as soon
as the opening delimiter is not empty, which `validate` asks for.
-/

namespace SearchFilter

namespace Query

open Token

theorem Token.spellAll_joined (d : Dialect) (j : Junction) (clauses : List (List Token)) :
    spellAll d (joined j clauses) = (d.separator j).intercalate (clauses.map (spellAll d)) := by
  induction clauses using joined.induct with
  | case1 => rfl
  | case2 ts => simp [joined]
  | case3 ts rest hne ih =>
    obtain ⟨us, rest, rfl⟩ := List.exists_cons_of_ne_nil (fun h => hne h)
    rw [joined]
    · simp only [spellAll_append, spellAll_cons, ih, List.map_cons,
        String.intercalate_cons_cons, spell, Dialect.separator, String.append_assoc]
    · simp

namespace Expr

/-- The spelling of an expression. -/
def spell (d : Dialect) (form : Clause.Traversal) (e : Expr) : String :=
  spellAll d (e.tokens form)

/-- The spelling of what a tree stands for: nothing if that is no expression. -/
def spell? (d : Dialect) (form : Clause.Traversal) (e : Option Expr) : String :=
  (e.map (spell d form)).getD ""

theorem tokensOfAll_eq_map (form : Clause.Traversal) (es : List Expr) :
    tokensOfAll form es = es.map (tokens form) := by
  induction es with
  | nil => rfl
  | cons e es ih => rw [tokensOfAll, ih, List.map_cons]

theorem spell_traversal (d : Dialect) (form : Clause.Traversal) (field : String) (query : Expr) :
    (traversal field query).spell d form = form.fill field (query.spell d form) := by
  simp [spell, tokens, Token.spell, Clause.Traversal.fill, String.append_assoc]

/-- A group is spelled as the text of its members' spellings. -/
theorem spell_group (d : Dialect) (form : Clause.Traversal) (b : Boost) (j : Junction)
    (members : List Expr) : (group b j members).spell d form
      = d.markText b ++ d.groupOpen ++ (d.separator j).intercalate (members.map (spell d form))
        ++ d.groupClose := by
  simp only [spell, tokens, spellAll_cons, spellAll_append, spellAll_nil, spellAll_joined,
    tokensOfAll_eq_map, List.map_map, Token.spell, String.append_assoc, String.append_empty]
  rfl

theorem spell_leaf_ne_empty (d : Dialect) (l : Leaf) : spellAll d l.tokens ≠ "" := by
  cases l with
  | test field t => cases t <;> simp [Leaf.tokens, Test.tokens, Token.spell]
  | excluded field s => simp [Leaf.tokens, Token.spell]
  | presence present field => simp [Leaf.tokens, Token.spell]

/-- Between delimiters that are not empty, no expression has an empty spelling. -/
theorem spell_ne_empty {d : Dialect} (hopen : d.groupOpen ≠ "") (form : Clause.Traversal)
    (e : Expr) : e.spell d form ≠ "" := by
  match e with
  | .leaf l =>
    rw [spell, tokens]
    exact spell_leaf_ne_empty d l
  | .traversal field query =>
    have hquery := spell_ne_empty hopen form query
    rw [spell_traversal]
    simp [Clause.Traversal.fill, hquery]
  | .group b j members =>
    rw [spell_group]
    simp [hopen]

end Expr

end Query

namespace Clause

open Query Query.Token

theorem scalarOf_eq (r : Rule) (literal : String) :
    scalarOf r literal = (operandOf r literal).map Scalar.text := by
  unfold scalarOf operandOf
  cases r.type with
  | numeric => dsimp only; split <;> rfl
  | date => dsimp only; split <;> rfl
  | _ => rfl

theorem TextTest.clause_eq (t : TextTest) (res : Resolver) (r : Rule) :
    t.clause res r = (t.leaf res r).map Leaf.tokens := by
  rw [TextTest.clause, TextTest.leaf]
  cases fieldOf res r with
  | error e => rfl
  | ok field =>
    cases t with
    | anyOf => cases allLiterals r <;> simp [Leaf.tokens, Test.tokens]
    | _ => cases literalAt r 0 <;> simp [Leaf.tokens, Test.tokens, Scalar.text]

theorem IntervalTest.clause_eq (t : IntervalTest) (res : Resolver) (r : Rule) :
    t.clause res r = (t.leaf res r).map Leaf.tokens := by
  rw [IntervalTest.clause, IntervalTest.leaf]
  cases fieldOf res r with
  | error e => rfl
  | ok field =>
    cases hlower : literalAt r 0 with
    | error e => rfl
    | ok lower =>
      simp only [except_ok_bind, scalarOf_eq]
      cases operandOf r lower with
      | error e => rfl
      | ok value =>
        cases t with
        | between =>
          cases hupper : literalAt r 1 with
          | error e => rfl
          | ok upper =>
            simp only [except_ok_bind, except_map_ok]
            cases operandOf r upper with
            | error e => rfl
            | ok value' =>
              simp only [except_ok_bind, except_map_ok]
              cases checkBounds r value.text value'.text with
              | error e => rfl
              | ok _ =>
                simp [Leaf.tokens, Test.tokens, Bound.lowerText, Bound.upperText,
                  ← String.toList_inj]
        | _ =>
          simp [Leaf.tokens, Test.tokens, Bound.lowerText, Bound.upperText, ← String.toList_inj]

end Clause

namespace StockOperation

open Query Query.Token Clause

theorem spell_traversalClause {d : Dialect} (hopen : d.groupOpen ≠ "") (form : Traversal)
    (inverted : Bool) (res : Resolver) {text : Option (Except QueryError String)}
    {exprs : Nat → Option (Except QueryError (Option Expr))}
    (htext : text = (exprs 0).map (Except.map (Expr.spell? d form))) (r : Rule) :
    (form.clause inverted res text r).map (spellAll d)
      = ((StockOperation.traversal inverted).expr res exprs r).map (Expr.spell d form) := by
  rw [Traversal.clause, expr]
  cases fieldOf res r with
  | error e => rfl
  | ok field =>
    simp only [except_ok_bind, htext]
    rcases exprs 0 with _ | e | query
    · rfl
    · rfl
    · cases query with
      | none => simp [Expr.spell?]
      | some query =>
        have hquery : query.spell d form ≠ "" := Expr.spell_ne_empty hopen form query
        cases inverted with
        | false => simp [Expr.spell?, hquery, Expr.spell_traversal, Token.spell]
        | true =>
          simp [Expr.spell?, hquery, Expr.spell_traversal, Expr.spell_group, negated, Token.spell,
            String.append_assoc]

/-- The clause of a stock operation is spelled as its expression. -/
theorem spell_clause {d : Dialect} (hopen : d.groupOpen ≠ "") (form : Traversal)
    (o : StockOperation) (res : Resolver) (text : Option (Except QueryError String))
    (exprs : Nat → Option (Except QueryError (Option Expr)))
    (htext : text = (exprs 0).map (Except.map (Expr.spell? d form))) (r : Rule) :
    (o.clause res form text r).map (spellAll d)
      = (o.expr res exprs r).map (Expr.spell d form) := by
  cases o with
  | text t type =>
    rw [clause, expr, TextTest.clause_eq]
    cases t.leaf res r <;> rfl
  | interval t type =>
    rw [clause, expr, IntervalTest.clause_eq]
    cases t.leaf res r <;> rfl
  | truth inverted =>
    rw [clause, expr, truthClause]
    cases fieldOf res r with
    | error e => rfl
    | ok field =>
      cases literalAt r 0 with
      | error e => rfl
      | ok literal => simp only [except_ok_bind]; cases truthOf r literal <;> rfl
  | presence present type =>
    rw [clause, expr, presenceClause]
    cases fieldOf res r with
    | error e => rfl
    | ok field => cases present <;> rfl
  | traversal inverted => exact spell_traversalClause hopen form inverted res htext r

end StockOperation

namespace Compiler

open Query

/-- The compiler of the stock operations. -/
def stock (res : Resolver) (form : Clause.Traversal) (d : Dialect) : Compiler :=
  ⟨⟨StockOperation.registrations res form⟩, d⟩

theorem isStock_stock (res : Resolver) (form : Clause.Traversal) (d : Dialect) :
    (stock res form d).registry.IsStock :=
  StockOperation.isStock_registrations res form

/-- The text of a rule is the spelling of the clause of its operation. -/
theorem ruleText_eq_clause {res : Resolver} {form : Clause.Traversal} {d : Dialect}
    (nested : Node → Except QueryError String) (r : Rule) :
    (stock res form d).ruleText nested r =
      match StockOperation.find? r with
      | none => if r.optional then .ok "" else .error (.unknown r)
      | some o =>
        if o.arity.accepts r.values.length then
          (o.clause res form ((r.query? 0).map nested) r).map (Token.spellAll d)
        else .error (.malformed r (.wrongArity o.arity r.values.length)) := by
  rw [ruleText, stock, StockOperation.find?_registrations]
  cases StockOperation.find? r with
  | none => rfl
  | some o =>
    dsimp only [Option.map_some]
    rw [StockOperation.text_write]
    rfl

/-- The text of a rule is the spelling of its expression, if the first value is. -/
theorem ruleText_stock {d : Dialect} (hopen : d.groupOpen ≠ "") (res : Resolver)
    (form : Clause.Traversal) {nested : Node → Except QueryError String}
    {exprs : List (Option (Except QueryError (Option Expr)))} {r : Rule}
    (hfirst : (r.query? 0).map nested
      = exprs[0]?.join.map (Except.map (Expr.spell? d form))) :
    (stock res form d).ruleText nested r
      = (Node.ruleExpr res exprs r).map (Expr.spell? d form) := by
  rw [ruleText_eq_clause, Node.ruleExpr]
  cases StockOperation.find? r with
  | none =>
    dsimp only
    split <;> rfl
  | some o =>
    dsimp only
    by_cases harity : o.arity.accepts r.values.length
    · rw [if_pos harity, if_pos harity,
        StockOperation.spell_clause hopen form o res _ (fun i => exprs[i]?.join) hfirst r]
      cases o.expr res _ r <;> rfl
    · rw [if_neg harity, if_neg harity]
      rfl

/-- The text of a group only depends on the texts that are not empty. -/
theorem groupText_eq_spell {d : Dialect} (form : Clause.Traversal) (b : Boost) (j : Junction)
    {texts : List String} {members : List Expr}
    (h : (texts.filter fun s => !s.isEmpty) = members.map (Expr.spell d form)) :
    d.groupText b j texts = (Expr.group b j members).spell d form := by
  rw [Dialect.groupText, h, Expr.spell_group]

theorem filter_cons_spell? {d : Dialect} (hopen : d.groupOpen ≠ "") (form : Clause.Traversal)
    (e : Option Expr) (texts : List String) :
    ((Expr.spell? d form e :: texts).filter fun s => !s.isEmpty)
      = e.toList.map (Expr.spell d form) ++ texts.filter fun s => !s.isEmpty := by
  cases e with
  | none => simp [Expr.spell?]
  | some e => simp [Expr.spell?, Expr.spell_ne_empty hopen form e]

mutual

theorem nodeText_stock {d : Dialect} (hopen : d.groupOpen ≠ "") (res : Resolver)
    (form : Clause.Traversal) (n : Node) :
    (stock res form d).nodeText n = (n.expr res).map (Expr.spell? d form) := by
  match n with
  | .rule ⟨id, field, type, operation, values, optional⟩ =>
    rw [nodeText_rule (isStock_stock res form d), Node.expr]
    exact ruleText_stock hopen res form (firstQuery_stock hopen res form values)
  | .condition ⟨id, junction, boost, children⟩ =>
    rw [nodeText, Node.expr, except_bind_pure, except_bind_pure, except_map_map]
    exact except_map_congr (memberTexts_stock hopen res form children)
      fun texts members h => groupText_eq_spell form boost junction h

theorem memberTexts_stock {d : Dialect} (hopen : d.groupOpen ≠ "") (res : Resolver)
    (form : Clause.Traversal) (ns : List Node) :
    ((stock res form d).memberTexts ns).map (List.filter fun s => !s.isEmpty)
      = (Node.memberExprs res ns).map (List.map (Expr.spell d form)) := by
  match ns with
  | [] => rfl
  | n :: ns =>
    have hrest := memberTexts_stock hopen res form ns
    rw [memberTexts, Node.memberExprs, nodeText_stock hopen res form n]
    cases n.expr res with
    | error e => rfl
    | ok e =>
      simp only [except_map_ok, except_ok_bind]
      rw [except_bind_pure, except_bind_pure, except_map_map, except_map_map]
      refine except_map_congr hrest fun texts members h => ?_
      simp only [Function.comp_apply, filter_cons_spell? hopen form, h, List.map_append]

theorem firstQuery_stock {d : Dialect} (hopen : d.groupOpen ≠ "") (res : Resolver)
    (form : Clause.Traversal) (vs : List Value) :
    (vs[0]?.bind Value.query?).map (stock res form d).nodeText
      = (Node.queryExprs res vs)[0]?.join.map (Except.map (Expr.spell? d form)) := by
  match vs with
  | [] => rfl
  | .literal _ :: _ => rfl
  | .query n :: _ => exact congrArg some (nodeText_stock hopen res form n)

end

theorem compile_eq_ok_iff {res : Resolver} {form : Clause.Traversal} {d : Dialect} {n : Node}
    {s : String} : (stock res form d).compile n = .ok s ↔
      n.checkIds = .ok () ∧ (stock res form d).nodeText n = .ok s := by
  rw [compile_eq_nodeText (isStock_stock res form d), except_seq_eq_ok]

/-- The query of a tree is the spelling of its expression. -/
theorem compile_stock {d : Dialect} (hopen : d.groupOpen ≠ "") (res : Resolver)
    (form : Clause.Traversal) (n : Node) : (stock res form d).compile n
      = (do n.checkIds; n.expr res).map (Expr.spell? d form) := by
  rw [compile_eq_nodeText (isStock_stock res form d),
    nodeText_stock hopen res form n]
  cases n.checkIds <;> rfl

end Compiler

theorem Dialect.groupOpen_ne_empty {d : Dialect} (h : d.validate = .ok ()) : d.groupOpen ≠ "" := by
  intro hempty
  simp [validate, fault?, hempty] at h

/-- A tree has no query for one and the same reason under every valid dialect, or it has one list
of tokens, of which its query under a valid dialect is the spelling; never both. -/
theorem dialect_only_spells_tokens (res : Resolver) (form : Clause.Traversal) (n : Node) :
    ∃ g, Registry.build (StockOperation.registrations res form) = .ok g ∧
      Xor (∃ e, ∀ d : Dialect, d.validate = .ok () → (Compiler.mk g d).compile n = .error e)
        (∃ ts, ∀ d : Dialect, d.validate = .ok () →
          (Compiler.mk g d).compile n = .ok (Query.Token.spellAll d ts)) := by
  refine ⟨_, StockOperation.build_registrations res form, ?_⟩
  have hcompile (d : Dialect) (hd : d.validate = .ok ()) :=
    Compiler.compile_stock (Dialect.groupOpen_ne_empty hd) res form n
  have hstandard : Dialect.validate {} = .ok () := by decide
  cases hresult : (do n.checkIds; n.expr res : Except QueryError (Option Query.Expr)) with
  | error e =>
    have hfails (d : Dialect) (hd : d.validate = .ok ()) :
        (Compiler.stock res form d).compile n = .error e := by rw [hcompile d hd, hresult]; rfl
    refine .inl ⟨⟨e, hfails⟩, fun ⟨ts, hspells⟩ => ?_⟩
    have := (hfails {} hstandard).symm.trans (hspells {} hstandard)
    cases this
  | ok e =>
    have hspells (d : Dialect) (hd : d.validate = .ok ()) : (Compiler.stock res form d).compile n
        = .ok (Query.Token.spellAll d (e.elim [] (Query.Expr.tokens form))) := by
      rw [hcompile d hd, hresult]
      cases e <;> rfl
    refine .inr ⟨⟨_, hspells⟩, fun ⟨e', hfails⟩ => ?_⟩
    have := (hfails {} hstandard).symm.trans (hspells {} hstandard)
    cases this

/-- The tokens of a group with a list of values and the negated traversal to an embedded query. -/
theorem dialect_only_spells_tokens_of_negated_traversal (d : Dialect) (hd : d.validate = .ok ()) :
    let res : Resolver := ({} : Namespaces)
    let n : Node := .condition ⟨"c", .and, .should,
      [.rule ⟨"a", "state", .string, "in", [.literal "open", .literal "new"], false⟩,
        .rule ⟨"b", "owner", .uri, "not_set_to_query",
          [.query (.rule ⟨"d", "name", .string, "is_set", [], false⟩)], false⟩]⟩
    Compiler.compile ⟨⟨StockOperation.registrations res .standard⟩, d⟩ n
      = .ok (Query.Token.spellAll d
        [.mark .should, .groupOpen, .text "state:", .groupOpen, .text "\"open\"", .junction .or,
          .text "\"new\"", .groupClose, .junction .and, .mark .exclude, .groupOpen,
          .text "owner:\x7b", .text "ISNOTNULL:\"name\"", .text "\x7d", .groupClose,
          .groupClose]) := by
  intro res n
  have hcompile := Compiler.compile_stock (Dialect.groupOpen_ne_empty hd) res .standard n
  have hids : n.checkIds = .ok () := by decide +kernel
  have hexpr : n.expr res = .ok (some (.group .should .and
      [.leaf (.test "state" (.anyOf ["open", "new"])),
        .group .exclude .and [.traversal "owner" (.leaf (.presence true "name"))]])) := by
    rfl
  rw [Compiler.stock] at hcompile
  rw [hcompile, hids, hexpr]
  rfl

end SearchFilter
