import SearchFilter.Proofs.Query.Spelling
import SearchFilter.Proofs.Tree.Place

/-!
# The text of a node in the text of a tree

Where a tree is written as far as a node, the text of the node stands in the text of the tree, and
the texts on both sides of it belong to the place: they stay as they are when another node with a
text of its own is put there.
-/

namespace SearchFilter

namespace Clause

open Query Query.Token

theorem fieldOf_congr {res : Resolver} {r r' : Rule} {field : String}
    (h : fieldOf res r = .ok field) (hfield : r.field = r'.field) :
    fieldOf res r' = .ok field := by
  rw [fieldOf] at h ⊢
  rw [← hfield]
  cases hidentifier : res.identify? r.field with
  | none => simp [hidentifier] at h
  | some identifier =>
    simp only [hidentifier] at h ⊢
    split at h
    · rename_i hvalid
      rw [if_pos hvalid]
      exact h
    · cases h

theorem TextTest.literals_of_clause {t : TextTest} {res : Resolver} {r : Rule} {ts : List Token}
    (harity : t.arity.accepts r.values.length) (h : t.clause res r = .ok ts) :
    ∀ i < r.values.length, ∃ s, literalAt r i = .ok s := by
  intro i hi
  obtain ⟨field, -, h⟩ := except_bind_eq_ok.mp h
  cases t with
  | anyOf =>
    obtain ⟨ss, hss, -⟩ := except_bind_eq_ok.mp h
    exact exists_of_mapM_of_mem hss (List.mem_range.mpr hi)
  | _ =>
    obtain ⟨s, hs, -⟩ := except_bind_eq_ok.mp h
    have hone : r.values.length = 1 := by simpa [arity, Arity.accepts] using harity
    obtain rfl : i = 0 := by omega
    exact ⟨s, hs⟩

theorem IntervalTest.literals_of_clause {t : IntervalTest} {res : Resolver} {r : Rule}
    {ts : List Token} (harity : t.arity.accepts r.values.length) (h : t.clause res r = .ok ts) :
    ∀ i < r.values.length, ∃ s, literalAt r i = .ok s := by
  intro i hi
  obtain ⟨field, -, h⟩ := except_bind_eq_ok.mp h
  obtain ⟨lower, hlower, h⟩ := except_bind_eq_ok.mp h
  obtain ⟨value, -, h⟩ := except_bind_eq_ok.mp h
  cases t with
  | between =>
    obtain ⟨upper, hupper, -⟩ := except_bind_eq_ok.mp h
    have htwo : r.values.length = 2 := by simpa [arity, Arity.accepts] using harity
    obtain rfl | rfl : i = 0 ∨ i = 1 := by omega
    · exact ⟨lower, hlower⟩
    · exact ⟨upper, hupper⟩
  | _ =>
    have hone : r.values.length = 1 := by simpa [arity, Arity.accepts] using harity
    obtain rfl : i = 0 := by omega
    exact ⟨lower, hlower⟩

/-- The query stands between two texts in the clause of a traversal. -/
theorem Traversal.spell_around (d : Dialect) (form : Traversal) (inverted : Bool)
    (field : String) : ∃ l r, ∀ query,
      spellAll d (if inverted then negated [.text (form.fill field query)]
        else [.text (form.fill field query)]) = l ++ query ++ r := by
  cases inverted with
  | false =>
    refine ⟨String.ofList (replace fieldSlot field.toList form.before),
      String.ofList (replace fieldSlot field.toList form.after), fun query => ?_⟩
    simp [fill, Token.spell]
  | true =>
    refine ⟨d.markText .exclude ++ d.groupOpen
        ++ String.ofList (replace fieldSlot field.toList form.before),
      String.ofList (replace fieldSlot field.toList form.after) ++ d.groupClose, fun query => ?_⟩
    simp [fill, negated, Token.spell, String.append_assoc]

end Clause

namespace StockOperation

open Clause Query.Token

/-- An operation that is no traversal only writes rules whose values are literals. -/
theorem literals_of_clause {o : StockOperation} {res : Resolver} {form : Traversal}
    {embedded : Option (Except QueryError String)} {r : Rule} {ts : List Query.Token}
    (harity : o.arity.accepts r.values.length) (h : o.clause res form embedded r = .ok ts)
    (ho : ∀ inverted, o ≠ .traversal inverted) :
    ∀ i < r.values.length, ∃ s, literalAt r i = .ok s := by
  cases o with
  | text t type => exact TextTest.literals_of_clause harity h
  | interval t type => exact IntervalTest.literals_of_clause harity h
  | truth inverted =>
    intro i hi
    obtain ⟨field, -, h⟩ := except_bind_eq_ok.mp h
    obtain ⟨s, hs, -⟩ := except_bind_eq_ok.mp h
    have hone : r.values.length = 1 := by simpa [arity, Arity.accepts] using harity
    obtain rfl : i = 0 := by omega
    exact ⟨s, hs⟩
  | presence present type =>
    intro i hi
    have hnone : r.values.length = 0 := by simpa [arity, Arity.accepts] using harity
    omega
  | traversal inverted => exact absurd rfl (ho inverted)

/-- A rule with an embedded query that can be written is a traversal, and the query is its only
value. -/
theorem eq_traversal_of_clause {o : StockOperation} {res : Resolver} {form : Traversal}
    {embedded : Option (Except QueryError String)} {r : Rule} {ts : List Query.Token}
    {before after : List Value} {n : Node} (hvalues : r.values = before ++ .query n :: after)
    (harity : o.arity.accepts r.values.length) (h : o.clause res form embedded r = .ok ts) :
    (∃ inverted, o = .traversal inverted) ∧ before = [] ∧ after = [] := by
  have ho : ∃ inverted, o = .traversal inverted := by
    by_contra hno
    have hlength : before.length < r.values.length := by simp [hvalues]
    obtain ⟨s, hs⟩ := literals_of_clause harity h (fun inverted heq => hno ⟨inverted, heq⟩)
      before.length hlength
    simp [literalAt, Rule.literal?, hvalues, Value.literal?] at hs
  obtain ⟨inverted, rfl⟩ := ho
  have hone : before.length + (after.length + 1) = 1 := by
    simpa [arity, Arity.accepts, hvalues] using harity
  exact ⟨⟨inverted, rfl⟩, List.length_eq_zero_iff.mp (by omega),
    List.length_eq_zero_iff.mp (by omega)⟩

end StockOperation

namespace Compiler

/-- The node is not passed over: a rule has an operation. -/
def Writes (c : Compiler) : Node → Prop
  | .rule r => (c.registry.find? r).isSome
  | .condition _ => True

/-- The tree with the node in the place is written as far as the node. -/
def Reaches (c : Compiler) (n : Node) : Place → Prop
  | [] => True
  | s :: p => c.Writes (s.fill (Place.fill p n)) ∧ c.Reaches n p

/-- What is put in stands between two texts that do not depend on it, as long as it has a text. -/
def Frames (c : Compiler) (fill : Node → Node) : Prop :=
  ∃ l r, ∀ n x, c.nodeText n = .ok x → x ≠ "" → c.nodeText (fill n) = .ok (l ++ x ++ r)

/-! ## Members of a group -/

theorem memberTexts_eq_mapM (c : Compiler) (ns : List Node) :
    c.memberTexts ns = ns.mapM c.nodeText := by
  induction ns with
  | nil => rfl
  | cons n ns ih => rw [memberTexts, List.mapM_cons, ih]

theorem memberTexts_append (c : Compiler) (ns ms : List Node) : c.memberTexts (ns ++ ms)
    = (do let pre ← c.memberTexts ns; return pre ++ (← c.memberTexts ms)) := by
  simp only [memberTexts_eq_mapM, List.mapM_append]

/-- Every text of a member stands in a place of its own. -/
theorem memberTexts_around {c : Compiler} {before after : List Node} {n : Node}
    {texts : List String} (h : c.memberTexts (before ++ n :: after) = .ok texts) :
    ∃ pre x post, c.nodeText n = .ok x ∧ texts = pre ++ x :: post ∧
      ∀ n' x', c.nodeText n' = .ok x' →
        c.memberTexts (before ++ n' :: after) = .ok (pre ++ x' :: post) := by
  rw [memberTexts_append] at h
  obtain ⟨pre, hpre, h⟩ := except_bind_eq_ok.mp h
  obtain ⟨xs, hxs, h⟩ := except_bind_eq_ok.mp h
  rw [memberTexts] at hxs
  obtain ⟨x, hx, hxs⟩ := except_bind_eq_ok.mp hxs
  obtain ⟨post, hpost, hxs⟩ := except_bind_eq_ok.mp hxs
  cases hxs
  cases h
  refine ⟨pre, x, post, hx, rfl, fun n' x' hx' => ?_⟩
  rw [memberTexts_append, memberTexts, hpre, hx', hpost]
  rfl

theorem intercalate_around (separator s : String) (before after : List String) :
    separator.intercalate (before ++ s :: after)
      = String.join (before.map (· ++ separator)) ++ s
        ++ String.join (after.map (separator ++ ·)) := by
  induction before with
  | nil => simp [intercalate_cons]
  | cons s' before ih =>
    rw [List.cons_append, String.intercalate_cons_of_ne_nil (by simp), ih, List.map_cons,
      String.join_cons]
    simp only [String.append_assoc]

theorem groupText_around (d : Dialect) (b : Boost) (j : Junction) (pre post : List String) :
    ∃ l r, ∀ x ≠ "", d.groupText b j (pre ++ x :: post) = l ++ x ++ r := by
  refine ⟨d.markText b ++ d.groupOpen
      ++ String.join ((pre.filter fun s => !s.isEmpty).map (· ++ d.separator j)),
    String.join ((post.filter fun s => !s.isEmpty).map (d.separator j ++ ·)) ++ d.groupClose,
    fun x hx => ?_⟩
  have hkept : x.isEmpty = false := by simpa using hx
  simp only [Dialect.groupText, List.filter_append, List.filter_cons, hkept, Bool.not_false,
    if_true, intercalate_around, String.append_assoc]

/-! ## The way down to a node -/

section

variable {res : Resolver} {form : Clause.Traversal} {d : Dialect}

theorem nodeText_child {id : String} {j : Junction} {b : Boost} {before after : List Node}
    {n : Node} {text : String} {c : Compiler}
    (h : c.nodeText ((Step.child id j b before after).fill n) = .ok text) :
    (∃ x, c.nodeText n = .ok x) ∧ c.Frames (Step.child id j b before after).fill := by
  rw [Step.fill, nodeText] at h
  obtain ⟨texts, htexts, -⟩ := except_bind_eq_ok.mp h
  obtain ⟨pre, x, post, hx, -, haround⟩ := memberTexts_around htexts
  obtain ⟨l, r, hgroup⟩ := groupText_around c.dialect b j pre post
  refine ⟨⟨x, hx⟩, l, r, fun n' x' hx' hne => ?_⟩
  rw [Step.fill, nodeText, haround n' x' hx', except_ok_bind, hgroup x' hne]
  rfl

/-- The text of a rule that has an operation is the spelling of its clause. -/
theorem ruleText_eq_ok {nested : Node → Except QueryError String} {r : Rule}
    {text : String} (h : (stock res form d).ruleText nested r = .ok text)
    (hw : (stock res form d).Writes (.rule r)) :
    ∃ o, StockOperation.find? r = some o ∧ o.arity.accepts r.values.length = true ∧
      (o.clause res form ((r.query? 0).map nested) r).map (Query.Token.spellAll d)
        = .ok text := by
  rw [Writes, stock, StockOperation.find?_registrations, Option.isSome_map] at hw
  obtain ⟨o, ho⟩ := Option.isSome_iff_exists.mp hw
  rw [ruleText_eq_clause, ho] at h
  dsimp only at h
  split at h
  next harity => exact ⟨o, ho, harity, h⟩
  · cases h

theorem ruleText_of_clause {nested : Node → Except QueryError String} {r : Rule}
    {o : StockOperation} {ts : List Query.Token} (ho : StockOperation.find? r = some o)
    (harity : o.arity.accepts r.values.length = true)
    (h : o.clause res form ((r.query? 0).map nested) r = .ok ts) :
    (stock res form d).ruleText nested r = .ok (Query.Token.spellAll d ts) := by
  rw [ruleText_eq_clause, ho]
  dsimp only
  rw [if_pos harity, h]
  rfl

theorem nodeText_query {id field operation : String} {type : ValueType} {optional : Bool}
    {before after : List Value} {n : Node} {text : String}
    (h : (stock res form d).nodeText
      ((Step.query id field type operation optional before after).fill n) = .ok text)
    (hw : (stock res form d).Writes
      ((Step.query id field type operation optional before after).fill n)) :
    (∃ x, (stock res form d).nodeText n = .ok x) ∧ (stock res form d).Frames
      (Step.query id field type operation optional before after).fill := by
  rw [Step.fill, nodeText_rule (isStock_stock res form d)] at h
  obtain ⟨o, ho, harity, h⟩ := ruleText_eq_ok h hw
  obtain ⟨ts, hts, -⟩ := except_map_eq_ok.mp h
  obtain ⟨⟨inverted, rfl⟩, rfl, rfl⟩ := StockOperation.eq_traversal_of_clause rfl harity hts
  rw [StockOperation.clause, Clause.Traversal.clause_eq_ok_iff] at hts
  obtain ⟨identifier, x, hidentifier, hembedded, -⟩ := hts
  have hx : (stock res form d).nodeText n = .ok x := Option.some.inj hembedded
  obtain ⟨l, r, hspell⟩ := Clause.Traversal.spell_around d form inverted identifier
  refine ⟨⟨x, hx⟩, l, r, fun n' x' hx' hne => ?_⟩
  let rule : Rule := ⟨id, field, type, operation, [.query n'], optional⟩
  have hidentifier' : Clause.fieldOf res rule = .ok identifier :=
    Clause.fieldOf_congr hidentifier rfl
  have hclause' : form.clause inverted res
      ((rule.query? 0).map (stock res form d).nodeText) rule = .ok _ :=
    Clause.Traversal.clause_of_text inverted hidentifier' (congrArg some hx') hne
  rw [Step.fill, nodeText_rule (isStock_stock res form d), ← hspell x']
  exact ruleText_of_clause ho harity hclause'

theorem nodeText_step {s : Step} {n : Node} {text : String}
    (h : (stock res form d).nodeText (s.fill n) = .ok text)
    (hw : (stock res form d).Writes (s.fill n)) :
    (∃ x, (stock res form d).nodeText n = .ok x) ∧ (stock res form d).Frames s.fill := by
  cases s with
  | child => exact nodeText_child h
  | query => exact nodeText_query h hw

/-- A node that is reached has a text, and the place around it frames whatever is put there. -/
theorem nodeText_fill {p : Place} {n : Node} {text : String}
    (h : (stock res form d).nodeText (p.fill n) = .ok text)
    (hp : (stock res form d).Reaches n p) :
    (∃ x, (stock res form d).nodeText n = .ok x) ∧ (stock res form d).Frames p.fill := by
  induction p generalizing text with
  | nil => exact ⟨⟨text, h⟩, "", "", fun n' x hx _ => by simpa using hx⟩
  | cons s p ih =>
    obtain ⟨hw, hp⟩ := hp
    obtain ⟨⟨inner, hinner⟩, l, r, hstep⟩ := nodeText_step h hw
    obtain ⟨hx, l', r', hplace⟩ := ih hinner hp
    refine ⟨hx, l ++ l', r' ++ r, fun n' x hx hne => ?_⟩
    have hne' : l' ++ x ++ r' ≠ "" := by simp [hne]
    rw [Place.fill_cons, hstep _ _ (hplace n' x hx hne) hne']
    simp only [String.append_assoc]

end

end Compiler

end SearchFilter
