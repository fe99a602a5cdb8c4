import SearchFilter.Proofs.Except
import SearchFilter.Proofs.Json.Nesting
import SearchFilter.Tree.Decode
import SearchFilter.Tree.Encode

/-!
# Reading a tree document undoes writing it

The reader finds the members of a node in the order of their names and not in the order in which
they were written; each member sets a field of its own, so the order does not matter.
-/

namespace SearchFilter

open Json (orderedAll)

namespace Node

/-- The members of a rule as a reader holds them. -/
def ruleMembers (r : Rule) : List Json.Member :=
  [⟨"field", .string r.field⟩, ⟨"id", .string r.id⟩, ⟨"nodeType", .string NodeKind.rule.name⟩,
    ⟨"operation", .string r.operation⟩]
  ++ (if r.optional then [⟨"optional", .bool true⟩] else [])
  ++ [⟨"type", .string r.type.name⟩, ⟨"values", .array (orderedAll (Value.toJsonAll r.values))⟩]

/-- The members of a condition as a reader holds them. -/
def conditionMembers (c : Condition) : List Json.Member :=
  [⟨"boost", .string c.boost.name⟩, ⟨"children", .array (orderedAll (toJsonAll c.children))⟩,
    ⟨"id", .string c.id⟩, ⟨"junction", .string c.junction.name⟩,
    ⟨"nodeType", .string NodeKind.condition.name⟩]

theorem ordered_rule (r : Rule) : (Node.rule r).toJson.ordered = .object (ruleMembers r) := by
  obtain ⟨id, field, type, operation, values, optional⟩ := r
  cases optional <;>
    simp only [toJson, ruleMembers, Json.ordered, Json.orderedMembers, Json.ofMembers,
      Order.ofListBy, Order.insertBy, List.foldl_cons, List.foldl_nil, List.cons_append,
      List.nil_append, List.append_nil, String.reduceLT, String.reduceEq, if_true, if_false,
      Bool.false_eq_true]

theorem ordered_condition (c : Condition) :
    (Node.condition c).toJson.ordered = .object (conditionMembers c) := by
  obtain ⟨id, junction, boost, children⟩ := c
  simp only [toJson, conditionMembers, Json.ordered, Json.orderedMembers, Json.ofMembers,
    Order.ofListBy, Order.insertBy, List.foldl_cons, List.foldl_nil, String.reduceLT,
    String.reduceEq, if_true, if_false]

/-- A node is written as an object. -/
theorem exists_ordered_eq_object (n : Node) : ∃ ms, n.toJson.ordered = .object ms := by
  cases n with
  | rule r => exact ⟨_, ordered_rule r⟩
  | condition c => exact ⟨_, ordered_condition c⟩

end Node

namespace Tree

/-! ## Fields -/

@[simp] theorem decodeType_name (t : ValueType) : decodeType (.string t.name) = .ok t := by
  cases t <;> rfl

@[simp] theorem decodeJunction_name (j : Junction) : decodeJunction (.string j.name) = .ok j := by
  cases j <;> rfl

@[simp] theorem decodeBoost_name (b : Boost) : decodeBoost (.string b.name) = .ok b := by
  cases b <;> rfl

@[simp] theorem decodeTag_name (root : Bool) (k : NodeKind) :
    decodeTag root (.string k.name) = .ok k := by
  cases k <;> rfl

@[simp] theorem isSome_ofName?_tagText (k : NodeKind) :
    (NodeKind.ofName? (tagText (.string k.name))).isSome = true := by
  cases k <;> rfl

theorem decodeRuleMembers_ruleMembers {r : Rule}
    (h : decodeAllValues (orderedAll (Value.toJsonAll r.values)) = .ok r.values) :
    decodeRuleMembers {} (Node.ruleMembers r)
      = .ok ⟨some r.id, some r.field, some r.type, some r.operation, r.values, r.optional⟩ := by
  obtain ⟨id, field, type, operation, values, optional⟩ := r
  cases optional <;>
    simp [Node.ruleMembers, decodeRuleMembers, decodeText, decodeBool, decodeValues, h]

theorem decodeConditionMembers_conditionMembers {c : Condition}
    (h : decodeAllNodes (orderedAll (Node.toJsonAll c.children)) = .ok c.children) :
    decodeConditionMembers {} (Node.conditionMembers c)
      = .ok ⟨some c.id, c.junction, c.boost, c.children⟩ := by
  obtain ⟨id, junction, boost, children⟩ := c
  simp [Node.conditionMembers, decodeConditionMembers, decodeText, decodeChildren, h]

theorem find?_nodeType_ruleMembers (r : Rule) :
    Json.find? "nodeType" (Node.ruleMembers r) = some (.string NodeKind.rule.name) := by
  simp [Json.find?, Order.findBy?, Node.ruleMembers]

theorem find?_nodeType_conditionMembers (c : Condition) :
    Json.find? "nodeType" (Node.conditionMembers c) = some (.string NodeKind.condition.name) := by
  simp [Json.find?, Order.findBy?, Node.conditionMembers]

/-! ## Nodes -/

theorem decodeNode_rule (root : Bool) {r : Rule}
    (h : decodeAllValues (orderedAll (Value.toJsonAll r.values)) = .ok r.values) :
    decodeNode root (.object (Node.ruleMembers r)) = .ok (.rule r) := by
  have hmembers := decodeRuleMembers_ruleMembers h
  obtain ⟨id, field, type, operation, values, optional⟩ := r
  simp [decodeNode, find?_nodeType_ruleMembers, require, hmembers, RuleFields.toRule]

theorem decodeNode_condition (root : Bool) {c : Condition}
    (h : decodeAllNodes (orderedAll (Node.toJsonAll c.children)) = .ok c.children) :
    decodeNode root (.object (Node.conditionMembers c)) = .ok (.condition c) := by
  have hmembers := decodeConditionMembers_conditionMembers h
  obtain ⟨id, junction, boost, children⟩ := c
  simp [decodeNode, find?_nodeType_conditionMembers, require, hmembers,
    ConditionFields.toCondition]

/-- An object among values is an embedded query if it is a node. -/
theorem decodeAllValues_object {ms : List Json.Member} {n : Node}
    (h : decodeNode false (.object ms) = .ok n) (vs : List Json) :
    decodeAllValues (.object ms :: vs) = (decodeAllValues vs).map (.query n :: ·) := by
  rw [decodeAllValues, h]
  · exact except_bind_pure _ _
  · simp

mutual

/-- A node is read off the value that it is written as. -/
theorem decodeNode_ordered (root : Bool) (n : Node) :
    decodeNode root n.toJson.ordered = .ok n := by
  match n with
  | .rule ⟨id, field, type, operation, values, optional⟩ =>
    rw [Node.ordered_rule]
    exact decodeNode_rule root (decodeAllValues_ordered values)
  | .condition ⟨id, junction, boost, children⟩ =>
    rw [Node.ordered_condition]
    exact decodeNode_condition root (decodeAllNodes_ordered children)

theorem decodeAllNodes_ordered (ns : List Node) :
    decodeAllNodes (orderedAll (Node.toJsonAll ns)) = .ok ns := by
  match ns with
  | [] => rfl
  | n :: ns =>
    rw [Node.toJsonAll, orderedAll, decodeAllNodes, decodeNode_ordered false n,
      decodeAllNodes_ordered ns]
    rfl

theorem decodeAllValues_ordered (vs : List Value) :
    decodeAllValues (orderedAll (Value.toJsonAll vs)) = .ok vs := by
  match vs with
  | [] => rfl
  | .literal s :: vs =>
    rw [Value.toJsonAll, orderedAll, Json.ordered, decodeAllValues, decodeAllValues_ordered vs]
    · rfl
    · simp
    · simp
  | .query n :: vs =>
    -- A node is an object, so it is not taken for a literal.
    have hnode := decodeNode_ordered false n
    obtain ⟨ms, hms⟩ := n.exists_ordered_eq_object
    rw [hms] at hnode
    rw [Value.toJsonAll, orderedAll, hms, decodeAllValues_object hnode,
      decodeAllValues_ordered vs]
    rfl

end

/-! ## Tags -/

theorem checkTags_rule {r : Rule}
    (h : checkAllTags (orderedAll (Value.toJsonAll r.values)) = .ok ()) :
    checkTags (.object (Node.ruleMembers r)) = .ok () := by
  have htag : checkTag (Node.ruleMembers r) = .ok () := by
    simp [checkTag, find?_nodeType_ruleMembers]
  obtain ⟨id, field, type, operation, values, optional⟩ := r
  rw [checkTags, htag]
  cases optional <;> simp [Node.ruleMembers, checkTagsUnder, checkTagsIn, h]

theorem checkTags_condition {c : Condition}
    (h : checkAllTags (orderedAll (Node.toJsonAll c.children)) = .ok ()) :
    checkTags (.object (Node.conditionMembers c)) = .ok () := by
  have htag : checkTag (Node.conditionMembers c) = .ok () := by
    simp [checkTag, find?_nodeType_conditionMembers]
  rw [checkTags, htag]
  simp [Node.conditionMembers, checkTagsUnder, checkTagsIn, h]

mutual

/-- Every tag that is written names a kind of nodes. -/
theorem checkTags_ordered (n : Node) : checkTags n.toJson.ordered = .ok () := by
  match n with
  | .rule ⟨id, field, type, operation, values, optional⟩ =>
    rw [Node.ordered_rule]
    exact checkTags_rule (checkAllTags_orderedValues values)
  | .condition ⟨id, junction, boost, children⟩ =>
    rw [Node.ordered_condition]
    exact checkTags_condition (checkAllTags_orderedNodes children)

theorem checkAllTags_orderedNodes (ns : List Node) :
    checkAllTags (orderedAll (Node.toJsonAll ns)) = .ok () := by
  match ns with
  | [] => rfl
  | n :: ns =>
    rw [Node.toJsonAll, orderedAll, checkAllTags, checkTags_ordered n]
    exact checkAllTags_orderedNodes ns

theorem checkAllTags_orderedValues (vs : List Value) :
    checkAllTags (orderedAll (Value.toJsonAll vs)) = .ok () := by
  match vs with
  | [] => rfl
  | .literal s :: vs =>
    rw [Value.toJsonAll, orderedAll]
    exact checkAllTags_orderedValues vs
  | .query n :: vs =>
    rw [Value.toJsonAll, orderedAll, checkAllTags, checkTags_ordered n]
    exact checkAllTags_orderedValues vs

end

end Tree

namespace Node

open Json (NumberFree)

/-! ## Documents -/

mutual

/-- Nothing in a tree is written as a number. -/
theorem numberFree_toJson (n : Node) : n.toJson.NumberFree := by
  match n with
  | .rule ⟨id, field, type, operation, values, optional⟩ =>
    have hvalues := NumberFree.array (numberFree_toJsonAll_values values)
    rw [toJson]
    refine .object (List.forall_mem_append.mpr ⟨?_, ?_⟩)
    · simp only [List.forall_mem_cons]
      exact ⟨.string _, .string _, .string _, .string _, .string _, hvalues, by simp⟩
    · cases optional with
      | false => simp
      | true => simp [NumberFree.bool]
  | .condition ⟨id, junction, boost, children⟩ =>
    have hchildren := NumberFree.array (numberFree_toJsonAll children)
    rw [toJson]
    refine .object ?_
    simp only [List.forall_mem_cons]
    exact ⟨.string _, .string _, .string _, .string _, hchildren, by simp⟩

theorem numberFree_toJsonAll (ns : List Node) : ∀ v ∈ toJsonAll ns, v.NumberFree := by
  match ns with
  | [] => simp [toJsonAll]
  | n :: ns =>
    rw [toJsonAll]
    exact List.forall_mem_cons.mpr ⟨numberFree_toJson n, numberFree_toJsonAll ns⟩

theorem numberFree_toJsonAll_values (vs : List Value) :
    ∀ v ∈ Value.toJsonAll vs, v.NumberFree := by
  match vs with
  | [] => simp [Value.toJsonAll]
  | .literal s :: vs =>
    rw [Value.toJsonAll]
    exact List.forall_mem_cons.mpr ⟨.string s, numberFree_toJsonAll_values vs⟩
  | .query n :: vs =>
    rw [Value.toJsonAll]
    exact List.forall_mem_cons.mpr ⟨numberFree_toJson n, numberFree_toJsonAll_values vs⟩

end

/-- Decoding undoes encoding: a tree with unique ids is read off the value that it is written as,
and off its document, unless that is nested deeper than the reader goes. -/
theorem ofDocument_render {t : Node} (h : t.checkIds = .ok ()) :
    ofJson t.toJson.ordered = .ok t ∧
      (t.toJson.depth ≤ 127 → ofDocument t.render = .ok t) ∧
      (127 < t.toJson.depth → ofDocument t.render = .error (.invalidTree .notJson)) := by
  have hvalue : ofJson t.toJson.ordered = .ok t := by
    rw [ofJson, Tree.checkTags_ordered, Tree.decodeNode_ordered, except_ok_bind]
    simp only [h]
    rfl
  have hparse := Json.parse?_render (numberFree_toJson t)
  refine ⟨hvalue, fun hdepth => ?_, fun hdepth => ?_⟩
  · have hdepth' : t.toJson.depth ≤ Json.depthLimit := hdepth
    rw [if_pos hdepth'] at hparse
    rw [ofDocument, render, hparse]
    exact hvalue
  · have hdepth' : ¬ t.toJson.depth ≤ Json.depthLimit := Nat.not_le_of_lt hdepth
    rw [if_neg hdepth'] at hparse
    rw [ofDocument, render, hparse]

/-- A tree with an embedded query and with escapes in a literal is read off its document. Each
condition takes two levels, so the sixty-fourth one is out of reach. -/
theorem ofDocument_render_of_nested_conditions :
    let t : Node := .condition ⟨"a", .or, .exclude,
      [.rule ⟨"b", "owner", .uri, "set_to_query",
        [.literal "say \"\x01\n\"",
          .query (.rule ⟨"a", "name", .string, "equals", [.literal "x"], false⟩)], true⟩]⟩
    let deep : Node := (List.range 63).foldr (fun i n => .condition ⟨toString i, .and, .none, [n]⟩)
      (.condition ⟨"last", .and, .none, []⟩)
    t.checkIds = .ok () ∧ t.toJson.depth ≤ 127 ∧ ofJson t.toJson.ordered = .ok t ∧
      ofDocument t.render = .ok t ∧ deep.checkIds = .ok () ∧ deep.toJson.depth = 128 ∧
      ofJson deep.toJson.ordered = .ok deep ∧
      ofDocument deep.render = .error (.invalidTree .notJson) := by
  intro t deep
  have hids : t.checkIds = .ok () := by rfl
  have hdepth : t.toJson.depth ≤ 127 := by decide +kernel
  have hids' : deep.checkIds = .ok () := by decide +kernel
  have hdepth' : deep.toJson.depth = 128 := by decide +kernel
  obtain ⟨hvalue, hdocument, _⟩ := ofDocument_render hids
  obtain ⟨hvalue', _, hdocument'⟩ := ofDocument_render hids'
  exact ⟨hids, hdepth, hvalue, hdocument hdepth, hids', hdepth', hvalue',
    hdocument' (by rw [hdepth']; decide)⟩

end Node

end SearchFilter
