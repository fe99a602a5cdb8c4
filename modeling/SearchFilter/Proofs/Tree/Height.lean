import SearchFilter.Proofs.Json.Depth
import SearchFilter.Proofs.Tree.Decoding
import SearchFilter.Proofs.Tree.Document
import SearchFilter.Tree.Equality

/-!
# How high trees are

A node takes two levels of its document, its own and that of the array below it. A written tree has
the array even where it is empty; a document may leave it out, so a tree can be written one level
deeper than it was read.
-/

namespace SearchFilter

open Json (depthOfAll depthOfMembers)

namespace Node

/-- The children of a condition, and the queries embedded in a rule. -/
def parts : Node → List Node
  | .rule r => r.values.filterMap Value.query?
  | .condition c => c.children

theorem heightOfQueries_eq (vs : List Value) :
    heightOfQueries vs = heightOfAll (vs.filterMap Value.query?) := by
  induction vs with
  | nil => rfl
  | cons v vs ih =>
    cases v with
    | literal s => exact ih
    | query n => rw [heightOfQueries, ih]; rfl

/-- A node is one higher than its highest part. -/
theorem height_eq (n : Node) : n.height = heightOfAll n.parts + 1 := by
  cases n with
  | rule r =>
    obtain ⟨id, field, type, operation, values, optional⟩ := r
    rw [height, heightOfQueries_eq]
    rfl
  | condition c =>
    obtain ⟨id, junction, boost, children⟩ := c
    rw [height]
    rfl

/-! ## Writing -/

mutual

/-- Every node of the longest chain takes two levels of the document. -/
theorem depth_toJson (n : Node) : n.toJson.depth = 2 * n.height := by
  match n with
  | .rule ⟨id, field, type, operation, values, optional⟩ =>
    have hvalues := depthOfAll_toJsonAll_values values
    rw [height]
    cases optional <;> simp [toJson, Json.depth, depthOfMembers, hvalues] <;> omega
  | .condition ⟨id, junction, boost, children⟩ =>
    have hchildren := depthOfAll_toJsonAll children
    rw [height]
    simp [toJson, Json.depth, depthOfMembers, hchildren]
    omega

theorem depthOfAll_toJsonAll (ns : List Node) :
    depthOfAll (toJsonAll ns) = 2 * heightOfAll ns := by
  match ns with
  | [] => rfl
  | n :: ns =>
    rw [toJsonAll, depthOfAll, heightOfAll, depth_toJson n, depthOfAll_toJsonAll ns]
    omega

theorem depthOfAll_toJsonAll_values (vs : List Value) :
    depthOfAll (Value.toJsonAll vs) = 2 * heightOfQueries vs := by
  match vs with
  | [] => rfl
  | .literal s :: vs =>
    have hrest := depthOfAll_toJsonAll_values vs
    rw [Value.toJsonAll, depthOfAll, heightOfQueries, hrest]
    simp [Json.depth]
  | .query n :: vs =>
    rw [Value.toJsonAll, depthOfAll, heightOfQueries, depth_toJson n,
      depthOfAll_toJsonAll_values vs]
    omega

end

end Node

namespace Tree

/-! ## Reading -/

open Json (Member depth_le_of_mem depth_le_of_mem_members)

/-- The parts of the node are read off the value. -/
def HoldsParts (w : Json) : Node → Prop
  | .rule r => decodeValues w = .ok r.values
  | .condition c => decodeChildren w = .ok c.children

/-- A node has no parts, or they are read off a value inside that of the node. -/
theorem parts_of_decodeNode {root : Bool} {v : Json} {n : Node} (h : decodeNode root v = .ok n) :
    0 < v.depth ∧ (n.parts = [] ∨ ∃ w, HoldsParts w n ∧ w.depth < v.depth) := by
  cases v with
  | object ms =>
    refine ⟨Nat.succ_pos _, ?_⟩
    obtain ⟨_, -, ⟨-, r, f, rfl, hf, hvalues⟩ | ⟨-, c, f, rfl, hf, hchildren⟩⟩ :=
      decodeNode_object_eq_ok h
    · rcases readsField_ruleMember.field_of_foldlM hf with hnone | ⟨w, hw, hread⟩
      · exact .inl (by rw [Node.parts, ← hvalues, hnone]; rfl)
      · exact .inr ⟨w, hread.trans (congrArg _ hvalues),
          Nat.lt_succ_of_le (depth_le_of_mem_members hw)⟩
    · rcases readsField_conditionMember.field_of_foldlM hf with hnone | ⟨w, hw, hread⟩
      · exact .inl (by rw [Node.parts, ← hchildren, hnone])
      · exact .inr ⟨w, hread.trans (congrArg _ hchildren),
          Nat.lt_succ_of_le (depth_le_of_mem_members hw)⟩
  | array es =>
    refine ⟨Nat.succ_pos _, ?_⟩
    obtain ⟨tag, fields, rfl, ⟨r, rfl, hr⟩ | ⟨c, rfl, hc⟩⟩ := decodeNode_array_eq_ok h
    · rcases values_of_decodeRuleFields hr with hnone | ⟨w, hw, hread⟩
      · exact .inl (by rw [Node.parts, hnone]; rfl)
      · have hle := depth_le_of_mem (List.mem_cons_of_mem tag hw)
        exact .inr ⟨w, hread, Nat.lt_succ_of_le hle⟩
    · rcases children_of_decodeConditionFields hc with hnone | ⟨w, hw, hread⟩
      · exact .inl hnone
      · have hle := depth_le_of_mem (List.mem_cons_of_mem tag hw)
        exact .inr ⟨w, hread, Nat.lt_succ_of_le hle⟩
  | _ => simp [decodeNode] at h

/-- Each part is read off an element of an array. -/
theorem exists_of_holdsParts {w : Json} {n m : Node} (h : HoldsParts w n) (hm : m ∈ n.parts) :
    ∃ e, decodeNode false e = .ok m ∧ e.depth < w.depth := by
  cases n with
  | rule r =>
    obtain ⟨value, hvalue, hquery⟩ := List.mem_filterMap.mp hm
    obtain rfl : value = .query m := by
      cases value <;> simp_all [Value.query?]
    obtain ⟨es, rfl, hes⟩ := decodeValues_eq_ok.mp h
    obtain ⟨e, he, hread⟩ := exists_of_mem_of_mapM hes hvalue
    exact ⟨e, decodeNode_of_decodeValue hread, Nat.lt_succ_of_le (depth_le_of_mem he)⟩
  | condition c =>
    obtain ⟨es, rfl, hes⟩ := decodeChildren_eq_ok.mp h
    obtain ⟨e, he, hread⟩ := exists_of_mem_of_mapM hes hm
    exact ⟨e, hread, Nat.lt_succ_of_le (depth_le_of_mem he)⟩

/-- A node of height `h` is read off a value in which at least `2 * h - 1` levels are nested. -/
theorem height_le_of_decodeNode {root : Bool} {v : Json} {n : Node}
    (h : decodeNode root v = .ok n) : 2 * n.height ≤ v.depth + 1 := by
  obtain ⟨hpos, hparts⟩ := parts_of_decodeNode h
  have hbelow : Node.heightOfAll n.parts ≤ (v.depth - 1) / 2 := by
    refine Node.heightOfAll_le_iff.mpr fun m hm => ?_
    rcases hparts with hnone | ⟨w, hw, hdepth⟩
    · rw [hnone] at hm
      cases hm
    · obtain ⟨e, he, hdepth'⟩ := exists_of_holdsParts hw hm
      have hle := height_le_of_decodeNode he
      omega
  rw [Node.height_eq]
  omega
termination_by v.depth

end Tree

namespace Node

/-- A value is read as a tree only if it is decoded as one, with unique ids. -/
theorem eq_of_ofJson {v : Json} {t : Node} (h : ofJson v = .ok t) :
    Tree.decodeNode true v = .ok t ∧ t.checkIds = .ok () := by
  obtain ⟨_, -, h⟩ := except_bind_eq_ok.mp h
  split at h
  next n hn =>
    obtain ⟨_, hids, h⟩ := except_bind_eq_ok.mp h
    cases h
    exact ⟨hn, hids⟩
  next => cases h

open Json (NumberFree)

/-- A written tree is read again exactly if it is not too high for the reader. -/
theorem ofDocument_render_eq {t : Node} (h : t.checkIds = .ok ()) :
    ofDocument t.render = if t.height ≤ 63 then .ok t else .error (.invalidTree .notJson) := by
  have hvalue : ofJson t.toJson.ordered = .ok t := by
    rw [ofJson, Tree.checkTags_ordered, Tree.decodeNode_ordered, except_ok_bind]
    simp only [h]
    rfl
  have hroom : t.toJson.depth ≤ Json.depthLimit ↔ t.height ≤ 63 := by
    rw [depth_toJson, Json.depthLimit]
    omega
  rw [ofDocument, render, Json.parse?_render (numberFree_toJson t), if_congr hroom rfl rfl]
  by_cases hlow : t.height ≤ 63
  · rw [if_pos hlow, if_pos hlow]
    exact hvalue
  · rw [if_neg hlow, if_neg hlow]

/-- What was read can be written and read again, unless some chain of nodes has the greatest length
that can be read: such a tree was read off a document of the greatest depth, and is written one
level deeper. -/
theorem ofDocument_render_of_ofDocument {s : String} {t : Node} (h : ofDocument s = .ok t) :
    t.height ≤ 64 ∧
      (t.height ≤ 63 → ofDocument t.render = .ok t) ∧
      (t.height = 64 → ofDocument t.render = .error (.invalidTree .notJson)) ∧
      ∀ v, Json.parse? s = some v → v.depth ≤ 126 → t.height ≤ 63 := by
  rw [ofDocument] at h
  split at h
  next v hparse =>
    obtain ⟨htree, hids⟩ := eq_of_ofJson h
    have hlimit : v.depth ≤ 127 := Json.depth_le_of_parse? hparse
    have hheight := Tree.height_le_of_decodeNode htree
    have hagain := ofDocument_render_eq hids
    refine ⟨by omega, fun hlow => ?_, fun hhigh => ?_, fun v' hparse' hlow => ?_⟩
    · rw [hagain, if_pos hlow]
    · rw [hagain, if_neg (by omega)]
    · rw [hparse] at hparse'
      cases hparse'
      omega
  next => cases h

/-- A document without numbers is read as the tree that its value describes, if it is not too
deep. -/
theorem ofDocument_eq_ofJson {v : Json} (hfree : v.NumberFree) (hdepth : v.depth ≤ 127) :
    ofDocument v.render = ofJson v.ordered := by
  have hdepth' : v.depth ≤ Json.depthLimit := hdepth
  rw [ofDocument, Json.parse?_render hfree, if_pos hdepth']

/-- A rule and a condition without their defaults, as arrays. -/
theorem ofDocument_render_of_arrays :
    let v : Json := .array [.string "CONDITION", .string "c", .string "OR", .string "NONE",
      .array [.array [.string "RULE", .string "r", .string "title", .string "string",
        .string "is_set"], .array [.string "CONDITION", .string "d"]]]
    let t : Node := .condition ⟨"c", .or, .none,
      [.rule ⟨"r", "title", .string, "is_set", [], false⟩, .condition ⟨"d", .and, .none, []⟩]⟩
    ofDocument v.render = .ok t ∧ t.height ≤ 63 ∧ ofDocument t.render = .ok t := by
  intro v t
  have hrule : (Json.array [.string "RULE", .string "r", .string "title", .string "string",
      .string "is_set"]).NumberFree := .array (by simp [NumberFree.string])
  have hcondition : (Json.array [.string "CONDITION", .string "d"]).NumberFree :=
    .array (by simp [NumberFree.string])
  have hparts := NumberFree.array (List.forall_mem_cons.mpr
    ⟨hrule, List.forall_mem_singleton.mpr hcondition⟩)
  have hfree : v.NumberFree := .array (by simp [NumberFree.string, hparts])
  have hread : ofDocument v.render = .ok t := by
    rw [ofDocument_eq_ofJson hfree (by decide +kernel)]
    decide +kernel
  have hlow : t.height ≤ 63 := by decide +kernel
  exact ⟨hread, hlow, (ofDocument_render_of_ofDocument hread).2.1 hlow⟩

/-- The innermost of sixty-four conditions leaves its children out, so it is read, but it is written
with an empty array one level too deep. -/
theorem ofDocument_render_of_omitted_children :
    let v : Json := (List.range 63).foldr
      (fun i v => .object [⟨"nodeType", .string "CONDITION"⟩, ⟨"id", .string (toString i)⟩,
        ⟨"children", .array [v]⟩])
      (.object [⟨"nodeType", .string "CONDITION"⟩, ⟨"id", .string "last"⟩])
    let t : Node := (List.range 63).foldr (fun i n => .condition ⟨toString i, .and, .none, [n]⟩)
      (.condition ⟨"last", .and, .none, []⟩)
    ofDocument v.render = .ok t ∧ ofDocument t.render = .error (.invalidTree .notJson) := by
  intro v t
  have hfree : v.NumberFree := by
    refine List.foldrRecOn _ _ (.object (by simp [NumberFree.string])) fun w hw i _ => ?_
    have hchildren : (Json.array [w]).NumberFree := .array (by simpa using hw)
    exact .object (by simp [NumberFree.string, hchildren])
  have hread : ofDocument v.render = .ok t := by
    rw [ofDocument_eq_ofJson hfree (by decide +kernel)]
    decide +kernel
  have hids : t.checkIds = .ok () := by decide +kernel
  have hhigh : ¬ t.height ≤ 63 := by decide +kernel
  refine ⟨hread, ?_⟩
  rw [ofDocument_render_eq hids, if_neg hhigh]

end Node

end SearchFilter
