import Mathlib.Data.List.Chain
import Mathlib.Order.Bounds.Basic
import SearchFilter.Proofs.Tree.Height

/-!
# Chains of nodes

A chain goes from a node of a tree to one of its parts, and on. The height of a tree is the number
of nodes in its longest chain, and a tree that was read from a document is no higher than the
nesting of documents allows, so whatever goes down a tree that was read has to go down only so far.
-/

namespace SearchFilter.Node

open Json (NumberFree)

/-- The second node is a part of the first, a child or an embedded query. -/
def HasPart (n m : Node) : Prop :=
  m ∈ n.parts

instance : DecidableRel HasPart := fun n m =>
  inferInstanceAs (Decidable (m ∈ n.parts))

/-- The node is the tree or stands somewhere below it. -/
def IsWithin (n t : Node) : Prop :=
  Relation.ReflTransGen HasPart t n

theorem height_lt_of_hasPart {n m : Node} (h : n.HasPart m) : m.height < n.height := by
  rw [height_eq n]
  exact Nat.lt_succ_of_le (heightOfAll_le_iff.mp (Nat.le_refl _) m h)

theorem height_le_of_isWithin {n t : Node} (h : n.IsWithin t) : n.height ≤ t.height := by
  induction h with
  | refl => exact Nat.le_refl _
  | tail _ hpart ih => exact (height_lt_of_hasPart hpart).le.trans ih

/-- A chain has at most as many nodes as its first node is high. -/
theorem length_le_height_of_isChain {n : Node} {ns : List Node}
    (h : (n :: ns).IsChain HasPart) : (n :: ns).length ≤ n.height := by
  induction ns generalizing n with
  | nil =>
    rw [height_eq]
    exact Nat.le_add_left 1 _
  | cons m ns ih =>
    obtain ⟨hpart, hrest⟩ := List.isChain_cons_cons.mp h
    exact (Nat.succ_le_succ (ih hrest)).trans (height_lt_of_hasPart hpart)

/-- All nodes of a chain that starts at a tree are in the tree. -/
theorem isWithin_of_mem_isChain {t : Node} {ns : List Node} (h : (t :: ns).IsChain HasPart) :
    ∀ n ∈ t :: ns, n.IsWithin t :=
  h.induction (IsWithin · t) _ (fun _ _ hpart hwithin => hwithin.tail hpart) fun _ => .refl

theorem exists_mem_height_eq {ns : List Node} (h : ns ≠ []) :
    ∃ n ∈ ns, n.height = heightOfAll ns := by
  induction ns with
  | nil => exact absurd rfl h
  | cons n ns ih =>
    rw [heightOfAll]
    rcases Nat.le_total (heightOfAll ns) n.height with hle | hle
    · exact ⟨n, List.mem_cons_self, (Nat.max_eq_left hle).symm⟩
    · by_cases hns : ns = []
      · subst hns
        exact ⟨n, List.mem_cons_self, (Nat.max_eq_left (Nat.zero_le _)).symm⟩
      · obtain ⟨m, hm, hheight⟩ := ih hns
        exact ⟨m, List.mem_cons_of_mem n hm, hheight.trans (Nat.max_eq_right hle).symm⟩

/-- From every node there is a chain of as many nodes as it is high. -/
theorem exists_isChain_of_height (n : Node) :
    ∃ ns, (n :: ns).IsChain HasPart ∧ (n :: ns).length = n.height := by
  by_cases hparts : n.parts = []
  · refine ⟨[], List.isChain_singleton n, ?_⟩
    rw [height_eq, hparts]
    rfl
  · obtain ⟨m, hm, hheight⟩ := exists_mem_height_eq hparts
    have hpart : n.HasPart m := hm
    obtain ⟨ns, hchain, hlength⟩ := exists_isChain_of_height m
    refine ⟨m :: ns, hchain.cons_cons hpart, ?_⟩
    rw [List.length_cons, hlength, hheight, ← height_eq]
termination_by n.height
decreasing_by exact height_lt_of_hasPart hpart

/-- The height of a node is the number of nodes in the longest chain that starts at it. -/
theorem isGreatest_height (n : Node) :
    IsGreatest {k | ∃ ns, (n :: ns).IsChain HasPart ∧ (n :: ns).length = k} n.height := by
  refine ⟨exists_isChain_of_height n, ?_⟩
  rintro k ⟨ns, hchain, rfl⟩
  exact length_le_height_of_isChain hchain

/-- A document has at most 127 levels, and every node of the tree that is read from it takes two of
them, but for the innermost, which may take one. -/
theorem height_le_of_ofDocument {s : String} {t : Node} (h : ofDocument s = .ok t) :
    t.height ≤ 64 := by
  rw [ofDocument] at h
  split at h
  next v hparse =>
    have hlimit : v.depth ≤ 127 := Json.depth_le_of_parse? hparse
    have hheight := Tree.height_le_of_decodeNode (eq_of_ofJson h).1
    omega
  next => cases h

/-- No chain of nodes of a tree that was read from a document has more than sixty-four nodes. -/
theorem chains_of_read_trees_are_bounded {s : String} {t : Node} (h : ofDocument s = .ok t)
    {chain : List Node} (hnodes : ∀ n ∈ chain, n.IsWithin t) (hchain : chain.IsChain HasPart) :
    chain.length ≤ 64 := by
  cases chain with
  | nil => exact Nat.zero_le 64
  | cons n ns =>
    calc (n :: ns).length
      _ ≤ n.height := (isGreatest_height n).2 ⟨ns, hchain, rfl⟩
      _ ≤ t.height := height_le_of_isWithin (hnodes n List.mem_cons_self)
      _ ≤ 64 := height_le_of_ofDocument h

/-- The innermost of sixty-four nodes leaves its children out, so there is room for all of them: by
turns conditions, written as objects, and rules with an embedded query, written as arrays. -/
theorem chains_of_read_trees_are_bounded_in_deepest_document :
    let enclose (i : Nat) (v : Json) : Json :=
      if i % 2 = 0 then .object [⟨"nodeType", .string "CONDITION"⟩, ⟨"id", .string (toString i)⟩,
        ⟨"children", .array [v]⟩]
      else .array [.string "RULE", .string (toString i), .string "owner", .string "uri",
        .string "set_to_query", .array [v]]
    let v : Json := (List.range 63).foldr enclose
      (.object [⟨"nodeType", .string "CONDITION"⟩, ⟨"id", .string "last"⟩])
    let surround (i : Nat) (n : Node) : Node :=
      if i % 2 = 0 then .condition ⟨toString i, .and, .none, [n]⟩
      else .rule ⟨toString i, "owner", .uri, "set_to_query", [.query n], false⟩
    let below (k : Nat) : Node :=
      ((List.range 63).drop k).foldr surround (.condition ⟨"last", .and, .none, []⟩)
    let chain : List Node := below 0 :: (List.range 63).map fun k => below (k + 1)
    ofDocument v.render = .ok (below 0) ∧ (∀ n ∈ chain, n.IsWithin (below 0)) ∧
      chain.IsChain HasPart ∧ chain.length = 64 ∧ chain.length ≤ 64 := by
  intro enclose v surround below chain
  have hfree : v.NumberFree := by
    refine List.foldrRecOn _ _ (.object (by simp [NumberFree.string])) fun w hw i _ => ?_
    have hparts : (Json.array [w]).NumberFree := .array (by simpa using hw)
    simp only [enclose]
    split
    · exact .object (by simp [NumberFree.string, hparts])
    · exact .array (by simp [NumberFree.string, hparts])
  have hread : ofDocument v.render = .ok (below 0) := by
    rw [ofDocument_eq_ofJson hfree (by decide +kernel)]
    decide +kernel
  have hchain : chain.IsChain HasPart := by decide +kernel
  have hwithin := isWithin_of_mem_isChain hchain
  exact ⟨hread, hwithin, hchain, by decide +kernel,
    chains_of_read_trees_are_bounded hread hwithin hchain⟩

end SearchFilter.Node
