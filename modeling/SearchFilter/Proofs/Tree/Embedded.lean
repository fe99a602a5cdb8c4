import SearchFilter.Proofs.Tree.Scope

/-!
# Embedded queries

The queries that are embedded in the rules of a tree, those within embedded queries included. Each
of them is lower than the tree. The check of a tree comes to each of them, so where the ids of the
tree are unique, the ids of each embedded query are unique in its own scope.
-/

namespace SearchFilter.Node

mutual

/-- The queries embedded in a tree, at any depth. -/
def embedded : Node → List Node
  | .rule ⟨_, _, _, _, values, _⟩ => embeddedOfValues values
  | .condition ⟨_, _, _, children⟩ => embeddedOfAll children

/-- The queries embedded in the trees. -/
def embeddedOfAll : List Node → List Node
  | [] => []
  | n :: ns => n.embedded ++ embeddedOfAll ns

/-- The embedded queries among the values, and those embedded in them. -/
def embeddedOfValues : List Value → List Node
  | [] => []
  | .literal _ :: vs => embeddedOfValues vs
  | .query n :: vs => n :: (n.embedded ++ embeddedOfValues vs)

end

theorem embedded_rule (r : Rule) : (Node.rule r).embedded = embeddedOfValues r.values := by
  cases r
  rw [embedded]

theorem mem_embeddedOfValues {vs : List Value} {m : Node} (h : .query m ∈ vs) :
    m ∈ embeddedOfValues vs := by
  induction vs with
  | nil => cases h
  | cons v vs ih =>
    rcases List.mem_cons.mp h with rfl | h
    · exact List.mem_cons_self
    · have hvs := ih h
      cases v with
      | literal s => exact hvs
      | query n => exact List.mem_cons_of_mem n (List.mem_append_right _ hvs)

mutual

/-- An embedded query is lower than the tree. -/
theorem height_lt_of_mem_embedded (n : Node) : ∀ m ∈ n.embedded, m.height < n.height := by
  match n with
  | .rule ⟨id, field, type, operation, values, optional⟩ =>
    rw [embedded, height]
    exact fun m hm => Nat.lt_succ_of_le (height_le_of_mem_embeddedOfValues values m hm)
  | .condition ⟨id, junction, boost, children⟩ =>
    rw [embedded, height]
    exact fun m hm => Nat.lt_succ_of_lt (height_lt_of_mem_embeddedOfAll children m hm)

theorem height_lt_of_mem_embeddedOfAll (ns : List Node) :
    ∀ m ∈ embeddedOfAll ns, m.height < heightOfAll ns := by
  match ns with
  | [] => simp [embeddedOfAll]
  | n :: ns =>
    rw [embeddedOfAll, heightOfAll, List.forall_mem_append]
    refine ⟨fun m hm => ?_, fun m hm => ?_⟩
    · exact Nat.lt_of_lt_of_le (height_lt_of_mem_embedded n m hm) (Nat.le_max_left _ _)
    · exact Nat.lt_of_lt_of_le (height_lt_of_mem_embeddedOfAll ns m hm) (Nat.le_max_right _ _)

theorem height_le_of_mem_embeddedOfValues (vs : List Value) :
    ∀ m ∈ embeddedOfValues vs, m.height ≤ heightOfQueries vs := by
  match vs with
  | [] => simp [embeddedOfValues]
  | .literal s :: vs =>
    rw [embeddedOfValues, heightOfQueries]
    exact height_le_of_mem_embeddedOfValues vs
  | .query n :: vs =>
    rw [embeddedOfValues, heightOfQueries, List.forall_mem_cons, List.forall_mem_append]
    refine ⟨Nat.le_max_left _ _, fun m hm => ?_, fun m hm => ?_⟩
    · exact Nat.le_trans (Nat.le_of_lt (height_lt_of_mem_embedded n m hm)) (Nat.le_max_left _ _)
    · exact Nat.le_trans (height_le_of_mem_embeddedOfValues vs m hm) (Nat.le_max_right _ _)

end

mutual

theorem checkIds_of_collectIds (n : Node) {seen out : List String}
    (h : collectIds seen n = .ok out) : ∀ m ∈ n.embedded, m.checkIds = .ok () := by
  match n with
  | .rule ⟨id, field, type, operation, values, optional⟩ =>
    rw [collectIds_rule] at h
    split at h
    · cases h
    · rw [embedded]
      exact checkIds_of_checkEmbedded values (except_seq_eq_ok.mp h).1
  | .condition ⟨id, junction, boost, children⟩ =>
    rw [collectIds] at h
    split at h
    · cases h
    · rw [embedded]
      exact checkIds_of_collectAllIds children h

theorem checkIds_of_collectAllIds (ns : List Node) {seen out : List String}
    (h : collectAllIds seen ns = .ok out) : ∀ m ∈ embeddedOfAll ns, m.checkIds = .ok () := by
  match ns with
  | [] => simp [embeddedOfAll]
  | n :: ns =>
    rw [collectAllIds] at h
    obtain ⟨seen', hn, hns⟩ := except_bind_eq_ok.mp h
    intro m hm
    rw [embeddedOfAll, List.mem_append] at hm
    rcases hm with hm | hm
    · exact checkIds_of_collectIds n hn m hm
    · exact checkIds_of_collectAllIds ns hns m hm

theorem checkIds_of_checkEmbedded (vs : List Value) (h : checkEmbedded vs = .ok ()) :
    ∀ m ∈ embeddedOfValues vs, m.checkIds = .ok () := by
  match vs with
  | [] => simp [embeddedOfValues]
  | .literal _ :: vs =>
    rw [checkEmbedded] at h
    rw [embeddedOfValues]
    exact checkIds_of_checkEmbedded vs h
  | .query n :: vs =>
    rw [checkEmbedded_query] at h
    obtain ⟨hn, hvs⟩ := except_seq_eq_ok.mp h
    obtain ⟨out, hout⟩ := outcome_eq_ok_iff.mp (n.checkIds_eq_outcome.symm.trans hn)
    intro m hm
    rw [embeddedOfValues, List.mem_cons, List.mem_append] at hm
    rcases hm with rfl | hm | hm
    · exact hn
    · exact checkIds_of_collectIds n hout m hm
    · exact checkIds_of_checkEmbedded vs hvs m hm

end

/-- Where the ids of a tree are unique, so are the ids of each embedded query. -/
theorem checkIds_of_mem_embedded {n : Node} (h : n.checkIds = .ok ()) :
    ∀ m ∈ n.embedded, m.checkIds = .ok () := by
  obtain ⟨out, hout⟩ := outcome_eq_ok_iff.mp (n.checkIds_eq_outcome.symm.trans h)
  exact checkIds_of_collectIds n hout

end SearchFilter.Node
