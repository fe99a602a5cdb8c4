import SearchFilter.Operation.Registry
import SearchFilter.Proofs.Tree.Place

/-!
# Trees without the rules that are passed over

An optional rule to which no operation applies is passed over. Pruning takes such rules away from
the conditions that hold them, at every level and in every embedded query. A root stays, as there
would be no tree without it. The ids of what is left are still unique.
-/

namespace SearchFilter

/-- The node is an optional rule to which no operation applies. -/
def Registry.passesOver (g : Registry) : Node → Bool
  | .rule r => r.optional && (g.find? r).isNone
  | .condition _ => false

namespace Node

mutual

/-- The tree without the rules that are passed over. -/
def prune (g : Registry) : Node → Node
  | .rule ⟨id, field, type, operation, values, optional⟩ =>
    .rule ⟨id, field, type, operation, pruneValues g values, optional⟩
  | .condition ⟨id, junction, boost, children⟩ =>
    .condition ⟨id, junction, boost, pruneChildren g children⟩

/-- The children of a condition that are not passed over, each of them pruned. -/
def pruneChildren (g : Registry) : List Node → List Node
  | [] => []
  | n :: ns => if g.passesOver n then pruneChildren g ns else n.prune g :: pruneChildren g ns

/-- The values of a rule, with the embedded queries pruned. -/
def pruneValues (g : Registry) : List Value → List Value
  | [] => []
  | .literal s :: vs => .literal s :: pruneValues g vs
  | .query n :: vs => .query (n.prune g) :: pruneValues g vs

end

/-- A rule that is passed over adds its own id and nothing else. -/
theorem subset_of_collectIds_of_passesOver {g : Registry} {n : Node} (h : g.passesOver n = true)
    {seen out : List String} (hout : collectIds seen n = .ok out) : seen ⊆ out := by
  cases n with
  | condition c => cases h
  | rule r =>
    rw [collectIds_rule] at hout
    split at hout
    · cases hout
    · obtain ⟨-, hout⟩ := except_seq_eq_ok.mp hout
      cases hout
      exact List.subset_cons_self _ _

mutual

/-- What is left of a tree passes the check with fewer ids seen before, and adds fewer ids. -/
theorem collectIds_prune (g : Registry) (n : Node) {seen seen' out : List String}
    (h : collectIds seen n = .ok out) (hseen : seen' ⊆ seen) :
    ∃ out', collectIds seen' (n.prune g) = .ok out' ∧ out' ⊆ out := by
  match n with
  | .rule ⟨id, field, type, operation, values, optional⟩ =>
    rw [collectIds] at h
    split at h
    · cases h
    next hnew =>
      obtain ⟨hvalues, h⟩ := except_seq_eq_ok.mp h
      cases h
      have hnew' : ¬ seen'.contains id := by
        intro hmem
        exact hnew (by simpa using hseen (by simpa using hmem))
      refine ⟨id :: seen', ?_, List.cons_subset_cons id hseen⟩
      rw [prune, collectIds, if_neg hnew', checkEmbedded_pruneValues g values hvalues]
      rfl
  | .condition ⟨id, junction, boost, children⟩ =>
    rw [collectIds] at h
    split at h
    · cases h
    next hnew =>
      have hnew' : ¬ seen'.contains id := by
        intro hmem
        exact hnew (by simpa using hseen (by simpa using hmem))
      rw [prune, collectIds, if_neg hnew']
      exact collectAllIds_pruneChildren g children h (List.cons_subset_cons id hseen)

theorem collectAllIds_pruneChildren (g : Registry) (ns : List Node) {seen seen' out : List String}
    (h : collectAllIds seen ns = .ok out) (hseen : seen' ⊆ seen) :
    ∃ out', collectAllIds seen' (pruneChildren g ns) = .ok out' ∧ out' ⊆ out := by
  match ns with
  | [] =>
    cases h
    exact ⟨seen', rfl, hseen⟩
  | n :: ns =>
    rw [collectAllIds] at h
    obtain ⟨next, hn, hns⟩ := except_bind_eq_ok.mp h
    rw [pruneChildren]
    by_cases hpassed : g.passesOver n = true
    · rw [if_pos hpassed]
      have hnext : seen ⊆ next := subset_of_collectIds_of_passesOver hpassed hn
      exact collectAllIds_pruneChildren g ns hns (List.Subset.trans hseen hnext)
    · obtain ⟨next', hn', hnext⟩ := collectIds_prune g n hn hseen
      rw [if_neg hpassed, collectAllIds, hn', except_ok_bind]
      exact collectAllIds_pruneChildren g ns hns hnext

theorem checkEmbedded_pruneValues (g : Registry) (vs : List Value)
    (h : checkEmbedded vs = .ok ()) : checkEmbedded (pruneValues g vs) = .ok () := by
  match vs with
  | [] => rfl
  | .literal s :: vs =>
    rw [checkEmbedded] at h
    rw [pruneValues, checkEmbedded]
    exact checkEmbedded_pruneValues g vs h
  | .query n :: vs =>
    rw [checkEmbedded] at h
    obtain ⟨out, hn, hvs⟩ := except_bind_eq_ok.mp h
    obtain ⟨out', hn', -⟩ := collectIds_prune g n hn (List.Subset.refl [])
    rw [pruneValues, checkEmbedded, hn', except_ok_bind]
    exact checkEmbedded_pruneValues g vs hvs

end

theorem checkIds_prune (g : Registry) {n : Node} (h : n.checkIds = .ok ()) :
    (n.prune g).checkIds = .ok () := by
  rw [checkIds_eq_outcome] at h ⊢
  obtain ⟨out, hout⟩ := outcome_eq_ok_iff.mp h
  obtain ⟨out', hout', -⟩ := collectIds_prune g n hout (List.Subset.refl [])
  exact outcome_eq_ok_iff.mpr ⟨out', hout'⟩

end Node

end SearchFilter
