import SearchFilter.Proofs.Except
import SearchFilter.Tree.Ids

/-!
# The scope of a tree

A tree without the queries embedded in its rules: its rules from left to right, and its nodes in the
order in which their ids are checked. The check of a tree walks over these nodes once, and looks
into the embedded queries of each of them on the way.
-/

namespace SearchFilter.Node

theorem collectIds_rule (seen : List String) (r : Rule) : collectIds seen (.rule r)
    = if seen.contains r.id then .error (.duplicateId r.id)
      else do
        checkEmbedded r.values
        return r.id :: seen := by
  cases r
  rw [collectIds]

/-! ## Rules -/

mutual

/-- The rules of a tree from left to right, embedded queries left out. -/
def rules : Node → List Rule
  | .rule r => [r]
  | .condition ⟨_, _, _, children⟩ => rulesOfAll children

/-- The rules of the trees. -/
def rulesOfAll : List Node → List Rule
  | [] => []
  | n :: ns => n.rules ++ rulesOfAll ns

end

mutual

/-- Where the ids of a tree are unique, so are those of each query embedded in its rules. -/
theorem checkEmbedded_of_collectIds (n : Node) {seen out : List String}
    (h : collectIds seen n = .ok out) : ∀ r ∈ n.rules, checkEmbedded r.values = .ok () := by
  intro r hr
  match n with
  | .rule r' =>
    rw [rules, List.mem_singleton] at hr
    subst hr
    rw [collectIds_rule] at h
    split at h
    · cases h
    · exact (except_seq_eq_ok.mp h).1
  | .condition ⟨id, junction, boost, children⟩ =>
    rw [rules] at hr
    rw [collectIds] at h
    split at h
    · cases h
    · exact checkEmbedded_of_collectAllIds children h r hr

theorem checkEmbedded_of_collectAllIds (ns : List Node) {seen out : List String}
    (h : collectAllIds seen ns = .ok out) :
    ∀ r ∈ rulesOfAll ns, checkEmbedded r.values = .ok () := by
  intro r hr
  match ns with
  | [] => cases hr
  | n :: ns =>
    rw [collectAllIds] at h
    obtain ⟨seen', hn, hns⟩ := except_bind_eq_ok.mp h
    rw [rulesOfAll, List.mem_append] at hr
    rcases hr with hr | hr
    · exact checkEmbedded_of_collectIds n hn r hr
    · exact checkEmbedded_of_collectAllIds ns hns r hr

end

theorem checkIds_eq_outcome (n : Node) : n.checkIds = outcome (collectIds [] n) :=
  except_bind_pure _ _

theorem checkEmbedded_query (n : Node) (vs : List Value) :
    checkEmbedded (.query n :: vs) = (do n.checkIds; checkEmbedded vs) := by
  rw [checkEmbedded, checkIds]
  cases collectIds [] n <;> rfl

/-- A rule on its own only has the ids of its embedded queries to be checked. -/
theorem checkIds_rule (r : Rule) : (Node.rule r).checkIds = checkEmbedded r.values := by
  rw [checkIds_eq_outcome, collectIds_rule]
  cases checkEmbedded r.values <;> simp

theorem checkIds_of_mem_rules {n : Node} (h : n.checkIds = .ok ()) :
    ∀ r ∈ n.rules, (Node.rule r).checkIds = .ok () := by
  intro r hr
  rw [checkIds_eq_outcome] at h
  obtain ⟨out, hout⟩ := outcome_eq_ok_iff.mp h
  rw [checkIds_rule]
  exact checkEmbedded_of_collectIds n hout r hr

end SearchFilter.Node
