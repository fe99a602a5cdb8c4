import SearchFilter.Proofs.Tree.Place

/-!
# Nodes with fresh ids

The check of ids walks over the nodes of a tree in a fixed order and remembers the ids that it has
seen. A node more, with an id that the tree does not have, changes nothing for the other nodes.
-/

namespace SearchFilter

namespace Node

/-! ## The walk over a tree -/

mutual

/-- The nodes of a tree in the order in which their ids are checked, embedded queries left out: the
id of each node and the values that it holds. -/
def entries : Node → List (String × List Value)
  | .rule r => [(r.id, r.values)]
  | .condition ⟨id, _, _, children⟩ => (id, []) :: entriesOfAll children

/-- The nodes of the trees, one tree after the other. -/
def entriesOfAll : List Node → List (String × List Value)
  | [] => []
  | n :: ns => n.entries ++ entriesOfAll ns

end

/-- Checks one node and remembers its id. -/
def visit (seen : List String) (e : String × List Value) : Except QueryError (List String) :=
  if seen.contains e.1 then .error (.duplicateId e.1)
  else do
    checkEmbedded e.2
    return e.1 :: seen

mutual

/-- The check of a tree is one walk over its nodes. -/
theorem collectIds_eq_foldlM (n : Node) (seen : List String) :
    collectIds seen n = n.entries.foldlM visit seen := by
  match n with
  | .rule r =>
    rw [collectIds_rule, entries, List.foldlM_cons, visit]
    simp only [List.foldlM_nil, bind_pure]
  | .condition ⟨id, junction, boost, children⟩ =>
    rw [collectIds, entries, List.foldlM_cons, visit, checkEmbedded]
    by_cases hseen : seen.contains id
    · rw [if_pos hseen, if_pos hseen]
      rfl
    · rw [if_neg hseen, if_neg hseen, collectAllIds_eq_foldlM children]
      rfl

theorem collectAllIds_eq_foldlM (ns : List Node) (seen : List String) :
    collectAllIds seen ns = (entriesOfAll ns).foldlM visit seen := by
  match ns with
  | [] => rfl
  | n :: ns =>
    rw [collectAllIds, entriesOfAll, List.foldlM_append, collectIds_eq_foldlM n]
    simp only [collectAllIds_eq_foldlM ns]

end

theorem entriesOfAll_append (ns ms : List Node) :
    entriesOfAll (ns ++ ms) = entriesOfAll ns ++ entriesOfAll ms := by
  induction ns with
  | nil => rfl
  | cons n ns ih => rw [List.cons_append, entriesOfAll, entriesOfAll, ih, List.append_assoc]

/-- An id is remembered if it was before or if one of the nodes has it. -/
theorem mem_of_foldlM_visit {es : List (String × List Value)} {seen out : List String}
    (h : es.foldlM visit seen = .ok out) {id : String} (hid : id ∈ out) :
    id ∈ seen ∨ id ∈ es.map Prod.fst := by
  induction es generalizing seen with
  | nil =>
    cases h
    exact .inl hid
  | cons e es ih =>
    rw [List.foldlM_cons] at h
    obtain ⟨seen', hvisit, hrest⟩ := except_bind_eq_ok.mp h
    rw [visit] at hvisit
    split at hvisit
    · cases hvisit
    · obtain ⟨-, hvisit⟩ := except_seq_eq_ok.mp hvisit
      cases hvisit
      rcases ih hrest with hseen | hes
      · rcases List.mem_cons.mp hseen with rfl | hseen
        · simp
        · exact .inl hseen
      · exact .inr (List.mem_cons_of_mem _ hes)

/-- An id that none of the nodes has may be remembered or not. -/
theorem outcome_foldlM_visit_insert {id : String} {es : List (String × List Value)}
    (h : id ∉ es.map Prod.fst) (recent seen : List String) :
    outcome (es.foldlM visit (recent ++ id :: seen)) = outcome (es.foldlM visit (recent ++ seen)) := by
  induction es generalizing recent with
  | nil => rfl
  | cons e es ih =>
    rw [List.map_cons, List.mem_cons, not_or] at h
    obtain ⟨hne, h⟩ := h
    have hcontains : (recent ++ id :: seen).contains e.1 = (recent ++ seen).contains e.1 := by
      have hne : e.1 ≠ id := fun heq => hne heq.symm
      simp [hne]
    rw [List.foldlM_cons, List.foldlM_cons, visit, visit, hcontains]
    by_cases hseen : (recent ++ seen).contains e.1
    · rw [if_pos hseen, if_pos hseen]
    · rw [if_neg hseen, if_neg hseen]
      cases checkEmbedded e.2 with
      | error e' => rfl
      | ok u => exact ih h (e.1 :: recent)

/-- One node more with a fresh id and no values does not change what the check finds. -/
theorem outcome_foldlM_visit_fresh {id : String} {before after : List (String × List Value)}
    (hbefore : id ∉ before.map Prod.fst) (hafter : id ∉ after.map Prod.fst) :
    outcome ((before ++ (id, []) :: after).foldlM visit [])
      = outcome ((before ++ after).foldlM visit []) := by
  rw [List.foldlM_append, List.foldlM_append]
  cases hwalk : before.foldlM visit [] with
  | error e => rfl
  | ok seen =>
    have hfresh : id ∉ seen := by
      intro hid
      rcases mem_of_foldlM_visit hwalk hid with hseen | hmem
      · cases hseen
      · exact hbefore hmem
    have hvisit : visit seen (id, []) = .ok (id :: seen) := by simp [visit, hfresh, checkEmbedded]
    rw [except_ok_bind, except_ok_bind, List.foldlM_cons, hvisit, except_ok_bind]
    exact outcome_foldlM_visit_insert hafter [] seen

end Node

/-! ## The tree around a place -/

/-- The way goes into an embedded query here. -/
def Step.isQuery : Step → Bool
  | .child .. => false
  | .query .. => true

/-- The nodes of the tree in which a place is, without the trees around it: those that are checked
before the node that is left out, and those that are checked after it. -/
def Place.scope : Place → List (String × List Value) × List (String × List Value)
  | [] => ([], [])
  | .child id _ _ before after :: p =>
    if p.any Step.isQuery then scope p
    else ((id, []) :: (Node.entriesOfAll before ++ (scope p).1),
      (scope p).2 ++ Node.entriesOfAll after)
  | .query .. :: p => scope p

/-- The ids of the tree in which a place is. -/
def Place.ids (p : Place) : List String :=
  (p.scope.1 ++ p.scope.2).map Prod.fst

/-- What the check finds in the tree of a place with the given nodes in the place. -/
def Place.check (p : Place) (es : List (String × List Value)) : Except QueryError Unit :=
  outcome ((p.scope.1 ++ (es ++ p.scope.2)).foldlM Node.visit [])

namespace Node

theorem entries_fill {p : Place} (h : p.any Step.isQuery = false) (n : Node) :
    (p.fill n).entries = p.scope.1 ++ (n.entries ++ p.scope.2) := by
  induction p with
  | nil => simp [Place.scope]
  | cons s p ih =>
    cases s with
    | child id junction boost before after =>
      have hp : p.any Step.isQuery = false := by simpa [Step.isQuery] using h
      rw [Place.fill_cons, Step.fill, entries, entriesOfAll_append, entriesOfAll, ih hp, Place.scope,
        if_neg (by simp [hp])]
      simp
    | query => simp [Step.isQuery] at h

theorem checkIds_fill {p : Place} (h : p.any Step.isQuery = false) (n : Node) :
    (p.fill n).checkIds = p.check n.entries := by
  rw [checkIds_eq_outcome, collectIds_eq_foldlM, entries_fill h, Place.check]

/-- Where the way goes into an embedded query, the trees around that query have the same ids. -/
theorem collectIds_fill_of_query {p : Place} {n n' : Node} (hp : p.any Step.isQuery = true)
    (h : p.check n.entries = p.check n'.entries) (seen : List String) :
    collectIds seen (p.fill n) = collectIds seen (p.fill n') := by
  induction p generalizing seen with
  | nil => cases hp
  | cons s p ih =>
    rw [Place.fill_cons, Place.fill_cons]
    cases hinner : p.any Step.isQuery with
    | true =>
      have hscope : Place.scope (s :: p) = Place.scope p := by
        cases s with
        | child => rw [Place.scope, if_pos hinner]
        | query => rw [Place.scope]
      rw [Place.check, Place.check, hscope] at h
      exact collectIds_step_congr (ih hinner h) s seen
    | false =>
      cases s with
      | child => simp [Step.isQuery, hinner] at hp
      | query id field type operation optional before after =>
        have hids : (Place.fill p n).checkIds = (Place.fill p n').checkIds := by
          rw [checkIds_fill hinner, checkIds_fill hinner]
          exact h
        rw [Step.fill, Step.fill, collectIds, collectIds, checkEmbedded_congr hids]

/-- What the check finds in a tree depends on a node only through what it finds in the tree of that
node. -/
theorem checkIds_fill_congr {p : Place} {n n' : Node}
    (h : p.check n.entries = p.check n'.entries) :
    (p.fill n).checkIds = (p.fill n').checkIds := by
  cases hp : p.any Step.isQuery with
  | true => rw [checkIds, checkIds, collectIds_fill_of_query hp h []]
  | false => rw [checkIds_fill hp, checkIds_fill hp, h]

/-- A condition with a fresh id around a node does not change what the check finds. -/
theorem checkIds_fill_wrap {p : Place} {n n' : Node} {id : String} (hid : id ∉ p.ids)
    (hn : id ∉ n.entries.map Prod.fst) (hn' : n'.entries = n.entries) (j : Junction) (b : Boost) :
    (p.fill (.condition ⟨id, j, b, [n']⟩)).checkIds = (p.fill n).checkIds := by
  rw [Place.ids, List.map_append, List.mem_append, not_or] at hid
  obtain ⟨hbefore, hafter⟩ := hid
  apply checkIds_fill_congr
  rw [Place.check, entries, entriesOfAll, entriesOfAll, List.append_nil, hn', List.cons_append]
  apply outcome_foldlM_visit_fresh hbefore
  rw [List.map_append, List.mem_append, not_or]
  exact ⟨hn, hafter⟩

end Node

end SearchFilter
