import Mathlib.Data.List.Infix
import Mathlib.Data.List.Nodup
import SearchFilter.Proofs.Tree.Embedded
import SearchFilter.Proofs.Tree.Fresh

/-!
# Repeated ids

A scope is a tree, or a query embedded in it at any depth, without the queries embedded in its own
rules. The check of ids goes through all scopes in one pass, from left to right and into the
embedded queries of a rule directly after the rule. It succeeds if no scope has an id twice, and
otherwise reports the first node on the way whose id occurred before in the scope of that node.
-/

namespace SearchFilter

/-! ## The first repetition in a list -/

section

variable {α : Type} [DecidableEq α]

/-- The first member of a list that occurs before it, in the list or in `earlier`. -/
def repeated? (earlier : List α) : List α → Option α
  | [] => none
  | x :: xs => if x ∈ earlier then some x else repeated? (x :: earlier) xs

theorem repeated?_append (earlier xs ys : List α) : repeated? earlier (xs ++ ys)
    = (repeated? earlier xs).or (repeated? (xs.reverse ++ earlier) ys) := by
  induction xs generalizing earlier with
  | nil => rfl
  | cons x xs ih =>
    rw [List.cons_append, repeated?, repeated?]
    by_cases hx : x ∈ earlier
    · rw [if_pos hx, if_pos hx]
      rfl
    · rw [if_neg hx, if_neg hx, ih, List.reverse_cons, List.append_assoc, List.singleton_append]

/-- Only the earlier members that the list has as well count. -/
theorem repeated?_congr {earlier earlier' xs : List α}
    (h : ∀ x ∈ xs, x ∈ earlier ↔ x ∈ earlier') : repeated? earlier xs = repeated? earlier' xs := by
  induction xs generalizing earlier earlier' with
  | nil => rfl
  | cons x xs ih =>
    have hrest : repeated? (x :: earlier) xs = repeated? (x :: earlier') xs := by
      refine ih fun y hy => ?_
      rw [List.mem_cons, List.mem_cons, h y (List.mem_cons_of_mem x hy)]
    rw [repeated?, repeated?, hrest]
    simp only [h x List.mem_cons_self]

theorem repeated?_eq_none_iff {earlier xs : List α} :
    repeated? earlier xs = none ↔ xs.Nodup ∧ ∀ x ∈ xs, x ∉ earlier := by
  induction xs generalizing earlier with
  | nil => simp [repeated?]
  | cons x xs ih =>
    rw [repeated?, List.nodup_cons, List.forall_mem_cons]
    by_cases hx : x ∈ earlier
    · simp [hx]
    · grind

theorem exists_of_repeated? {earlier xs : List α} {x : α} (h : repeated? earlier xs = some x) :
    ∃ before after, xs = before ++ x :: after ∧ repeated? earlier before = none ∧
      x ∈ before.reverse ++ earlier := by
  induction xs generalizing earlier with
  | nil => cases h
  | cons y ys ih =>
    rw [repeated?] at h
    split at h
    next hy =>
      cases h
      exact ⟨[], ys, rfl, rfl, hy⟩
    next hy =>
      obtain ⟨before, after, rfl, hbefore, hx⟩ := ih h
      refine ⟨y :: before, after, rfl, ?_, ?_⟩
      · rw [repeated?, if_neg hy]
        exact hbefore
      · rw [List.reverse_cons, List.append_assoc]
        exact hx

/-- The first repetition: what stands before it has no member twice, but has it. -/
theorem repeated?_eq_some_iff {xs : List α} {x : α} : repeated? [] xs = some x ↔
    ∃ before after, xs = before ++ x :: after ∧ before.Nodup ∧ x ∈ before := by
  constructor
  · intro h
    obtain ⟨before, after, hsplit, hbefore, hx⟩ := exists_of_repeated? h
    rw [List.append_nil, List.mem_reverse] at hx
    exact ⟨before, after, hsplit, (repeated?_eq_none_iff.mp hbefore).1, hx⟩
  · rintro ⟨before, after, rfl, hnodup, hx⟩
    have hbefore : repeated? [] before = none :=
      repeated?_eq_none_iff.mpr ⟨hnodup, fun _ _ => List.not_mem_nil⟩
    rw [repeated?_append, hbefore, Option.none_or, repeated?, if_pos (by simpa using hx)]

end

namespace Node

/-! ## The way through a tree -/

/-- A node on the way through a tree: the scope in which it is, named by the way to it (the numbers
of the children and values that lead there, the last one first), and its id. -/
structure Visit where
  scope : List Nat
  id : String
  deriving DecidableEq

mutual

/-- The nodes of a tree to which the way is `way`, each with its scope, in the order of the check:
from left to right, the embedded queries of a rule directly after the rule. -/
def visits (scope way : List Nat) : Node → List Visit
  | .rule ⟨id, _, _, _, values, _⟩ => ⟨scope, id⟩ :: visitsOfValues way 0 values
  | .condition ⟨id, _, _, children⟩ => ⟨scope, id⟩ :: visitsOfAll scope way 0 children

/-- The nodes of the children of a condition from the one with the number on. -/
def visitsOfAll (scope way : List Nat) (i : Nat) : List Node → List Visit
  | [] => []
  | n :: ns => visits scope (i :: way) n ++ visitsOfAll scope way (i + 1) ns

/-- The nodes of the queries among the values of a rule from the one with the number on; each query
is a scope of its own. -/
def visitsOfValues (way : List Nat) (i : Nat) : List Value → List Visit
  | [] => []
  | .literal _ :: vs => visitsOfValues way (i + 1) vs
  | .query n :: vs => visits (i :: way) (i :: way) n ++ visitsOfValues way (i + 1) vs

end

mutual

/-- What is not in the scope around a node is in a scope that the way leads to through the node. -/
theorem scope_of_mem_visits (n : Node) {scope way : List Nat} {v : Visit}
    (h : v ∈ n.visits scope way) : v.scope = scope ∨ ∃ j, j :: way <:+ v.scope := by
  match n with
  | .rule ⟨id, field, type, operation, values, optional⟩ =>
    rw [visits] at h
    rcases List.mem_cons.mp h with rfl | h
    · exact .inl rfl
    · obtain ⟨j, -, hj⟩ := scope_of_mem_visitsOfValues values h
      exact .inr ⟨j, hj⟩
  | .condition ⟨id, junction, boost, children⟩ =>
    rw [visits] at h
    rcases List.mem_cons.mp h with rfl | h
    · exact .inl rfl
    · exact (scope_of_mem_visitsOfAll children h).imp_right fun ⟨j, _, hj⟩ => ⟨j, hj⟩

theorem scope_of_mem_visitsOfAll (ns : List Node) {scope way : List Nat} {i : Nat} {v : Visit}
    (h : v ∈ visitsOfAll scope way i ns) :
    v.scope = scope ∨ ∃ j, i ≤ j ∧ j :: way <:+ v.scope := by
  match ns with
  | [] => cases h
  | n :: ns =>
    rw [visitsOfAll] at h
    rcases List.mem_append.mp h with h | h
    · refine (scope_of_mem_visits n h).imp_right fun ⟨j, hj⟩ => ⟨i, Nat.le_refl i, ?_⟩
      exact (List.suffix_cons j _).trans hj
    · refine (scope_of_mem_visitsOfAll ns h).imp_right fun ⟨j, hij, hj⟩ => ⟨j, ?_, hj⟩
      exact Nat.le_of_succ_le hij

theorem scope_of_mem_visitsOfValues (vs : List Value) {way : List Nat} {i : Nat} {v : Visit}
    (h : v ∈ visitsOfValues way i vs) : ∃ j, i ≤ j ∧ j :: way <:+ v.scope := by
  match vs with
  | [] => cases h
  | .literal _ :: vs =>
    rw [visitsOfValues] at h
    obtain ⟨j, hij, hj⟩ := scope_of_mem_visitsOfValues vs h
    exact ⟨j, Nat.le_of_succ_le hij, hj⟩
  | .query n :: vs =>
    rw [visitsOfValues] at h
    rcases List.mem_append.mp h with h | h
    · refine ⟨i, Nat.le_refl i, ?_⟩
      rcases scope_of_mem_visits n h with h | ⟨j, hj⟩
      · rw [h]
      · exact (List.suffix_cons j _).trans hj
    · obtain ⟨j, hij, hj⟩ := scope_of_mem_visitsOfValues vs h
      exact ⟨j, Nat.le_of_succ_le hij, hj⟩

end

/-- A way does not end in two different steps from the same node. -/
theorem step_unique {i j : Nat} {way scope : List Nat} (hi : i :: way <:+ scope)
    (hj : j :: way <:+ scope) : i = j := by
  have hsuffix : i :: way <:+ j :: way := List.suffix_of_suffix_length_le hi hj (Nat.le_refl _)
  cases hsuffix.eq_of_length rfl
  rfl

/-! ## The ids of a scope -/

/-- The ids of the nodes of a tree, embedded queries left out. -/
def ids (n : Node) : List String :=
  n.entries.map Prod.fst

/-- The ids of the nodes of the trees. -/
def idsOfAll (ns : List Node) : List String :=
  (entriesOfAll ns).map Prod.fst

@[simp] theorem ids_rule (r : Rule) : (Node.rule r).ids = [r.id] := rfl

@[simp] theorem ids_condition (id : String) (j : Junction) (b : Boost) (children : List Node) :
    (Node.condition ⟨id, j, b, children⟩).ids = id :: idsOfAll children := rfl

@[simp] theorem idsOfAll_nil : idsOfAll [] = [] := rfl

@[simp] theorem idsOfAll_cons (n : Node) (ns : List Node) :
    idsOfAll (n :: ns) = n.ids ++ idsOfAll ns := by
  rw [idsOfAll, entriesOfAll, List.map_append]
  rfl

/-- The queries among the values are scopes other than the one around the rule. -/
theorem filter_visitsOfValues {scope way : List Nat} (h : scope.length ≤ way.length) (i : Nat)
    (vs : List Value) : (visitsOfValues way i vs).filter (fun v => v.scope = scope) = [] := by
  rw [List.filter_eq_nil_iff]
  intro v hv
  obtain ⟨j, -, hj⟩ := scope_of_mem_visitsOfValues vs hv
  have hlength := hj.length_le
  rw [List.length_cons] at hlength
  rw [decide_eq_true_eq]
  rintro rfl
  omega

mutual

/-- The nodes on the way through a tree that are in the scope of the tree itself are its nodes
without those of the embedded queries. -/
theorem filter_visits (n : Node) {scope way : List Nat} (h : scope.length ≤ way.length) :
    (n.visits scope way).filter (fun v => v.scope = scope) = n.ids.map (Visit.mk scope) := by
  match n with
  | .rule ⟨id, field, type, operation, values, optional⟩ =>
    rw [visits, List.filter_cons_of_pos (by simp), filter_visitsOfValues h]
    rfl
  | .condition ⟨id, junction, boost, children⟩ =>
    rw [visits, List.filter_cons_of_pos (by simp), filter_visitsOfAll children h]
    rfl

theorem filter_visitsOfAll (ns : List Node) {scope way : List Nat} (h : scope.length ≤ way.length)
    {i : Nat} : (visitsOfAll scope way i ns).filter (fun v => v.scope = scope)
      = (idsOfAll ns).map (Visit.mk scope) := by
  match ns with
  | [] => rfl
  | n :: ns =>
    rw [visitsOfAll, List.filter_append, filter_visits n (Nat.le_succ_of_le h),
      filter_visitsOfAll ns h, idsOfAll_cons, List.map_append]

end

theorem mem_visits_iff {n : Node} {scope way : List Nat} (h : scope.length ≤ way.length)
    {v : Visit} (hv : v.scope = scope) :
    v ∈ n.visits scope way ↔ v ∈ n.ids.map (Visit.mk scope) := by
  rw [← filter_visits n h, List.mem_filter]
  simp [hv]

/-! ## The check -/

/-- What the check comes to where it would remember the ids but for a repetition. -/
def verdict (ids : List String) : Option Visit → Except QueryError (List String)
  | none => .ok ids
  | some v => .error (.duplicateId v.id)

/-- Behind a child, an id counts as seen exactly if its node is in the scope around the child. -/
theorem repeated?_visitsOfAll {n : Node} {ns : List Node} {scope way : List Nat}
    (h : scope.length ≤ way.length) (seen : List String) (i : Nat) :
    repeated? ((n.visits scope (i :: way)).reverse ++ seen.map (Visit.mk scope))
        (visitsOfAll scope way (i + 1) ns)
      = repeated? ((n.ids.reverse ++ seen).map (Visit.mk scope))
        (visitsOfAll scope way (i + 1) ns) := by
  apply repeated?_congr
  intro v hv
  rw [List.map_append, List.map_reverse, List.mem_append, List.mem_append, List.mem_reverse,
    List.mem_reverse]
  refine or_congr_left ?_
  by_cases hscope : v.scope = scope
  · exact mem_visits_iff (Nat.le_succ_of_le h) hscope
  · refine iff_of_false (fun hn => ?_) ?_
    · obtain ⟨j, hij, hj⟩ := (scope_of_mem_visitsOfAll ns hv).resolve_left hscope
      obtain ⟨k, hk⟩ := (scope_of_mem_visits n hn).resolve_left hscope
      have heq : i = j := step_unique ((List.suffix_cons k _).trans hk) hj
      omega
    · rintro hmem
      obtain ⟨id, -, rfl⟩ := List.mem_map.mp hmem
      exact hscope rfl

/-- What was seen outside of the embedded queries of a rule does not count in them. -/
theorem repeated?_visitsOfValues {way : List Nat} {i : Nat} {vs : List Value}
    {earlier : List Visit} (h : ∀ v ∈ earlier, ∀ j, i ≤ j → ¬ j :: way <:+ v.scope) :
    repeated? earlier (visitsOfValues way i vs) = repeated? [] (visitsOfValues way i vs) := by
  apply repeated?_congr
  intro v hv
  obtain ⟨j, hij, hj⟩ := scope_of_mem_visitsOfValues vs hv
  exact iff_of_false (fun hmem => h v hmem j hij hj) List.not_mem_nil

-- The check starts anew in each embedded query, while the repetition is looked for in one list of
-- all nodes. The two agree because ids seen elsewhere are ids of other scopes: of the nodes passed
-- before, those in `scope` itself are all that the nodes still to come can repeat.
mutual

/-- The check of a tree fails as the first repetition on the way through it. -/
theorem collectIds_eq_verdict (n : Node) {scope way : List Nat} (h : scope.length ≤ way.length)
    (seen : List String) : collectIds seen n = verdict (n.ids.reverse ++ seen)
      (repeated? (seen.map (Visit.mk scope)) (n.visits scope way)) := by
  match n with
  | .rule ⟨id, field, type, operation, values, optional⟩ =>
    rw [collectIds_rule, visits, repeated?]
    by_cases hid : id ∈ seen
    · simp [hid, verdict]
    · have hvalues : repeated? (⟨scope, id⟩ :: seen.map (Visit.mk scope))
          (visitsOfValues way 0 values) = repeated? [] (visitsOfValues way 0 values) := by
        refine repeated?_visitsOfValues fun v hv j _ hj => ?_
        have hscope : v.scope = scope := by
          rcases List.mem_cons.mp hv with rfl | hv
          · rfl
          · obtain ⟨id', -, rfl⟩ := List.mem_map.mp hv
            rfl
        have hlength := hj.length_le
        rw [hscope, List.length_cons] at hlength
        omega
      rw [hvalues, checkEmbedded_eq_verdict values way 0]
      cases repeated? [] (visitsOfValues way 0 values) <;> simp [hid, verdict]
  | .condition ⟨id, junction, boost, children⟩ =>
    rw [collectIds, visits, repeated?]
    by_cases hid : id ∈ seen
    · simp [hid, verdict]
    · rw [collectAllIds_eq_verdict children h (id :: seen) 0]
      simp [hid]

theorem collectAllIds_eq_verdict (ns : List Node) {scope way : List Nat}
    (h : scope.length ≤ way.length) (seen : List String) (i : Nat) :
    collectAllIds seen ns = verdict ((idsOfAll ns).reverse ++ seen)
      (repeated? (seen.map (Visit.mk scope)) (visitsOfAll scope way i ns)) := by
  match ns with
  | [] => rfl
  | n :: ns =>
    have hway : scope.length ≤ (i :: way).length := Nat.le_succ_of_le h
    rw [collectAllIds, visitsOfAll, repeated?_append, repeated?_visitsOfAll h,
      collectIds_eq_verdict n hway seen]
    cases repeated? (seen.map (Visit.mk scope)) (n.visits scope (i :: way)) with
    | some v => rfl
    | none =>
      rw [verdict, except_ok_bind, collectAllIds_eq_verdict ns h _ (i + 1), idsOfAll_cons,
        List.reverse_append, List.append_assoc]
      rfl

theorem checkEmbedded_eq_verdict (vs : List Value) (way : List Nat) (i : Nat) :
    checkEmbedded vs = outcome (verdict [] (repeated? [] (visitsOfValues way i vs))) := by
  match vs with
  | [] => rfl
  | .literal _ :: vs =>
    rw [checkEmbedded, visitsOfValues, checkEmbedded_eq_verdict vs way (i + 1)]
  | .query n :: vs =>
    have hrest : repeated? (n.visits (i :: way) (i :: way)).reverse
        (visitsOfValues way (i + 1) vs) = repeated? [] (visitsOfValues way (i + 1) vs) := by
      refine repeated?_visitsOfValues fun v hv j hij hj => ?_
      have hi : i :: way <:+ v.scope := by
        rcases scope_of_mem_visits n (List.mem_reverse.mp hv) with hv | ⟨k, hk⟩
        · rw [hv]
        · exact (List.suffix_cons k _).trans hk
      have heq : i = j := step_unique hi hj
      omega
    rw [checkEmbedded, visitsOfValues, repeated?_append, List.append_nil, hrest,
      checkEmbedded_eq_verdict vs way (i + 1), collectIds_eq_verdict n (Nat.le_refl _) [],
      List.map_nil]
    cases repeated? [] (n.visits (i :: way) (i :: way)) <;> rfl

end

theorem checkIds_eq_verdict (n : Node) :
    n.checkIds = outcome (verdict n.ids.reverse (repeated? [] (n.visits [] []))) := by
  rw [checkIds_eq_outcome, collectIds_eq_verdict n (Nat.le_refl _) [], List.append_nil,
    List.map_nil]

/-! ## Scopes without repetitions -/

theorem nodup_ids_of_checkIds {n : Node} (h : n.checkIds = .ok ()) : n.ids.Nodup := by
  have hnone : repeated? [] (n.visits [] []) = none := by
    rw [checkIds_eq_verdict] at h
    cases hrepeated : repeated? [] (n.visits [] []) with
    | none => rfl
    | some v =>
      rw [hrepeated] at h
      cases h
  have hnodup := (repeated?_eq_none_iff.mp hnone).1.filter (fun v => v.scope = [])
  rw [filter_visits n (Nat.le_refl _)] at hnodup
  exact List.Nodup.of_map _ hnodup

mutual

/-- A tree passes the check if none of its ids was seen before or occurs twice in its scope. -/
theorem collectIds_of_nodup (n : Node) {seen : List String} (hids : n.ids.Nodup)
    (hseen : n.ids.Disjoint seen) (hembedded : ∀ m ∈ n.embedded, m.ids.Nodup) :
    collectIds seen n = .ok (n.ids.reverse ++ seen) := by
  match n with
  | .rule ⟨id, field, type, operation, values, optional⟩ =>
    rw [embedded] at hembedded
    rw [ids_rule, List.singleton_disjoint] at hseen
    rw [collectIds_rule, checkEmbedded_of_nodup values hembedded]
    simp [hseen]
  | .condition ⟨id, junction, boost, children⟩ =>
    rw [embedded] at hembedded
    rw [ids_condition, List.nodup_cons] at hids
    rw [ids_condition, List.disjoint_cons_left] at hseen
    have hchildren : (idsOfAll children).Disjoint (id :: seen) :=
      List.disjoint_cons_right.mpr ⟨hids.1, hseen.2⟩
    rw [collectIds, collectAllIds_of_nodup children hids.2 hchildren hembedded]
    simp [hseen.1]

theorem collectAllIds_of_nodup (ns : List Node) {seen : List String} (hids : (idsOfAll ns).Nodup)
    (hseen : (idsOfAll ns).Disjoint seen) (hembedded : ∀ m ∈ embeddedOfAll ns, m.ids.Nodup) :
    collectAllIds seen ns = .ok ((idsOfAll ns).reverse ++ seen) := by
  match ns with
  | [] => rfl
  | n :: ns =>
    rw [idsOfAll_cons, List.nodup_append'] at hids
    rw [idsOfAll_cons, List.disjoint_append_left] at hseen
    rw [embeddedOfAll, List.forall_mem_append] at hembedded
    obtain ⟨hn, hns, hdisjoint⟩ := hids
    have hrest : (idsOfAll ns).Disjoint (n.ids.reverse ++ seen) := by
      rw [List.disjoint_append_right]
      exact ⟨fun id hid hid' => hdisjoint (List.mem_reverse.mp hid') hid, hseen.2⟩
    rw [collectAllIds, collectIds_of_nodup n hn hseen.1 hembedded.1, except_ok_bind,
      collectAllIds_of_nodup ns hns hrest hembedded.2]
    simp

theorem checkEmbedded_of_nodup (vs : List Value) (h : ∀ m ∈ embeddedOfValues vs, m.ids.Nodup) :
    checkEmbedded vs = .ok () := by
  match vs with
  | [] => rfl
  | .literal _ :: vs =>
    rw [embeddedOfValues] at h
    rw [checkEmbedded]
    exact checkEmbedded_of_nodup vs h
  | .query n :: vs =>
    rw [embeddedOfValues, List.forall_mem_cons, List.forall_mem_append] at h
    obtain ⟨hn, hembedded, hvs⟩ := h
    rw [checkEmbedded, collectIds_of_nodup n hn (List.disjoint_nil_right _) hembedded,
      except_ok_bind]
    exact checkEmbedded_of_nodup vs hvs

end

/-- The check succeeds exactly if every scope has different ids, and fails as the first node on the
way through the tree whose id occurred before in the scope of that node. -/
theorem checkIds_decides_repetition_per_scope (n : Node) :
    (n.checkIds = .ok () ↔ ∀ m ∈ n :: n.embedded, m.ids.Nodup) ∧
    ∀ e, n.checkIds = .error e ↔ ∃ before v after, n.visits [] [] = before ++ v :: after ∧
      before.Nodup ∧ v ∈ before ∧ e = .duplicateId v.id := by
  refine ⟨⟨fun h => ?_, fun h => ?_⟩, fun e => ?_⟩
  · rw [List.forall_mem_cons]
    refine ⟨nodup_ids_of_checkIds h, fun m hm => ?_⟩
    exact nodup_ids_of_checkIds (checkIds_of_mem_embedded h m hm)
  · rw [List.forall_mem_cons] at h
    rw [checkIds_eq_outcome, collectIds_of_nodup n h.1 (List.disjoint_nil_right _) h.2, outcome_ok]
  · have herror : n.checkIds = .error e ↔
        ∃ v, repeated? [] (n.visits [] []) = some v ∧ e = .duplicateId v.id := by
      rw [checkIds_eq_verdict]
      cases repeated? [] (n.visits [] []) <;> simp [verdict, eq_comm]
    simp only [herror, repeated?_eq_some_iff]
    constructor
    · rintro ⟨v, ⟨before, after, hsplit, hnodup, hv⟩, he⟩
      exact ⟨before, v, after, hsplit, hnodup, hv, he⟩
    · rintro ⟨before, v, after, hsplit, hnodup, hv, he⟩
      exact ⟨v, ⟨before, after, hsplit, hnodup, hv⟩, he⟩

end Node

end SearchFilter
