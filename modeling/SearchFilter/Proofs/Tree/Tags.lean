import SearchFilter.Proofs.Except
import SearchFilter.Proofs.Json.Names
import SearchFilter.Tree.Decode

/-!
# Where tags are looked at

Before any node is read, the tags are looked at in the root and in whatever objects stand below it
in arrays named `children` or `values`. An unsupported kind of node is reported exactly if one of
these objects has a tag that names no kind; nothing else is reported that way.
-/

namespace SearchFilter

namespace Json

/-- The elements of the array with the name among the members; none if there is no such array. -/
def elements (name : String) (ms : List Member) : List Json :=
  match find? name ms with
  | some (.array es) => es
  | _ => []

theorem elements_eq_of_find? {name : String} {ms : List Member} {es : List Json}
    (h : find? name ms = some (.array es)) : elements name ms = es := by
  rw [elements, h]

theorem find?_of_mem_elements {name : String} {ms : List Member} {u : Json}
    (h : u ∈ elements name ms) : ∃ es, find? name ms = some (.array es) ∧ u ∈ es := by
  unfold elements at h
  split at h
  · rename_i es hes
    exact ⟨es, hes, h⟩
  · cases h

theorem depth_lt_of_mem_elements {name : String} {ms : List Member} {u : Json}
    (h : u ∈ elements name ms) : u.depth < (Json.object ms).depth := by
  obtain ⟨es, hes, hu⟩ := find?_of_mem_elements h
  have hle : u.depth ≤ depthOfAll es := depth_le_of_mem hu
  have hle' : (Json.array es).depth ≤ depthOfMembers ms :=
    depth_le_of_mem_members (mem_of_find? hes)
  simp only [depth] at hle' ⊢
  omega

end Json

namespace Tree

open Json (Member elements)

/-- The values below an object at which the check of the tags goes on. -/
def below : Json → List Json
  | .object ms => elements "children" ms ++ elements "values" ms
  | _ => []

/-- The check of the tags of a value comes to a value. -/
inductive Scanned : Json → Json → Prop
  | here {v : Json} : Scanned v v
  | deeper {v u w : Json} (hu : u ∈ below v) (hw : Scanned u w) : Scanned v w

/-- An object with a tag that names no kind of nodes. -/
def HasBadTag (v : Json) : Prop :=
  ∃ ms tag, v = .object ms ∧ Json.find? "nodeType" ms = some tag ∧
    NodeKind.ofName? (tagText tag) = none

/-- A bad tag is only come to from an object. -/
theorem Scanned.object_of_hasBadTag {v w : Json} (h : Scanned v w) (hw : HasBadTag w) :
    ∃ ms, v = .object ms := by
  cases h with
  | here =>
    obtain ⟨ms, -, hms, -⟩ := hw
    exact ⟨ms, hms⟩
  | deeper hu _ =>
    cases v with
    | object ms => exact ⟨ms, rfl⟩
    | _ => cases hu

theorem Scanned.trans {v w x : Json} (h : Scanned v w) (h' : Scanned w x) : Scanned v x := by
  induction h with
  | here => exact h'
  | deeper hu _ ih => exact .deeper hu (ih h')

/-! ## The check -/

theorem checkTagsUnder_eq (name : String) (ms : List Member) :
    checkTagsUnder name ms = checkAllTags (elements name ms) := by
  induction ms with
  | nil => rfl
  | cons m ms ih =>
    obtain ⟨n, v⟩ := m
    rw [checkTagsUnder, elements, Json.find?_cons]
    split
    · cases v <;> rfl
    · exact ih

theorem checkAllTags_append (vs ws : List Json) :
    checkAllTags (vs ++ ws) = (do checkAllTags vs; checkAllTags ws) := by
  induction vs with
  | nil => rfl
  | cons v vs ih => simp only [List.cons_append, checkAllTags, ih, bind_assoc]

/-- First comes the tag of an object, then those of the values below it. -/
theorem checkTags_object (ms : List Member) :
    checkTags (.object ms) = (do checkTag ms; checkAllTags (below (.object ms))) := by
  rw [checkTags, checkTagsUnder_eq, checkTagsUnder_eq, below, checkAllTags_append]

theorem checkTags_of_not_object {v : Json} (h : ∀ ms, v ≠ .object ms) : checkTags v = .ok () := by
  cases v with
  | object ms => exact absurd rfl (h ms)
  | _ => simp [checkTags]

theorem checkAllTags_eq_ok_iff {vs : List Json} :
    checkAllTags vs = .ok () ↔ ∀ v ∈ vs, checkTags v = .ok () := by
  induction vs with
  | nil => simp [checkAllTags]
  | cons v vs ih =>
    rw [checkAllTags, except_seq_eq_ok, List.forall_mem_cons, ih]

theorem checkTag_eq_ok_iff {ms : List Member} :
    checkTag ms = .ok () ↔ ¬ HasBadTag (.object ms) := by
  rw [checkTag]
  cases htag : Json.find? "nodeType" ms with
  | none => simp [HasBadTag, htag]
  | some tag => cases hkind : NodeKind.ofName? (tagText tag) <;> simp [HasBadTag, htag, hkind]

theorem depth_lt_of_mem_below {v u : Json} (h : u ∈ below v) : u.depth < v.depth := by
  cases v with
  | object ms =>
    rcases List.mem_append.mp h with h | h
    · exact Json.depth_lt_of_mem_elements h
    · exact Json.depth_lt_of_mem_elements h
  | _ => cases h

/-- The check finds nothing exactly if every tag it comes to names a kind. -/
theorem checkTags_eq_ok_iff {v : Json} :
    checkTags v = .ok () ↔ ∀ w, Scanned v w → ¬ HasBadTag w := by
  by_cases hobject : ∃ ms, v = .object ms
  · obtain ⟨ms, rfl⟩ := hobject
    rw [checkTags_object, except_seq_eq_ok]
    constructor
    · rintro ⟨htag, hbelow⟩ w hw
      cases hw with
      | here => exact checkTag_eq_ok_iff.mp htag
      | deeper hu hw =>
        have := depth_lt_of_mem_below hu
        exact checkTags_eq_ok_iff.mp (checkAllTags_eq_ok_iff.mp hbelow _ hu) w hw
    · intro hgood
      refine ⟨checkTag_eq_ok_iff.mpr (hgood _ .here), checkAllTags_eq_ok_iff.mpr fun u hu => ?_⟩
      have := depth_lt_of_mem_below hu
      exact checkTags_eq_ok_iff.mpr fun w hw => hgood w (.deeper hu hw)
  · exact iff_of_true (checkTags_of_not_object fun ms h => hobject ⟨ms, h⟩)
      fun w hw hbad => hobject (hw.object_of_hasBadTag hbad)
termination_by v.depth

/-! ## The error -/

theorem checkAllTags_eq_error {vs : List Json} {e : QueryError} (h : checkAllTags vs = .error e) :
    ∃ v ∈ vs, checkTags v = .error e := by
  induction vs with
  | nil => cases h
  | cons v vs ih =>
    rw [checkAllTags] at h
    cases hv : checkTags v with
    | error e' =>
      rw [hv] at h
      cases h
      exact ⟨v, List.mem_cons_self, hv⟩
    | ok _ =>
      rw [hv] at h
      obtain ⟨u, hu, hue⟩ := ih h
      exact ⟨u, List.mem_cons_of_mem v hu, hue⟩

/-- The check fails in one way only. -/
theorem unsupported_of_checkTags {v : Json} {e : QueryError} (h : checkTags v = .error e) :
    ∃ id type, e = .unsupportedNodeType id type := by
  cases v with
  | object ms =>
    rw [checkTags_object] at h
    cases htag : checkTag ms with
    | error e' =>
      rw [htag] at h
      cases h
      unfold checkTag at htag
      split at htag
      · cases htag
      · split at htag
        · cases htag
        · cases htag
          exact ⟨_, _, rfl⟩
    | ok _ =>
      rw [htag] at h
      obtain ⟨u, hu, hue⟩ := checkAllTags_eq_error h
      have := depth_lt_of_mem_below hu
      exact unsupported_of_checkTags hue
  | _ => simp [checkTags] at h
termination_by v.depth

end Tree

namespace Node

mutual

theorem duplicate_of_collectIds {seen : List String} {n : Node} {e : QueryError}
    (h : collectIds seen n = .error e) : ∃ id, e = .duplicateId id := by
  match n with
  | .rule ⟨id, field, type, operation, values, optional⟩ =>
    rw [collectIds] at h
    split at h
    · cases h
      exact ⟨id, rfl⟩
    · cases hvalues : checkEmbedded values with
      | error e' =>
        rw [hvalues] at h
        cases h
        exact duplicate_of_checkEmbedded hvalues
      | ok _ =>
        rw [hvalues] at h
        cases h
  | .condition ⟨id, junction, boost, children⟩ =>
    rw [collectIds] at h
    split at h
    · cases h
      exact ⟨id, rfl⟩
    · exact duplicate_of_collectAllIds h

theorem duplicate_of_collectAllIds {seen : List String} {ns : List Node} {e : QueryError}
    (h : collectAllIds seen ns = .error e) : ∃ id, e = .duplicateId id := by
  match ns with
  | [] => simp [collectAllIds] at h
  | n :: ns =>
    rw [collectAllIds] at h
    cases hn : collectIds seen n with
    | error e' =>
      rw [hn] at h
      cases h
      exact duplicate_of_collectIds hn
    | ok seen' =>
      rw [hn] at h
      exact duplicate_of_collectAllIds h

theorem duplicate_of_checkEmbedded {vs : List Value} {e : QueryError}
    (h : checkEmbedded vs = .error e) : ∃ id, e = .duplicateId id := by
  match vs with
  | [] => simp [checkEmbedded] at h
  | .literal _ :: vs =>
    rw [checkEmbedded] at h
    exact duplicate_of_checkEmbedded h
  | .query n :: vs =>
    rw [checkEmbedded] at h
    cases hn : collectIds [] n with
    | error e' =>
      rw [hn] at h
      cases h
      exact duplicate_of_collectIds hn
    | ok _ =>
      rw [hn] at h
      exact duplicate_of_checkEmbedded h

end

theorem duplicate_of_checkIds {n : Node} {e : QueryError} (h : n.checkIds = .error e) :
    ∃ id, e = .duplicateId id := by
  rw [checkIds] at h
  cases hn : collectIds [] n with
  | error e' =>
    rw [hn] at h
    cases h
    exact duplicate_of_collectIds hn
  | ok _ =>
    rw [hn] at h
    cases h

/-- A kind of node is reported as unsupported exactly if the check of the tags comes to a tag that
names no kind. -/
theorem ofJson_unsupported_iff {v : Json} :
    (∃ id type, ofJson v = .error (.unsupportedNodeType id type)) ↔
      ∃ w, Tree.Scanned v w ∧ Tree.HasBadTag w := by
  have hcheck : Tree.checkTags v = .ok () ↔ ¬ ∃ w, Tree.Scanned v w ∧ Tree.HasBadTag w := by
    rw [Tree.checkTags_eq_ok_iff]
    simp only [not_exists, not_and]
  cases htags : Tree.checkTags v with
  | error e =>
    rw [htags] at hcheck
    obtain ⟨id, type, rfl⟩ := Tree.unsupported_of_checkTags htags
    refine iff_of_true ⟨id, type, ?_⟩ (by_contra fun hnone => nomatch hcheck.mpr hnone)
    rw [ofJson, htags]
    rfl
  | ok _ =>
    refine iff_of_false ?_ (hcheck.mp htags)
    rintro ⟨id, type, h⟩
    rw [ofJson, htags, except_ok_bind] at h
    split at h
    next n _ =>
      cases hids : n.checkIds with
      | error e =>
        obtain ⟨_, rfl⟩ := duplicate_of_checkIds hids
        rw [hids] at h
        cases h
      | ok _ =>
        rw [hids] at h
        cases h
    next => cases h

end Node

end SearchFilter
