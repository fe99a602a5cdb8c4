import SearchFilter.Proofs.Except
import SearchFilter.Tree.Decode

/-!
# What decoding reads

Nodes and values are read one after the other, and so are the members of a node; each member sets a
field of its own. Only the children of a condition and the values of a rule hold further nodes, so
for what lies below a node nothing else of it has to be looked at.
-/

namespace SearchFilter.Tree

open Json (Member)

/-! ## Lists -/

theorem decodeAllNodes_eq_mapM (es : List Json) :
    decodeAllNodes es = es.mapM (decodeNode false) := by
  induction es with
  | nil => rw [decodeAllNodes]; rfl
  | cons e es ih => rw [decodeAllNodes, List.mapM_cons, ih]

/-- Reads a value of a rule. -/
def decodeValue : Json → Except Fault Value
  | .string s => .ok (.literal s)
  | v =>
    match decodeNode false v with
    | .ok n => .ok (.query n)
    | .error _ => .error .notAValue

theorem decodeAllValues_eq_mapM (es : List Json) : decodeAllValues es = es.mapM decodeValue := by
  induction es with
  | nil => rw [decodeAllValues]; rfl
  | cons e es ih =>
    rw [List.mapM_cons]
    cases e with
    | string s => rw [decodeAllValues, ih]; rfl
    | _ =>
      rw [decodeAllValues, ih, decodeValue]
      · cases decodeNode false _ <;> rfl
      all_goals simp

/-- An embedded query among the values was read as a node. -/
theorem decodeNode_of_decodeValue {e : Json} {n : Node} (h : decodeValue e = .ok (.query n)) :
    decodeNode false e = .ok n := by
  unfold decodeValue at h
  split at h
  · cases h
  · split at h
    next heq =>
      cases h
      exact heq
    · cases h

/-- An object among the values is read as a node. -/
theorem decodeNode_of_decodeValue_object {ms : List Member} {x : Value}
    (h : decodeValue (.object ms) = .ok x) : ∃ n, decodeNode false (.object ms) = .ok n := by
  unfold decodeValue at h
  split at h
  next heq => cases heq
  next =>
    split at h
    next n hn => exact ⟨n, hn⟩
    next => cases h

theorem decodeChildren_eq_ok {v : Json} {ns : List Node} :
    decodeChildren v = .ok ns ↔ ∃ es, v = .array es ∧ es.mapM (decodeNode false) = .ok ns := by
  cases v <;> simp [decodeChildren, decodeAllNodes_eq_mapM]

theorem decodeValues_eq_ok {v : Json} {vs : List Value} :
    decodeValues v = .ok vs ↔ ∃ es, v = .array es ∧ es.mapM decodeValue = .ok vs := by
  cases v <;> simp [decodeValues, decodeAllValues_eq_mapM]

/-! ## Members -/

section

variable {σ α : Type} {step : σ → Member → Except Fault σ} {name : String} {field : σ → α}
  {decode : Json → Except Fault α}

/-- A step over the members of an object reads the named member into a field; other members leave
the field as it is. -/
structure ReadsField (step : σ → Member → Except Fault σ) (name : String) (field : σ → α)
    (decode : Json → Except Fault α) : Prop where
  named : ∀ s v, (step s ⟨name, v⟩).map field = decode v
  other : ∀ s m t, m.name ≠ name → step s m = .ok t → field t = field s

namespace ReadsField

/-- After all members the field is what it was at the start, or was read off a named member. -/
theorem field_of_foldlM (h : ReadsField step name field decode) {ms : List Member} {s t : σ}
    (hms : ms.foldlM step s = .ok t) :
    field t = field s ∨ ∃ v, ⟨name, v⟩ ∈ ms ∧ decode v = .ok (field t) := by
  induction ms generalizing s with
  | nil =>
    cases hms
    exact .inl rfl
  | cons m ms ih =>
    rw [List.foldlM_cons] at hms
    obtain ⟨u, hu, hms⟩ := except_bind_eq_ok.mp hms
    rcases ih hms with hfield | ⟨v, hv, hdecode⟩
    · by_cases hname : m.name = name
      · obtain ⟨_, v⟩ := m
        obtain rfl : _ = name := hname
        have hread := h.named s v
        rw [hu] at hread
        exact .inr ⟨v, List.mem_cons_self, by rw [← hread, hfield]; rfl⟩
      · exact .inl (hfield.trans (h.other s m u hname hu))
    · exact .inr ⟨v, List.mem_cons_of_mem m hv, hdecode⟩

/-- Where all members can be read, those before each named one can, and so can its value. -/
theorem split_of_foldlM (h : ReadsField step name field decode) {before after : List Member}
    {s t : σ} {v : Json} (hms : (before ++ ⟨name, v⟩ :: after).foldlM step s = .ok t) :
    (∃ u, before.foldlM step s = .ok u) ∧ ∃ a, decode v = .ok a := by
  rw [List.foldlM_append] at hms
  obtain ⟨u, hbefore, hms⟩ := except_bind_eq_ok.mp hms
  rw [List.foldlM_cons] at hms
  obtain ⟨w, hw, -⟩ := except_bind_eq_ok.mp hms
  exact ⟨⟨u, hbefore⟩, field w, by rw [← h.named u v, hw]; rfl⟩

end ReadsField

end

/-- Reads a member of a rule. -/
def ruleMember (f : RuleFields) (m : Member) : Except Fault RuleFields := do
  if m.name = "id" then return { f with id := some (← decodeText m.value) }
  else if m.name = "field" then return { f with field := some (← decodeText m.value) }
  else if m.name = "type" then return { f with type := some (← decodeType m.value) }
  else if m.name = "operation" then return { f with operation := some (← decodeText m.value) }
  else if m.name = "values" then return { f with values := ← decodeValues m.value }
  else if m.name = "optional" then return { f with optional := ← decodeBool m.value }
  else return f

/-- Reads a member of a condition. -/
def conditionMember (f : ConditionFields) (m : Member) : Except Fault ConditionFields := do
  if m.name = "id" then return { f with id := some (← decodeText m.value) }
  else if m.name = "junction" then return { f with junction := ← decodeJunction m.value }
  else if m.name = "boost" then return { f with boost := ← decodeBoost m.value }
  else if m.name = "children" then return { f with children := ← decodeChildren m.value }
  else return f

theorem decodeRuleMembers_eq_foldlM (f : RuleFields) (ms : List Member) :
    decodeRuleMembers f ms = ms.foldlM ruleMember f := by
  induction ms generalizing f with
  | nil => rw [decodeRuleMembers]; rfl
  | cons m ms ih =>
    obtain ⟨name, v⟩ := m
    rw [decodeRuleMembers, List.foldlM_cons, ruleMember]
    simp only [ih]
    repeat' split
    all_goals simp only [bind_assoc, pure_bind]

theorem decodeConditionMembers_eq_foldlM (f : ConditionFields) (ms : List Member) :
    decodeConditionMembers f ms = ms.foldlM conditionMember f := by
  induction ms generalizing f with
  | nil => rw [decodeConditionMembers]; rfl
  | cons m ms ih =>
    obtain ⟨name, v⟩ := m
    rw [decodeConditionMembers, List.foldlM_cons, conditionMember]
    simp only [ih]
    repeat' split
    all_goals simp only [bind_assoc, pure_bind]

theorem readsField_ruleMember :
    ReadsField ruleMember "values" RuleFields.values decodeValues where
  named f v := by
    simp only [ruleMember, String.reduceEq, if_true, if_false]
    cases decodeValues v <;> rfl
  other f m g hname h := by
    unfold ruleMember at h
    repeat' split at h
    all_goals first
      | exact absurd ‹_› hname
      | obtain ⟨_, -, h⟩ := except_bind_eq_ok.mp h
        cases h
        rfl
      | cases h
        rfl

theorem readsField_conditionMember :
    ReadsField conditionMember "children" ConditionFields.children decodeChildren where
  named f v := by
    simp only [conditionMember, String.reduceEq, if_true, if_false]
    cases decodeChildren v <;> rfl
  other f m g hname h := by
    unfold conditionMember at h
    repeat' split at h
    all_goals first
      | exact absurd ‹_› hname
      | obtain ⟨_, -, h⟩ := except_bind_eq_ok.mp h
        cases h
        rfl
      | cases h
        rfl

/-! ## Fields in array form -/

/-- The values of a rule in array form are absent or were read off its fifth field. -/
theorem values_of_decodeRuleFields {fields : List Json} {r : Rule}
    (h : decodeRuleFields fields = .ok r) :
    r.values = [] ∨ ∃ v ∈ fields, decodeValues v = .ok r.values := by
  unfold decodeRuleFields at h
  split at h
  case h_5 =>
    simp only [except_bind_eq_ok] at h
    obtain ⟨_, -, _, -, _, -, _, -, h⟩ := h
    cases h
    exact .inl rfl
  case h_6 id field type operation values =>
    simp only [except_bind_eq_ok] at h
    obtain ⟨_, -, _, -, _, -, _, -, vs, hvs, h⟩ := h
    cases h
    exact .inr ⟨values, by simp, hvs⟩
  case h_7 id field type operation values optional more =>
    simp only [except_bind_eq_ok] at h
    obtain ⟨_, -, _, -, _, -, _, -, vs, hvs, _, -, h⟩ := h
    split at h
    · cases h
      exact .inr ⟨values, by simp, hvs⟩
    · cases h
  all_goals simp [except_bind_eq_ok] at h

/-- The children of a condition in array form are absent or were read off its fourth field. -/
theorem children_of_decodeConditionFields {fields : List Json} {c : Condition}
    (h : decodeConditionFields fields = .ok c) :
    c.children = [] ∨ ∃ v ∈ fields, decodeChildren v = .ok c.children := by
  unfold decodeConditionFields at h
  split at h
  case h_1 => cases h
  case h_2 =>
    simp only [except_bind_eq_ok] at h
    obtain ⟨_, -, h⟩ := h
    cases h
    exact .inl rfl
  case h_3 =>
    simp only [except_bind_eq_ok] at h
    obtain ⟨_, -, _, -, h⟩ := h
    cases h
    exact .inl rfl
  case h_4 =>
    simp only [except_bind_eq_ok] at h
    obtain ⟨_, -, _, -, _, -, h⟩ := h
    cases h
    exact .inl rfl
  case h_5 id junction boost children more =>
    simp only [except_bind_eq_ok] at h
    obtain ⟨_, -, _, -, _, -, ns, hns, h⟩ := h
    split at h
    · cases h
      exact .inr ⟨children, by simp, hns⟩
    · cases h

/-! ## Nodes -/

/-- An object that is read as a node has a tag, and the values or the children of the node are those
that its members give. -/
theorem decodeNode_object_eq_ok {root : Bool} {ms : List Member} {n : Node}
    (h : decodeNode root (.object ms) = .ok n) :
    ∃ tag, Json.find? "nodeType" ms = some tag ∧
      ((decodeTag root tag = .ok .rule ∧ ∃ r f, n = .rule r ∧
          ms.foldlM ruleMember {} = .ok f ∧ f.values = r.values) ∨
        (decodeTag root tag = .ok .condition ∧ ∃ c f, n = .condition c ∧
          ms.foldlM conditionMember {} = .ok f ∧ f.children = c.children)) := by
  rw [decodeNode] at h
  obtain ⟨tag, htag, h⟩ := except_bind_eq_ok.mp h
  obtain ⟨kind, hkind, h⟩ := except_bind_eq_ok.mp h
  have hfound : Json.find? "nodeType" ms = some tag := by
    cases hfind : Json.find? "nodeType" ms with
    | none =>
      rw [hfind] at htag
      cases htag
    | some tag' =>
      rw [hfind] at htag
      cases htag
      rfl
  refine ⟨tag, hfound, ?_⟩
  cases kind with
  | rule =>
    obtain ⟨f, hf, h⟩ := except_bind_eq_ok.mp h
    obtain ⟨r, hr, h⟩ := except_bind_eq_ok.mp h
    cases h
    simp only [RuleFields.toRule, except_bind_eq_ok] at hr
    obtain ⟨_, -, _, -, _, -, _, -, hr⟩ := hr
    cases hr
    rw [decodeRuleMembers_eq_foldlM] at hf
    exact .inl ⟨hkind, _, f, rfl, hf, rfl⟩
  | condition =>
    obtain ⟨f, hf, h⟩ := except_bind_eq_ok.mp h
    obtain ⟨c, hc, h⟩ := except_bind_eq_ok.mp h
    cases h
    obtain ⟨_, -, hc⟩ := except_bind_eq_ok.mp hc
    cases hc
    rw [decodeConditionMembers_eq_foldlM] at hf
    exact .inr ⟨hkind, _, f, rfl, hf, rfl⟩

/-- An array that is read as a node holds a tag and then the fields of the node. -/
theorem decodeNode_array_eq_ok {root : Bool} {es : List Json} {n : Node}
    (h : decodeNode root (.array es) = .ok n) : ∃ tag fields, es = tag :: fields ∧
      ((∃ r, n = .rule r ∧ decodeRuleFields fields = .ok r) ∨
        ∃ c, n = .condition c ∧ decodeConditionFields fields = .ok c) := by
  cases es with
  | nil => simp [decodeNode] at h
  | cons tag fields =>
    rw [decodeNode] at h
    obtain ⟨kind, -, h⟩ := except_bind_eq_ok.mp h
    refine ⟨tag, fields, rfl, ?_⟩
    cases kind with
    | rule =>
      obtain ⟨r, hr, h⟩ := except_bind_eq_ok.mp h
      cases h
      exact .inl ⟨r, rfl, hr⟩
    | condition =>
      obtain ⟨c, hc, h⟩ := except_bind_eq_ok.mp h
      cases h
      exact .inr ⟨c, rfl, hc⟩

end SearchFilter.Tree
