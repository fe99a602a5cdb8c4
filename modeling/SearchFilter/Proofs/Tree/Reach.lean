import SearchFilter.Proofs.Tree.Decoding
import SearchFilter.Proofs.Tree.Tags
import SearchFilter.Tree.Equality

/-!
# How far nodes are read

Tags are looked at on the way through all arrays named `children` and `values`, nodes are read in
those arrays only that belong to the kind of the node around them. As long as all nodes are written
as objects the first way covers the second one, so an unknown kind of node is reported as such
wherever reading would stop at it. It also goes where nothing is read, and it takes no number for
a tag; beyond that, what can be read is not reported.
-/

namespace SearchFilter

/-- The name of the array that holds the parts of a node. -/
def NodeKind.partsName : NodeKind → String
  | .rule => "values"
  | .condition => "children"

/-- The name of an array that a node does not have. -/
def NodeKind.ignoredName : NodeKind → String
  | .rule => "children"
  | .condition => "values"

namespace Tree

open Json (Member elements)

/-! ## Reading of members and parts -/

/-- The members can be read as those of a node of the kind. -/
def ReadsMembers : NodeKind → List Member → Prop
  | .rule, ms => ∃ f, decodeRuleMembers {} ms = .ok f
  | .condition, ms => ∃ f, decodeConditionMembers {} ms = .ok f

/-- The elements can be read as parts of a node of the kind. -/
def ReadsParts : NodeKind → List Json → Prop
  | .rule, es => ∃ vs, decodeAllValues es = .ok vs
  | .condition, es => ∃ ns, decodeAllNodes es = .ok ns

/-- Reading an object as a node comes to an element of the array of its parts: the tag names the
kind, and all members and elements before it can be read. -/
inductive Enters (root : Bool) : Json → Json → Prop
  | intro {kind : NodeKind} {tag u : Json} {before after : List Member} {done rest : List Json}
    (htag : Json.find? "nodeType"
      (before ++ ⟨kind.partsName, .array (done ++ u :: rest)⟩ :: after) = some tag)
    (hkind : decodeTag root tag = .ok kind) (hbefore : ReadsMembers kind before)
    (hdone : ReadsParts kind done) :
    Enters root (.object (before ++ ⟨kind.partsName, .array (done ++ u :: rest)⟩ :: after)) u

/-- Reading a value as a node comes to a value, through objects only. -/
inductive Reaches : Bool → Json → Json → Prop
  | here {root : Bool} {v : Json} : Reaches root v v
  | part {root : Bool} {v u w : Json} (hu : Enters root v u) (hw : Reaches false u w) :
    Reaches root v w

/-- An object whose tag is a string that names no kind of nodes. -/
def HasUnknownTag (v : Json) : Prop :=
  ∃ ms s, v = .object ms ∧ Json.find? "nodeType" ms = some (.string s) ∧
    NodeKind.ofName? s = none

/-- An object whose tag is the number of a kind of nodes. -/
def HasNumberTag (v : Json) : Prop :=
  ∃ ms i, v = .object ms ∧ Json.find? "nodeType" ms = some (.number (.whole i)) ∧
    ∃ kind, decodeTag false (.number (.whole i)) = .ok kind

/-- An element of an array that the node written as the object does not have. -/
def Ignores (v u : Json) : Prop :=
  ∃ ms tag kind, v = .object ms ∧ Json.find? "nodeType" ms = some tag ∧
    decodeTag false tag = .ok kind ∧ u ∈ elements kind.ignoredName ms

theorem HasUnknownTag.hasBadTag {v : Json} (h : HasUnknownTag v) : HasBadTag v := by
  obtain ⟨ms, s, rfl, htag, hs⟩ := h
  exact ⟨ms, .string s, rfl, htag, hs⟩

/-- Where all parts can be read, those before each one can, and so can an object itself. -/
theorem readsParts_split {kind : NodeKind} {done rest : List Json} {u : Json}
    (h : ReadsParts kind (done ++ u :: rest)) :
    ReadsParts kind done ∧ ∀ ms, u = .object ms → ∃ n, decodeNode false u = .ok n := by
  cases kind with
  | rule =>
    simp only [ReadsParts, decodeAllValues_eq_mapM] at h ⊢
    obtain ⟨vs, h⟩ := h
    obtain ⟨hdone, x, hx⟩ := split_of_mapM h
    refine ⟨hdone, ?_⟩
    rintro ms rfl
    exact decodeNode_of_decodeValue_object hx
  | condition =>
    simp only [ReadsParts, decodeAllNodes_eq_mapM] at h ⊢
    obtain ⟨ns, h⟩ := h
    obtain ⟨hdone, hread⟩ := split_of_mapM h
    exact ⟨hdone, fun _ _ => hread⟩

/-- Where all members can be read, those before the parts can, and so can the parts. -/
theorem readsMembers_split {kind : NodeKind} {before after : List Member} {v : Json}
    (h : ReadsMembers kind (before ++ ⟨kind.partsName, v⟩ :: after)) :
    ReadsMembers kind before ∧ ∃ es, v = .array es ∧ ReadsParts kind es := by
  cases kind with
  | rule =>
    simp only [ReadsMembers, decodeRuleMembers_eq_foldlM] at h ⊢
    obtain ⟨f, h⟩ := h
    obtain ⟨hbefore, vs, hvs⟩ := readsField_ruleMember.split_of_foldlM h
    obtain ⟨es, rfl, hes⟩ := decodeValues_eq_ok.mp hvs
    exact ⟨hbefore, es, rfl, vs, (decodeAllValues_eq_mapM es).trans hes⟩
  | condition =>
    simp only [ReadsMembers, decodeConditionMembers_eq_foldlM] at h ⊢
    obtain ⟨f, h⟩ := h
    obtain ⟨hbefore, ns, hns⟩ := readsField_conditionMember.split_of_foldlM h
    obtain ⟨es, rfl, hes⟩ := decodeChildren_eq_ok.mp hns
    exact ⟨hbefore, es, rfl, ns, (decodeAllNodes_eq_mapM es).trans hes⟩

/-- An object that is read as a node has a tag that names the kind, and its members can be read. -/
theorem readsMembers_of_decodeNode {root : Bool} {ms : List Member} {n : Node}
    (h : decodeNode root (.object ms) = .ok n) :
    ∃ tag kind, Json.find? "nodeType" ms = some tag ∧ decodeTag root tag = .ok kind ∧
      ReadsMembers kind ms := by
  obtain ⟨tag, htag, ⟨hkind, _, f, -, hf, -⟩ | ⟨hkind, _, f, -, hf, -⟩⟩ :=
    decodeNode_object_eq_ok h
  · exact ⟨tag, .rule, htag, hkind, f, (decodeRuleMembers_eq_foldlM {} ms).trans hf⟩
  · exact ⟨tag, .condition, htag, hkind, f, (decodeConditionMembers_eq_foldlM {} ms).trans hf⟩

/-! ## Reading fails where it stops -/

/-- A part written as an object that cannot be read is where reading the node stops. -/
theorem decodeNode_error_of_enters {root : Bool} {v : Json} {us : List Member} {e : Fault}
    (h : Enters root v (.object us)) (hu : decodeNode false (.object us) = .error e) :
    ∃ e', decodeNode root v = .error e' := by
  cases hread : decodeNode root v with
  | error e' => exact ⟨e', rfl⟩
  | ok n =>
    cases h with
    | @intro kind tag _ before after done rest htag hkind =>
      -- If the node could be read, then so could all of its parts.
      obtain ⟨tag', kind', htag', hkind', hms⟩ := readsMembers_of_decodeNode hread
      obtain rfl : tag = tag' := Option.some.inj (htag.symm.trans htag')
      obtain rfl : kind = kind' := Except.ok.inj (hkind.symm.trans hkind')
      obtain ⟨-, es, heq, hparts⟩ := readsMembers_split hms
      cases heq
      obtain ⟨m, hm⟩ := (readsParts_split hparts).2 us rfl
      rw [hu] at hm
      cases hm

theorem decodeNode_error_of_hasUnknownTag {v : Json} (root : Bool) (h : HasUnknownTag v) :
    ∃ e, decodeNode root v = .error e := by
  obtain ⟨ms, s, rfl, htag, hs⟩ := h
  exact ⟨_, by rw [decodeNode, htag, require, except_ok_bind, decodeTag, decodeName, hs]; rfl⟩

/-- Whatever has an unknown tag where reading comes to it makes reading fail. -/
theorem decodeNode_error_of_reaches {root : Bool} {v w : Json} (h : Reaches root v w)
    (hw : HasUnknownTag w) : (∃ ms, v = .object ms) ∧ ∃ e, decodeNode root v = .error e := by
  induction h with
  | here =>
    exact ⟨Scanned.here.object_of_hasBadTag hw.hasBadTag, decodeNode_error_of_hasUnknownTag _ hw⟩
  | part hu _ ih =>
    obtain ⟨⟨ms, rfl⟩, e, he⟩ := ih hw
    have hfails := decodeNode_error_of_enters hu he
    cases hu with
    | intro => exact ⟨⟨_, rfl⟩, hfails⟩

/-! ## Tags are looked at where nodes are read -/

theorem mem_below_iff (kind : NodeKind) {ms : List Member} {u : Json} : u ∈ below (.object ms) ↔
    u ∈ elements kind.partsName ms ∨ u ∈ elements kind.ignoredName ms := by
  rw [below, List.mem_append]
  cases kind with
  | rule => exact or_comm
  | condition => exact Iff.rfl

theorem mem_below_of_enters {root : Bool} {v u : Json} (hv : v.DistinctNames)
    (h : Enters root v u) : u ∈ below v ∧ u.DistinctNames := by
  cases h with
  | @intro kind tag u before after done rest htag hkind hbefore hdone =>
    cases hv with
    | object hnames hmembers =>
      have hmem : (⟨kind.partsName, .array (done ++ u :: rest)⟩ : Member)
          ∈ before ++ ⟨kind.partsName, .array (done ++ u :: rest)⟩ :: after :=
        List.mem_append_right before List.mem_cons_self
      have hu : u ∈ done ++ u :: rest := List.mem_append_right done List.mem_cons_self
      refine ⟨(mem_below_iff kind).mpr (.inl ?_), ?_⟩
      · rw [Json.elements_eq_of_find? (Json.find?_of_mem hnames hmem)]
        exact hu
      · cases hmembers _ hmem with
        | array hall => exact hall u hu

/-- The check of the tags comes to whatever reading comes to. -/
theorem scanned_of_reaches {root : Bool} {v w : Json} (hv : v.DistinctNames)
    (h : Reaches root v w) : Scanned v w := by
  induction h with
  | here => exact .here
  | part hu _ ih =>
    obtain ⟨hmem, hdistinct⟩ := mem_below_of_enters hv hu
    exact .deeper hmem (ih hdistinct)

/-! ## What can be read -/

theorem enters_of_decodeNode {root : Bool} {ms : List Member} {tag u : Json} {kind : NodeKind}
    (htag : Json.find? "nodeType" ms = some tag) (hkind : decodeTag root tag = .ok kind)
    (hms : ReadsMembers kind ms) (hu : u ∈ elements kind.partsName ms) :
    Enters root (.object ms) u ∧ ∀ us, u = .object us → ∃ n, decodeNode false u = .ok n := by
  obtain ⟨es, hes, hmem⟩ := Json.find?_of_mem_elements hu
  clear hu
  obtain ⟨before, after, rfl⟩ := List.append_of_mem (Json.mem_of_find? hes)
  obtain ⟨done, rest, rfl⟩ := List.append_of_mem hmem
  obtain ⟨hbefore, es, heq, hparts⟩ := readsMembers_split hms
  cases heq
  obtain ⟨hdone, hread⟩ := readsParts_split hparts
  exact ⟨.intro htag hkind hbefore hdone, hread⟩

theorem decodeTag_of_root {root : Bool} {tag : Json} {kind : NodeKind}
    (h : decodeTag root tag = .ok kind) : decodeTag false tag = .ok kind := by
  cases root with
  | false => exact h
  | true =>
    cases tag with
    | string s => exact h
    | number i => cases i <;> simp [decodeTag] at h
    | _ => simp [decodeTag] at h

/-- A tag that is read and does not name the kind is its number. -/
theorem hasNumberTag_of_decodeTag {root : Bool} {ms : List Member} {tag : Json} {kind : NodeKind}
    (htag : Json.find? "nodeType" ms = some tag) (hkind : decodeTag root tag = .ok kind)
    (hbad : NodeKind.ofName? (tagText tag) = none) : HasNumberTag (.object ms) := by
  have hkind := decodeTag_of_root hkind
  cases tag with
  | string s =>
    have hs : NodeKind.ofName? s = none := hbad
    simp [decodeTag, decodeName, hs] at hkind
  | number i =>
    cases i with
    | whole i => exact ⟨ms, i, rfl, htag, kind, hkind⟩
    | real x => simp [decodeTag] at hkind
  | _ => simp [decodeTag] at hkind

/-- In a value that can be read, a bad tag that the check comes to is the number of a kind, or lies
below an array that is not read. -/
theorem exists_reaches_of_scanned {root : Bool} {v w : Json} {n : Node}
    (hv : decodeNode root v = .ok n) (h : Scanned v w) (hw : HasBadTag w) :
    ∃ x, Reaches root v x ∧
      (HasNumberTag x ∨ ∃ u, Ignores x u ∧ ∃ y, Scanned u y ∧ HasBadTag y) := by
  induction h generalizing root n with
  | here =>
    obtain ⟨ms, tag, rfl, htag, hbad⟩ := hw
    obtain ⟨tag', kind, htag', hkind, -⟩ := readsMembers_of_decodeNode hv
    obtain rfl : tag = tag' := Option.some.inj (htag.symm.trans htag')
    exact ⟨_, .here, .inl (hasNumberTag_of_decodeTag htag hkind hbad)⟩
  -- The way goes on through the parts of a node, which are read, or else leaves them for good.
  | @deeper v u w hu hs ih =>
    obtain ⟨ms, rfl⟩ := (Scanned.deeper hu hs).object_of_hasBadTag hw
    obtain ⟨tag, kind, htag, hkind, hms⟩ := readsMembers_of_decodeNode hv
    rcases (mem_below_iff kind).mp hu with hu | hu
    · obtain ⟨henters, hread⟩ := enters_of_decodeNode htag hkind hms hu
      obtain ⟨us, rfl⟩ := hs.object_of_hasBadTag hw
      obtain ⟨m, hm⟩ := hread us rfl
      obtain ⟨x, hx, hreason⟩ := ih hm hw
      exact ⟨x, .part henters hx, hreason⟩
    · exact ⟨_, .here, .inr ⟨u, ⟨ms, tag, kind, rfl, htag, decodeTag_of_root hkind, hu⟩, w, hs, hw⟩⟩

theorem whole_of_decodeTag {i : Int} {kind : NodeKind}
    (h : decodeTag false (.number (.whole i)) = .ok kind) : i = 0 ∨ i = 1 := by
  rw [decodeTag] at h
  split at h
  · cases h
  next hsign =>
    split at h
    next k hfound =>
      have htwo : i.toNat < 2 := (List.getElem?_eq_some_iff.mp hfound).1
      have hnonneg : ¬ i < 0 := fun hneg => hsign (.inr hneg)
      omega
    · cases h

/-- The check takes the digits of a number for the name of a kind. -/
theorem HasNumberTag.hasBadTag {v : Json} (h : HasNumberTag v) : HasBadTag v := by
  obtain ⟨ms, i, rfl, htag, kind, hkind⟩ := h
  rcases whole_of_decodeTag hkind with rfl | rfl
  · exact ⟨ms, _, rfl, htag, by decide⟩
  · exact ⟨ms, _, rfl, htag, by decide⟩

theorem scanned_of_ignores {v u : Json} (h : Ignores v u) : Scanned v u := by
  obtain ⟨ms, tag, kind, rfl, -, -, hu⟩ := h
  exact .deeper ((mem_below_iff kind).mpr (.inr hu)) .here

end Tree

namespace Node

open SearchFilter.Tree

variable {v : Json}

theorem ofJson_unsupported_of_reaches (hv : v.DistinctNames) {w : Json} (hw : Reaches true v w)
    (htag : HasUnknownTag w) : ∃ id type, ofJson v = .error (.unsupportedNodeType id type) :=
  ofJson_unsupported_iff.mpr ⟨w, scanned_of_reaches hv hw, htag.hasBadTag⟩

theorem ofJson_unsupported_iff_of_decodeNode (hv : v.DistinctNames) {n : Node}
    (hn : decodeNode true v = .ok n) :
    (∃ id type, ofJson v = .error (.unsupportedNodeType id type)) ↔
      ∃ w, Reaches true v w ∧
        (HasNumberTag w ∨ ∃ u, Ignores w u ∧ ∃ x, Scanned u x ∧ HasBadTag x) := by
  rw [ofJson_unsupported_iff]
  constructor
  · rintro ⟨w, hw, hbad⟩
    exact exists_reaches_of_scanned hn hw hbad
  · rintro ⟨w, hw, hnumber | ⟨u, hu, x, hx, hbad⟩⟩
    · exact ⟨w, scanned_of_reaches hv hw, hnumber.hasBadTag⟩
    · exact ⟨x, (scanned_of_reaches hv hw).trans ((scanned_of_ignores hu).trans hx), hbad⟩

/-- A kind of node that is not known is reported wherever reading would stop at it, as long as it
and all nodes around it are objects. A value that can be read is reported exactly if one of its
nodes, written as an object inside of objects, has a number for a tag or an array that is not read
with an unknown kind of node below it. -/
theorem ofJson_unsupported_of_reading {v : Json} (hv : v.DistinctNames) :
    (∀ w, Reaches true v w → HasUnknownTag w → (∃ fault, decodeNode true v = .error fault) ∧
      ∃ id type, ofJson v = .error (.unsupportedNodeType id type)) ∧
    ∀ n, decodeNode true v = .ok n →
      ((∃ id type, ofJson v = .error (.unsupportedNodeType id type)) ↔
        ∃ w, Reaches true v w ∧
          (HasNumberTag w ∨ ∃ u, Ignores w u ∧ ∃ x, Scanned u x ∧ HasBadTag x)) := by
  refine ⟨fun w hw htag => ?_, fun n hn => ofJson_unsupported_iff_of_decodeNode hv hn⟩
  exact ⟨(decodeNode_error_of_reaches hw htag).2, ofJson_unsupported_of_reaches hv hw htag⟩

/-- An unknown kind of node among the children of a condition, where reading stops, and among the
`children` of a rule, which are not read. -/
theorem ofJson_unsupported_below_both_kinds :
    let w : Json := .object [⟨"id", .string "w"⟩, ⟨"nodeType", .string "WIDGET"⟩]
    let u : Json := .object [⟨"id", .string "u"⟩, ⟨"nodeType", .string "CONDITION"⟩]
    let v : Json := .object [⟨"children", .array [u, w]⟩, ⟨"id", .string "c"⟩,
      ⟨"nodeType", .string "CONDITION"⟩]
    let v' : Json := .object [⟨"children", .array [w]⟩, ⟨"field", .string "f"⟩, ⟨"id", .string "r"⟩,
      ⟨"nodeType", .string "RULE"⟩, ⟨"operation", .string "is_set"⟩, ⟨"type", .string "string"⟩]
    let n : Node := .rule ⟨"r", "f", .string, "is_set", [], false⟩
    v.DistinctNames ∧ Reaches true v w ∧ HasUnknownTag w ∧
      (∃ fault, decodeNode true v = .error fault) ∧
      (∃ id type, ofJson v = .error (.unsupportedNodeType id type)) ∧
      v'.DistinctNames ∧ decodeNode true v' = .ok n ∧
      ∃ id type, ofJson v' = .error (.unsupportedNodeType id type) := by
  intro w u v v' n
  have hw : w.DistinctNames := .object (by decide) (by simp [Json.DistinctNames.string])
  have hu : u.DistinctNames := .object (by decide) (by simp [Json.DistinctNames.string])
  have hv : v.DistinctNames := by
    have hchildren := Json.DistinctNames.array
      (List.forall_mem_cons.mpr ⟨hu, List.forall_mem_singleton.mpr hw⟩)
    exact .object (by decide) (by simp [Json.DistinctNames.string, hchildren])
  have hv' : v'.DistinctNames := by
    have hchildren := Json.DistinctNames.array (List.forall_mem_singleton.mpr hw)
    exact .object (by decide) (by simp [Json.DistinctNames.string, hchildren])
  have htag : HasUnknownTag w := ⟨_, "WIDGET", rfl, rfl, by decide⟩
  have henters : Enters true v w := by
    have hbefore : ReadsMembers .condition [] := ⟨{}, rfl⟩
    have hdone : ReadsParts .condition [u] :=
      ⟨[.condition ⟨"u", .and, .none, []⟩], by decide +kernel⟩
    exact .intro rfl rfl hbefore hdone
  have hn : decodeNode true v' = .ok n := by decide +kernel
  obtain ⟨hfails, hreported⟩ := (ofJson_unsupported_of_reading hv).1 w (.part henters .here) htag
  refine ⟨hv, .part henters .here, htag, hfails, hreported, hv', hn, ?_⟩
  refine ((ofJson_unsupported_of_reading hv').2 n hn).mpr ⟨v', .here, .inr ⟨w, ?_, w, .here, ?_⟩⟩
  · exact ⟨_, _, .rule, rfl, rfl, rfl, List.mem_singleton_self w⟩
  · exact htag.hasBadTag

/-- In a node written as an array reading stops at an unknown kind of node that is not reported as
such, and one that is not read is reported. -/
theorem ofJson_unsupported_without_reading :
    let w : Json := .object [⟨"id", .string "w"⟩, ⟨"nodeType", .string "WIDGET"⟩]
    let v : Json := .array [.string "CONDITION", .string "c", .string "AND", .string "NONE",
      .array [w]]
    let v' : Json := .object [⟨"children", .array [w]⟩, ⟨"field", .string "f"⟩, ⟨"id", .string "r"⟩,
      ⟨"nodeType", .string "RULE"⟩, ⟨"operation", .string "is_set"⟩, ⟨"type", .string "string"⟩]
    let fault : Fault := .unknownChoice "WIDGET" ["RULE", "CONDITION"]
    (decodeNode true v = .error fault ∧ ofJson v = .error (.invalidTree (.shape fault))) ∧
      decodeNode true v' = .ok (.rule ⟨"r", "f", .string, "is_set", [], false⟩) ∧
        ofJson v' = .error (.unsupportedNodeType "w" "WIDGET") := by
  decide +kernel

/-- The same of a document. A reader keeps one member of each name in an object, so the names of
the value differ. -/
theorem ofDocument_unsupported_of_reading {document : String}
    (hread : Json.parse? document = some v) :
    (∀ w, Reaches true v w → HasUnknownTag w →
      ∃ id type, ofDocument document = .error (.unsupportedNodeType id type)) ∧
    ∀ n, decodeNode true v = .ok n →
      ((∃ id type, ofDocument document = .error (.unsupportedNodeType id type)) ↔
        ∃ w, Reaches true v w ∧
          (HasNumberTag w ∨ ∃ u, Ignores w u ∧ ∃ x, Scanned u x ∧ HasBadTag x)) := by
  have hv := Json.distinctNames_of_parse? hread
  rw [ofDocument, hread]
  exact ⟨fun _ => ofJson_unsupported_of_reaches hv,
    fun _ => ofJson_unsupported_iff_of_decodeNode hv⟩

end Node

end SearchFilter
