import Mathlib.Data.List.Perm.Basic
import Mathlib.Logic.Relation
import SearchFilter.Proofs.Except
import SearchFilter.Proofs.Json.Names
import SearchFilter.Proofs.Json.Source
import SearchFilter.Tree.Decode
import SearchFilter.Tree.Equality

/-!
# The order of members in a document

The reader holds the members of an object in the order of their names, so as long as the names in
every object differ, it is no matter in which order the members are written: the document has the
same tree, or is refused for the same reason.
-/

namespace SearchFilter

namespace Json

/-! ## Values that a reader cannot tell apart -/

/-- A reader holds both values alike, and neither is deeper than the other. -/
structure Alike (v v' : Json) : Prop where
  ordered : v'.ordered = v.ordered
  depth : v'.depth = v.depth

theorem Alike.element {v v' : Json} (h : Alike v v') (before after : List Json) :
    Alike (.array (before ++ v :: after)) (.array (before ++ v' :: after)) := by
  constructor
  · simp only [Json.ordered, orderedAll_eq_map, List.map_append, List.map_cons, h.ordered]
  · have hdepth : depthOfAll (before ++ v' :: after) = depthOfAll (before ++ v :: after) := by
      refine eq_of_forall_ge_iff fun k => ?_
      simp only [depthOfAll_le_iff, List.forall_mem_append, List.forall_mem_cons, h.depth]
    rw [Json.depth, Json.depth, hdepth]

theorem Alike.member {v v' : Json} (h : Alike v v') (name : String) (before after : List Member) :
    Alike (.object (before ++ ⟨name, v⟩ :: after)) (.object (before ++ ⟨name, v'⟩ :: after)) := by
  constructor
  · simp only [Json.ordered, orderedMembers_eq_map, List.map_append, List.map_cons,
      Member.ordered, h.ordered]
  · have hdepth : depthOfMembers (before ++ ⟨name, v'⟩ :: after)
        = depthOfMembers (before ++ ⟨name, v⟩ :: after) := by
      refine eq_of_forall_ge_iff fun k => ?_
      simp only [depthOfMembers_le_iff, List.forall_mem_append, List.forall_mem_cons, h.depth]
    rw [Json.depth, Json.depth, hdepth]

theorem alike_of_perm {ms ms' : List Member} (hperm : ms.Perm ms')
    (hnames : (ms.map Member.name).Nodup) : Alike (.object ms) (.object ms') := by
  constructor
  · have hnames : ((ms.map Member.ordered).map Member.name).Nodup := by
      rw [List.map_map]
      exact hnames
    simp only [Json.ordered, ofMembers, orderedMembers_eq_map]
    rw [Order.ofListBy_eq_of_perm (hperm.map Member.ordered) hnames]
  · have hdepth : depthOfMembers ms' = depthOfMembers ms := by
      refine eq_of_forall_ge_iff fun k => ?_
      simp only [depthOfMembers_le_iff, hperm.mem_iff]
    rw [Json.depth, Json.depth, hdepth]

end Json

/-! ## Lists of optional values -/

section

variable {α β : Type} {f : α → Option β}

theorem mapM_around (before after : List α) (x : α) :
    (before ++ x :: after).mapM f = (before.mapM f).bind fun bs =>
      (f x).bind fun y => (after.mapM f).map fun as => bs ++ y :: as := by
  rw [List.mapM_append, List.mapM_cons]
  cases before.mapM f <;> cases f x <;> cases after.mapM f <;> rfl

end

namespace Json.Source

/-! ## Sources with other orders of members -/

/-- Both names are those of one string. -/
def SameName (name name' : List Char) : Prop :=
  ∃ s, decode? name = some s ∧ decode? name' = some s

/-- No object in the source has two members of one name. -/
inductive DistinctNames : Source → Prop
  | word (cs : List Char) : DistinctNames (.word cs)
  | text (cs : List Char) : DistinctNames (.text cs)
  | array {es : List Source} (helements : ∀ e ∈ es, DistinctNames e) : DistinctNames (.array es)
  | object {ms : List Member}
    (hnames : (ms.map Member.name).Pairwise fun name name' => ¬ SameName name name')
    (hmembers : ∀ m ∈ ms, DistinctNames m.value) : DistinctNames (.object ms)

/-- The sources differ in the order of the members of one object, which may be anywhere in them. -/
inductive Reordered : Source → Source → Prop
  | here {ms ms' : List Member} (hperm : ms.Perm ms') : Reordered (.object ms) (.object ms')
  | element {e e' : Source} (before after : List Source) (h : Reordered e e') :
    Reordered (.array (before ++ e :: after)) (.array (before ++ e' :: after))
  | member {s s' : Source} (name : List Char) (before after : List Member) (h : Reordered s s') :
    Reordered (.object (before ++ ⟨name, s⟩ :: after)) (.object (before ++ ⟨name, s'⟩ :: after))

variable {s s' : Source}

theorem Reordered.symm (h : Reordered s s') : Reordered s' s := by
  induction h with
  | here hperm => exact .here hperm.symm
  | element before after _ ih => exact .element before after ih
  | member name before after _ ih => exact .member name before after ih

/-- Another order of the members leaves their names different. -/
theorem DistinctNames.of_reordered (hnames : s.DistinctNames) (h : Reordered s s') :
    s'.DistinctNames := by
  induction h with
  | here hperm =>
    cases hnames with
    | object hnames hmembers =>
      refine .object ?_ fun m hm => hmembers m (hperm.mem_iff.mpr hm)
      refine ((hperm.map Member.name).pairwise_iff ?_).mp hnames
      rintro name name' hne ⟨s, hs, hs'⟩
      exact hne ⟨s, hs', hs⟩
  | element before after _ ih =>
    cases hnames with
    | array helements =>
      simp only [List.forall_mem_append, List.forall_mem_cons] at helements
      refine .array ?_
      simp only [List.forall_mem_append, List.forall_mem_cons]
      exact ⟨helements.1, ih helements.2.1, helements.2.2⟩
  | member name before after _ ih =>
    cases hnames with
    | object hnames hmembers =>
      simp only [List.forall_mem_append, List.forall_mem_cons] at hmembers
      simp only [List.map_append, List.map_cons] at hnames
      refine .object ?_ ?_
      · simp only [List.map_append, List.map_cons]
        exact hnames
      · simp only [List.forall_mem_append, List.forall_mem_cons]
        exact ⟨hmembers.1, ih hmembers.2.1, hmembers.2.2⟩

/-! ## Their values -/

theorem elements?_eq_mapM (es : List Source) : elements? es = es.mapM value? := by
  induction es with
  | nil => rfl
  | cons e es ih => rw [elements?, List.mapM_cons, ih]

theorem members?_eq_mapM (ms : List Member) : members? ms = ms.mapM member? := by
  induction ms with
  | nil => rfl
  | cons m ms ih => rw [members?, List.mapM_cons, ih]

theorem member?_eq_some_iff {m : Member} {v : Json.Member} :
    member? m = some v ↔ decode? m.name = some v.name ∧ m.value.value? = some v.value := by
  obtain ⟨name, value⟩ := m
  obtain ⟨name', v⟩ := v
  simp [member?, Option.bind_eq_some_iff]

/-- Members whose names are not written alike have values with different names. -/
theorem nodup_names {ms : List Member} {vs : List Json.Member}
    (h : List.Forall₂ (fun m v => member? m = some v) ms vs)
    (hnames : (ms.map Member.name).Pairwise fun name name' => ¬ SameName name name') :
    (vs.map Json.Member.name).Nodup := by
  have hdecoded : ms.map (fun m => decode? m.name) = vs.map (fun v => some v.name) := by
    rw [← List.forall₂_eq_eq_eq, List.forall₂_map_left_iff, List.forall₂_map_right_iff]
    exact h.imp fun m v hm => (member?_eq_some_iff.mp hm).1
  have hpairwise : (ms.map fun m => decode? m.name).Pairwise fun a b =>
      ¬ ∃ s, a = some s ∧ b = some s := by
    rw [List.pairwise_map] at hnames ⊢
    exact hnames
  rw [hdecoded, List.pairwise_map] at hpairwise
  rw [List.Nodup, List.pairwise_map]
  exact hpairwise.imp fun hne hsame => hne ⟨_, rfl, congrArg some hsame.symm⟩

theorem value?_array_around (before after : List Source) (e : Source) :
    (array (before ++ e :: after)).value? = (elements? before).bind fun bs =>
      e.value?.bind fun v => (elements? after).map fun as => .array (bs ++ v :: as) := by
  simp only [value?, elements?_eq_mapM, mapM_around]
  cases before.mapM value? <;> cases e.value? <;> cases after.mapM value? <;> rfl

theorem value?_object_around (before after : List Member) (name : List Char) (s : Source) :
    (object (before ++ ⟨name, s⟩ :: after)).value? = (members? before).bind fun bs =>
      (decode? name).bind fun n => s.value?.bind fun v =>
        (members? after).map fun as => .object (bs ++ ⟨n, v⟩ :: as) := by
  simp only [value?, members?_eq_mapM, mapM_around, member?]
  cases before.mapM member? <;> cases decode? name <;> cases s.value? <;>
    cases after.mapM member? <;> rfl

/-- If a source has a value, it has one in any other order of its members, and a reader cannot tell
the two apart. -/
theorem exists_alike_of_reordered (h : Reordered s s') (hnames : s.DistinctNames) {v : Json}
    (hv : s.value? = some v) : ∃ v', s'.value? = some v' ∧ Alike v v' := by
  induction h generalizing v with
  | here hperm =>
    cases hnames with
    | object hnames _ =>
      obtain ⟨vs, hvs, rfl⟩ := Option.map_eq_some_iff.mp hv
      rw [members?_eq_mapM, mapM_eq_some_iff] at hvs
      obtain ⟨vs', hvs', hperm'⟩ := List.perm_comp_forall₂ hperm.symm hvs
      refine ⟨.object vs', ?_, alike_of_perm hperm'.symm (nodup_names hvs hnames)⟩
      rw [value?, members?_eq_mapM, mapM_eq_some_iff.mpr hvs', Option.map_some]
  | element before after _ ih =>
    cases hnames with
    | array helements =>
      rw [value?_array_around] at hv
      obtain ⟨bs, hbs, hv⟩ := Option.bind_eq_some_iff.mp hv
      obtain ⟨w, hw, hv⟩ := Option.bind_eq_some_iff.mp hv
      obtain ⟨as, has, rfl⟩ := Option.map_eq_some_iff.mp hv
      obtain ⟨w', hw', halike⟩ := ih (helements _ (by simp)) hw
      refine ⟨.array (bs ++ w' :: as), ?_, halike.element bs as⟩
      rw [value?_array_around, hbs, hw', has]
      rfl
  | member name before after _ ih =>
    cases hnames with
    | object _ hmembers =>
      rw [value?_object_around] at hv
      obtain ⟨bs, hbs, hv⟩ := Option.bind_eq_some_iff.mp hv
      obtain ⟨n, hn, hv⟩ := Option.bind_eq_some_iff.mp hv
      obtain ⟨w, hw, hv⟩ := Option.bind_eq_some_iff.mp hv
      obtain ⟨as, has, rfl⟩ := Option.map_eq_some_iff.mp hv
      obtain ⟨w', hw', halike⟩ := ih (hmembers ⟨name, _⟩ (by simp)) hw
      refine ⟨.object (bs ++ ⟨n, w'⟩ :: as), ?_, halike.member n bs as⟩
      rw [value?_object_around, hbs, hn, hw', has]
      rfl

/-- One change of the order leaves what a reader makes of a source as it is. -/
theorem read?_of_reordered (h : Reordered s s') (hnames : s.DistinctNames) :
    s'.read? = s.read? := by
  rw [read?, read?]
  cases hv : s.value? with
  | some v =>
    obtain ⟨v', hv', halike⟩ := exists_alike_of_reordered h hnames hv
    rw [hv', Option.bind_some, Option.bind_some, halike.depth, halike.ordered]
  | none =>
    cases hv' : s'.value? with
    | none => rfl
    | some v' =>
      obtain ⟨v, hv'', -⟩ :=
        exists_alike_of_reordered h.symm (hnames.of_reordered h) hv'
      rw [hv] at hv''
      cases hv''

/-- Any number of changes of the order leave what a reader makes of a source as it is. -/
theorem read?_of_reorderings (h : Relation.ReflTransGen Reordered s s')
    (hnames : s.DistinctNames) : s'.DistinctNames ∧ s'.read? = s.read? := by
  induction h with
  | refl => exact ⟨hnames, rfl⟩
  | tail _ hlast ih =>
    obtain ⟨hnames, hread⟩ := ih
    exact ⟨hnames.of_reordered hlast, (read?_of_reordered hlast hnames).trans hread⟩

end Json.Source

namespace Node

open Json (Source)

/-- The members of the objects in a document may be written in any order, if no object has two
members of one name: the document describes the same tree, or is refused with the same error. -/
theorem member_order_is_irrelevant {s s' : Source} {document document' : String}
    (hwrites : s.Writes document.toList) (hwrites' : s'.Writes document'.toList)
    (hnames : s.DistinctNames) (horder : Relation.ReflTransGen Source.Reordered s s') :
    ofDocument document' = ofDocument document := by
  have hread := (Source.read?_of_reorderings horder hnames).2
  rw [ofDocument, ofDocument, Source.parse?_of_writes hwrites, Source.parse?_of_writes hwrites',
    hread]

/-- The tag and the id change places inside, and the children come last outside. -/
theorem member_order_is_irrelevant_on_two_levels :
    let document :=
      "\x7b\"children\":[\x7b\"id\":\"d\",\"nodeType\":\"CONDITION\"\x7d]," ++
        "\"id\":\"c\",\"nodeType\":\"CONDITION\"\x7d"
    let document' :=
      "\x7b\"id\":\"c\",\"nodeType\":\"CONDITION\"," ++
        "\"children\":[\x7b\"nodeType\":\"CONDITION\",\"id\":\"d\"\x7d]\x7d "
    let id (cs : List Char) : Source.Member := ⟨"id".toList, .text cs⟩
    let tag : Source.Member := ⟨"nodeType".toList, .text "CONDITION".toList⟩
    let children (ms : List Source.Member) : Source.Member :=
      ⟨"children".toList, .array [.object ms]⟩
    let s : Source := .object [children [id ['d'], tag], id ['c'], tag]
    let s' : Source := .object [id ['c'], tag, children [tag, id ['d']]]
    let tree : Node := .condition ⟨"c", .and, .none, [.condition ⟨"d", .and, .none, []⟩]⟩
    s.Writes document.toList ∧ s'.Writes document'.toList ∧ s.DistinctNames ∧
      Relation.ReflTransGen Source.Reordered s s' ∧ ofDocument document = .ok tree ∧
      ofDocument document' = .ok tree := by
  intro document document' id tag children s s' tree
  have htext (cs : List Char) (h : ∀ c ∈ cs, c ≠ '"' ∧ c ≠ '\\' ∧ ¬ c.toNat < 0x20) :
      (Source.text cs).Writes ('"' :: (cs ++ ['"'])) := .text (Source.isText_of_plain h)
  have hc : Source.WritesMember (id ['c']) _ := .mk (htext _ (by simp)) (htext _ (by simp))
  have hd : Source.WritesMember (id ['d']) _ := .mk (htext _ (by simp)) (htext _ (by simp))
  have htag : Source.WritesMember tag _ := .mk (htext _ (by simp)) (htext _ (by simp))
  have hchildren {ms : List Source.Member} {cs : List Char} (h : Source.WritesMembers ms cs) :
      Source.WritesMember (children ms) _ :=
    .mk (htext _ (by simp)) (.array (.single (.object h)))
  have hwrites : s.Writes document.toList := by
    have h : s.Writes _ :=
      .object (.cons (hchildren (.cons hd (.single htag))) (.cons hc (.single htag)))
    simpa [document] using h
  have hwrites' : s'.Writes document'.toList := by
    have h : s'.Writes _ := .after (c := ' ') (by decide)
      (.object (.cons hc (.cons htag (.single (hchildren (.cons htag (.single hd)))))))
    simpa [document'] using h
  have hobject {ms : List Source.Member} (h : ms.Pairwise fun m m' =>
      Source.decode? m.name ≠ Source.decode? m'.name) (hms : ∀ m ∈ ms, m.value.DistinctNames) :
      (Source.object ms).DistinctNames :=
    .object (List.pairwise_map.mpr (h.imp fun hne ⟨_, hs, hs'⟩ => hne (hs.trans hs'.symm))) hms
  have hnames : s.DistinctNames := by
    have hinner : (Source.object [id ['d'], tag]).DistinctNames :=
      hobject (by decide +kernel) (by simp [id, tag, Source.DistinctNames.text])
    have hvalue : (Source.array [.object [id ['d'], tag]]).DistinctNames :=
      .array (by simpa using hinner)
    have hrest : ∀ m ∈ [id ['c'], tag], m.value.DistinctNames := by
      simp [id, tag, Source.DistinctNames.text]
    refine hobject (by decide +kernel) fun m hm => ?_
    rcases List.mem_cons.mp hm with rfl | hm
    · exact hvalue
    · exact hrest m hm
  have horder : Relation.ReflTransGen Source.Reordered s s' := by
    have hinside : s.Reordered (.object ([children [tag, id ['d']]] ++ [id ['c'], tag])) :=
      .member _ [] [id ['c'], tag] (.element [] [] (.here (.swap _ _ _)))
    exact .tail (.single hinside) (.here List.perm_append_comm)
  have htree : ofDocument document = .ok tree := by
    rw [ofDocument, Source.parse?_of_writes hwrites]
    decide +kernel
  exact ⟨hwrites, hwrites', hnames, horder, htree,
    (member_order_is_irrelevant hwrites hwrites' hnames horder).trans htree⟩

end Node

end SearchFilter
