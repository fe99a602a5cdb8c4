import SearchFilter.Proofs.Json.Depth

/-!
# Names in objects

The reader puts the members of an object in the order of their names, the last of equal names
winning, so no object that it reads has two members of one name. In such an object the member with
a name is the one that is found under it.
-/

namespace SearchFilter

namespace Json

/-- No object in the value has two members of one name. -/
inductive DistinctNames : Json → Prop
  | null : DistinctNames .null
  | bool (b : Bool) : DistinctNames (.bool b)
  | number (n : Number) : DistinctNames (.number n)
  | string (s : String) : DistinctNames (.string s)
  | array {es : List Json} (helements : ∀ e ∈ es, DistinctNames e) : DistinctNames (.array es)
  | object {ms : List Member} (hnames : (ms.map Member.name).Nodup)
    (hmembers : ∀ m ∈ ms, DistinctNames m.value) : DistinctNames (.object ms)

theorem distinctNames_of_depth {v : Json} (h : v.depth = 0) : v.DistinctNames := by
  cases v with
  | null => exact .null
  | bool b => exact .bool b
  | number n => exact .number n
  | string s => exact .string s
  | array es => cases h
  | object ms => cases h

theorem distinctNames_ofMembers {ms : List Member} (h : ∀ m ∈ ms, m.value.DistinctNames) :
    (ofMembers ms).DistinctNames := by
  have hsorted : (Order.ofListBy Member.name ms).Pairwise fun a b => a.name < b.name :=
    Order.pairwise_ofListBy ms
  refine .object ?_ fun m hm => h m (Order.mem_of_mem_ofListBy hm)
  rw [List.Nodup, List.pairwise_map]
  exact hsorted.imp String.ne_of_lt

/-! ## The machine -/

/-- No value in an open container has an object with two members of one name. -/
def Frame.DistinctNames : Frame → Prop
  | .array es => ∀ e ∈ es, e.DistinctNames
  | .object ms _ => ∀ m ∈ ms, m.value.DistinctNames

namespace State

/-- No value that was read so far has an object with two members of one name. -/
def DistinctNames : State → Prop
  | .value stack => ∀ f ∈ stack, f.DistinctNames
  | .arrayStart stack => ∀ f ∈ stack, f.DistinctNames
  | .objectStart stack => ∀ f ∈ stack, f.DistinctNames
  | .afterElement es stack => (∀ e ∈ es, e.DistinctNames) ∧ ∀ f ∈ stack, f.DistinctNames
  | .afterMember ms stack => (∀ m ∈ ms, m.value.DistinctNames) ∧ ∀ f ∈ stack, f.DistinctNames
  | .nextName ms stack => (∀ m ∈ ms, m.value.DistinctNames) ∧ ∀ f ∈ stack, f.DistinctNames
  | .colon ms _ stack => (∀ m ∈ ms, m.value.DistinctNames) ∧ ∀ f ∈ stack, f.DistinctNames
  | .done v => v.DistinctNames

theorem distinctNames_deliver {v : Json} {stack : List Frame}
    (hstack : ∀ f ∈ stack, f.DistinctNames) (hv : v.DistinctNames) :
    (deliver v stack).DistinctNames := by
  cases stack with
  | nil => exact hv
  | cons f stack =>
    obtain ⟨hf, hrest⟩ := List.forall_mem_cons.mp hstack
    cases f with
    | array es => exact ⟨List.forall_mem_cons.mpr ⟨hv, hf⟩, hrest⟩
    | object ms name => exact ⟨List.forall_mem_cons.mpr ⟨hv, hf⟩, hrest⟩

theorem distinctNames_startValue {stack : List Frame} {t : Token} {s : State}
    (hstack : ∀ f ∈ stack, f.DistinctNames) (ht : t.IsFlat) (h : startValue stack t = some s) :
    s.DistinctNames := by
  cases t with
  | scalar v =>
    cases h
    exact distinctNames_deliver hstack (distinctNames_of_depth ht)
  | text s =>
    cases h
    exact distinctNames_deliver hstack (.string s)
  | arrayOpen =>
    rw [startValue] at h
    split at h <;> cases h
    exact hstack
  | objectOpen =>
    rw [startValue] at h
    split at h <;> cases h
    exact hstack
  | _ => cases h

/-- Every step keeps the names of an object apart. -/
theorem distinctNames_step {s s' : State} {t : Token} (hs : s.DistinctNames) (ht : t.IsFlat)
    (h : s.step t = some s') : s'.DistinctNames := by
  revert h
  fun_cases step s t with
  | case1 stack => exact distinctNames_startValue hs ht
  | case2 stack =>
    rintro ⟨⟩
    exact distinctNames_deliver hs (.array (by simp))
  | case3 stack =>
    have hopened : (Frame.array []).DistinctNames := List.forall_mem_nil _
    exact distinctNames_startValue (List.forall_mem_cons.mpr ⟨hopened, hs⟩) ht
  | case4 stack =>
    rintro ⟨⟩
    exact distinctNames_deliver hs (.object (by simp) (by simp))
  | case5 s stack =>
    rintro ⟨⟩
    exact ⟨List.forall_mem_nil _, hs⟩
  | case6 | case11 =>
    rintro ⟨⟩
    exact List.forall_mem_cons.mpr hs
  | case7 es stack =>
    rintro ⟨⟩
    exact distinctNames_deliver hs.2 (.array fun e he => hs.1 e (List.mem_reverse.mp he))
  | case9 ms stack =>
    rintro ⟨⟩
    exact distinctNames_deliver hs.2
      (distinctNames_ofMembers fun m hm => hs.1 m (List.mem_reverse.mp hm))
  | case8 | case10 =>
    rintro ⟨⟩
    exact hs
  | case12 => rintro ⟨⟩

end State

/-- A document is read as a value in which every name belongs to one member of its object. -/
theorem distinctNames_of_parse? {document : String} {v : Json} (h : parse? document = some v) :
    v.DistinctNames :=
  State.of_parse? (P := State.DistinctNames) (List.forall_mem_nil _) State.distinctNames_step h

/-! ## Looking up a name -/

theorem find?_cons (name : String) (m : Member) (ms : List Member) :
    find? name (m :: ms) = if m.name = name then some m.value else find? name ms := by
  by_cases h : m.name = name <;> simp [find?, Order.findBy?, h]

theorem mem_of_find? {name : String} {ms : List Member} {v : Json} (h : find? name ms = some v) :
    ⟨name, v⟩ ∈ ms := by
  induction ms with
  | nil => cases h
  | cons m ms ih =>
    rw [find?_cons] at h
    split at h
    · rename_i hname
      obtain ⟨_, w⟩ := m
      obtain rfl : _ = name := hname
      obtain rfl : w = v := Option.some.inj h
      exact List.mem_cons_self
    · exact List.mem_cons_of_mem m (ih h)

theorem find?_of_mem {ms : List Member} (hnames : (ms.map Member.name).Nodup) {m : Member}
    (hm : m ∈ ms) : find? m.name ms = some m.value := by
  induction ms with
  | nil => cases hm
  | cons m' ms ih =>
    obtain ⟨hfresh, hnames⟩ := List.nodup_cons.mp hnames
    rw [find?_cons]
    rcases List.mem_cons.mp hm with rfl | hm
    · rw [if_pos rfl]
    · have hne : m'.name ≠ m.name := fun h => hfresh (h ▸ List.mem_map_of_mem hm)
      rw [if_neg hne]
      exact ih hnames hm

end Json

end SearchFilter
