import SearchFilter.Proofs.Query.Place

/-!
# What the tokens of a dialect tell apart

The junction of a condition can be seen in a query by the word between its members, and its boost
by its marker. Both are spelled by the dialect, so what `validate` lets through decides whether two
trees with different meanings have different queries. It never compares the words of the two
junctions, nor the marker of exclusion with the other markers, and nothing but these comparisons is
missing.
-/

namespace SearchFilter

namespace Dialect

/-- What a valid dialect is known to have. -/
theorem validate_eq_ok_iff {d : Dialect} : d.validate = .ok () ↔
    (d.groupOpen ≠ "" ∧ d.groupClose ≠ "") ∧ d.groupOpen ≠ d.groupClose ∧
      (Text.isBlankText d.andToken = false ∧ Text.isBlankText d.orToken = false) ∧
      d.excludeMarker ≠ "" ∧ d.implicitBoost ≠ .exclude := by
  have hfault : d.validate = .ok () ↔ d.fault? = none := by
    rw [validate]
    cases d.fault? <;> simp
  rw [hfault, fault?]
  simp only [String.isEmpty_iff]
  grind

theorem junctionToken_eq_iff {d : Dialect} {j j' : Junction} (h : j ≠ j') :
    d.junctionToken j = d.junctionToken j' ↔ d.andToken = d.orToken := by
  cases j <;> cases j' <;> simp_all [junctionToken, eq_comm]

theorem separator_inj {d : Dialect} {j j' : Junction} :
    d.separator j = d.separator j' ↔ d.junctionToken j = d.junctionToken j' := by
  simp [separator]

theorem ne_empty_of_visible {s m : String} (h : marker?.visible s = some m) : m ≠ "" := by
  rw [marker?.visible] at h
  split at h
  · cases h
  next hs =>
    cases h
    simpa using hs

theorem marker?_ne_empty {d : Dialect} {b : Boost} {m : String} (h : d.marker? b = some m) :
    m ≠ "" := by
  cases b with
  | none => cases h
  | exclude => exact ne_empty_of_visible h
  | must =>
    rw [marker?] at h
    split at h
    · cases h
    · exact ne_empty_of_visible h
  | should =>
    rw [marker?] at h
    split at h
    · cases h
    · exact ne_empty_of_visible h

/-- A marker is told from its text, and so is the lack of one. -/
theorem markText_inj {d : Dialect} {b b' : Boost} :
    d.markText b = d.markText b' ↔ d.marker? b = d.marker? b' := by
  refine ⟨fun h => ?_, fun h => by rw [markText, markText, h]⟩
  rw [markText, markText] at h
  cases hb : d.marker? b with
  | none =>
    cases hb' : d.marker? b' with
    | none => rfl
    | some m' => exact absurd (by simpa [hb, hb'] using h.symm) (marker?_ne_empty hb')
  | some m =>
    cases hb' : d.marker? b' with
    | none => exact absurd (by simpa [hb, hb'] using h) (marker?_ne_empty hb)
    | some m' => simpa [hb, hb'] using h

theorem marker?_exclude {d : Dialect} (h : d.validate = .ok ()) :
    d.marker? .exclude = some d.excludeMarker := by
  have hmarker : d.excludeMarker ≠ "" := (validate_eq_ok_iff.mp h).2.2.2.1
  simp [marker?, marker?.visible, hmarker]

theorem length_join_separated (separator : String) (ss : List String) :
    (String.join (ss.map (separator ++ ·))).length
      = ss.length * separator.length + (String.join ss).length := by
  induction ss with
  | nil => simp
  | cons s ss ih =>
    simp only [List.map_cons, String.join_cons, String.length_append, ih, List.length_cons,
      Nat.add_mul, Nat.one_mul]
    omega

/-- Between two texts or more, the separator can be told. -/
theorem intercalate_inj {s s' : String} {ss : List String} (h : 2 ≤ ss.length) :
    s.intercalate ss = s'.intercalate ss ↔ s = s' := by
  refine ⟨fun heq => ?_, fun heq => by rw [heq]⟩
  obtain ⟨a, b, rest, rfl⟩ : ∃ a b rest, ss = a :: b :: rest := by
    match ss, h with
    | a :: b :: rest, _ => exact ⟨a, b, rest, rfl⟩
  rw [Compiler.intercalate_cons, Compiler.intercalate_cons, String.append_right_inj] at heq
  -- Both texts have the separator equally often, so the separators are equally long.
  have hlength : s.length = s'.length := by
    have hlengths := congrArg String.length heq
    simp only [length_join_separated] at hlengths
    exact Nat.eq_of_mul_eq_mul_left (Nat.succ_pos rest.length)
      (Nat.add_right_cancel hlengths)
  have hlists := congrArg String.toList heq
  simp only [List.map_cons, String.join_cons, String.toList_append, List.append_assoc] at hlists
  exact String.toList_inj.mp (List.append_inj_left hlists (by simpa only [String.length_toList]))

theorem groupText_junction_inj {d : Dialect} {b : Boost} {j j' : Junction} {texts : List String}
    (h : 2 ≤ (texts.filter fun s => !s.isEmpty).length) :
    d.groupText b j texts = d.groupText b j' texts ↔ d.junctionToken j = d.junctionToken j' := by
  rw [groupText, groupText, String.append_left_inj, String.append_right_inj, intercalate_inj h,
    separator_inj]

theorem groupText_boost_inj {d : Dialect} {b b' : Boost} {j : Junction} {texts : List String} :
    d.groupText b j texts = d.groupText b' j texts ↔ d.marker? b = d.marker? b' := by
  rw [groupText, groupText, String.append_left_inj, String.append_left_inj,
    String.append_left_inj, markText_inj]

theorem groupText_ne_empty {d : Dialect} (h : d.groupOpen ≠ "") (b : Boost) (j : Junction)
    (texts : List String) : d.groupText b j texts ≠ "" := by
  simp [groupText, h]

end Dialect

namespace Compiler

/-- The node writes something. -/
def prints (c : Compiler) (n : Node) : Bool :=
  match (c.writeNode (c.nested n.height) n).text with
  | .ok s => !s.isEmpty
  | .error _ => false

/-- The members that write something are those that have a text which is not empty. -/
theorem length_filter_memberTexts {c : Compiler} (h : c.registry.IsStock) {ns : List Node}
    {texts : List String} (htexts : c.memberTexts ns = .ok texts) :
    (texts.filter fun s => !s.isEmpty).length = ns.countP c.prints := by
  induction ns generalizing texts with
  | nil =>
    cases htexts
    rfl
  | cons n ns ih =>
    rw [memberTexts] at htexts
    obtain ⟨s, hs, htexts⟩ := except_bind_eq_ok.mp htexts
    obtain ⟨rest, hrest, htexts⟩ := except_bind_eq_ok.mp htexts
    cases htexts
    have htext : (c.writeNode (c.nested n.height) n).text = c.nodeText n :=
      text_writeNode h n (nested_of_mem_embedded h n 0)
    have hprints : c.prints n = !s.isEmpty := by rw [prints, htext, hs]
    rw [List.filter_cons, List.countP_cons, hprints, ← ih hrest]
    cases s.isEmpty <;> rfl

section

variable {res : Resolver} {form : Clause.Traversal} {d : Dialect}

/-- Where a condition is reached, another junction or boost gives the tree a query of its own
unless it leaves the text of the condition as it is. -/
theorem compile_fill_condition (hd : d.validate = .ok ()) {p : Place} {c : Condition} {s : String}
    (hs : (stock res form d).compile (p.fill (.condition c)) = .ok s)
    (hp : (stock res form d).Reaches (.condition c) p) :
    ∃ texts, (stock res form d).memberTexts c.children = .ok texts ∧ ∀ j b, ∃ s',
      (stock res form d).compile (p.fill (.condition ⟨c.id, j, b, c.children⟩)) = .ok s' ∧
        (s' = s ↔ d.groupText b j texts = d.groupText c.boost c.junction texts) := by
  obtain ⟨id, j₀, b₀, children⟩ := c
  obtain ⟨hids, htext⟩ := compile_eq_ok_iff.mp hs
  obtain ⟨⟨x, hx⟩, l, r, hplace⟩ := nodeText_fill htext hp
  rw [nodeText] at hx
  obtain ⟨texts, htexts, hx⟩ := except_bind_eq_ok.mp hx
  have hfill (j : Junction) (b : Boost) :
      (stock res form d).nodeText (p.fill (.condition ⟨id, j, b, children⟩))
        = .ok (l ++ d.groupText b j texts ++ r) := by
    have hopen := Dialect.groupOpen_ne_empty hd
    refine hplace _ _ ?_ (Dialect.groupText_ne_empty hopen b j texts)
    rw [nodeText, htexts]
    rfl
  obtain rfl : l ++ d.groupText b₀ j₀ texts ++ r = s :=
    Except.ok.inj ((hfill j₀ b₀).symm.trans htext)
  refine ⟨texts, htexts, fun j b => ⟨l ++ d.groupText b j texts ++ r, ?_, ?_⟩⟩
  · have hids' := (Node.checkIds_fill_condition p id j j₀ b b₀ children).trans hids
    exact compile_eq_ok_iff.mpr ⟨hids', hfill j b⟩
  · rw [String.append_left_inj, String.append_right_inj]

end

end Compiler

/-- In a tree with a query under a valid dialect, the other junction of a condition that is written
with two members or more leaves the query as it is exactly if both junctions are spelled alike, and
another boost of an excluded condition exactly if it has the marker of exclusion. -/
theorem Compiler.query_tells_junction_and_exclusion_iff {res : Resolver} {form : Clause.Traversal}
    {g : Registry} (hg : Registry.build (StockOperation.registrations res form) = .ok g)
    {d : Dialect} (hd : d.validate = .ok ()) {p : Place} {c : Condition} {s : String}
    (hs : (Compiler.mk g d).compile (p.fill (.condition c)) = .ok s)
    (hp : (Compiler.mk g d).Reaches (.condition c) p) :
    (2 ≤ c.children.countP (Compiler.mk g d).prints → ∀ j ≠ c.junction, ∃ s',
      (Compiler.mk g d).compile (p.fill (.condition { c with junction := j })) = .ok s' ∧
        (s' = s ↔ d.andToken = d.orToken)) ∧
    (c.boost = .exclude → ∀ b ≠ .exclude, ∃ s',
      (Compiler.mk g d).compile (p.fill (.condition (c.setBoost b))) = .ok s' ∧
        (s' = s ↔ d.marker? b = some d.excludeMarker)) := by
  obtain rfl : ⟨StockOperation.registrations res form⟩ = g :=
    Except.ok.inj ((StockOperation.build_registrations res form).symm.trans hg)
  obtain ⟨texts, htexts, hquery⟩ := compile_fill_condition hd hs hp
  refine ⟨fun htwo j hj => ?_, fun hexclude b _ => ?_⟩
  · obtain ⟨s', hs', hiff⟩ := hquery j c.boost
    refine ⟨s', hs', hiff.trans ?_⟩
    have hlength := length_filter_memberTexts (StockOperation.isStock_registrations res form) htexts
    rw [Dialect.groupText_junction_inj (Nat.le_trans htwo (Nat.le_of_eq hlength.symm)),
      Dialect.junctionToken_eq_iff hj]
  · obtain ⟨s', hs', hiff⟩ := hquery c.junction b
    refine ⟨s', hs', hiff.trans ?_⟩
    rw [Dialect.groupText_boost_inj, hexclude, Dialect.marker?_exclude hd]

/-- An excluded group inside of a traversal, in a dialect that marks demands like exclusions: the
other junction shows, and of the other boosts all but the demand. -/
theorem Compiler.query_tells_junction_and_exclusion_in_traversal :
    let res := Namespaces.toResolver {}
    let g : Registry := ⟨StockOperation.registrations res .standard⟩
    let d : Dialect := { mustMarker := "-" }
    let p : Place := [.child "all" .and .none [.rule ⟨"a", "x", .date, "fuzzy", [], true⟩] [],
      .query "b" "owner" .uri "not_set_to_query" false [] []]
    let c : Condition := ⟨"c", .or, .exclude,
      [.rule ⟨"d", "name", .string, "equals", [.literal "x"], false⟩,
        .condition ⟨"e", .and, .none, []⟩]⟩
    let s := "(-(owner:\x7b-(name:\"x\" OR ())\x7d))"
    Registry.build (StockOperation.registrations res .standard) = .ok g ∧ d.validate = .ok () ∧
      (Compiler.mk g d).compile (p.fill (.condition c)) = .ok s ∧
      (Compiler.mk g d).Reaches (.condition c) p ∧
      2 ≤ c.children.countP (Compiler.mk g d).prints ∧
      (∃ s', (Compiler.mk g d).compile (p.fill (.condition { c with junction := .and })) = .ok s' ∧
        s' ≠ s) ∧
      ∀ b ≠ .exclude, ∃ s',
        (Compiler.mk g d).compile (p.fill (.condition (c.setBoost b))) = .ok s' ∧
          (s' = s ↔ b = .must) := by
  intro res g d p c s
  have hg : Registry.build (StockOperation.registrations res .standard) = .ok g :=
    StockOperation.build_registrations res .standard
  have hd : d.validate = .ok () := by decide
  have hs : (Compiler.mk g d).compile (p.fill (.condition c)) = .ok s :=
    compile_eq_ok_iff.mpr ⟨by rfl, by decide +kernel⟩
  have hp : (Compiler.mk g d).Reaches (.condition c) p := ⟨trivial, by rfl, trivial⟩
  have hchildren : 2 ≤ c.children.countP (Compiler.mk g d).prints := by decide +kernel
  obtain ⟨hjunction, hboost⟩ := query_tells_junction_and_exclusion_iff hg hd hs hp
  refine ⟨hg, hd, hs, hp, hchildren, ?_, fun b hb => ?_⟩
  · obtain ⟨s', hs', hiff⟩ := hjunction hchildren .and (by decide)
    exact ⟨s', hs', fun heq => absurd (hiff.mp heq) (by decide)⟩
  · obtain ⟨s', hs', hiff⟩ := hboost rfl b hb
    refine ⟨s', hs', hiff.trans ?_⟩
    cases b with
    | exclude => exact absurd rfl hb
    | _ => decide

/-- A valid dialect in which a query tells neither the junction of a group nor an exclusion from a
demand. -/
theorem Compiler.query_hides_junction_and_exclusion :
    let res := Namespaces.toResolver {}
    let g : Registry := ⟨StockOperation.registrations res .standard⟩
    let d : Dialect := { andToken := "&", orToken := "&", mustMarker := "-" }
    let children : List Node := [.rule ⟨"d", "name", .string, "equals", [.literal "x"], false⟩,
      .condition ⟨"e", .and, .none, []⟩]
    Registry.build (StockOperation.registrations res .standard) = .ok g ∧ d.validate = .ok () ∧
      2 ≤ children.countP (Compiler.mk g d).prints ∧
      ∀ j b, b = .exclude ∨ b = .must → (Compiler.mk g d).compile (.condition ⟨"c", j, b, children⟩)
        = .ok "-(name:\"x\" & ())" := by
  intro res g d children
  refine ⟨StockOperation.build_registrations res .standard, by decide, by decide +kernel, ?_⟩
  rintro j b (rfl | rfl) <;> cases j <;> exact compile_eq_ok_iff.mpr ⟨by rfl, by decide +kernel⟩

end SearchFilter
