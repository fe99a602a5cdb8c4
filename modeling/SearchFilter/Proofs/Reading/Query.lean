import SearchFilter.Proofs.Reading.Test
import SearchFilter.Proofs.Reading.Tree

/-!
# Queries can be read in one way only

A query in the standard dialect is read from left to right: a mark and a parenthesis start a group,
a dash alone an excluded value, and anything else is a field with a test or with an embedded query.
The reader gives back the reading of every tree, so two trees with the same query have the same
reading, and no literal can change the structure around it.
-/

namespace SearchFilter

namespace Query

open SearchFilter.Field (isNameStart isIdentifier)
open Text (StartsIn startsIn_cons readQuoted quoteChars toList_quote)

/-- The leaf that a field and its test stand for. The words that ask whether a field is set are
taken for themselves. -/
def leafOf (field : String) : Test → Leaf
  | .equals (.quoted s) =>
    if field = presenceWord true then .presence true s
    else if field = presenceWord false then .presence false s
    else .test field (.equals (.quoted s))
  | t => .test field t

/-- Reads the mark and the opening parenthesis of a group. -/
def readMark : List Char → Option (GroupMark × List Char)
  | '(' :: rest => some (.plain, rest)
  | '+' :: '(' :: rest => some (.must, rest)
  | '-' :: '(' :: rest => some (.excluded, rest)
  | _ => none

/-- Takes the brace behind an embedded query off. -/
def readBrace (field : String) : Reading × List Char → Option (Reading × List Char)
  | (query, '\x7d' :: rest) => some (.traversal field query, rest)
  | _ => none

/-- Reads what stands behind a field and a colon; the reader is the one for embedded queries. -/
def readOperand (query : List Char → Option (Reading × List Char)) (field : String) :
    List Char → Option (Reading × List Char)
  | '\x7b' :: rest => (query rest).bind (readBrace field)
  | cs => (readTest cs).map fun r => (.leaf (leafOf field r.1), r.2)

/-- Reads a clause that is no group. -/
def readClause (query : List Char → Option (Reading × List Char)) :
    List Char → Option (Reading × List Char)
  | '-' :: rest => do
    let (field, rest) ← readField rest
    let (s, rest) ← readQuoted rest
    return (.leaf (.excluded field (String.ofList s)), rest)
  | cs => do
    let (field, rest) ← readField cs
    readOperand query field rest

/-- Reads a query that is nested no deeper than the number tells. -/
def readQuery : Nat → List Char → Option (Reading × List Char)
  | 0, _ => none
  | depth + 1, cs =>
    match readMark cs with
    | some (mark, rest) =>
      (readMembers (readQuery depth) rest).map fun r => (.group mark r.1.1 r.1.2, r.2)
    | none => readClause (readQuery depth) cs

/-- The reading of a text, if the text is a query. -/
def Reading.ofText? (s : String) : Option Reading :=
  match readQuery s.toList.length s.toList with
  | some (r, []) => some r
  | _ => none

/-! ## Clauses -/

theorem readMark_eq_none_of_start {c : Char} (h : isNameStart c = true) (cs : List Char) :
    readMark (c :: cs) = none := by
  unfold readMark
  split
  next heq =>
    cases heq
    exact absurd h (by decide)
  next heq =>
    cases heq
    exact absurd h (by decide)
  next heq =>
    cases heq
    exact absurd h (by decide)
  · rfl

theorem readMark_eq_none_of_dash {c : Char} (h : isNameStart c = true) (cs : List Char) :
    readMark ('-' :: c :: cs) = none := by
  unfold readMark
  split
  next heq => cases heq
  next heq => cases heq
  next heq =>
    cases heq
    exact absurd h (by decide)
  · rfl

theorem readClause_of_ne_dash {c : Char} (h : c ≠ '-') (cs : List Char)
    (query : List Char → Option (Reading × List Char)) :
    readClause query (c :: cs) = (do
      let (field, rest) ← readField (c :: cs)
      readOperand query field rest) := by
  unfold readClause
  split
  next heq =>
    cases heq
    exact absurd rfl h
  · rfl

/-- A field and what it asks for are read where no further name and colon follow. -/
theorem readQuery_field {field : String} (h : isIdentifier field = true) {rest : List Char}
    (hrest : readName rest = none) (depth : Nat) :
    readQuery (depth + 1) (field.toList ++ ':' :: rest)
      = readOperand (readQuery depth) field rest := by
  have hfield := readField_append h hrest
  obtain ⟨c, cs, heq, hc⟩ := exists_start_of_isIdentifier h
  have hdash : c ≠ '-' := by
    rintro rfl
    exact absurd hc (by decide)
  rw [heq, List.cons_append] at hfield ⊢
  rw [readQuery, readMark_eq_none_of_start hc, readClause_of_ne_dash hdash, hfield]
  rfl

theorem readOperand_test {t : Test} (ht : t.WellFormed) {rest : List Char}
    (hrest : StartsIn isEnd rest) (query : List Char → Option (Reading × List Char))
    (field : String) :
    readOperand query field (t.chars ++ rest) = some (.leaf (leafOf field t), rest) := by
  unfold readOperand
  split
  next heq =>
    have hbrace := startsIn_test ht rest '\x7b' (by rw [heq]; rfl)
    simp at hbrace
  · rw [readTest_chars ht hrest]
    rfl

theorem leafOf_of_ne {field : String} (h : ∀ present, field ≠ presenceWord present) (t : Test) :
    leafOf field t = .test field t := by
  unfold leafOf
  split
  · rw [if_neg (h true), if_neg (h false)]
  · rfl

theorem leafOf_presenceWord (present : Bool) (field : String) :
    leafOf (presenceWord present) (.equals (.quoted field)) = .presence present field := by
  cases present <;> rfl

/-- A leaf is read off its written form where a clause may end. -/
theorem readQuery_leaf {l : Leaf} (hl : l.WellFormed)
    (hwords : (Reading.leaf l).AvoidsPresenceWords) {rest : List Char}
    (hrest : StartsIn isEnd rest) (depth : Nat) :
    readQuery (depth + 1) (l.chars ++ rest) = some (.leaf l, rest) := by
  cases l with
  | test field t =>
    have hfield : ∀ present, field ≠ presenceWord present :=
      hwords field (by simp [Reading.fields, Leaf.field])
    rw [Leaf.chars, List.append_assoc, List.cons_append,
      readQuery_field hl.1 (readName_test hl.2 hrest), readOperand_test hl.2 hrest,
      leafOf_of_ne hfield]
  | excluded field s =>
    have hname : readName (quoteChars s.toList ++ rest) = none :=
      readName_eq_none_of_start (startsIn_cons (by decide))
    have hfield := readField_append hl hname
    have hquoted := Text.readQuoted_quoteChars s.toList rest
    obtain ⟨c, cs, heq, hc⟩ := exists_start_of_isIdentifier hl
    rw [Leaf.chars, List.cons_append, List.append_assoc, List.cons_append]
    rw [heq, List.cons_append] at hfield ⊢
    rw [readQuery, readMark_eq_none_of_dash hc]
    simp only [readClause, hfield, hquoted, Option.bind_eq_bind, Option.bind_some,
      String.ofList_toList]
    rfl
  | presence present field =>
    have hidentifier : isIdentifier (presenceWord present) = true := by cases present <;> decide
    have hname : readName (quoteChars field.toList ++ rest) = none :=
      readName_eq_none_of_start (startsIn_cons (by decide))
    have hquoted : quoteChars field.toList = (Test.equals (.quoted field)).chars := by
      rw [Test.chars, Scalar.text, toList_quote]
    have hoperand := readOperand_test (t := .equals (.quoted field)) trivial hrest
      (readQuery depth) (presenceWord present)
    rw [Leaf.chars, List.append_assoc, List.cons_append, readQuery_field hidentifier hname,
      hquoted, hoperand, leafOf_presenceWord]

/-- An embedded query is read off its written form between the braces. -/
theorem readQuery_traversal {field : String} (hfield : isIdentifier field = true)
    {query : Reading} {depth : Nat} {rest : List Char}
    (hquery : readQuery depth (query.chars ++ '\x7d' :: rest) = some (query, '\x7d' :: rest)) :
    readQuery (depth + 1) ((Reading.traversal field query).chars ++ rest)
      = some (.traversal field query, rest) := by
  have hname : readName ('\x7b' :: (query.chars ++ '\x7d' :: rest)) = none :=
    readName_eq_none_of_start (startsIn_cons (by decide))
  rw [Reading.chars, List.append_assoc, List.cons_append, List.cons_append, List.append_assoc,
    List.singleton_append, readQuery_field hfield hname, readOperand, hquery]
  rfl

/-! ## Groups -/

theorem readMark_chars (mark : GroupMark) (rest : List Char) :
    readMark (mark.chars ++ '(' :: rest) = some (mark, rest) := by
  cases mark <;> rfl

/-- No query starts with a closing parenthesis. -/
theorem readQuery_close (depth : Nat) (rest : List Char) : readQuery depth (')' :: rest) = none := by
  cases depth with
  | zero => rfl
  | succ depth =>
    have hname : readName (')' :: rest) = none :=
      readName_eq_none_of_start (startsIn_cons (by decide))
    have hfield : readField (')' :: rest) = none := by rw [readField, hname]
    have hmark : readMark (')' :: rest) = none := rfl
    rw [readQuery, hmark, readClause_of_ne_dash (by decide), hfield]
    rfl

/-- A group is read off its written form if its members are. -/
theorem readQuery_group (mark : GroupMark) (j : Junction) {members : List Reading} {depth : Nat}
    (hmembers : ReadsAll (readQuery depth) Reading.chars members) (rest : List Char) :
    readQuery (depth + 1)
        ((Reading.group mark (visibleJunction j members.length) members).chars ++ rest)
      = some (.group mark (visibleJunction j members.length) members, rest) := by
  have hread := readMembers_intercalate j hmembers (readQuery_close depth) rest
  have hlength : members.length = (members.map Reading.chars).length := by
    rw [List.length_map]
  rw [Reading.chars, Reading.charsOfAll_eq_map]
  rw [hlength, intercalate_visibleJunction, ← hlength]
  rw [List.append_assoc, List.cons_append, List.append_assoc, List.singleton_append, readQuery,
    readMark_chars]
  simp only [hread]
  rfl

/-! ## Nesting -/

namespace Reading

mutual

/-- How deep a reading is nested. -/
def depth : Reading → Nat
  | .leaf _ => 1
  | .traversal _ query => query.depth + 1
  | .group _ _ members => depthOfAll members + 1

/-- How deep the deepest of the readings is nested. -/
def depthOfAll : List Reading → Nat
  | [] => 0
  | r :: rs => max r.depth (depthOfAll rs)

end

theorem depth_le_depthOfAll {r : Reading} {rs : List Reading} (h : r ∈ rs) :
    r.depth ≤ depthOfAll rs := by
  induction rs with
  | nil => cases h
  | cons s rs ih =>
    rw [depthOfAll]
    cases h with
    | head => exact Nat.le_max_left _ _
    | tail _ h => exact Nat.le_trans (ih h) (Nat.le_max_right _ _)

mutual

/-- Every level of nesting takes at least one character. -/
theorem depth_le_length (r : Reading) : r.depth ≤ r.chars.length := by
  match r with
  | .leaf l =>
    rw [depth, chars]
    cases l <;> simp only [Leaf.chars, List.length_append, List.length_cons] <;> omega
  | .traversal field query =>
    have hquery := depth_le_length query
    simp only [depth, chars, List.length_append, List.length_cons]
    omega
  | .group mark j members =>
    have hmembers := depthOfAll_le_length (separatorChars (j.getD .and)) members
    simp only [depth, chars, List.length_append, List.length_cons]
    omega

theorem depthOfAll_le_length (separator : List Char) (rs : List Reading) :
    depthOfAll rs ≤ (separator.intercalate (charsOfAll rs)).length := by
  match rs with
  | [] => exact Nat.zero_le _
  | [r] =>
    have hr := depth_le_length r
    rw [charsOfAll, charsOfAll, List.intercalate_singleton, depthOfAll, depthOfAll]
    omega
  | r :: s :: rs =>
    have hr := depth_le_length r
    have hrest := depthOfAll_le_length separator (s :: rs)
    rw [charsOfAll] at hrest
    rw [charsOfAll, charsOfAll, List.intercalate_cons_cons, depthOfAll, List.length_append,
      List.length_append]
    omega

end

end Reading

/-! ## Queries -/

/-- Reading the written form of a reading gives it back, where a clause may end. -/
theorem readQuery_chars {r : Reading} (h : r.WellFormed) (hwords : r.AvoidsPresenceWords)
    {depth : Nat} (hdepth : r.depth ≤ depth) {rest : List Char} (hrest : StartsIn isEnd rest) :
    readQuery depth (r.chars ++ rest) = some (r, rest) := by
  -- The bound drops by one at every level, and what follows an inner clause is a space or the
  -- delimiter around it, so both have to be free in the induction.
  induction h generalizing depth rest with
  | leaf hleaf =>
    obtain ⟨depth, rfl⟩ := Nat.exists_eq_succ_of_ne_zero (Nat.ne_of_gt hdepth)
    exact readQuery_leaf hleaf hwords hrest depth
  | traversal hfield _ ih =>
    rw [Reading.depth] at hdepth
    obtain ⟨depth, rfl⟩ : ∃ k, depth = k + 1 := ⟨depth - 1, by omega⟩
    refine readQuery_traversal hfield (ih ?_ (by omega) (startsIn_cons (by decide)))
    exact fun f hf => hwords f (List.mem_cons_of_mem _ hf)
  | group mark j hmembers ih =>
    rw [Reading.depth] at hdepth
    obtain ⟨depth, rfl⟩ : ∃ k, depth = k + 1 := ⟨depth - 1, by omega⟩
    refine readQuery_group mark j (fun r hr rest hrest => ih r hr ?_ ?_ hrest) rest
    · exact fun f hf => hwords f (Reading.fields_subset hr hf)
    · have hmember := Reading.depth_le_depthOfAll hr
      omega

/-- A text has at most one reading. -/
theorem Reading.ofText?_chars {r : Reading} (h : r.WellFormed) (hwords : r.AvoidsPresenceWords)
    {s : String} (hs : s.toList = r.chars) : ofText? s = some r := by
  have hread := readQuery_chars h hwords (depth_le_length r)
    (fun c hc => nomatch hc : StartsIn isEnd [])
  rw [List.append_nil, ← hs] at hread
  rw [ofText?, hread]

end Query

namespace Node

open Query

/-- The resolved fields of the rules that a tree writes. -/
def resolvedFields (res : Resolver) (n : Node) : List String :=
  match n.reading res with
  | .ok (some r) => r.fields
  | _ => []

/-- The query of a tree tells the reading of the tree. -/
theorem reading_of_compile {res : Resolver} {n : Node} {s : String}
    (h : (Compiler.stock res .standard {}).compile n = .ok s)
    (hwords : ∀ f ∈ n.resolvedFields res, f ≠ "ISNULL" ∧ f ≠ "ISNOTNULL") :
    n.reading res = .ok (Reading.ofText? s) := by
  rw [Compiler.compile_stock (by decide)] at h
  obtain ⟨e, he, rfl⟩ := except_map_eq_ok.mp h
  obtain ⟨_, _, he⟩ := except_bind_eq_ok.mp he
  cases e with
  | none =>
    rw [reading, he]
    rfl
  | some e =>
    have hreading : n.reading res = .ok (some e.reading) := by
      rw [reading, he]
      rfl
    have havoids : e.reading.AvoidsPresenceWords := by
      rw [resolvedFields, hreading] at hwords
      intro f hf present
      cases present with
      | true => exact (hwords f hf).2
      | false => exact (hwords f hf).1
    have hread := Reading.ofText?_chars (wellFormed_of_expr res n he) havoids e.toList_spell
    rw [hreading, ← hread]
    rfl

/-- Two trees with the same query in the standard dialect have the same reading. -/
theorem reading_eq_of_compile_eq (res : Resolver) {g : Registry}
    (hg : Registry.build (StockOperation.registrations res .standard) = .ok g) {t₁ t₂ : Node}
    {s : String} (h₁ : (Compiler.mk g {}).compile t₁ = .ok s)
    (h₂ : (Compiler.mk g {}).compile t₂ = .ok s)
    (hwords₁ : ∀ f ∈ t₁.resolvedFields res, f ≠ "ISNULL" ∧ f ≠ "ISNOTNULL")
    (hwords₂ : ∀ f ∈ t₂.resolvedFields res, f ≠ "ISNULL" ∧ f ≠ "ISNOTNULL") :
    ∃ r, t₁.reading res = .ok r ∧ t₂.reading res = .ok r := by
  rw [StockOperation.build_registrations] at hg
  cases hg
  exact ⟨_, reading_of_compile h₁ hwords₁, reading_of_compile h₂ hwords₂⟩

/-- A relation that is not there reads like an excluded group of the relation, and neither ids nor
rules that are left out nor a boost without a mark can be read. -/
theorem reading_eq_of_excluded_relation :
    let res : Resolver := Namespaces.toResolver {}
    let g : Registry := ⟨StockOperation.registrations res .standard⟩
    let name : Value := .query (.rule ⟨"q", "name", .string, "equals", [.literal "x"], false⟩)
    let t₁ : Node := .condition ⟨"a", .or, .should,
      [.rule ⟨"b", "status", .string, "not_equals", [.literal "no\") OR (x:\"y"], false⟩,
        .rule ⟨"c", "owner", .uri, "not_set_to_query", [name], false⟩]⟩
    let t₂ : Node := .condition ⟨"k", .or, .none,
      [.rule ⟨"l", "x", .date, "fuzzy", [], true⟩,
        .rule ⟨"m", "status", .string, "not_equals", [.literal "no\") OR (x:\"y"], true⟩,
        .condition ⟨"n", .or, .exclude,
          [.rule ⟨"o", "owner", .uri, "set_to_query", [name], false⟩]⟩]⟩
    let s := "(-status:\"no\\\") OR (x:\\\"y\" OR -(owner:\x7bname:\"x\"\x7d))"
    Registry.build (StockOperation.registrations res .standard) = .ok g ∧
      (Compiler.mk g {}).compile t₁ = .ok s ∧ (Compiler.mk g {}).compile t₂ = .ok s ∧
      (∀ f ∈ t₁.resolvedFields res, f ≠ "ISNULL" ∧ f ≠ "ISNOTNULL") ∧
      (∀ f ∈ t₂.resolvedFields res, f ≠ "ISNULL" ∧ f ≠ "ISNOTNULL") ∧
      ∃ r, t₁.reading res = .ok r ∧ t₂.reading res = .ok r := by
  intro res g name t₁ t₂ s
  have hg : Registry.build (StockOperation.registrations res .standard) = .ok g :=
    StockOperation.build_registrations res .standard
  have h₁ : (Compiler.mk g {}).compile t₁ = .ok s := by decide +kernel
  have h₂ : (Compiler.mk g {}).compile t₂ = .ok s := by decide +kernel
  have hwords₁ : ∀ f ∈ t₁.resolvedFields res, f ≠ "ISNULL" ∧ f ≠ "ISNOTNULL" := by
    decide +kernel
  have hwords₂ : ∀ f ∈ t₂.resolvedFields res, f ≠ "ISNULL" ∧ f ≠ "ISNOTNULL" := by
    decide +kernel
  exact ⟨hg, h₁, h₂, hwords₁, hwords₂, reading_eq_of_compile_eq res hg h₁ h₂ hwords₁ hwords₂⟩

end Node

end SearchFilter
