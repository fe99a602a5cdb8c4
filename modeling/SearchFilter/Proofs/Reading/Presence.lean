import SearchFilter.Proofs.Reading.Query

/-!
# What reads as a presence test

A presence test is a word, a colon and a quoted field. The words are not reserved: they are
identifiers like any other, so a field that is called like one of them, compared with a quoted text,
is written in the same way. No other clause is.
-/

namespace SearchFilter

namespace Query

open SearchFilter.Field (isIdentifier)
open Text (StartsIn startsIn_cons readQuoted quoteChars quoteChars_inj toList_quote)

theorem isIdentifier_presenceWord (present : Bool) :
    isIdentifier (presenceWord present) = true := by
  cases present <;> decide

theorem presenceWord_inj {present present' : Bool}
    (h : presenceWord present = presenceWord present') : present = present' := by
  cases present <;> cases present' <;> simp_all [presenceWord]

/-- A presence test starts with a letter. -/
theorem startsIn_presence (present : Bool) (field : String) :
    StartsIn (fun c => c == 'I') (Leaf.presence present field).chars := by
  cases present <;> exact startsIn_cons (by decide)

theorem chars_inj {t t' : Test} (ht : t.WellFormed) (ht' : t'.WellFormed)
    (h : t.chars = t'.chars) : t = t' := by
  have hend : StartsIn isEnd [] := fun c hc => nomatch hc
  have hread := readTest_chars ht hend
  rw [h, readTest_chars ht' hend] at hread
  cases hread
  rfl

/-- The word of a presence test is read off as a field. -/
theorem readField_presence (present : Bool) (field : String) :
    readField (Leaf.presence present field).chars
      = some (presenceWord present, quoteChars field.toList) :=
  readField_append (isIdentifier_presenceWord present)
    (readName_eq_none_of_start (startsIn_cons (by decide)))

/-- What is written as a presence test is one, or compares a field that is called like the word of
the test with the quoted field. -/
theorem eq_of_chars_eq_presence {r : Reading} (hr : r.WellFormed) {present : Bool}
    {field : String} (h : r.chars = (Leaf.presence present field).chars) :
    r = .leaf (.presence present field) ∨
      r = .leaf (.test (presenceWord present) (.equals (.quoted field))) := by
  have hfield := readField_presence present field
  have hstart := startsIn_presence present field
  rw [← h] at hfield hstart
  cases hr with
  | @traversal identifier query hidentifier _ =>
    have hname : readName ('\x7b' :: (query.chars ++ ['\x7d'])) = none :=
      readName_eq_none_of_start (startsIn_cons (by decide))
    rw [Reading.chars, readField_append hidentifier hname] at hfield
    cases hfield
  | group mark j _ => cases mark <;> exact absurd (hstart _ rfl) (by decide)
  | @leaf l hleaf =>
    rw [Reading.chars] at hfield hstart
    cases l with
    | test identifier t =>
      have hname := readName_test hleaf.2 (fun c hc => nomatch hc : StartsIn isEnd [])
      rw [List.append_nil] at hname
      rw [Leaf.chars, readField_append hleaf.1 hname] at hfield
      simp only [Option.some.injEq, Prod.mk.injEq] at hfield
      obtain ⟨rfl, hchars⟩ := hfield
      have hquoted : quoteChars field.toList = (Test.equals (.quoted field)).chars := by
        rw [Test.chars, Scalar.text, toList_quote]
      rw [hquoted] at hchars
      have htest : t = .equals (.quoted field) := chars_inj hleaf.2 trivial hchars
      rw [htest]
      exact .inr rfl
    | excluded identifier s => exact absurd (hstart _ rfl) (by decide)
    | presence present' identifier =>
      rw [readField_presence] at hfield
      simp only [Option.some.injEq, Prod.mk.injEq] at hfield
      obtain ⟨hword, hquoted⟩ := hfield
      rw [presenceWord_inj hword, String.toList_inj.mp (quoteChars_inj hquoted)]
      exact .inl rfl

theorem chars_equals_presenceWord (present : Bool) (field : String) :
    (Leaf.test (presenceWord present) (.equals (.quoted field))).chars
      = (Leaf.presence present field).chars := by
  rw [Leaf.chars, Leaf.chars, Test.chars, Scalar.text, toList_quote]

theorem eq_leaf_of_reading {e : Expr} {l : Leaf} (h : e.reading = .leaf l) : e = .leaf l := by
  cases e <;> cases h
  rfl

/-- An expression has the text of a presence test exactly if it is the test, or compares a field
that is called like the word of the test with the quoted field. -/
theorem spell?_eq_presence_iff {e : Option Expr} (he : ∀ e' ∈ e, e'.reading.WellFormed)
    {present : Bool} {field : String} :
    (Expr.leaf (.presence present field)).spell {} .standard = Expr.spell? {} .standard e ↔
      e = some (.leaf (.presence present field)) ∨
        e = some (.leaf (.test (presenceWord present) (.equals (.quoted field)))) := by
  rw [← String.toList_inj, Expr.toList_spell, Expr.reading, Reading.chars]
  cases e with
  | none =>
    refine iff_of_false (fun h => ?_) (by simp)
    exact absurd h (by cases present <;> simp [Leaf.chars, Expr.spell?, presenceWord])
  | some e =>
    rw [Expr.spell?, Option.map_some, Option.getD_some, Expr.toList_spell]
    constructor
    · intro h
      exact (eq_of_chars_eq_presence (he e rfl) h.symm).imp
        (fun h => congrArg some (eq_leaf_of_reading h))
        (fun h => congrArg some (eq_leaf_of_reading h))
    · rintro (h | h) <;> cases h
      · rfl
      · exact (chars_equals_presenceWord present field).symm

end Query

namespace Clause

open Query

variable {res : Resolver} {r : Rule} {field s : String}

theorem identify?_of_fieldOf (h : fieldOf res r = .ok field) :
    res.identify? r.field = some field :=
  (fieldOf_eq_ok_iff.mp h).1

theorem literal?_of_literalAt {i : Nat} (h : literalAt r i = .ok s) : r.literal? i = some s := by
  unfold literalAt at h
  split at h
  next hliteral =>
    cases h
    exact hliteral
  · cases h

theorem TextTest.leaf_eq_equals {t : TextTest} {v : Scalar}
    (h : t.leaf res r = .ok (.test field (.equals v))) :
    t = .equals ∧ fieldOf res r = .ok field ∧ ∃ s, literalAt r 0 = .ok s ∧ v = .quoted s := by
  obtain ⟨field', hfield, h⟩ := except_bind_eq_ok.mp h
  cases t with
  | equals =>
    obtain ⟨s, hs, h⟩ := except_bind_eq_ok.mp h
    cases h
    exact ⟨rfl, hfield, s, hs, rfl⟩
  | _ =>
    obtain ⟨s, -, h⟩ := except_bind_eq_ok.mp h
    cases h

theorem IntervalTest.leaf_eq_equals {t : IntervalTest} {v : Scalar}
    (h : t.leaf res r = .ok (.test field (.equals v))) :
    t = .equals ∧ fieldOf res r = .ok field ∧
      ∃ literal, literalAt r 0 = .ok literal ∧ operandOf r literal = .ok v := by
  obtain ⟨field', hfield, h⟩ := except_bind_eq_ok.mp h
  obtain ⟨literal, hliteral, h⟩ := except_bind_eq_ok.mp h
  obtain ⟨value, hvalue, h⟩ := except_bind_eq_ok.mp h
  cases t with
  | equals =>
    cases h
    exact ⟨rfl, hfield, literal, hliteral, hvalue⟩
  | between =>
    obtain ⟨literal', -, h⟩ := except_bind_eq_ok.mp h
    obtain ⟨upper, -, h⟩ := except_bind_eq_ok.mp h
    obtain ⟨-, -, h⟩ := except_bind_eq_ok.mp h
    cases h
  | _ => cases h

theorem TextTest.leaf_ne_presence (t : TextTest) (present : Bool) :
    t.leaf res r ≠ .ok (.presence present field) := by
  intro h
  obtain ⟨field', -, h⟩ := except_bind_eq_ok.mp h
  cases t with
  | _ =>
    obtain ⟨s, -, h⟩ := except_bind_eq_ok.mp h
    cases h

theorem IntervalTest.leaf_ne_presence (t : IntervalTest) (present : Bool) :
    t.leaf res r ≠ .ok (.presence present field) := by
  intro h
  obtain ⟨field', -, h⟩ := except_bind_eq_ok.mp h
  obtain ⟨literal, -, h⟩ := except_bind_eq_ok.mp h
  obtain ⟨value, -, h⟩ := except_bind_eq_ok.mp h
  cases t with
  | between =>
    obtain ⟨literal', -, h⟩ := except_bind_eq_ok.mp h
    obtain ⟨upper, -, h⟩ := except_bind_eq_ok.mp h
    obtain ⟨-, -, h⟩ := except_bind_eq_ok.mp h
    cases h
  | _ => cases h

/-- Of the values that are compared as bounds, only dates are quoted. -/
theorem operandOf_eq_quoted {literal : String}
    (htype : r.type = .numeric ∨ r.type = .date) (h : operandOf r literal = .ok (.quoted s)) :
    r.type = .date ∧ Text.trim literal = s := by
  rcases htype with htype | htype
  · simp only [operandOf, htype] at h
    split at h <;> cases h
  · simp only [operandOf, htype] at h
    split at h <;> cases h
    exact ⟨htype, rfl⟩

end Clause

namespace StockOperation

open Query Clause

/-- The operations that write a clause without a clause inside, and what they write. -/
theorem leaf_cases {o : StockOperation} {res : Resolver}
    {embedded : Nat → Option (Except QueryError (Option Expr))} {r : Rule} {l : Leaf}
    (h : o.expr res embedded r = .ok (.leaf l)) :
    (∃ t type, o = .text t type ∧ t.leaf res r = .ok l) ∨
    (∃ t type, o = .interval t type ∧ t.leaf res r = .ok l) ∨
    (∃ inverted field b, o = .truth inverted ∧ l = .test field (.truth b)) ∨
    ∃ present type field, o = .presence present type ∧ l = .presence present field := by
  cases o with
  | text t type =>
    obtain ⟨l', hl, h⟩ := except_bind_eq_ok.mp h
    cases h
    exact .inl ⟨t, type, rfl, hl⟩
  | interval t type =>
    obtain ⟨l', hl, h⟩ := except_bind_eq_ok.mp h
    cases h
    exact .inr (.inl ⟨t, type, rfl, hl⟩)
  | truth inverted =>
    obtain ⟨field, -, h⟩ := except_bind_eq_ok.mp h
    obtain ⟨literal, -, h⟩ := except_bind_eq_ok.mp h
    obtain ⟨b, -, h⟩ := except_bind_eq_ok.mp h
    cases h
    exact .inr (.inr (.inl ⟨inverted, field, _, rfl, rfl⟩))
  | presence present type =>
    obtain ⟨field, -, h⟩ := except_bind_eq_ok.mp h
    cases h
    exact .inr (.inr (.inr ⟨present, type, field, rfl, rfl⟩))
  | traversal inverted =>
    obtain ⟨field, query, -, -, h⟩ := exists_query_of_traversal h
    cases inverted <;> cases h

theorem type_of_textEquals {type : ValueType} (h : .text .equals type ∈ catalogue) :
    type = .string ∨ type = .uri := by
  revert h
  cases type <;> decide

theorem type_of_intervalEquals {type : ValueType} (h : .interval .equals type ∈ catalogue) :
    type = .numeric ∨ type = .date := by
  revert h
  cases type <;> decide

end StockOperation

/-- The rule asks that the field with the identifier equals the quoted text. Blanks around a date do
not count. -/
structure Rule.EqualsQuoted (res : Resolver) (r : Rule) (identifier text : String) : Prop where
  operation : r.operation = "equals"
  field : res.identify? r.field = some identifier
  values : ∃ literal, r.values = [.literal literal] ∧
    ((r.type = .string ∨ r.type = .uri) ∧ literal = text ∨
      r.type = .date ∧ Text.trim literal = text)

namespace Node

open Query Clause StockOperation

variable {res : Resolver} {r : Rule}

theorem expr_rule (res : Resolver) (r : Rule) :
    (Node.rule r).expr res = ruleExpr res (queryExprs res r.values) r := by
  cases r
  rw [expr]

/-- A rule that stands for an expression has an operation that gives the expression. -/
theorem exists_operation_of_expr {e : Expr} (h : (Node.rule r).expr res = .ok (some e)) :
    ∃ o, StockOperation.find? r = some o ∧ o.arity.accepts r.values.length = true ∧
      o.expr res (fun i => (queryExprs res r.values)[i]?.join) r = .ok e := by
  rw [expr_rule, ruleExpr] at h
  split at h
  · split at h <;> cases h
  next o hfound =>
    split at h
    next harity =>
      obtain ⟨e', he', heq⟩ := except_map_eq_ok.mp h
      cases heq
      exact ⟨o, hfound, harity, he'⟩
    · cases h

/-- A rule with an operation stands for the expression that the operation gives. -/
theorem exists_expr_of_operation {o : StockOperation} (ho : StockOperation.find? r = some o)
    {e : Option Expr} (h : (Node.rule r).expr res = .ok e) : ∃ e', e = some e' ∧
      o.expr res (fun i => (queryExprs res r.values)[i]?.join) r = .ok e' := by
  rw [expr_rule, ruleExpr, ho] at h
  dsimp only at h
  split at h
  · obtain ⟨e', he', rfl⟩ := except_map_eq_ok.mp h
    exact ⟨e', rfl, he'⟩
  · cases h

theorem values_eq_of_literal? {s : String} (hone : r.values.length = 1)
    (h : r.literal? 0 = some s) : r.values = [.literal s] := by
  obtain ⟨v, hv⟩ := List.length_eq_one_iff.mp hone
  rw [Rule.literal?, hv] at h
  cases v with
  | literal t =>
    cases h
    exact hv
  | query n => cases h

/-- A comparison with a quoted text comes from a rule that asks for it. -/
theorem equalsQuoted_of_expr {field s : String}
    (h : (Node.rule r).expr res = .ok (some (.leaf (.test field (.equals (.quoted s)))))) :
    r.EqualsQuoted res field s := by
  obtain ⟨o, ho, harity, h⟩ := exists_operation_of_expr h
  obtain ⟨hmem, haccepts⟩ := accepts_of_find? ho
  simp only [Signature.accepts, Bool.and_eq_true, beq_iff_eq] at haccepts
  obtain ⟨htype, hoperation⟩ := haccepts
  obtain ⟨t, type, rfl, hl⟩ | ⟨t, type, rfl, hl⟩ | ⟨inverted, field', b, rfl, hl⟩ |
    ⟨present, type, field', rfl, hl⟩ := leaf_cases h
  · obtain ⟨rfl, hfield, s', hliteral, heq⟩ := TextTest.leaf_eq_equals hl
    cases heq
    have hone : r.values.length = 1 := by
      simpa [StockOperation.arity, TextTest.arity, Arity.accepts] using harity
    obtain rfl : type = r.type := htype
    exact ⟨hoperation.symm, identify?_of_fieldOf hfield, s,
      values_eq_of_literal? hone (literal?_of_literalAt hliteral),
      .inl ⟨type_of_textEquals hmem, rfl⟩⟩
  · obtain ⟨rfl, hfield, literal, hliteral, hoperand⟩ := IntervalTest.leaf_eq_equals hl
    have hone : r.values.length = 1 := by
      simpa [StockOperation.arity, IntervalTest.arity, Arity.accepts] using harity
    obtain rfl : type = r.type := htype
    exact ⟨hoperation.symm, identify?_of_fieldOf hfield, literal,
      values_eq_of_literal? hone (literal?_of_literalAt hliteral),
      .inr (operandOf_eq_quoted (type_of_intervalEquals hmem) hoperand)⟩
  · cases hl
  · cases hl

/-- A rule that asks for a comparison with a quoted text stands for it. -/
theorem expr_of_equalsQuoted {field s : String} (h : r.EqualsQuoted res field s)
    {e : Option Expr} (he : (Node.rule r).expr res = .ok e) :
    e = some (.leaf (.test field (.equals (.quoted s)))) := by
  obtain ⟨hoperation, hfield, literal, hvalues, htext⟩ := h
  have hliteral : r.literal? 0 = some literal := by
    rw [Rule.literal?, hvalues]
    rfl
  have hfieldOf {field' : String} (h : fieldOf res r = .ok field') : field' = field :=
    Option.some.inj ((identify?_of_fieldOf h).symm.trans hfield)
  have hliteralAt {s' : String} (h : literalAt r 0 = .ok s') : s' = literal :=
    Option.some.inj ((literal?_of_literalAt h).symm.trans hliteral)
  rcases htext with ⟨htype, rfl⟩ | ⟨htype, rfl⟩
  · have ho : StockOperation.find? r = some (.text .equals r.type) := by
      refine find?_eq_some_iff.mpr ⟨?_, ?_⟩
      · rcases htype with htype | htype <;> rw [htype] <;> decide
      · simp [Signature.accepts, signature, TextTest.operation, hoperation]
    obtain ⟨e', rfl, he'⟩ := exists_expr_of_operation ho he
    obtain ⟨l, hl, he'⟩ := except_bind_eq_ok.mp he'
    cases he'
    obtain ⟨field', hfield', hl⟩ := except_bind_eq_ok.mp hl
    obtain ⟨s', hs', hl⟩ := except_bind_eq_ok.mp hl
    cases hl
    rw [hfieldOf hfield', hliteralAt hs']
  · have ho : StockOperation.find? r = some (.interval .equals .date) := by
      refine find?_eq_some_iff.mpr ⟨by decide, ?_⟩
      simp [Signature.accepts, signature, IntervalTest.operation, hoperation, htype]
    obtain ⟨e', rfl, he'⟩ := exists_expr_of_operation ho he
    obtain ⟨l, hl, he'⟩ := except_bind_eq_ok.mp he'
    cases he'
    obtain ⟨field', hfield', hl⟩ := except_bind_eq_ok.mp hl
    obtain ⟨s', hs', hl⟩ := except_bind_eq_ok.mp hl
    obtain ⟨value, hvalue, hl⟩ := except_bind_eq_ok.mp hl
    cases hl
    rw [hliteralAt hs'] at hvalue
    simp only [operandOf, htype] at hvalue
    split at hvalue <;> cases hvalue
    rw [hfieldOf hfield']

theorem operation_of_expr_presence {present : Bool} {field : String}
    (h : (Node.rule r).expr res = .ok (some (.leaf (.presence present field)))) :
    r.operation = "is_set" ∨ r.operation = "is_not_set" := by
  obtain ⟨o, ho, -, h⟩ := exists_operation_of_expr h
  obtain ⟨-, haccepts⟩ := accepts_of_find? ho
  simp only [Signature.accepts, Bool.and_eq_true, beq_iff_eq] at haccepts
  obtain ⟨t, type, rfl, hl⟩ | ⟨t, type, rfl, hl⟩ | ⟨inverted, field', b, rfl, hl⟩ |
    ⟨present', type, field', rfl, -⟩ := leaf_cases h
  · exact absurd hl (t.leaf_ne_presence present)
  · exact absurd hl (t.leaf_ne_presence present)
  · cases hl
  · rw [← haccepts.2]
    cases present' <;> simp [signature]

theorem expr_of_presence {present : Bool}
    (hr : r.operation = if present then "is_set" else "is_not_set") {e : Option Expr}
    (he : (Node.rule r).expr res = .ok e) :
    ∃ field, res.identify? r.field = some field ∧ e = some (.leaf (.presence present field)) := by
  have ho : StockOperation.find? r = some (.presence present r.type) := by
    refine find?_eq_some_iff.mpr ⟨?_, ?_⟩
    · cases r.type <;> cases present <;> decide
    · cases present <;> simp [Signature.accepts, signature, hr]
  obtain ⟨e', rfl, he'⟩ := exists_expr_of_operation ho he
  obtain ⟨field, hfield, he'⟩ := except_bind_eq_ok.mp he'
  cases he'
  exact ⟨field, identify?_of_fieldOf hfield, rfl⟩

/-- The query of a rule is the written form of its expression. -/
theorem exists_expr_of_compile {n : Node} {s : String}
    (h : (Compiler.stock res .standard {}).compile n = .ok s) :
    ∃ e, n.expr res = .ok e ∧ s = Expr.spell? {} .standard e := by
  rw [Compiler.compile_stock (by decide)] at h
  obtain ⟨e, he, rfl⟩ := except_map_eq_ok.mp h
  exact ⟨e, (except_seq_eq_ok.mp he).2, rfl⟩

/-- A rule that is no presence test has the query of one exactly if it asks that a field called like
the word of the test equals the field of the test. -/
theorem writes_presence_test_iff {res : Resolver} {g : Registry}
    (hg : Registry.build (StockOperation.registrations res .standard) = .ok g) {present : Bool}
    {p q : Rule} (hp : p.operation = if present then "is_set" else "is_not_set")
    (hq : q.operation ≠ "is_set" ∧ q.operation ≠ "is_not_set") {s s' : String}
    (hs : (Compiler.mk g {}).compile (.rule p) = .ok s)
    (hs' : (Compiler.mk g {}).compile (.rule q) = .ok s') :
    s = s' ↔ ∃ field, res.identify? p.field = some field ∧
      q.EqualsQuoted res (if present then "ISNOTNULL" else "ISNULL") field := by
  obtain rfl : ⟨StockOperation.registrations res .standard⟩ = g :=
    StockOperation.eq_of_build_registrations hg
  obtain ⟨ep, hep, rfl⟩ := exists_expr_of_compile hs
  obtain ⟨eq, heq, rfl⟩ := exists_expr_of_compile hs'
  obtain ⟨field, hfield, rfl⟩ := expr_of_presence hp hep
  have hword : q.EqualsQuoted res (presenceWord present) field ↔
      eq = some (.leaf (.test (presenceWord present) (.equals (.quoted field)))) :=
    ⟨fun h => expr_of_equalsQuoted h heq, fun h => equalsQuoted_of_expr (h ▸ heq)⟩
  have hother : eq ≠ some (.leaf (.presence present field)) := by
    rintro rfl
    rcases operation_of_expr_presence heq with h | h
    · exact hq.1 h
    · exact hq.2 h
  have hwellFormed : ∀ e' ∈ eq, e'.reading.WellFormed := by
    rintro e' rfl
    exact wellFormed_of_expr res _ heq
  have hspell : Expr.spell? {} .standard (some (.leaf (.presence present field)))
      = (Expr.leaf (.presence present field)).spell {} .standard := rfl
  rw [hspell, spell?_eq_presence_iff hwellFormed, or_iff_right hother, ← hword]
  simp only [hfield, Option.some.injEq, exists_eq_left']
  rfl

/-- A date is compared without the blanks around it, and one of the words for a date may be the name
of a field. -/
theorem writes_presence_test_iff_of_date :
    let res := Namespaces.toResolver {}
    let g : Registry := ⟨StockOperation.registrations res .standard⟩
    let p : Rule := ⟨"p", "TODAY", .boolean, "is_set", [], false⟩
    let q : Rule := ⟨"q", "ISNOTNULL", .date, "equals", [.literal " TODAY\n"], true⟩
    let s := "ISNOTNULL:\"TODAY\""
    Registry.build (StockOperation.registrations res .standard) = .ok g ∧
      p.operation = "is_set" ∧ (q.operation ≠ "is_set" ∧ q.operation ≠ "is_not_set") ∧
      (Compiler.mk g {}).compile (.rule p) = .ok s ∧
      (Compiler.mk g {}).compile (.rule q) = .ok s ∧
      ∃ field, res.identify? p.field = some field ∧ q.EqualsQuoted res "ISNOTNULL" field := by
  intro res g p q s
  have hg : Registry.build (StockOperation.registrations res .standard) = .ok g :=
    StockOperation.build_registrations res .standard
  have hp : p.operation = if true then "is_set" else "is_not_set" := rfl
  have hq : q.operation ≠ "is_set" ∧ q.operation ≠ "is_not_set" := by decide
  have hs : (Compiler.mk g {}).compile (.rule p) = .ok s := by decide +kernel
  have hs' : (Compiler.mk g {}).compile (.rule q) = .ok s := by decide +kernel
  exact ⟨hg, hp, hq, hs, hs', (writes_presence_test_iff hg hp hq hs hs').mp rfl⟩

/-- A field may be called like the word that asks whether a field is not set, and then comparing it
with the name of another field writes the presence test of that field. -/
theorem writes_presence_test_of_field_in_its_literal :
    let res := Namespaces.toResolver {}
    let g : Registry := ⟨StockOperation.registrations res .standard⟩
    let p : Rule := ⟨"p", "due", .date, "is_not_set", [], false⟩
    let q : Rule := ⟨"q", "ISNULL", .string, "equals", [.literal "due"], false⟩
    Registry.build (StockOperation.registrations res .standard) = .ok g ∧
      (Compiler.mk g {}).compile (.rule p) = .ok "ISNULL:\"due\"" ∧
      (Compiler.mk g {}).compile (.rule q) = .ok "ISNULL:\"due\"" := by
  intro res g p q
  exact ⟨StockOperation.build_registrations res .standard, by decide +kernel, by decide +kernel⟩

end Node

end SearchFilter
