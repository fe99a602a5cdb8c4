import SearchFilter.Proofs.Decimal.Notation
import SearchFilter.Proofs.Decimal.Value
import SearchFilter.Proofs.Field.Identifier
import SearchFilter.Proofs.Query.Spelling
import SearchFilter.Proofs.Tree.Scope

/-!
# The bounds of a numeric interval

The bounds of a numeric interval are compared as doubles. So a lower bound above the upper one is
refused if the two round to doubles that differ, and is written if these compare equal. Bounds in
the right order are never refused, however long they are and however large their exponents.
-/

namespace SearchFilter

open Decimal

namespace Clause

theorem isInverted_iff {lower upper : String} {x y : Numeral}
    (hx : Numeral.read? Text.isAsciiDigit lower.toList = some x)
    (hy : Numeral.read? Text.isAsciiDigit upper.toList = some y) :
    isInverted lower upper = true ↔ y.value < x.value ∧ ¬ RoundAlike y.value x.value := by
  rw [isInverted, orderKey?, orderKey?, hx, hy]
  simp only [Option.map_some, decide_eq_true_eq]
  exact Numeral.key_lt_key_iff (Numeral.isNumeral_of_read? hy).2 (Numeral.isNumeral_of_read? hx).2

variable {res : Resolver} {r : Rule} {a b : String}

theorem clause_between (htype : r.type = .numeric) (hvalues : r.values = [.literal a, .literal b])
    (ha : isNumeral (Text.trim a) = true) (hb : isNumeral (Text.trim b) = true) :
    IntervalTest.between.clause res r = (do
      let field ← fieldOf res r
      if isInverted (Text.trim a) (Text.trim b) then
        .error (.malformed r (.invertedBounds (Text.trim a) (Text.trim b)))
      else .ok [.text (field ++ ":[" ++ Text.trim a ++ " TO " ++ Text.trim b ++ "]")]) := by
  have hlower : literalAt r 0 = .ok a := by simp [literalAt, Rule.literal?, hvalues, Value.literal?]
  have hupper : literalAt r 1 = .ok b := by simp [literalAt, Rule.literal?, hvalues, Value.literal?]
  have hscalar {s : String} (hs : isNumeral (Text.trim s) = true) :
      scalarOf r s = .ok (Text.trim s) := by simp [scalarOf, htype, hs]
  rw [IntervalTest.clause]
  cases fieldOf res r with
  | error e => rw [except_error_bind, except_error_bind]
  | ok field =>
    simp only [except_ok_bind, hlower, hupper, hscalar ha, hscalar hb, checkBounds, htype, true_and]
    by_cases hinverted : isInverted (Text.trim a) (Text.trim b) = true
    · rw [if_pos hinverted, if_pos hinverted, except_error_bind]
    · rw [if_neg hinverted, if_neg hinverted, except_ok_bind, except_pure]

end Clause

namespace Compiler

open Clause

theorem compile_between_eq_ok_iff {res : Resolver} {form : Traversal} {d : Dialect} {r : Rule}
    {a b s : String} (htype : r.type = .numeric) (hoperation : r.operation = "between")
    (hvalues : r.values = [.literal a, .literal b]) (ha : isNumeral (Text.trim a) = true)
    (hb : isNumeral (Text.trim b) = true) :
    (stock res form d).compile (.rule r) = .ok s ↔
      ∃ field, fieldOf res r = .ok field ∧ isInverted (Text.trim a) (Text.trim b) = false ∧
        s = field ++ ":[" ++ Text.trim a ++ " TO " ++ Text.trim b ++ "]" := by
  have hids : (Node.rule r).checkIds = .ok () := by
    rw [Node.checkIds_rule, hvalues]
    rfl
  have hfound : StockOperation.find? r = some (.interval .between .numeric) := by
    refine StockOperation.find?_eq_some_iff.mpr ⟨by decide, ?_⟩
    simp [Signature.accepts, StockOperation.signature, htype, hoperation, IntervalTest.operation]
  have harity : (StockOperation.interval .between .numeric).arity.accepts r.values.length
      = true := by
    rw [hvalues]
    rfl
  rw [compile_eq_ok_iff, nodeText_rule (isStock_stock res form d), ruleText_eq_clause, hfound]
  dsimp only
  rw [if_pos harity, except_map_eq_ok, StockOperation.clause, clause_between htype hvalues ha hb]
  simp only [hids, true_and, except_bind_eq_ok]
  constructor
  · rintro ⟨ts, ⟨field, hfield, hts⟩, rfl⟩
    split_ifs at hts with hinverted
    obtain rfl := Except.ok.inj hts
    exact ⟨field, hfield, by simpa using hinverted, by simp [Query.Token.spell]⟩
  · rintro ⟨field, hfield, hinverted, rfl⟩
    refine ⟨_, ⟨field, hfield, if_neg (by simp [hinverted])⟩, by simp [Query.Token.spell]⟩

/-- A numeric interval between two numbers in ASCII digits is written, as its trimmed bounds, unless
its field has no identifier or its lower bound is greater than the upper one. A greater lower bound
is overlooked just where both bounds round to doubles that compare equal. -/
theorem between_is_refused_iff_doubles_are_inverted (res : Resolver) (form : Traversal)
    (d : Dialect) :
    ∃ g, Registry.build (StockOperation.registrations res form) = .ok g ∧
      ∀ (r : Rule) (a b : String) (x y : Numeral), r.type = .numeric → r.operation = "between" →
        r.values = [.literal a, .literal b] →
        Numeral.read? Text.isAsciiDigit (Text.trim a).toList = some x →
        Numeral.read? Text.isAsciiDigit (Text.trim b).toList = some y →
        ∀ s, (Compiler.mk g d).compile (.rule r) = .ok s ↔
          ∃ field, fieldOf res r = .ok field ∧
            s = field ++ ":[" ++ Text.trim a ++ " TO " ++ Text.trim b ++ "]" ∧
            (x.value ≤ y.value ∨ RoundAlike x.value y.value) := by
  refine ⟨_, StockOperation.build_registrations res form, ?_⟩
  intro r a b x y htype hoperation hvalues hx hy s
  have ha : isNumeral (Text.trim a) = true := isNumeral_of_isAsciiDigit hx
  have hb : isNumeral (Text.trim b) = true := isNumeral_of_isAsciiDigit hy
  have hinverted : isInverted (Text.trim a) (Text.trim b) = false ↔
      x.value ≤ y.value ∨ RoundAlike x.value y.value := by
    rw [Bool.eq_false_iff, Ne, isInverted_iff hx hy, not_and_or, not_not, not_lt,
      roundAlike_comm]
  have hcompile : (stock res form d).compile (.rule r) = .ok s ↔ _ :=
    compile_between_eq_ok_iff htype hoperation hvalues ha hb
  rw [stock, hinverted] at hcompile
  rw [hcompile]
  exact exists_congr fun field => and_congr_right' And.comm

/-- Two bounds with many digits and an exponent, between blanks. -/
theorem between_is_refused_iff_doubles_are_inverted_of_exponents :
    let res := Namespaces.toResolver {}
    let g : Registry := ⟨StockOperation.registrations res .standard⟩
    let a := " -00.50e+1"
    let b := "17e-99999999999999999999 "
    let r : Rule := ⟨"r", "size", .numeric, "between", [.literal a, .literal b], false⟩
    let x : Numeral := ⟨true, ['0', '0'], ['5', '0'], false, ['1']⟩
    let y : Numeral := ⟨false, ['1', '7'], [], true, List.replicate 20 '9'⟩
    r.type = .numeric ∧ r.operation = "between" ∧ r.values = [.literal a, .literal b] ∧
      Numeral.read? Text.isAsciiDigit (Text.trim a).toList = some x ∧
      Numeral.read? Text.isAsciiDigit (Text.trim b).toList = some y ∧
      (Compiler.mk g {}).compile (.rule r) =
        .ok "size:[-00.50e+1 TO 17e-99999999999999999999]" := by
  intro res g a b r x y
  obtain ⟨g', hg', hbetween⟩ := between_is_refused_iff_doubles_are_inverted res .standard {}
  obtain rfl : g = g' := StockOperation.eq_of_build_registrations hg'
  have hx : Numeral.read? Text.isAsciiDigit (Text.trim a).toList = some x := by decide
  have hy : Numeral.read? Text.isAsciiDigit (Text.trim b).toList = some y := by decide
  have hle : x.value ≤ y.value := by
    have := x.scaled.value_nonneg
    have := y.scaled.value_nonneg
    rw [x.value_eq, y.value_eq, if_pos rfl, if_neg Bool.false_ne_true]
    linarith
  refine ⟨rfl, rfl, rfl, hx, hy, ?_⟩
  exact (hbetween r a b x y rfl rfl rfl hx hy _).mpr ⟨"size", by decide, by decide, .inl hle⟩

/-- The two bounds are neighbours of which only the lesser one is a double. -/
theorem between_is_written_inverted :
    let res := Namespaces.toResolver {}
    let g : Registry := ⟨StockOperation.registrations res .standard⟩
    let a := "9007199254740993"
    let b := "9007199254740992"
    let r : Rule := ⟨"r", "size", .numeric, "between", [.literal a, .literal b], false⟩
    ∃ x y : Numeral, Registry.build (StockOperation.registrations res .standard) = .ok g ∧
      Numeral.read? Text.isAsciiDigit a.toList = some x ∧
      Numeral.read? Text.isAsciiDigit b.toList = some y ∧
      (Compiler.mk g {}).compile (.rule r) = .ok ("size:[" ++ a ++ " TO " ++ b ++ "]") ∧
      y.value < x.value := by
  intro res g a b r
  refine ⟨⟨false, a.toList, [], false, []⟩, ⟨false, b.toList, [], false, []⟩,
    StockOperation.build_registrations res .standard, by decide, by decide, ?_, ?_⟩
  · decide +kernel
  · rw [Numeral.value_eq, Numeral.value_eq, if_neg Bool.false_ne_true, if_neg Bool.false_ne_true]
    have hdigits : Numeral.digitsValue b.toList < Numeral.digitsValue a.toList := by decide
    simpa [Scaled.value, Numeral.scaled, Numeral.coefficient, Numeral.scale,
      Numeral.digitsValue] using hdigits

/-- A numeric interval whose bounds are numbers in ASCII digits is written if the exact value of the
lower bound is not greater than that of the upper one: no rounding inverts them. -/
theorem ordered_bounds_are_never_refused (res : Resolver) (form : Traversal) (d : Dialect) :
    ∃ g, Registry.build (StockOperation.registrations res form) = .ok g ∧
      ∀ (r : Rule) (a b field : String), r.type = .numeric → r.operation = "between" →
        r.values = [.literal a, .literal b] →
        IsNumeral Text.isAsciiDigit (Text.trim a).toList →
        IsNumeral Text.isAsciiDigit (Text.trim b).toList →
        res.identify? r.field = some field → Field.isIdentifier field = true →
        ∃ x y, Numeral.read? Text.isAsciiDigit (Text.trim a).toList = some x ∧
          Numeral.read? Text.isAsciiDigit (Text.trim b).toList = some y ∧
          (x.value ≤ y.value → (Compiler.mk g d).compile (.rule r) =
            .ok (field ++ ":[" ++ Text.trim a ++ " TO " ++ Text.trim b ++ "]")) := by
  refine ⟨_, StockOperation.build_registrations res form, ?_⟩
  intro r a b field htype hoperation hvalues ha hb hfield hvalid
  have hread {cs : List Char} (h : IsNumeral Text.isAsciiDigit cs) :
      ∃ n, Numeral.read? Text.isAsciiDigit cs = some n :=
    Option.isSome_iff_exists.mp
      ((Numeral.isSome_read?_iff fun _ => not_isAsciiDigit_of_isPunctuation).mpr h)
  obtain ⟨x, hx⟩ := hread ha
  obtain ⟨y, hy⟩ := hread hb
  refine ⟨x, y, hx, hy, fun hle => ?_⟩
  have hordered : isInverted (Text.trim a) (Text.trim b) = false := by
    rw [Bool.eq_false_iff, Ne, isInverted_iff hx hy]
    exact fun h => absurd h.1 (not_lt.mpr hle)
  have hidentifier : fieldOf res r = .ok field := fieldOf_eq_ok_iff.mpr ⟨hfield, hvalid⟩
  exact (compile_between_eq_ok_iff htype hoperation hvalues (isNumeral_of_isAsciiDigit hx)
    (isNumeral_of_isAsciiDigit hy)).mpr ⟨field, hidentifier, hordered, rfl⟩

/-- Two bounds that both lie beyond the greatest double. -/
theorem ordered_bounds_are_never_refused_of_infinities :
    let res := Namespaces.toResolver {}
    let g : Registry := ⟨StockOperation.registrations res .standard⟩
    let a := " 1e999"
    let b := "1e1000 "
    let r : Rule := ⟨"r", "size", .numeric, "between", [.literal a, .literal b], false⟩
    r.type = .numeric ∧ r.operation = "between" ∧ r.values = [.literal a, .literal b] ∧
      IsNumeral Text.isAsciiDigit (Text.trim a).toList ∧
      IsNumeral Text.isAsciiDigit (Text.trim b).toList ∧
      res.identify? r.field = some "size" ∧ Field.isIdentifier "size" = true ∧
      (Compiler.mk g {}).compile (.rule r) = .ok "size:[1e999 TO 1e1000]" := by
  intro res g a b r
  obtain ⟨g', hg', hordered⟩ := ordered_bounds_are_never_refused res .standard {}
  obtain rfl : g = g' := StockOperation.eq_of_build_registrations hg'
  have hnumeral {cs : List Char} (h : (Numeral.read? Text.isAsciiDigit cs).isSome = true) :
      IsNumeral Text.isAsciiDigit cs :=
    (Numeral.isSome_read?_iff fun _ => not_isAsciiDigit_of_isPunctuation).mp h
  have ha : IsNumeral Text.isAsciiDigit (Text.trim a).toList := hnumeral (by decide)
  have hb : IsNumeral Text.isAsciiDigit (Text.trim b).toList := hnumeral (by decide)
  have hfield : res.identify? r.field = some "size" := by decide
  have hvalid : Field.isIdentifier "size" = true := by decide
  obtain ⟨x, y, hx, hy, hwritten⟩ := hordered r a b "size" rfl rfl rfl ha hb hfield hvalid
  obtain rfl : (⟨false, ['1'], [], false, ['9', '9', '9']⟩ : Numeral) = x :=
    Option.some.inj (Eq.trans (by decide) hx)
  obtain rfl : (⟨false, ['1'], [], false, ['1', '0', '0', '0']⟩ : Numeral) = y :=
    Option.some.inj (Eq.trans (by decide) hy)
  refine ⟨rfl, rfl, rfl, ha, hb, hfield, hvalid, (hwritten ?_).trans (by decide)⟩
  simp only [Numeral.value, Bool.false_eq_true, if_false, one_mul]
  have hscale : (10 : ℚ) ^ (999 : ℤ) ≤ 10 ^ (1000 : ℤ) :=
    zpow_le_zpow_right₀ (by norm_num) (by norm_num)
  exact mul_le_mul_of_nonneg_left hscale (Nat.cast_nonneg _)

end Compiler

end SearchFilter
