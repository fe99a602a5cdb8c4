import Mathlib.Data.List.TakeWhile
import SearchFilter.Clause.Operand

/-!
# The parts of an identifier

An identifier is a name, or two names with a colon between. No name has a colon in it, so an
identifier falls into its names in one way only.
-/

namespace SearchFilter

namespace Field

variable {cs first : List Char}

/-! ## Names -/

theorem isNameChar_of_isNameStart {c : Char} (h : isNameStart c = true) : isNameChar c = true := by
  simp only [isNameStart, Bool.or_eq_true] at h
  simp only [isNameChar, Text.isWord, Bool.or_eq_true]
  rcases h with h | h <;> simp [h]

theorem isNameChar_of_isName {name : List Char} (h : isName name = true) :
    ∀ c ∈ name, isNameChar c = true := by
  cases name with
  | nil => simp
  | cons c cs =>
    simp only [isName, Bool.and_eq_true, List.all_eq_true] at h
    simp only [List.mem_cons, forall_eq_or_imp]
    exact ⟨isNameChar_of_isNameStart h.1, h.2⟩

theorem colon_notMem_of_isName {name : List Char} (h : isName name = true) : ':' ∉ name := by
  intro hmem
  have hcolon : isNameChar ':' = false := by decide +kernel
  rw [isNameChar_of_isName h ':' hmem] at hcolon
  cases hcolon

/-! ## The first colon -/

theorem splitAtColon_of_notMem (h : ':' ∉ cs) : splitAtColon cs = (cs, none) := by
  have hall : ∀ c ∈ cs, (c != ':') = true := by
    intro c hc
    rw [bne_iff_ne]
    exact ne_of_mem_of_not_mem hc h
  rw [splitAtColon, List.dropWhile_eq_nil_iff.mpr hall]

theorem splitAtColon_append (h : ':' ∉ first) (rest : List Char) :
    splitAtColon (first ++ ':' :: rest) = (first, some rest) := by
  have hall : ∀ c ∈ first, (c != ':') = true := by
    intro c hc
    rw [bne_iff_ne]
    exact ne_of_mem_of_not_mem hc h
  rw [splitAtColon, List.dropWhile_append_of_pos hall, List.takeWhile_append_of_pos hall]
  simp

/-- A text has no colon, or it falls apart at the first one. -/
theorem splitAtColon_cases (cs : List Char) : (':' ∉ cs ∧ splitAtColon cs = (cs, none)) ∨
    ∃ first rest, cs = first ++ ':' :: rest ∧ splitAtColon cs = (first, some rest) := by
  by_cases h : ':' ∈ cs
  · obtain ⟨first, rest, rfl, hfirst⟩ := List.eq_append_cons_of_mem h
    exact .inr ⟨first, rest, rfl, splitAtColon_append hfirst rest⟩
  · exact .inl ⟨h, splitAtColon_of_notMem h⟩

/-- An identifier is a name, or two of them with a colon between. -/
theorem isIdentifier_cases {field : String} (h : isIdentifier field = true) :
    isName field.toList = true ∨ ∃ first second, field.toList = first ++ ':' :: second
      ∧ isName first = true ∧ isName second = true := by
  rw [isIdentifier] at h
  rcases splitAtColon_cases field.toList with ⟨-, hsplit⟩ | ⟨first, second, heq, hsplit⟩
  · rw [hsplit] at h
    exact .inl h
  · rw [hsplit] at h
    exact .inr ⟨first, second, heq, Bool.and_eq_true_iff.mp h⟩

end Field

namespace Clause

/-- The field of a rule is written as the resolver identifies it, and only if that is an
identifier. -/
theorem fieldOf_eq_ok_iff {res : Resolver} {r : Rule} {field : String} :
    fieldOf res r = .ok field ↔
      res.identify? r.field = some field ∧ Field.isIdentifier field = true := by
  rw [fieldOf]
  cases hfound : res.identify? r.field with
  | none => simp
  | some identifier =>
    dsimp only
    split
    next hvalid =>
      constructor
      · rintro ⟨⟩
        exact ⟨rfl, hvalid⟩
      · rintro ⟨⟨⟩, -⟩
        rfl
    next hinvalid =>
      constructor
      · rintro ⟨⟩
      · rintro ⟨⟨⟩, hvalid⟩
        exact absurd hvalid hinvalid

end Clause

end SearchFilter
