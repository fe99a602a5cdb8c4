import SearchFilter.Proofs.Reading.Text
import SearchFilter.Proofs.Reading.Word
import SearchFilter.Proofs.Text.Balance

/-!
# The groups of a reading

The written form of a well-formed reading is balanced. A parenthesis that is neither quoted nor
escaped belongs to a group of the reading or to a list of alternatives.
-/

namespace SearchFilter.Query

open SearchFilter.Field (isIdentifier isName isNameChar_of_isName isIdentifier_cases)
open Text (Balanced isBare_of_class balanced_of_bare balanced_escapeChars balanced_intercalate
  toList_quote)

/-- How many groups a leaf is written with: a list of alternatives is one. -/
def Leaf.groups : Leaf → Nat
  | .test _ (.anyOf _) => 1
  | _ => 0

namespace Reading

mutual

/-- How many groups a reading is written with. -/
def groups : Reading → Nat
  | .leaf l => l.groups
  | .traversal _ query => query.groups
  | .group _ _ members => groupsOfAll members + 1

/-- How many groups the readings are written with. -/
def groupsOfAll : List Reading → Nat
  | [] => 0
  | r :: rs => r.groups + groupsOfAll rs

end

theorem groupsOfAll_eq_sum (rs : List Reading) : groupsOfAll rs = (rs.map groups).sum := by
  induction rs with
  | nil => rfl
  | cons r rs ih => rw [groupsOfAll, ih, List.map_cons, List.sum_cons]

end Reading

/-! ## Fields and literals -/

theorem balanced_name {name : List Char} (h : isName name = true) : Balanced name 0 := by
  apply balanced_of_bare
  rw [List.all_eq_true]
  intro c hc
  exact isBare_of_class (by decide +kernel) (isNameChar_of_isName h c hc)

/-- A field with the colon behind it. -/
theorem balanced_field {field : String} (h : isIdentifier field = true) :
    Balanced (field.toList ++ [':']) 0 := by
  have hcolon : Balanced [':'] 0 := .bare (by decide)
  rcases isIdentifier_cases h with hname | ⟨first, second, heq, hfirst, hsecond⟩
  · exact (balanced_name hname).append hcolon
  · have hqualified := ((balanced_name hfirst).append hcolon).append (balanced_name hsecond)
    rw [heq, List.append_cons first]
    exact hqualified.append hcolon

theorem balanced_scalar {v : Scalar} (h : v.WellFormed) : Balanced v.text.toList 0 := by
  cases v with
  | number s =>
    apply balanced_of_bare
    rw [List.all_eq_true]
    intro c hc
    exact isBare_of_class (by decide) ((chars_of_isNumeral h).1 c hc)
  | quoted s =>
    rw [Scalar.text, toList_quote]
    exact .quoted s.toList

theorem balanced_lowerText {b : Bound} (h : b.WellFormed) : Balanced b.lowerText.toList 0 := by
  cases b with
  | unbounded => exact balanced_of_bare (by decide)
  | inclusive v =>
    rw [Bound.lowerText, String.toList_append]
    exact .append (.bare (by decide)) (balanced_scalar h)
  | exclusive v =>
    rw [Bound.lowerText, String.toList_append]
    exact .append (.bare (by decide)) (balanced_scalar h)

theorem balanced_upperText {b : Bound} (h : b.WellFormed) : Balanced b.upperText.toList 0 := by
  cases b with
  | unbounded => exact balanced_of_bare (by decide)
  | inclusive v =>
    rw [Bound.upperText, String.toList_append]
    exact .append (balanced_scalar h) (.bare (by decide))
  | exclusive v =>
    rw [Bound.upperText, String.toList_append]
    exact .append (balanced_scalar h) (.bare (by decide))

theorem balanced_separatorChars (j : Junction) : Balanced (separatorChars j) 0 := by
  cases j <;> exact balanced_of_bare (by decide)

theorem balanced_markChars (mark : GroupMark) : Balanced mark.chars 0 := by
  cases mark <;> exact balanced_of_bare (by decide)

/-! ## Leaves -/

theorem balanced_test (field : String) {t : Test} (h : t.WellFormed) :
    Balanced t.chars (Leaf.test field t).groups := by
  have hstar : Balanced ['*'] 0 := .bare (by decide)
  cases t with
  | equals v => exact balanced_scalar h
  | truth b => cases b <;> exact balanced_of_bare (by decide)
  | contains s => exact hstar.append ((balanced_escapeChars s.toList).append hstar)
  | startsWith s => exact (balanced_escapeChars s.toList).append hstar
  | anyOf ss =>
    have hliterals := balanced_intercalate (f := fun s => Text.quoteChars s.toList)
      (k := fun _ => 0) (balanced_separatorChars .or) ss fun s _ => .quoted s.toList
    rw [List.map_const', List.sum_replicate_nat, Nat.mul_zero] at hliterals
    exact hliterals.group
  | interval lower upper =>
    have hbetween : Balanced [' ', 'T', 'O', ' '] 0 := balanced_of_bare (by decide)
    exact (balanced_lowerText h.1).append (hbetween.append (balanced_upperText h.2))

theorem balanced_leaf {l : Leaf} (h : l.WellFormed) : Balanced l.chars l.groups := by
  cases l with
  | test field t =>
    have hleaf := (balanced_field h.1).append (balanced_test field h.2)
    rw [List.append_assoc, Nat.zero_add] at hleaf
    exact hleaf
  | excluded field s =>
    have hclause := (balanced_field h).append (.quoted s.toList)
    rw [List.append_assoc] at hclause
    exact .append (.bare (by decide)) hclause
  | presence present field =>
    have hword : isIdentifier (presenceWord present) = true := by cases present <;> decide
    have hclause := (balanced_field hword).append (.quoted field.toList)
    rw [List.append_assoc] at hclause
    exact hclause

/-! ## Readings -/

/-- The written form of a reading is balanced and has the groups of the reading. -/
theorem balanced_chars {r : Reading} (h : r.WellFormed) : Balanced r.chars r.groups := by
  induction h with
  | leaf hleaf => exact balanced_leaf hleaf
  | @traversal field query hfield _ ih =>
    have hopen : Balanced ['\x7b'] 0 := .bare (by decide)
    have hclose : Balanced ['\x7d'] 0 := .bare (by decide)
    have htraversal := (balanced_field hfield).append (hopen.append (ih.append hclose))
    rw [List.append_assoc, Nat.zero_add, Nat.zero_add] at htraversal
    exact htraversal
  | @group members mark j _ ih =>
    have hmembers := balanced_intercalate
      (balanced_separatorChars ((visibleJunction j members.length).getD .and)) members ih
    rw [← Reading.groupsOfAll_eq_sum, ← Reading.charsOfAll_eq_map] at hmembers
    have hgroup := (balanced_markChars mark).append hmembers.group
    rw [Nat.zero_add] at hgroup
    exact hgroup

end SearchFilter.Query
