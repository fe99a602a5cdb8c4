import SearchFilter.Proofs.Decimal.Notation
import SearchFilter.Proofs.Field.Identifier
import SearchFilter.Text.Literal

/-!
# Reading fields, terms and numbers

Where the field, a term with its escapes, or a number ends in the text of a query. A name goes as
far as its characters do and needs a colon behind it, so the colon inside an identifier is told from
the one behind it by what follows: the written form of a test never starts with a name and a colon.
-/

namespace SearchFilter.Query

open SearchFilter.Field (isName isNameChar isNameStart isIdentifier isNameChar_of_isName
  isIdentifier_cases)
open Text (StartsIn startsIn_cons takeWhile_append dropWhile_append)

/-! ## Fields -/

/-- Reads a name and the colon behind it. -/
def readName (cs : List Char) : Option (List Char × List Char) :=
  match cs.dropWhile isNameChar with
  | ':' :: rest =>
    if isName (cs.takeWhile isNameChar) then some (cs.takeWhile isNameChar, rest) else none
  | _ => none

theorem readName_append {name : List Char} (h : isName name = true) (rest : List Char) :
    readName (name ++ ':' :: rest) = some (name, rest) := by
  have hchars := isNameChar_of_isName h
  have hcolon : StartsIn (fun c => !isNameChar c) (':' :: rest) :=
    startsIn_cons (by decide +kernel)
  simp only [readName, dropWhile_append hchars hcolon, takeWhile_append hchars hcolon, h, if_true]

/-- A name starts with a letter or an underscore. -/
theorem readName_eq_none_of_start {cs : List Char}
    (h : StartsIn (fun c => !isNameStart c) cs) : readName cs = none := by
  have hname : isName (cs.takeWhile isNameChar) = false := by
    cases cs with
    | nil => rfl
    | cons c cs =>
      have hc : isNameStart c = false := by simpa using h c rfl
      rw [List.takeWhile_cons]
      split
      · simp [isName, hc]
      · rfl
  unfold readName
  split
  · rw [hname]
    rfl
  · rfl

/-- A name has a colon behind it. -/
theorem readName_eq_none_of_end {cs : List Char}
    (h : StartsIn (fun c => c != ':') (cs.dropWhile isNameChar)) : readName cs = none := by
  unfold readName
  split
  next rest heq =>
    have hcolon := h ':' (by rw [heq]; rfl)
    simp at hcolon
  · rfl

/-- Reads the identifier of a field and the colon behind it. -/
def readField (cs : List Char) : Option (String × List Char) :=
  match readName cs with
  | none => none
  | some (first, rest) =>
    match readName rest with
    | none => some (String.ofList first, rest)
    | some (second, rest') => some (String.ofList (first ++ ':' :: second), rest')

/-- The field is read to its end if no further name and colon follow. -/
theorem readField_append {field : String} (h : isIdentifier field = true) {rest : List Char}
    (hrest : readName rest = none) :
    readField (field.toList ++ ':' :: rest) = some (field, rest) := by
  rcases isIdentifier_cases h with hname | ⟨first, second, heq, hfirst, hsecond⟩
  · simp only [readField, readName_append hname, hrest, String.ofList_toList]
  · have hfield : String.ofList (first ++ ':' :: second) = field := by
      rw [← heq, String.ofList_toList]
    rw [heq, List.append_assoc, List.cons_append]
    simp only [readField, readName_append hfirst, readName_append hsecond, hfield]

/-- An identifier starts with a letter or an underscore. -/
theorem exists_start_of_isIdentifier {field : String} (h : isIdentifier field = true) :
    ∃ c cs, field.toList = c :: cs ∧ isNameStart c = true := by
  have hstart {name : List Char} (h : isName name = true) :
      ∃ c cs, name = c :: cs ∧ isNameStart c = true := by
    cases name with
    | nil => cases h
    | cons c cs =>
      rw [isName, Bool.and_eq_true] at h
      exact ⟨c, cs, rfl, h.1⟩
  rcases isIdentifier_cases h with hname | ⟨first, second, heq, hfirst, _⟩
  · exact hstart hname
  · obtain ⟨c, cs, rfl, hc⟩ := hstart hfirst
    exact ⟨c, _, heq, hc⟩

/-! ## Terms -/

/-- A bare term ends in front of this character. -/
def isStop (c : Char) : Bool :=
  c == '*' || c == '"' || c == ' ' || c == ')' || c == '\x7d'

/-- Reads a term up to a stop that no backslash precedes; a backslash makes the next character
literal. -/
def readTerm : List Char → List Char × List Char
  | [] => ([], [])
  | '\\' :: c :: rest => (c :: (readTerm rest).1, (readTerm rest).2)
  | c :: rest =>
    if isStop c then ([], c :: rest) else (c :: (readTerm rest).1, (readTerm rest).2)

theorem readTerm_cons {c : Char} (hstop : isStop c = false) (hbackslash : c ≠ '\\')
    (rest : List Char) :
    readTerm (c :: rest) = (c :: (readTerm rest).1, (readTerm rest).2) := by
  rw [readTerm.eq_def]
  split <;> simp_all

theorem readTerm_of_stop {rest : List Char} (h : StartsIn isStop rest) :
    readTerm rest = ([], rest) := by
  cases rest with
  | nil => rfl
  | cons c rest =>
    have hc : isStop c = true := h c rfl
    have hbackslash : c ≠ '\\' := by
      rintro rfl
      exact absurd hc (by decide)
    rw [readTerm.eq_def]
    split <;> simp_all

/-- A term of characters that need no escape is read to its end. -/
theorem readTerm_append {cs rest : List Char}
    (h : ∀ c ∈ cs, isStop c = false ∧ c ≠ '\\') (hrest : StartsIn isStop rest) :
    readTerm (cs ++ rest) = (cs, rest) := by
  induction cs with
  | nil => exact readTerm_of_stop hrest
  | cons c cs ih =>
    obtain ⟨hstop, hbackslash⟩ := h c (by simp)
    rw [List.cons_append, readTerm_cons hstop hbackslash, ih fun c' hc' => h c' (by simp [hc'])]

theorem needsEscape_of_isStop {c : Char} (h : isStop c = true) : Text.needsEscape c = true := by
  simp only [isStop, Bool.or_eq_true, beq_iff_eq] at h
  rcases h with (((rfl | rfl) | rfl) | rfl) | rfl <;> decide

theorem readTerm_escapeChar (c : Char) (rest : List Char) :
    readTerm (Text.escapeChar c ++ rest) = (c :: (readTerm rest).1, (readTerm rest).2) := by
  by_cases h : Text.needsEscape c = true
  · rw [Text.escapeChar, if_pos h]
    rfl
  · have hstop : isStop c = false := by
      cases hc : isStop c with
      | false => rfl
      | true => exact absurd (needsEscape_of_isStop hc) h
    have hbackslash : c ≠ '\\' := by
      rintro rfl
      exact h (by decide)
    rw [Text.escapeChar, if_neg h]
    exact readTerm_cons hstop hbackslash rest

/-- Reading an escaped term gives back the term and what follows it. -/
theorem readTerm_escapeChars (cs : List Char) {rest : List Char} (hrest : StartsIn isStop rest) :
    readTerm (Text.escapeChars cs ++ rest) = (cs, rest) := by
  induction cs with
  | nil => exact readTerm_of_stop hrest
  | cons c cs ih =>
    have ih : readTerm (cs.flatMap Text.escapeChar ++ rest) = (cs, rest) := ih
    rw [Text.escapeChars, List.flatMap_cons, List.append_assoc, readTerm_escapeChar, ih]

/-- No colon of an escaped term stands behind nothing but name characters. -/
theorem startsIn_dropWhile_escapeChars (cs rest : List Char) :
    StartsIn (fun c => c != ':')
      ((Text.escapeChars cs ++ '*' :: rest).dropWhile isNameChar) := by
  induction cs with
  | nil =>
    have hstar : isNameChar '*' = false := by decide +kernel
    rw [Text.escapeChars, List.flatMap_nil, List.nil_append, List.dropWhile_cons, hstar]
    exact startsIn_cons (by decide)
  | cons c cs ih =>
    rw [Text.escapeChars, List.flatMap_cons, List.append_assoc, ← Text.escapeChars]
    by_cases hescape : Text.needsEscape c = true
    · have hbackslash : isNameChar '\\' = false := by decide +kernel
      rw [Text.escapeChar, if_pos hescape, List.cons_append, List.dropWhile_cons, hbackslash]
      exact startsIn_cons (by decide)
    · have hcolon : c ≠ ':' := by
        rintro rfl
        exact hescape (by decide)
      rw [Text.escapeChar, if_neg hescape, List.singleton_append, List.dropWhile_cons]
      split
      · exact ih
      · exact startsIn_cons (by simp [hcolon])

/-! ## Numbers -/

/-- The character may stand in a number. -/
def isNumberChar (c : Char) : Bool :=
  Text.isDigit c || c == '-' || c == '+' || c == '.' || c == 'e' || c == 'E'

/-- The character may stand at the start of a number. -/
def isNumberStart (c : Char) : Bool :=
  Text.isDigit c || c == '-' || c == '.'

theorem isNumberChar_of_isPunctuation {c : Char} (h : Decimal.IsPunctuation c) :
    isNumberChar c = true := by
  rcases h with rfl | rfl | rfl | rfl | rfl <;> decide

theorem chars_of_isNumber {cs : List Char} (h : Decimal.IsNumber Text.isDigit cs) :
    (∀ c ∈ cs, isNumberChar c = true) ∧ ∃ c tail, cs = c :: tail ∧ isNumberStart c = true := by
  constructor
  · intro c hc
    rcases h.chars c hc with hdigit | hother
    · simp [isNumberChar, hdigit]
    · exact isNumberChar_of_isPunctuation hother
  · obtain ⟨c, tail, rfl⟩ := List.exists_cons_of_ne_nil h.ne_nil
    refine ⟨c, tail, rfl, ?_⟩
    rcases h.head with hdigit | rfl
    · simp [isNumberStart, hdigit]
    · decide

/-- A numeral consists of number characters, and its first one is a digit, a dash or a point. -/
theorem chars_of_isNumeral {s : String} (h : Decimal.isNumeral s = true) :
    (∀ c ∈ s.toList, isNumberChar c = true)
      ∧ ∃ c tail, s.toList = c :: tail ∧ isNumberStart c = true := by
  rcases Decimal.isNumeral_iff.mp h with hnumber | ⟨number, hnumber, heq⟩
  · exact chars_of_isNumber hnumber
  · rw [heq]
    exact ⟨List.forall_mem_cons.mpr ⟨by decide, (chars_of_isNumber hnumber).1⟩,
      '-', number, rfl, by decide⟩

/-- No digit of any script is an ASCII letter or an underscore. -/
theorem isNameStart_eq_false_of_isNumberStart {c : Char} (h : isNumberStart c = true) :
    isNameStart c = false := by
  cases hstart : isNameStart c with
  | false => rfl
  | true =>
    have hletter : 65 ≤ c.toNat ∧ c.toNat ≤ 122 := by
      simp only [isNameStart, Text.isAsciiLetter, Bool.or_eq_true, Bool.and_eq_true,
        decide_eq_true_eq, beq_iff_eq, Char.le_def, UInt32.le_iff_toNat_le] at hstart
      rcases hstart with (hstart | hstart) | rfl
      · exact ⟨le_trans (by decide) hstart.1, le_trans hstart.2 (by decide)⟩
      · exact ⟨le_trans (by decide) hstart.1, le_trans hstart.2 (by decide)⟩
      · decide
    simp only [isNumberStart, Bool.or_eq_true, beq_iff_eq] at h
    rcases h with (h | rfl) | rfl
    · have hascii := Text.isAsciiDigit_of_isDigit h (by omega)
      rw [Text.isAsciiDigit_iff] at hascii
      omega
    · exact absurd hletter (by decide)
    · exact absurd hletter (by decide)

end SearchFilter.Query
