import SearchFilter.Proofs.Reading.Members

/-!
# Reading tests

What stands behind a field and a colon: its first character tells a quoted text, a list and most
intervals apart. A word without any of these is a prefix if a star that is not escaped ends it, and
else a number or a truth value. A prefix may start like an interval that excludes its lower end, but
an interval has a space or a quotation mark before any star.
-/

namespace SearchFilter.Query

open Text (StartsIn startsIn_cons takeWhile_append dropWhile_append readQuoted quoteChars
  toList_quote)

/-- With such a start, a word is told from a quoted text, a list, an interval, a star and an
embedded query. -/
def isWordStart (c : Char) : Bool :=
  c != '"' && c != '(' && c != '[' && c != '*' && c != '\x7b'

theorem readQuoted_eq_none {cs : List Char} (h : StartsIn (fun c => c != '"') cs) :
    readQuoted cs = none := by
  unfold readQuoted
  split
  next rest =>
    have hquote := h '"' rfl
    simp at hquote
  · rfl

/-! ## Literals -/

/-- Reads a literal, which is a number if there is no quotation mark. -/
def readScalar (cs : List Char) : Option (Scalar × List Char) :=
  match readQuoted cs with
  | some (s, rest) => some (.quoted (String.ofList s), rest)
  | none =>
    some (.number (String.ofList (cs.takeWhile isNumberChar)), cs.dropWhile isNumberChar)

/-- A literal starts with a quotation mark or like a number. -/
theorem startsIn_text {p : Char → Bool} {v : Scalar} (hv : v.WellFormed) (hquote : p '"' = true)
    (hnumber : ∀ c, isNumberStart c = true → p c = true) (rest : List Char) :
    StartsIn p (v.text.toList ++ rest) := by
  cases v with
  | number s =>
    obtain ⟨_, c, tail, heq, hc⟩ := chars_of_isNumeral hv
    rw [Scalar.text, heq]
    exact startsIn_cons (hnumber c hc)
  | quoted s =>
    rw [Scalar.text, toList_quote]
    exact startsIn_cons hquote

/-- A number can never start with a character that is told apart from all of theirs. -/
theorem ne_of_isNumberStart {d : Char} (hd : isNumberStart d = false) (c : Char)
    (h : isNumberStart c = true) : (c != d) = true := by
  rw [bne_iff_ne]
  rintro rfl
  exact absurd h (by simp [hd])

theorem readScalar_text {v : Scalar} (hv : v.WellFormed) {rest : List Char}
    (hrest : StartsIn (fun c => !isNumberChar c) rest) :
    readScalar (v.text.toList ++ rest) = some (v, rest) := by
  cases v with
  | number s =>
    have hchars := (chars_of_isNumeral hv).1
    have hstart : StartsIn (fun c => c != '"') (s.toList ++ rest) := by
      obtain ⟨_, c, tail, heq, hc⟩ := chars_of_isNumeral hv
      rw [heq]
      exact startsIn_cons (ne_of_isNumberStart (by decide) c hc)
    rw [Scalar.text, readScalar, readQuoted_eq_none hstart]
    simp only [takeWhile_append hchars hrest, dropWhile_append hchars hrest, String.ofList_toList]
  | quoted s =>
    rw [Scalar.text, toList_quote, readScalar, Text.readQuoted_quoteChars]
    simp only [String.ofList_toList]

/-! ## Intervals -/

/-- Reads the lower end of an interval. -/
def readLower : List Char → Option (Bound × List Char)
  | '[' :: 'M' :: 'I' :: 'N' :: rest => some (.unbounded, rest)
  | '[' :: rest => (readScalar rest).map fun r => (.inclusive r.1, r.2)
  | '<' :: rest => (readScalar rest).map fun r => (.exclusive r.1, r.2)
  | _ => none

theorem readLower_inclusive {cs : List Char} (h : StartsIn (fun c => c != 'M') cs) :
    readLower ('[' :: cs) = (readScalar cs).map fun r => (.inclusive r.1, r.2) := by
  rw [readLower.eq_def]
  split
  next heq =>
    cases heq
    have hword := h 'M' rfl
    simp at hword
  · simp_all
  · simp_all
  · simp_all

@[simp] theorem toList_lowerText_inclusive (v : Scalar) :
    (Bound.inclusive v).lowerText.toList = '[' :: v.text.toList := by
  simp [Bound.lowerText]

@[simp] theorem toList_lowerText_exclusive (v : Scalar) :
    (Bound.exclusive v).lowerText.toList = '<' :: v.text.toList := by
  simp [Bound.lowerText]

/-- An interval starts with a square or an angle bracket. -/
theorem startsIn_interval {p : Char → Bool} (hsquare : p '[' = true) (hangle : p '<' = true)
    (lower upper : Bound) (rest : List Char) :
    StartsIn p ((Test.interval lower upper).chars ++ rest) := by
  cases lower with
  | unbounded => exact startsIn_cons hsquare
  | inclusive v =>
    rw [Test.chars, toList_lowerText_inclusive]
    exact startsIn_cons hsquare
  | exclusive v =>
    rw [Test.chars, toList_lowerText_exclusive]
    exact startsIn_cons hangle

theorem readLower_lowerText {b : Bound} (hb : b.WellFormed) (rest : List Char) :
    readLower (b.lowerText.toList ++ ' ' :: rest) = some (b, ' ' :: rest) := by
  have hspace : StartsIn (fun c => !isNumberChar c) (' ' :: rest) := startsIn_cons (by decide)
  cases b with
  | unbounded => rfl
  | inclusive v =>
    have hstart : StartsIn (fun c => c != 'M') (v.text.toList ++ ' ' :: rest) :=
      startsIn_text hb (by decide) (ne_of_isNumberStart (by decide)) _
    have hscalar := readScalar_text hb hspace
    rw [toList_lowerText_inclusive, List.cons_append, readLower_inclusive hstart, hscalar]
    rfl
  | exclusive v =>
    have hscalar := readScalar_text hb hspace
    rw [toList_lowerText_exclusive, List.cons_append, readLower, hscalar]
    rfl

/-- Takes the bracket behind an upper end off, which tells whether the end is included. -/
def readBracket (v : Scalar) : List Char → Option (Bound × List Char)
  | ']' :: rest => some (.inclusive v, rest)
  | '>' :: rest => some (.exclusive v, rest)
  | _ => none

/-- Reads the upper end of an interval. -/
def readUpper : List Char → Option (Bound × List Char)
  | 'M' :: 'A' :: 'X' :: ']' :: rest => some (.unbounded, rest)
  | cs => do
    let (v, rest) ← readScalar cs
    readBracket v rest

theorem readUpper_of_start {cs : List Char} (h : StartsIn (fun c => c != 'M') cs) :
    readUpper cs = (do
      let (v, rest) ← readScalar cs
      readBracket v rest) := by
  rw [readUpper.eq_def]
  split
  next heq =>
    have hword := h 'M' rfl
    simp at hword
  · rfl

/-- The literal of an upper end is read up to its bracket. -/
theorem readUpper_text {v : Scalar} (hv : v.WellFormed) {c : Char}
    (hc : isNumberChar c = false) (rest : List Char) :
    readUpper (v.text.toList ++ c :: rest) = readBracket v (c :: rest) := by
  have hstart : StartsIn (fun c => c != 'M') (v.text.toList ++ c :: rest) :=
    startsIn_text hv (by decide) (ne_of_isNumberStart (by decide)) _
  have hbracket : StartsIn (fun c => !isNumberChar c) (c :: rest) := startsIn_cons (by simp [hc])
  rw [readUpper_of_start hstart, readScalar_text hv hbracket]
  rfl

theorem readUpper_upperText {b : Bound} (hb : b.WellFormed) (rest : List Char) :
    readUpper (b.upperText.toList ++ rest) = some (b, rest) := by
  cases b with
  | unbounded => rfl
  | inclusive v =>
    rw [Bound.upperText, String.toList_append, List.append_assoc]
    exact readUpper_text hb (by decide) rest
  | exclusive v =>
    rw [Bound.upperText, String.toList_append, List.append_assoc]
    exact readUpper_text hb (by decide) rest

/-- Reads an interval. -/
def readInterval (cs : List Char) : Option (Test × List Char) := do
  let (lower, rest) ← readLower cs
  let rest ← [' ', 'T', 'O', ' '].isPrefixOf? rest
  let (upper, rest) ← readUpper rest
  return (.interval lower upper, rest)

theorem readInterval_chars {lower upper : Bound} (hlower : lower.WellFormed)
    (hupper : upper.WellFormed) (rest : List Char) :
    readInterval ((Test.interval lower upper).chars ++ rest)
      = some (.interval lower upper, rest) := by
  have hfirst := readLower_lowerText hlower ('T' :: 'O' :: ' ' :: (upper.upperText.toList ++ rest))
  have hsecond := readUpper_upperText hupper rest
  rw [Test.chars, List.append_assoc, List.append_assoc]
  show readInterval (lower.lowerText.toList
    ++ ' ' :: 'T' :: 'O' :: ' ' :: (upper.upperText.toList ++ rest)) = _
  rw [readInterval, hfirst]
  simp only [Option.bind_eq_bind, Option.bind_some, List.isPrefixOf?, beq_self_eq_true, if_true,
    hsecond]
  rfl

/-! ## Words -/

/-- What a word asks for: a truth value by its name, or else a number. -/
def wordTest (word : List Char) : Test :=
  if word = truthChars true then .truth true
  else if word = truthChars false then .truth false
  else .equals (.number (String.ofList word))

/-- Reads a prefix, a truth value, a number, or an interval that excludes its lower end. -/
def readWord (cs : List Char) : Option (Test × List Char) :=
  match (readTerm cs).2 with
  | '*' :: rest => some (.startsWith (String.ofList (readTerm cs).1), rest)
  | rest => if cs.head? = some '<' then readInterval cs else some (wordTest (readTerm cs).1, rest)

/-- Without a star behind it, a text is no prefix. -/
theorem readWord_of_not_star {cs : List Char}
    (h : StartsIn (fun c => c != '*') (readTerm cs).2) :
    readWord cs = if cs.head? = some '<' then readInterval cs
      else some (wordTest (readTerm cs).1, (readTerm cs).2) := by
  unfold readWord
  split
  next rest heq =>
    have hstar := h '*' (by rw [heq]; rfl)
    simp at hstar
  · rfl

theorem startsIn_isStop {rest : List Char} (hrest : StartsIn isEnd rest) :
    StartsIn isStop rest :=
  startsIn_of_isEnd hrest (by decide) (by decide) (by decide)

theorem startsIn_ne_star {rest : List Char} (hrest : StartsIn isEnd rest) :
    StartsIn (fun c => c != '*') rest :=
  startsIn_of_isEnd hrest (by decide) (by decide) (by decide)

/-- A word in which nothing is escaped goes as far as the clause does. -/
theorem readWord_append {c : Char} {cs rest : List Char} (hstart : c ≠ '<')
    (h : ∀ d ∈ c :: cs, isStop d = false ∧ d ≠ '\\') (hrest : StartsIn isEnd rest) :
    readWord (c :: cs ++ rest) = some (wordTest (c :: cs), rest) := by
  have hterm := readTerm_append h (startsIn_isStop hrest)
  have hstar : StartsIn (fun c => c != '*') (readTerm (c :: cs ++ rest)).2 := by
    rw [hterm]
    exact startsIn_ne_star hrest
  have hhead : ¬ (c :: cs ++ rest).head? = some '<' := by simpa using hstart
  rw [readWord_of_not_star hstar, if_neg hhead, hterm]

theorem not_isStop_of_isNumberChar {c : Char} (h : isNumberChar c = true) :
    isStop c = false ∧ c ≠ '\\' := by
  constructor
  · cases hc : isStop c with
    | false => rfl
    | true =>
      simp only [isStop, Bool.or_eq_true, beq_iff_eq] at hc
      rcases hc with (((rfl | rfl) | rfl) | rfl) | rfl <;> exact absurd h (by decide)
  · rintro rfl
    exact absurd h (by decide)

theorem wordTest_number {s : String} (h : Decimal.isNumeral s = true) :
    wordTest s.toList = .equals (.number s) := by
  obtain ⟨_, c, tail, heq, hc⟩ := chars_of_isNumeral h
  have htrue : ¬ s.toList = truthChars true := by
    rw [heq]
    rintro ⟨⟩
    exact absurd hc (by decide)
  have hfalse : ¬ s.toList = truthChars false := by
    rw [heq]
    rintro ⟨⟩
    exact absurd hc (by decide)
  rw [wordTest, if_neg htrue, if_neg hfalse, String.ofList_toList]

theorem readWord_number {s : String} (h : Decimal.isNumeral s = true) {rest : List Char}
    (hrest : StartsIn isEnd rest) :
    readWord (s.toList ++ rest) = some (.equals (.number s), rest) := by
  obtain ⟨hchars, c, tail, heq, hc⟩ := chars_of_isNumeral h
  have hstart : c ≠ '<' := by
    rintro rfl
    exact absurd hc (by decide)
  rw [← wordTest_number h, heq]
  exact readWord_append hstart (fun d hd => not_isStop_of_isNumberChar (hchars d (heq ▸ hd))) hrest

theorem readWord_truth (b : Bool) {rest : List Char} (hrest : StartsIn isEnd rest) :
    readWord (truthChars b ++ rest) = some (.truth b, rest) := by
  cases b with
  | true => exact readWord_append (by decide) (by simp [isStop]) hrest
  | false => exact readWord_append (by decide) (by simp [isStop]) hrest

theorem readWord_startsWith (s : String) (rest : List Char) :
    readWord ((Test.startsWith s).chars ++ rest) = some (.startsWith s, rest) := by
  have hterm := readTerm_escapeChars s.toList
    (startsIn_cons (by decide) : StartsIn isStop ('*' :: rest))
  rw [Test.chars, List.append_assoc, List.singleton_append, readWord, hterm]
  simp only [String.ofList_toList]

/-- An interval that excludes its lower end has a space or a quotation mark before any star. -/
theorem startsIn_readTerm_exclusive {v : Scalar} (hv : v.WellFormed) (rest : List Char) :
    StartsIn (fun c => c != '*') (readTerm ('<' :: (v.text.toList ++ ' ' :: rest))).2 := by
  have hopen : isStop '<' = false ∧ '<' ≠ '\\' := by decide
  cases v with
  | number s =>
    have hchars : ∀ c ∈ '<' :: s.toList, isStop c = false ∧ c ≠ '\\' :=
      List.forall_mem_cons.mpr
        ⟨hopen, fun c hc => not_isStop_of_isNumberChar ((chars_of_isNumeral hv).1 c hc)⟩
    have hterm := readTerm_append hchars
      (startsIn_cons (by decide) : StartsIn isStop (' ' :: rest))
    rw [Scalar.text, ← List.cons_append, hterm]
    exact startsIn_cons (by decide)
  | quoted s =>
    rw [Scalar.text, toList_quote, readTerm_cons hopen.1 hopen.2]
    exact startsIn_cons (by decide)

theorem readWord_exclusive {v : Scalar} (hv : v.WellFormed) {upper : Bound}
    (hupper : upper.WellFormed) (rest : List Char) :
    readWord ((Test.interval (.exclusive v) upper).chars ++ rest)
      = some (.interval (.exclusive v) upper, rest) := by
  have hlower : (Bound.exclusive v).WellFormed := hv
  have hinterval := readInterval_chars hlower hupper rest
  have hchars : (Test.interval (.exclusive v) upper).chars ++ rest
      = '<' :: (v.text.toList ++ ' ' :: 'T' :: 'O' :: ' ' :: (upper.upperText.toList ++ rest)) := by
    simp [Test.chars]
  rw [hchars] at hinterval ⊢
  rw [readWord_of_not_star (startsIn_readTerm_exclusive hv _), List.head?_cons, if_pos rfl]
  exact hinterval

/-! ## Tests -/

/-- Reads what stands behind a field and a colon. -/
def readTest (cs : List Char) : Option (Test × List Char) :=
  match cs with
  | '"' :: _ => (readQuoted cs).map fun r => (.equals (.quoted (String.ofList r.1)), r.2)
  | '(' :: rest =>
    (readMembers readQuoted rest).map fun r => (.anyOf (r.1.2.map String.ofList), r.2)
  | '[' :: _ => readInterval cs
  | '*' :: rest =>
    match (readTerm rest).2 with
    | '*' :: rest' => some (.contains (String.ofList (readTerm rest).1), rest')
    | _ => some (.startsWith "", rest)
  | _ => readWord cs

theorem readTest_of_isWordStart {cs : List Char} (h : StartsIn isWordStart cs) :
    readTest cs = readWord cs := by
  unfold readTest
  split
  · exact absurd (h _ rfl) (by decide)
  · exact absurd (h _ rfl) (by decide)
  · exact absurd (h _ rfl) (by decide)
  · exact absurd (h _ rfl) (by decide)
  · rfl

theorem isWordStart_of_isNumberStart {c : Char} (h : isNumberStart c = true) :
    isWordStart c = true := by
  simp only [isWordStart, Bool.and_eq_true]
  refine ⟨⟨⟨⟨?_, ?_⟩, ?_⟩, ?_⟩, ?_⟩ <;> exact ne_of_isNumberStart (by decide) c h

/-- An escaped term starts like a word, whatever its first character is. -/
theorem startsIn_escapeChar (c : Char) (rest : List Char) :
    StartsIn isWordStart (Text.escapeChar c ++ rest) := by
  by_cases h : Text.needsEscape c = true
  · rw [Text.escapeChar, if_pos h]
    exact startsIn_cons (by decide)
  · have hstart : isWordStart c = true := by
      simp only [isWordStart, Bool.and_eq_true, bne_iff_ne]
      refine ⟨⟨⟨⟨?_, ?_⟩, ?_⟩, ?_⟩, ?_⟩ <;> · rintro rfl; exact h (by decide)
    rw [Text.escapeChar, if_neg h]
    exact startsIn_cons hstart

theorem startsIn_startsWith {s : String} (hs : s.toList ≠ []) (rest : List Char) :
    StartsIn isWordStart ((Test.startsWith s).chars ++ rest) := by
  obtain ⟨c, cs, heq⟩ := List.exists_cons_of_ne_nil hs
  rw [Test.chars, heq, Text.escapeChars, List.flatMap_cons, List.append_assoc, List.append_assoc]
  exact startsIn_escapeChar c _

theorem readsAll_readQuoted (ss : List String) :
    ReadsAll readQuoted quoteChars (ss.map String.toList) :=
  fun _ _ rest _ => Text.readQuoted_quoteChars _ rest

theorem readTest_anyOf (ss : List String) (rest : List Char) :
    readTest ((Test.anyOf ss).chars ++ rest) = some (.anyOf ss, rest) := by
  have hmembers := readMembers_intercalate .or (readsAll_readQuoted ss) (fun _ => rfl) rest
  rw [List.map_map] at hmembers
  rw [Test.chars, List.cons_append, List.append_assoc, List.singleton_append]
  show (readMembers readQuoted ((separatorChars .or).intercalate
    (ss.map fun s => quoteChars s.toList) ++ ')' :: rest)).map _ = _
  rw [show (fun s : String => quoteChars s.toList) = quoteChars ∘ String.toList from rfl, hmembers]
  simp [Function.comp_def]

theorem readTest_startsWith (s : String) {rest : List Char} (hrest : StartsIn isEnd rest) :
    readTest ((Test.startsWith s).chars ++ rest) = some (.startsWith s, rest) := by
  -- The empty prefix is a lone star, which starts like a search for a part of the text.
  by_cases hs : s.toList = []
  · have hempty : s = "" := String.toList_inj.mp hs
    subst hempty
    show (match (readTerm rest).2 with
      | '*' :: rest' => some (Test.contains (String.ofList (readTerm rest).1), rest')
      | _ => some (.startsWith "", rest)) = _
    rw [readTerm_of_stop (startsIn_isStop hrest)]
    split
    next rest' heq =>
      have hrest' : rest = '*' :: rest' := heq
      have hstar := startsIn_ne_star hrest '*' (by rw [hrest']; rfl)
      simp at hstar
    · rfl
  · rw [readTest_of_isWordStart (startsIn_startsWith hs rest), readWord_startsWith]

theorem readTest_contains (s : String) (rest : List Char) :
    readTest ((Test.contains s).chars ++ rest) = some (.contains s, rest) := by
  have hterm := readTerm_escapeChars s.toList
    (startsIn_cons (by decide) : StartsIn isStop ('*' :: rest))
  rw [Test.chars, List.cons_append, List.append_assoc, List.singleton_append, readTest, hterm]
  simp only [String.ofList_toList]

/-- A test is read off its written form where a clause may end. -/
theorem readTest_chars {t : Test} (ht : t.WellFormed) {rest : List Char}
    (hrest : StartsIn isEnd rest) : readTest (t.chars ++ rest) = some (t, rest) := by
  cases t with
  | equals v =>
    cases v with
    | number s =>
      have hstart : StartsIn isWordStart (s.toList ++ rest) := by
        obtain ⟨_, c, tail, heq, hc⟩ := chars_of_isNumeral ht
        rw [heq]
        exact startsIn_cons (isWordStart_of_isNumberStart hc)
      rw [Test.chars, Scalar.text, readTest_of_isWordStart hstart, readWord_number ht hrest]
    | quoted s =>
      rw [Test.chars, Scalar.text, toList_quote]
      show (readQuoted (quoteChars s.toList ++ rest)).map _ = _
      rw [Text.readQuoted_quoteChars]
      simp only [Option.map_some, String.ofList_toList]
  | truth b =>
    have hstart : StartsIn isWordStart (truthChars b ++ rest) := by
      cases b <;> exact startsIn_cons (by decide)
    rw [Test.chars, readTest_of_isWordStart hstart, readWord_truth b hrest]
  | contains s => exact readTest_contains s rest
  | startsWith s => exact readTest_startsWith s hrest
  | anyOf ss => exact readTest_anyOf ss rest
  | interval lower upper =>
    -- Behind an angle bracket the reader first has to rule out a prefix.
    cases lower with
    | unbounded => exact readInterval_chars ht.1 ht.2 rest
    | inclusive v =>
      have hinterval := readInterval_chars ht.1 ht.2 rest
      rw [Test.chars, toList_lowerText_inclusive] at hinterval ⊢
      exact hinterval
    | exclusive v =>
      have hstart : StartsIn isWordStart ((Test.interval (.exclusive v) upper).chars ++ rest) := by
        rw [Test.chars, toList_lowerText_exclusive]
        exact startsIn_cons (by decide)
      rw [readTest_of_isWordStart hstart, readWord_exclusive ht.1 ht.2]

/-- The written form of a test never starts with a name and a colon. -/
theorem readName_test {t : Test} (ht : t.WellFormed) {rest : List Char}
    (hrest : StartsIn isEnd rest) : readName (t.chars ++ rest) = none := by
  cases t with
  | equals v =>
    refine readName_eq_none_of_start (startsIn_text ht (by decide) (fun c hc => ?_) rest)
    rw [isNameStart_eq_false_of_isNumberStart hc]
    rfl
  | truth b =>
    have hname : (truthChars b).all Field.isNameChar = true := by cases b <;> decide +kernel
    have hchars := List.all_eq_true.mp hname
    have hend : StartsIn (fun c => !Field.isNameChar c) rest :=
      startsIn_of_isEnd hrest (by decide +kernel) (by decide +kernel) (by decide +kernel)
    refine readName_eq_none_of_end ?_
    rw [Test.chars, dropWhile_append hchars hend]
    exact startsIn_of_isEnd hrest (by decide) (by decide) (by decide)
  | contains s => exact readName_eq_none_of_start (startsIn_cons (by decide))
  | startsWith s =>
    refine readName_eq_none_of_end ?_
    rw [Test.chars, List.append_assoc, List.singleton_append]
    exact startsIn_dropWhile_escapeChars s.toList rest
  | anyOf ss => exact readName_eq_none_of_start (startsIn_cons (by decide))
  | interval lower upper =>
    exact readName_eq_none_of_start (startsIn_interval (by decide) (by decide) lower upper rest)

/-- The written form of a test never starts like an embedded query. -/
theorem startsIn_test {t : Test} (ht : t.WellFormed) (rest : List Char) :
    StartsIn (fun c => c != '\x7b') (t.chars ++ rest) := by
  cases t with
  | equals v => exact startsIn_text ht (by decide) (ne_of_isNumberStart (by decide)) rest
  | truth b => cases b <;> exact startsIn_cons (by decide)
  | contains s => exact startsIn_cons (by decide)
  | startsWith s =>
    by_cases hs : s.toList = []
    · rw [Test.chars, hs]
      exact startsIn_cons (by decide)
    · refine (startsIn_startsWith hs rest).mono fun c hc => ?_
      rw [isWordStart, Bool.and_eq_true] at hc
      exact hc.2
  | anyOf ss => exact startsIn_cons (by decide)
  | interval lower upper => exact startsIn_interval (by decide) (by decide) lower upper rest

end SearchFilter.Query
