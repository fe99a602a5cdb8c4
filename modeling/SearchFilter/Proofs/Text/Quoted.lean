import Mathlib.Data.List.Basic
import Mathlib.Logic.Function.Basic
import SearchFilter.Proofs.Text.Escaped
import SearchFilter.Text.Literal

/-!
# Quoted literals delimit themselves

Reading a quoted literal takes exactly its written form off the front of a text, whatever follows
it. So the written form of a literal tells the literal and where it ends.
-/

namespace SearchFilter.Text

theorem readQuotedBody_cons {c : Char} (hquote : c ≠ '"') (hbackslash : c ≠ '\\')
    (rest : List Char) :
    readQuotedBody (c :: rest) = (readQuotedBody rest).map fun r => (c :: r.1, r.2) := by
  rw [readQuotedBody.eq_def]
  split <;> simp_all

/-- The reader goes up to the first bare double quote and takes the backslashes off what it has
passed. -/
theorem readQuotedBody_eq_cut (cs : List Char) :
    readQuotedBody cs = (cutAtBare? '"' cs).map fun r => (unescape r.1, r.2) := by
  fun_induction readQuotedBody cs with
  | case1 => rfl
  | case2 rest => rfl
  | case3 c rest ih =>
    rw [ih, cutAtBare?, Option.map_map, Option.map_map]
    rfl
  | case4 c rest hquote hpair ih =>
    have hne : c ≠ '"' := hquote
    rw [ih]
    by_cases hbackslash : c = '\\'
    · obtain rfl := eq_nil_of_unpaired hpair hbackslash
      rw [hbackslash]
      rfl
    · rw [cutAtBare?_cons hbackslash hne, Option.map_map, Option.map_map]
      refine congrArg (Option.map · _) (funext fun r => ?_)
      simp [unescape, reading_cons hbackslash]

theorem readQuotedBody_quoteChar (c : Char) (rest : List Char) :
    readQuotedBody (quoteChar c ++ rest)
      = (readQuotedBody rest).map fun r => (c :: r.1, r.2) := by
  by_cases h : c = '"' ∨ c = '\\'
  · rw [quoteChar, if_pos h]
    rfl
  · obtain ⟨hquote, hbackslash⟩ := not_or.mp h
    rw [quoteChar, if_neg h]
    exact readQuotedBody_cons hquote hbackslash rest

theorem readQuotedBody_flatMap (cs rest : List Char) :
    readQuotedBody (cs.flatMap quoteChar ++ '"' :: rest) = some (cs, rest) := by
  induction cs with
  | nil => rfl
  | cons c cs ih =>
    rw [List.flatMap_cons, List.append_assoc, readQuotedBody_quoteChar, ih]
    rfl

/-- Reading gives back the literal and what follows it. -/
theorem readQuoted_quoteChars (cs rest : List Char) :
    readQuoted (quoteChars cs ++ rest) = some (cs, rest) := by
  have hbody := readQuotedBody_flatMap cs rest
  rw [quoteChars, List.cons_append, List.append_assoc]
  exact hbody

/-- Two texts that start with quoted literals are the same only if the literals are, and what
follows them. -/
theorem quoteChars_append_inj {cs ds rest rest' : List Char} :
    quoteChars cs ++ rest = quoteChars ds ++ rest' ↔ cs = ds ∧ rest = rest' := by
  constructor
  · intro h
    have hread := readQuoted_quoteChars cs rest
    rw [h, readQuoted_quoteChars] at hread
    cases hread
    exact ⟨rfl, rfl⟩
  · rintro ⟨rfl, rfl⟩
    rfl

theorem quoteChars_inj {cs ds : List Char} (h : quoteChars cs = quoteChars ds) : cs = ds := by
  have happend : quoteChars cs ++ [] = quoteChars ds ++ [] := congrArg (· ++ []) h
  exact (quoteChars_append_inj.mp happend).1

theorem toList_quote (s : String) : (quote s).toList = quoteChars s.toList := by
  rw [quote, String.toList_ofList]

/-- A reader goes up to the first bare double quote behind the opening one. So it takes a quoted
literal off the front of any text, reads what was quoted and leaves the rest; no two literals have
the same quoted form, and none is the beginning of another. -/
theorem quoted_literal_delimits_itself :
    (∀ cs, readQuoted ('"' :: cs) = (cutAtBare? '"' cs).map fun r => (unescape r.1, r.2)) ∧
      (∀ s rest : String,
        readQuoted (quote s ++ rest).toList = some (s.toList, rest.toList)) ∧
      Function.Injective quote ∧
      ∀ s t rest : String, quote t = quote s ++ rest ↔ t = s ∧ rest = "" := by
  refine ⟨readQuotedBody_eq_cut, fun s rest => ?_, fun s t h => ?_, fun s t rest => ?_⟩
  · rw [String.toList_append, toList_quote]
    exact readQuoted_quoteChars s.toList rest.toList
  · rw [← String.toList_inj, toList_quote, toList_quote] at h
    exact String.toList_inj.mp (quoteChars_inj h)
  · rw [← String.toList_inj, String.toList_append, toList_quote, toList_quote,
      ← List.append_nil (quoteChars t.toList), quoteChars_append_inj, String.toList_inj,
      eq_comm (a := []), String.toList_eq_nil_iff]

end SearchFilter.Text
