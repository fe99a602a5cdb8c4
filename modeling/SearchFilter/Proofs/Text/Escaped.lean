import Mathlib.Data.List.Basic
import SearchFilter.Text.Literal

/-!
# Escaped terms are inert

In an escaped term every operator and every blank character is behind a backslash that is not
escaped itself, and no backslash is left without a character to escape. So the term means nothing to
a reader of the text around it: what follows is read as if it stood alone, and a character that is
looked for in the whole text is found in what follows.
-/

namespace SearchFilter.Text

theorem reading_cons {c : Char} (h : c ≠ '\\') (rest : List Char) :
    reading (c :: rest) = ⟨c, false⟩ :: reading rest := by
  rw [reading.eq_def]
  split <;> simp_all

theorem reading_escapeChar (c : Char) (rest : List Char) :
    reading (escapeChar c ++ rest) = ⟨c, needsEscape c⟩ :: reading rest := by
  by_cases h : needsEscape c = true
  · rw [escapeChar, if_pos h, h]
    rfl
  · have hbackslash : c ≠ '\\' := by
      rintro rfl
      exact h (by decide)
    rw [escapeChar, if_neg h, Bool.eq_false_iff.mpr h]
    exact reading_cons hbackslash rest

/-- The characters of a term are read one by one, escaped where they have to be, and then what
follows is read on its own. -/
theorem reading_escapeChars_append (cs rest : List Char) :
    reading (escapeChars cs ++ rest)
      = cs.map (fun c => ⟨c, needsEscape c⟩) ++ reading rest := by
  induction cs with
  | nil => rfl
  | cons c cs ih =>
    rw [escapeChars, List.flatMap_cons, List.append_assoc, reading_escapeChar, ← escapeChars, ih]
    rfl

theorem reading_escapeChars (cs : List Char) :
    reading (escapeChars cs) = cs.map fun c => ⟨c, needsEscape c⟩ := by
  have h := reading_escapeChars_append cs []
  rwa [List.append_nil, reading, List.append_nil] at h

/-- Removing the backslashes gives back the term. -/
theorem unescape_escapeChars (cs : List Char) : unescape (escapeChars cs) = cs := by
  rw [unescape, reading_escapeChars, List.map_map]
  exact List.map_id cs

/-- Whatever is bare in an escaped term may stand bare. -/
theorem needsEscape_of_bare {cs : List Char} {r : Reading} (h : r ∈ reading (escapeChars cs))
    (hbare : r.escaped = false) : needsEscape r.char = false := by
  rw [reading_escapeChars] at h
  obtain ⟨c, -, rfl⟩ := List.mem_map.mp h
  exact hbare

/-! ## Texts that end clean -/

/-- The text leaves no backslash without a character to escape, so that whatever follows is read as
if it stood alone. -/
def EndsClean (cs : List Char) : Prop :=
  ∀ rest, reading (cs ++ rest) = reading cs ++ reading rest

theorem endsClean_nil : EndsClean [] :=
  fun _ => rfl

theorem endsClean_pair (c : Char) : EndsClean ['\\', c] :=
  fun _ => rfl

theorem endsClean_singleton {c : Char} (h : c ≠ '\\') : EndsClean [c] := by
  intro rest
  rw [List.singleton_append, reading_cons h, reading_cons h]
  rfl

theorem endsClean_escapeChars (cs : List Char) : EndsClean (escapeChars cs) := by
  intro rest
  rw [reading_escapeChars_append, reading_escapeChars]

theorem endsClean_append_iff {cs ds : List Char} (h : EndsClean cs) :
    EndsClean (cs ++ ds) ↔ EndsClean ds := by
  refine forall_congr' fun rest => ?_
  rw [List.append_assoc, h, h, List.append_assoc, List.append_cancel_left_eq]

/-! ## The first bare place of a character -/

/-- A backslash that escapes nothing is the end of a text. -/
theorem eq_nil_of_unpaired {c : Char} {rest : List Char}
    (hpair : ∀ c' rest', c = '\\' → rest = c' :: rest' → False) (h : c = '\\') : rest = [] := by
  cases rest with
  | nil => rfl
  | cons c' rest => exact (hpair c' rest h rfl).elim

/-- Cuts a text at the first place where the character stands bare. A backslash makes the next
character literal. -/
def cutAtBare? (d : Char) : List Char → Option (List Char × List Char)
  | '\\' :: c :: rest => (cutAtBare? d rest).map fun r => (['\\', c] ++ r.1, r.2)
  | c :: rest =>
    if c = d then some ([], rest) else (cutAtBare? d rest).map fun r => ([c] ++ r.1, r.2)
  | [] => none

theorem cutAtBare?_cons {c d : Char} (hbackslash : c ≠ '\\') (hne : c ≠ d) (rest : List Char) :
    cutAtBare? d (c :: rest) = (cutAtBare? d rest).map fun r => ([c] ++ r.1, r.2) := by
  rw [cutAtBare?.eq_def]
  split <;> simp_all

/-- The character stands between the two parts of the text. It is not part of an escape there, and
it does not stand bare before. -/
structure IsFirstBare (d : Char) (cs before after : List Char) : Prop where
  split : cs = before ++ d :: after
  endsClean : EndsClean before
  notMem : ⟨d, false⟩ ∉ reading before

section

variable {d : Char} {cs rest before after : List Char}

/-- A text that starts with the character is cut there. -/
theorem isFirstBare_cons_iff (hd : d ≠ '\\') :
    IsFirstBare d (d :: rest) before after ↔ before = [] ∧ after = rest := by
  constructor
  · rintro ⟨hsplit, -, hnotMem⟩
    cases before with
    | nil => exact ⟨rfl, (List.cons.inj hsplit).2.symm⟩
    | cons c before =>
      obtain ⟨rfl, -⟩ := List.cons.inj hsplit
      rw [reading_cons hd] at hnotMem
      exact absurd List.mem_cons_self hnotMem
  · rintro ⟨rfl, rfl⟩
    exact ⟨rfl, endsClean_nil, List.not_mem_nil⟩

/-- Behind a text that ends clean and in which the character does not stand bare, its first bare
place is that of the rest. -/
theorem isFirstBare_append_iff (hd : d ≠ '\\') (hcs : EndsClean cs)
    (hnone : ⟨d, false⟩ ∉ reading cs) : IsFirstBare d (cs ++ rest) before after ↔
      ∃ before', before = cs ++ before' ∧ IsFirstBare d rest before' after := by
  constructor
  · rintro ⟨hsplit, hclean, hnotMem⟩
    rcases List.append_eq_append_iff.mp hsplit with ⟨before', rfl, hrest⟩ | ⟨ds, hds, hafter⟩
    · rw [hcs, List.mem_append, not_or] at hnotMem
      exact ⟨before', rfl, hrest, (endsClean_append_iff hcs).mp hclean, hnotMem.2⟩
    · cases ds with
      | nil =>
        rw [List.append_nil] at hds
        exact ⟨[], by rw [hds, List.append_nil], hafter.symm, endsClean_nil, List.not_mem_nil⟩
      | cons c ds =>
        -- The place would be inside the first text, where the character does not stand bare.
        obtain ⟨rfl, -⟩ := List.cons.inj hafter
        rw [hds, hclean, reading_cons hd, List.mem_append, not_or] at hnone
        exact absurd List.mem_cons_self hnone.2
  · rintro ⟨before', rfl, rfl, hclean, hnotMem⟩
    refine ⟨(List.append_assoc ..).symm, (endsClean_append_iff hcs).mpr hclean, ?_⟩
    rw [hcs, List.mem_append, not_or]
    exact ⟨hnone, hnotMem⟩

theorem map_cut_eq_some_iff {cut : Option (List Char × List Char)} :
    (cut.map fun r => (cs ++ r.1, r.2)) = some (before, after) ↔
      ∃ before', before = cs ++ before' ∧ cut = some (before', after) := by
  rw [Option.map_eq_some_iff]
  constructor
  · rintro ⟨r, rfl, h⟩
    cases h
    exact ⟨r.1, rfl, rfl⟩
  · rintro ⟨before', rfl, rfl⟩
    exact ⟨_, rfl, rfl⟩

/-- The cut is made at the first bare place, and is refused only if there is none. -/
theorem cutAtBare?_eq_some_iff (hd : d ≠ '\\') :
    cutAtBare? d cs = some (before, after) ↔ IsFirstBare d cs before after := by
  fun_induction cutAtBare? d cs generalizing before with
  | case1 c rest ih =>
    have hnone : ⟨d, false⟩ ∉ reading ['\\', c] := by simp [reading]
    simp only [map_cut_eq_some_iff, ih]
    exact (isFirstBare_append_iff hd (endsClean_pair c) hnone).symm
  | case2 rest =>
    rw [isFirstBare_cons_iff hd, Option.some.injEq, Prod.mk.injEq, eq_comm, eq_comm (a := rest)]
  | case3 c rest hpair hne ih =>
    by_cases hbackslash : c = '\\'
    · obtain rfl := eq_nil_of_unpaired hpair hbackslash
      refine iff_of_false (by simp [cutAtBare?]) fun h => ?_
      have hsplit := h.split
      rw [hbackslash, List.singleton_eq_append_iff] at hsplit
      simp [hd] at hsplit
    · have hnone : ⟨d, false⟩ ∉ reading [c] := by
        simpa [reading_cons hbackslash, reading] using Ne.symm hne
      simp only [map_cut_eq_some_iff, ih]
      exact (isFirstBare_append_iff hd (endsClean_singleton hbackslash) hnone).symm
  | case4 => exact iff_of_false nofun fun h => by simpa using h.split

theorem cutAtBare?_append (hd : d ≠ '\\') (hcs : EndsClean cs) (hnone : ⟨d, false⟩ ∉ reading cs) :
    cutAtBare? d (cs ++ rest) = (cutAtBare? d rest).map fun r => (cs ++ r.1, r.2) := by
  refine Option.ext fun ⟨before, after⟩ => ?_
  simp only [map_cut_eq_some_iff, cutAtBare?_eq_some_iff hd]
  exact isFirstBare_append_iff hd hcs hnone

example : cutAtBare? '*' (escapeTerm "a*" ++ "\\**").toList
    = some ("a\\*\\*".toList, []) := by decide

end

/-- An escaped term is the term again without its backslashes, and none of its operators and blank
characters is bare. What follows it is read as if it stood alone, so the first bare star is that of
what follows. -/
theorem escaped_term_is_inert (s rest : String) :
    unescape (escapeTerm s).toList = s.toList ∧
      (∀ r ∈ reading (escapeTerm s).toList, r.escaped = false →
        r.char ∉ operatorChars ∧ isBlank r.char = false) ∧
      reading (escapeTerm s ++ rest).toList
        = reading (escapeTerm s).toList ++ reading rest.toList ∧
      cutAtBare? '*' (escapeTerm s ++ rest).toList
        = (cutAtBare? '*' rest.toList).map fun r => ((escapeTerm s).toList ++ r.1, r.2) := by
  have hchars : (escapeTerm s).toList = escapeChars s.toList := String.toList_ofList
  have hclean := endsClean_escapeChars s.toList
  have hstar : ⟨'*', false⟩ ∉ reading (escapeChars s.toList) :=
    fun hmem => absurd (needsEscape_of_bare hmem rfl) (by decide)
  rw [String.toList_append, hchars]
  refine ⟨unescape_escapeChars s.toList, fun r hr hbare => ?_, hclean rest.toList,
    cutAtBare?_append (by decide) hclean hstar⟩
  have hneeds := needsEscape_of_bare hr hbare
  rw [needsEscape, Bool.or_eq_false_iff] at hneeds
  exact ⟨by simpa using hneeds.1, hneeds.2⟩

end SearchFilter.Text
