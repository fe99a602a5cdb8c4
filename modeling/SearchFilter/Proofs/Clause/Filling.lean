import Mathlib.Data.List.Infix
import SearchFilter.Clause.Traversal
import SearchFilter.Proofs.Query.Writing

/-!
# Filling a template

A template is a form of a traversal exactly if the place of the query occurs in it once and that of
the field at least once. Filling the form is one pass over the template from left to right: what
comes into a place is never looked at again, even if it looks like a place or makes one together
with the text around it. Both places start with a character that they hold nowhere else, so their
occurrences do not overlap.
-/

namespace SearchFilter.Clause

/-- How often a pattern begins in a text. -/
def occurrences (pattern cs : List Char) : Nat :=
  cs.tails.countP pattern.isPrefixOf

/-- The template with both places filled, in one pass from left to right. -/
def fillOnce (field query : List Char) : List Char → List Char
  | [] => []
  | '$' :: 'f' :: 'i' :: 'e' :: 'l' :: 'd' :: cs => field ++ fillOnce field query cs
  | '$' :: 'q' :: 'u' :: 'e' :: 'r' :: 'y' :: cs => query ++ fillOnce field query cs
  | c :: cs => c :: fillOnce field query cs

/-! ## Occurrences -/

section

variable {pattern s t : List Char}

/-- A text with an occurrence has a first one. -/
theorem exists_first_occurrence {cs : List Char} (hpattern : pattern ≠ []) (h : pattern <:+: cs) :
    ∃ s t, ¬ pattern <:+: s ∧ cs = s ++ (pattern ++ t) := by
  induction cs with
  | nil => exact absurd (List.infix_nil.mp h) hpattern
  | cons c cs ih =>
    by_cases hhere : pattern <+: c :: cs
    · obtain ⟨t, ht⟩ := hhere
      exact ⟨[], t, fun h => hpattern (List.infix_nil.mp h), ht.symm⟩
    · obtain ⟨s, t, hs, rfl⟩ := ih ((List.infix_cons_iff.mp h).resolve_left hhere)
      refine ⟨c :: s, t, fun hoccurs => ?_, rfl⟩
      rcases List.infix_cons_iff.mp hoccurs with hbegin | hoccurs
      · exact hhere (hbegin.trans (List.prefix_append (c :: s) _))
      · exact hs hoccurs

/-- What holds of every text without an occurrence, and of a text that goes on behind its first
occurrence if it holds of what follows, holds of all texts. -/
theorem first_occurrence_induction {motive : List Char → Prop} (hpattern : pattern ≠ [])
    (last : ∀ s, ¬ pattern <:+: s → motive s)
    (step : ∀ s t, ¬ pattern <:+: s → motive t → motive (s ++ (pattern ++ t)))
    (cs : List Char) : motive cs := by
  induction hlength : cs.length using Nat.strong_induction_on generalizing cs with
  | _ n ih =>
    by_cases h : pattern <:+: cs
    · obtain ⟨s, t, hs, rfl⟩ := exists_first_occurrence hpattern h
      have hpos := List.length_pos_iff.mpr hpattern
      rw [List.length_append, List.length_append] at hlength
      exact step s t hs (ih t.length (by omega) t rfl)
    · exact last cs h

/-- The pattern starts with a character that it holds nowhere else. -/
def IsSlot (pattern : List Char) : Prop :=
  ∃ body, pattern = '$' :: body ∧ '$' ∉ body

theorem isSlot_fieldSlot : IsSlot fieldSlot :=
  ⟨_, rfl, by decide⟩

theorem isSlot_querySlot : IsSlot querySlot :=
  ⟨_, rfl, by decide⟩

namespace IsSlot

theorem ne_nil (h : IsSlot pattern) : pattern ≠ [] := by
  obtain ⟨body, rfl, -⟩ := h
  exact List.cons_ne_nil _ _

/-- A pattern that begins in a text does not end behind it, if what follows the text starts like the
pattern. -/
theorem begins_before_iff (h : IsSlot pattern) (hs : s ≠ []) {t : List Char} :
    pattern <+: s ++ '$' :: t ↔ pattern <+: s := by
  refine ⟨fun hbegin => ?_, fun hbegin => hbegin.trans (List.prefix_append s _)⟩
  rcases List.prefix_or_prefix_of_prefix hbegin (List.prefix_append s _) with hshort | ⟨u, hu⟩
  · exact hshort
  · rw [← hu, List.prefix_append_right_inj] at hbegin
    cases u with
    | nil => rw [← hu, List.append_nil]
    | cons c u =>
      -- the pattern would hold its first character a second time
      exfalso
      obtain ⟨body, hpattern, hbody⟩ := h
      obtain ⟨d, s', rfl⟩ := List.exists_cons_of_ne_nil hs
      obtain rfl : c = '$' := (List.cons_prefix_cons.mp hbegin).1
      rw [hpattern, List.cons_append] at hu
      apply hbody
      rw [← (List.cons.inj hu).2]
      exact List.mem_append_right s' List.mem_cons_self

theorem begins_before_slot_iff {other : List Char} (h : IsSlot pattern) (hother : IsSlot other)
    (hs : s ≠ []) : pattern <+: s ++ (other ++ t) ↔ pattern <+: s := by
  obtain ⟨body, rfl, -⟩ := hother
  exact h.begins_before_iff hs

end IsSlot

/-! ### Counting -/

theorem occurrences_cons (pattern : List Char) (c : Char) (cs : List Char) :
    occurrences pattern (c :: cs)
      = (if pattern <+: c :: cs then 1 else 0) + occurrences pattern cs := by
  rw [occurrences, List.tails_cons, List.countP_cons, occurrences, Nat.add_comm]
  simp only [List.isPrefixOf_iff_prefix]

theorem occurrences_eq_zero_iff : occurrences pattern s = 0 ↔ ¬ pattern <:+: s := by
  rw [occurrences, List.countP_eq_zero]
  simp only [List.isPrefixOf_iff_prefix, List.mem_tails, List.infix_iff_prefix_suffix]
  grind

/-- Where the first character of a pattern is not, no occurrence begins. -/
theorem IsSlot.occurrences_append_of_notMem (h : IsSlot pattern) (hs : '$' ∉ s) :
    occurrences pattern (s ++ t) = occurrences pattern t := by
  induction s with
  | nil => rfl
  | cons c s ih =>
    rw [List.mem_cons, not_or] at hs
    obtain ⟨body, rfl, -⟩ := h
    have hbegin : ¬ '$' :: body <+: c :: (s ++ t) := fun hbegin =>
      hs.1 (List.cons_prefix_cons.mp hbegin).1
    rw [List.cons_append, occurrences_cons, if_neg hbegin, Nat.zero_add, ih hs.2]

/-- Before an occurrence and inside it no other one begins. -/
theorem IsSlot.occurrences_append (h : IsSlot pattern) (hs : ¬ pattern <:+: s) (t : List Char) :
    occurrences pattern (s ++ (pattern ++ t)) = occurrences pattern t + 1 := by
  induction s with
  | nil =>
    obtain ⟨body, hpattern, hbody⟩ := id h
    have hbegin : pattern <+: '$' :: (body ++ t) := by
      rw [hpattern]
      exact List.prefix_append _ t
    rw [List.nil_append]
    nth_rewrite 2 [hpattern]
    rw [List.cons_append, occurrences_cons, if_pos hbegin, h.occurrences_append_of_notMem hbody,
      Nat.add_comm]
  | cons c s ih =>
    rw [List.infix_cons_iff, not_or] at hs
    have hbegin : ¬ pattern <+: (c :: s) ++ (pattern ++ t) := by
      rw [h.begins_before_slot_iff h (List.cons_ne_nil c s)]
      exact hs.1
    rw [List.cons_append] at hbegin ⊢
    rw [occurrences_cons, if_neg hbegin, Nat.zero_add, ih hs.2]

/-! ### Cutting and replacing -/

theorem splitFrom_eq_drop (pattern part : List Char) (skip : Nat) (cs : List Char) :
    splitFrom pattern part skip cs = splitFrom pattern part 0 (cs.drop skip) := by
  induction skip generalizing cs with
  | zero => rfl
  | succ k ih =>
    cases cs with
    | nil => rfl
    | cons c cs => exact ih cs

theorem splitFrom_cons_elsewhere {c : Char} (h : ¬ pattern <+: c :: s) (part : List Char) :
    splitFrom pattern part 0 (c :: s) = splitFrom pattern (c :: part) 0 s := by
  rw [splitFrom, if_neg (by rwa [List.isPrefixOf_iff_prefix])]

theorem splitOn_without_occurrence (h : ¬ pattern <:+: s) : splitOn pattern s = [s] := by
  suffices hsplit : ∀ part, splitFrom pattern part 0 s = [part.reverse ++ s] from hsplit []
  induction s with
  | nil => simp [splitFrom]
  | cons c s ih =>
    intro part
    rw [List.infix_cons_iff, not_or] at h
    rw [splitFrom_cons_elsewhere h.1, ih h.2]
    simp

theorem IsSlot.splitOn_append (h : IsSlot pattern) (hs : ¬ pattern <:+: s) (t : List Char) :
    splitOn pattern (s ++ (pattern ++ t)) = s :: splitOn pattern t := by
  suffices hsplit : ∀ part, splitFrom pattern part 0 (s ++ (pattern ++ t))
      = (part.reverse ++ s) :: splitOn pattern t from hsplit []
  induction s with
  | nil =>
    intro part
    obtain ⟨body, rfl, -⟩ := h
    have hbegin : ('$' :: body).isPrefixOf ('$' :: (body ++ t)) = true := by
      rw [List.isPrefixOf_iff_prefix]
      exact List.prefix_append _ t
    rw [List.nil_append, List.cons_append, splitFrom, if_pos hbegin, splitFrom_eq_drop]
    simp [splitOn]
  | cons c s ih =>
    intro part
    rw [List.infix_cons_iff, not_or] at hs
    have hbegin : ¬ pattern <+: (c :: s) ++ (pattern ++ t) := by
      rw [h.begins_before_slot_iff h (List.cons_ne_nil c s)]
      exact hs.1
    rw [List.cons_append] at hbegin ⊢
    rw [splitFrom_cons_elsewhere hbegin, ih hs.2]
    simp

/-- A text has one part more than there are occurrences. -/
theorem IsSlot.length_splitOn (h : IsSlot pattern) (cs : List Char) :
    (splitOn pattern cs).length = occurrences pattern cs + 1 := by
  induction cs using first_occurrence_induction h.ne_nil with
  | last s hs => rw [splitOn_without_occurrence hs, occurrences_eq_zero_iff.mpr hs]; rfl
  | step s t hs ih => rw [h.splitOn_append hs, h.occurrences_append hs, List.length_cons, ih]

theorem replace_without_occurrence (h : ¬ pattern <:+: s) (replacement : List Char) :
    replace pattern replacement s = s := by
  rw [replace, splitOn_without_occurrence h, List.intercalate_singleton]

theorem IsSlot.replace_append (h : IsSlot pattern) (hs : ¬ pattern <:+: s)
    (replacement t : List Char) : replace pattern replacement (s ++ (pattern ++ t))
      = s ++ (replacement ++ replace pattern replacement t) := by
  have hne : splitOn pattern t ≠ [] := by
    rw [← List.length_pos_iff, h.length_splitOn]
    exact Nat.succ_pos _
  rw [replace, h.splitOn_append hs, List.intercalate_cons_of_ne_nil hne, List.append_assoc]
  rfl

/-- Each of two parts was cut off at the only occurrence between them. -/
theorem IsSlot.splitOn_eq_pair_iff (h : IsSlot pattern) {cs : List Char} :
    splitOn pattern cs = [s, t] ↔
      cs = s ++ (pattern ++ t) ∧ ¬ pattern <:+: s ∧ ¬ pattern <:+: t := by
  constructor
  · intro hsplit
    have hcount : occurrences pattern cs = 1 := by
      have hlength := h.length_splitOn cs
      rw [hsplit] at hlength
      simpa using hlength.symm
    have hoccurs : pattern <:+: cs := by
      by_contra hnot
      rw [occurrences_eq_zero_iff.mpr hnot] at hcount
      cases hcount
    obtain ⟨s', t', hs', rfl⟩ := exists_first_occurrence h.ne_nil hoccurs
    rw [h.occurrences_append hs', Nat.add_eq_right, occurrences_eq_zero_iff] at hcount
    rw [h.splitOn_append hs', splitOn_without_occurrence hcount] at hsplit
    cases hsplit
    exact ⟨rfl, hs', hcount⟩
  · rintro ⟨rfl, hs, ht⟩
    rw [h.splitOn_append hs, splitOn_without_occurrence ht]

end

/-! ## One pass -/

section

variable {field query s : List Char}

theorem fillOnce_field (cs : List Char) :
    fillOnce field query (fieldSlot ++ cs) = field ++ fillOnce field query cs := rfl

theorem fillOnce_query (cs : List Char) :
    fillOnce field query (querySlot ++ cs) = query ++ fillOnce field query cs := rfl

theorem fillOnce_cons {c : Char} {cs : List Char} (hfield : ¬ fieldSlot <+: c :: cs)
    (hquery : ¬ querySlot <+: c :: cs) :
    fillOnce field query (c :: cs) = c :: fillOnce field query cs := by
  rw [fillOnce]
  · rintro cs' rfl rfl
    exact hfield (List.prefix_append fieldSlot cs')
  · rintro cs' rfl rfl
    exact hquery (List.prefix_append querySlot cs')

/-- The pass leaves a text without places as it is, up to the next place or the end. -/
theorem fillOnce_append (hfield : ¬ fieldSlot <:+: s) (hquery : ¬ querySlot <:+: s)
    {rest : List Char} (hrest : rest = [] ∨ ∃ t, rest = '$' :: t) :
    fillOnce field query (s ++ rest) = s ++ fillOnce field query rest := by
  induction s with
  | nil => rfl
  | cons c s ih =>
    have hslot {slot : List Char} (h : IsSlot slot) (hs : ¬ slot <:+: c :: s) :
        ¬ slot <+: c :: (s ++ rest) ∧ ¬ slot <:+: s := by
      rw [List.infix_cons_iff, not_or] at hs
      refine ⟨?_, hs.2⟩
      rcases hrest with rfl | ⟨t, rfl⟩
      · rw [List.append_nil]
        exact hs.1
      · rw [← List.cons_append, h.begins_before_iff (List.cons_ne_nil c s)]
        exact hs.1
    obtain ⟨hfield, hfield'⟩ := hslot isSlot_fieldSlot hfield
    obtain ⟨hquery, hquery'⟩ := hslot isSlot_querySlot hquery
    rw [List.cons_append, fillOnce_cons hfield hquery, ih hfield' hquery', List.cons_append]

/-- Up to the place of the query the pass replaces the places of the field. -/
theorem fillOnce_append_eq_replace (cs : List Char) (hquery : ¬ querySlot <:+: cs)
    {rest : List Char} (hrest : rest = [] ∨ ∃ t, rest = '$' :: t) :
    fillOnce field query (cs ++ rest)
      = replace fieldSlot field cs ++ fillOnce field query rest := by
  induction cs using first_occurrence_induction isSlot_fieldSlot.ne_nil with
  | last s hs => rw [fillOnce_append hs hquery hrest, replace_without_occurrence hs]
  | step s t hs ih =>
    have hquerys : ¬ querySlot <:+: s := fun h =>
      hquery (h.trans (List.prefix_append s _).isInfix)
    have hqueryt : ¬ querySlot <:+: t := fun h =>
      hquery (h.trans ((List.suffix_append fieldSlot t).trans (List.suffix_append s _)).isInfix)
    have hslot : fieldSlot ++ (t ++ rest) = [] ∨ ∃ u, fieldSlot ++ (t ++ rest) = '$' :: u :=
      .inr ⟨_, rfl⟩
    rw [List.append_assoc, List.append_assoc, fillOnce_append hs hquerys hslot, fillOnce_field,
      ih hqueryt, isSlot_fieldSlot.replace_append hs]
    simp only [List.append_assoc]

end

/-! ## Templates -/

namespace Traversal

variable {template : String} {t : Traversal}

theorem ofTemplate_eq_ok_iff : ofTemplate template = .ok t ↔
    splitOn querySlot template.toList = [t.before, t.after] ∧
      0 < occurrences fieldSlot template.toList := by
  have hlength := isSlot_fieldSlot.length_splitOn template.toList
  obtain ⟨before, after⟩ := t
  rw [ofTemplate]
  split
  next before' after' hsplit =>
    rw [hsplit]
    split
    next hfew =>
      have hnone : ¬ 0 < occurrences fieldSlot template.toList := by omega
      simp [hnone]
    next hmany =>
      have hsome : 0 < occurrences fieldSlot template.toList := by omega
      simp [hsome]
  next hother =>
    have hnot : splitOn querySlot template.toList ≠ [before, after] := hother before after
    simp [hnot]

theorem exists_ofTemplate_eq_ok_iff : (∃ t, ofTemplate template = .ok t) ↔
    occurrences querySlot template.toList = 1 ∧ 0 < occurrences fieldSlot template.toList := by
  have hpair : occurrences querySlot template.toList = 1 ↔
      ∃ before after, splitOn querySlot template.toList = [before, after] := by
    rw [← List.length_eq_two, isSlot_querySlot.length_splitOn]
    omega
  rw [hpair]
  constructor
  · rintro ⟨t, ht⟩
    obtain ⟨hsplit, hfield⟩ := ofTemplate_eq_ok_iff.mp ht
    exact ⟨⟨t.before, t.after, hsplit⟩, hfield⟩
  · rintro ⟨⟨before, after, hsplit⟩, hfield⟩
    exact ⟨⟨before, after⟩, ofTemplate_eq_ok_iff.mpr ⟨hsplit, hfield⟩⟩

/-- The form of a template is filled as one pass over the template fills it. -/
theorem toList_fill_of_ofTemplate (h : ofTemplate template = .ok t) (field query : String) :
    (t.fill field query).toList = fillOnce field.toList query.toList template.toList := by
  obtain ⟨htemplate, hbefore, hafter⟩ :=
    isSlot_querySlot.splitOn_eq_pair_iff.mp (ofTemplate_eq_ok_iff.mp h).1
  have hend : fillOnce field.toList query.toList (t.after ++ []) = _ :=
    fillOnce_append_eq_replace t.after hafter (.inl rfl)
  rw [List.append_nil] at hend
  have hslot : querySlot ++ t.after = [] ∨ ∃ u, querySlot ++ t.after = '$' :: u := .inr ⟨_, rfl⟩
  rw [htemplate, fillOnce_append_eq_replace t.before hbefore hslot, fillOnce_query, hend]
  simp [fill, fillOnce]

/-- A template is accepted exactly if it holds one place of the query and at least one of the field.
Whatever the field and the query are, an accepted one adds to a text what one pass over the template
makes of it. -/
theorem template_is_filled_in_one_pass (template : String) :
    ((∃ t, ofTemplate template = .ok t) ↔
      occurrences querySlot template.toList = 1 ∧ 0 < occurrences fieldSlot template.toList) ∧
    ∀ t, ofTemplate template = .ok t → ∀ (d : Dialect) (field query before : String),
      (Query.Token.write d (.text (t.fill field query))).run before
        = .ok () (before ++ String.ofList (fillOnce field.toList query.toList template.toList)) := by
  refine ⟨exists_ofTemplate_eq_ok_iff, fun t ht d field query before => ?_⟩
  rw [← toList_fill_of_ofTemplate ht, String.ofList_toList]
  exact Writer.run_append _ before

/-- The field is a place of the query behind the sign before it, and the query a place of the field
behind the text before it. -/
theorem template_is_filled_in_one_pass_with_lookalikes :
    let template := "$$field:\x7b$fie$query OR $field\x7d"
    let t : Traversal := ⟨"$$field:\x7b$fie".toList, " OR $field\x7d".toList⟩
    ofTemplate template = .ok t ∧
      (Query.Token.write {} (.text (t.fill "query" "ld:$query"))).run "NOT "
        = .ok () "NOT $query:\x7b$field:$query OR query\x7d" := by
  intro template t
  have ht : ofTemplate template = .ok t := by decide
  have hpass : fillOnce "query".toList "ld:$query".toList template.toList
      = "$query:\x7b$field:$query OR query\x7d".toList := by decide
  have hwrite := (template_is_filled_in_one_pass template).2 t ht {} "query" "ld:$query" "NOT "
  rw [hpass, String.ofList_toList] at hwrite
  exact ⟨ht, hwrite⟩

example : ofTemplate "$field:\x7b$query\x7d" = .ok standard := by decide

end Traversal

end SearchFilter.Clause
