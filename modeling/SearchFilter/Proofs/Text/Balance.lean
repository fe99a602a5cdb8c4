import Mathlib.Algebra.GroupWithZero.Nat
import Mathlib.Data.List.Basic
import SearchFilter.Text.Literal

/-!
# Balanced texts

A scan of a text counts its parentheses, except for those between double quotes and those behind a
backslash. A text is balanced if it is put together from bare and escaped characters, quoted literals
and groups, which are balanced texts between parentheses. The scan of a balanced text counts each
group once at either parenthesis, and never has more closing ones than opening ones.
-/

namespace SearchFilter.Text

/-- What a scan has seen of a text. -/
structure Scan where
  /-- The scan is between double quotes. -/
  quoted : Bool := false
  /-- The character before was a backslash that takes the next one with it. -/
  escaped : Bool := false
  opened : Nat := 0
  closed : Nat := 0
  deriving DecidableEq, Repr

namespace Scan

/-- Goes on to the next character. -/
def step (s : Scan) (c : Char) : Scan :=
  if s.escaped then { s with escaped := false }
  else if c = '\\' then { s with escaped := true }
  else if c = '"' then { s with quoted := !s.quoted }
  else if s.quoted then s
  else if c = '(' then { s with opened := s.opened + 1 }
  else if c = ')' then { s with closed := s.closed + 1 }
  else s

/-- The scan of a whole text. -/
def ofChars (cs : List Char) : Scan :=
  cs.foldl step {}

/-- A scan gets through the text from one state to the other, and has never seen more closing
parentheses than opening ones. -/
inductive Runs : Scan → List Char → Scan → Prop
  | nil {s : Scan} (hle : s.closed ≤ s.opened) : Runs s [] s
  | cons {s t : Scan} {c : Char} {cs : List Char} (hle : s.closed ≤ s.opened)
    (hrest : Runs (s.step c) cs t) : Runs s (c :: cs) t

namespace Runs

variable {s t u : Scan} {c : Char} {cs ds : List Char}

theorem append (h : Runs s cs t) (h' : Runs t ds u) : Runs s (cs ++ ds) u := by
  induction h with
  | nil => exact h'
  | cons hle _ ih => exact .cons hle (ih h')

/-- A character after which there are no more closing parentheses than opening ones. -/
theorem single (hle : s.closed ≤ s.opened) (hstep : s.step c = t) (hle' : t.closed ≤ t.opened) :
    Runs s [c] t := by
  subst hstep
  exact .cons hle (.nil hle')

theorem foldl_eq (h : Runs s cs t) : cs.foldl step s = t := by
  induction h with
  | nil => rfl
  | cons _ _ ih => exact ih

theorem closed_le_opened (h : Runs s cs t) :
    ∀ pre, pre <+: cs → (pre.foldl step s).closed ≤ (pre.foldl step s).opened := by
  induction h with
  | nil hle =>
    intro pre hpre
    rw [List.prefix_nil.mp hpre]
    exact hle
  | cons hle _ ih =>
    intro pre hpre
    rcases List.prefix_cons_iff.mp hpre with rfl | ⟨rest, rfl, hrest⟩
    · exact hle
    · exact ih rest hrest

end Runs

end Scan

/-- The character means nothing to a scan. -/
def isBare (c : Char) : Bool :=
  c != '\\' && c != '"' && c != '(' && c != ')'

/-- A class of characters without any that means something to a scan. -/
theorem isBare_of_class {p : Char → Bool}
    (hp : (['\\', '"', '(', ')'].all fun d => !p d) = true) {c : Char} (h : p c = true) :
    isBare c = true := by
  have hne : ∀ d ∈ ['\\', '"', '(', ')'], c ≠ d := by
    rintro d hd rfl
    have hnot := List.all_eq_true.mp hp c hd
    simp [h] at hnot
  simpa [isBare, and_assoc] using hne

/-- The text is put together from characters, quoted literals and so many groups. -/
inductive Balanced : List Char → Nat → Prop
  | nil : Balanced [] 0
  | bare {c : Char} (hc : isBare c = true) : Balanced [c] 0
  | escaped (c : Char) : Balanced ['\\', c] 0
  | quoted (cs : List Char) : Balanced (quoteChars cs) 0
  | group {cs : List Char} {k : Nat} (hcs : Balanced cs k) : Balanced ('(' :: (cs ++ [')'])) (k + 1)
  | append {cs ds : List Char} {j k : Nat} (hcs : Balanced cs j) (hds : Balanced ds k) :
    Balanced (cs ++ ds) (j + k)

/-! ## The scan of a balanced text -/

open Scan (Runs)

/-- Between double quotes, a character of the literal is passed by. -/
theorem runs_quoteChar {o c : Nat} (hle : c ≤ o) (d : Char) :
    Runs ⟨true, false, o, c⟩ (quoteChar d) ⟨true, false, o, c⟩ := by
  by_cases h : d = '"' ∨ d = '\\'
  · rw [quoteChar, if_pos h]
    exact .cons hle (.single hle rfl hle)
  · obtain ⟨hquote, hbackslash⟩ := not_or.mp h
    rw [quoteChar, if_neg h]
    exact .single hle (by simp [Scan.step, hquote, hbackslash]) hle

/-- No literal ends its quotes early. -/
theorem runs_quoteChars {o c : Nat} (hle : c ≤ o) (cs : List Char) :
    Runs ⟨false, false, o, c⟩ (quoteChars cs) ⟨false, false, o, c⟩ := by
  have hbody : Runs ⟨true, false, o, c⟩ (cs.flatMap quoteChar) ⟨true, false, o, c⟩ := by
    induction cs with
    | nil => exact .nil hle
    | cons d cs ih =>
      rw [List.flatMap_cons]
      exact (runs_quoteChar hle d).append ih
  have hclose : Runs ⟨true, false, o, c⟩ ['"'] ⟨false, false, o, c⟩ := .single hle rfl hle
  exact .cons hle (hbody.append hclose)

/-- A scan that starts at a balanced text ends behind it, with one more parenthesis of either kind
for each group. -/
theorem Balanced.runs {cs : List Char} {k : Nat} (h : Balanced cs k) {o c : Nat} (hle : c ≤ o) :
    Runs ⟨false, false, o, c⟩ cs ⟨false, false, o + k, c + k⟩ := by
  -- Inside a group one more parenthesis is open, so the counts have to be free in the induction.
  induction h generalizing o c with
  | nil => exact .nil hle
  | bare hc =>
    simp only [isBare, Bool.and_eq_true, bne_iff_ne] at hc
    obtain ⟨⟨⟨hbackslash, hquote⟩, hopen⟩, hclose⟩ := hc
    exact .single hle (by simp [Scan.step, hbackslash, hquote, hopen, hclose]) hle
  | escaped d => exact .cons hle (.single hle rfl hle)
  | quoted cs => exact runs_quoteChars hle cs
  | @group cs k _ ih =>
    have hinside : Runs ⟨false, false, o + 1, c⟩ cs ⟨false, false, o + (k + 1), c + k⟩ := by
      have hrun := ih (o := o + 1) (c := c) (by omega)
      rwa [Nat.add_right_comm o 1 k] at hrun
    have hclose : Runs ⟨false, false, o + (k + 1), c + k⟩ [')']
        ⟨false, false, o + (k + 1), c + (k + 1)⟩ :=
      .single (Nat.add_le_add hle (Nat.le_succ k)) rfl (Nat.add_le_add_right hle (k + 1))
    exact .cons hle (hinside.append hclose)
  | @append cs ds j k _ _ ih ih' =>
    have hrest : Runs ⟨false, false, o + j, c + j⟩ ds ⟨false, false, o + j + k, c + j + k⟩ :=
      ih' (by omega)
    rw [← Nat.add_assoc, ← Nat.add_assoc]
    exact (ih hle).append hrest

theorem Balanced.ofChars_eq {cs : List Char} {k : Nat} (h : Balanced cs k) :
    Scan.ofChars cs = ⟨false, false, k, k⟩ := by
  have hscan := (h.runs (Nat.le_refl 0)).foldl_eq
  rw [Nat.zero_add] at hscan
  exact hscan

theorem Balanced.closed_le_opened {cs : List Char} {k : Nat} (h : Balanced cs k) :
    ∀ pre, pre <+: cs → (Scan.ofChars pre).closed ≤ (Scan.ofChars pre).opened :=
  (h.runs (Nat.le_refl 0)).closed_le_opened

/-! ## Texts without groups, and lists of texts -/

theorem balanced_of_bare {cs : List Char} (h : cs.all isBare = true) : Balanced cs 0 := by
  induction cs with
  | nil => exact .nil
  | cons c cs ih =>
    rw [List.all_cons, Bool.and_eq_true] at h
    exact .append (.bare h.1) (ih h.2)

/-- Whatever means something to a scan is escaped in a term. -/
theorem balanced_escapeChar (c : Char) : Balanced (escapeChar c) 0 := by
  by_cases h : needsEscape c = true
  · rw [escapeChar, if_pos h]
    exact .escaped c
  · rw [escapeChar, if_neg h]
    apply Balanced.bare
    exact isBare_of_class (p := fun d => !needsEscape d) (by decide) (by simpa using h)

theorem balanced_escapeChars (cs : List Char) : Balanced (escapeChars cs) 0 := by
  induction cs with
  | nil => exact .nil
  | cons c cs ih =>
    rw [escapeChars, List.flatMap_cons]
    exact .append (balanced_escapeChar c) ih

/-- A list of balanced texts has the groups of all of them, if there are none in the separator. -/
theorem balanced_intercalate {α : Type} {f : α → List Char} {k : α → Nat}
    {separator : List Char} (hseparator : Balanced separator 0) (xs : List α)
    (h : ∀ x ∈ xs, Balanced (f x) (k x)) :
    Balanced (separator.intercalate (xs.map f)) (xs.map k).sum := by
  induction xs with
  | nil => exact .nil
  | cons x xs ih =>
    rw [List.forall_mem_cons] at h
    obtain ⟨hx, hxs⟩ := h
    rw [List.map_cons, List.map_cons, List.sum_cons]
    cases xs with
    | nil =>
      rw [List.map_nil, List.intercalate_singleton]
      exact hx
    | cons y ys =>
      have hrest := hseparator.append (ih hxs)
      rw [Nat.zero_add] at hrest
      rw [List.map_cons, List.intercalate_cons_cons, List.append_assoc]
      exact hx.append hrest

end SearchFilter.Text
