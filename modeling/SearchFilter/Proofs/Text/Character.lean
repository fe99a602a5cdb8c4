import Mathlib.Data.List.TakeWhile
import SearchFilter.Text.Character

/-!
# Classes of characters

A reader takes a run of characters off the front of a text, so whether it stops in the right place
depends on the first character of what follows. A reader of digits does not look at the script to
which they belong, so what it makes of a text is seen from the text with all its digits made the
same.
-/

namespace SearchFilter.Text

/-! ## Where a run of characters ends -/

/-- The text is empty, or its first character has the property. -/
def StartsIn (p : Char → Bool) (cs : List Char) : Prop :=
  ∀ c ∈ cs.head?, p c = true

theorem startsIn_cons {p : Char → Bool} {c : Char} {cs : List Char} (h : p c = true) :
    StartsIn p (c :: cs) := by
  intro c' hc'
  cases hc'
  exact h

theorem StartsIn.mono {p q : Char → Bool} {cs : List Char} (h : StartsIn p cs)
    (hpq : ∀ c, p c = true → q c = true) : StartsIn q cs :=
  fun c hc => hpq c (h c hc)

/-- A run of characters goes as far as they have the property. -/
theorem takeWhile_append {p : Char → Bool} {cs rest : List Char} (h : ∀ c ∈ cs, p c = true)
    (hrest : StartsIn (fun c => !p c) rest) : (cs ++ rest).takeWhile p = cs := by
  rw [List.takeWhile_append_of_pos h]
  cases rest with
  | nil => simp
  | cons c rest =>
    have hc : p c = false := by simpa using hrest c rfl
    simp [hc]

theorem dropWhile_append {p : Char → Bool} {cs rest : List Char} (h : ∀ c ∈ cs, p c = true)
    (hrest : StartsIn (fun c => !p c) rest) : (cs ++ rest).dropWhile p = rest := by
  rw [List.dropWhile_append_of_pos h]
  cases rest with
  | nil => rfl
  | cons c rest =>
    have hc : p c = false := by simpa using hrest c rfl
    simp [hc]

/-! ## Digits among other characters -/

theorem inIntervals_iff {intervals : List (Nat × Nat)} {c : Char} :
    inIntervals intervals c = true ↔ ∃ i ∈ intervals, i.1 ≤ c.toNat ∧ c.toNat ≤ i.2 := by
  simp [inIntervals]

theorem isAsciiDigit_iff {c : Char} : isAsciiDigit c = true ↔ 48 ≤ c.toNat ∧ c.toNat ≤ 57 := by
  simp only [isAsciiDigit, Bool.and_eq_true, decide_eq_true_eq, Char.le_def,
    UInt32.le_iff_toNat_le]
  rfl

theorem isDigit_of_isAsciiDigit {c : Char} (h : isAsciiDigit c = true) : isDigit c = true := by
  simp [isDigit, h]

/-- The digits of the other scripts lie above the ASCII characters. -/
theorem isAsciiDigit_of_isDigit {c : Char} (h : isDigit c = true) (hascii : c.toNat < 128) :
    isAsciiDigit c = true := by
  have habove : ∀ i ∈ digitIntervals, 128 ≤ i.1 := by decide
  rw [isDigit, Bool.or_eq_true, inIntervals_iff] at h
  rcases h with h | ⟨i, hi, hlower, -⟩
  · exact h
  · have := habove i hi
    omega

theorem not_isBlank_of_isDigit {c : Char} (h : isDigit c = true) : isBlank c = false := by
  have hascii : ∀ j ∈ blankIntervals, 57 < j.1 ∨ j.2 < 48 := by decide
  have hother : ∀ i ∈ digitIntervals, ∀ j ∈ blankIntervals, i.2 < j.1 ∨ j.2 < i.1 := by decide
  rw [isBlank, Bool.eq_false_iff, Ne, inIntervals_iff]
  rintro ⟨j, hj, hlower, hupper⟩
  rw [isDigit, Bool.or_eq_true, inIntervals_iff, isAsciiDigit_iff] at h
  rcases h with h | ⟨i, hi, h⟩
  · have := hascii j hj
    omega
  · have := hother i hi j hj
    omega

theorem filter_isDigit_dropWhile (cs : List Char) :
    (cs.dropWhile isBlank).filter isDigit = cs.filter isDigit := by
  have hblanks : (cs.takeWhile isBlank).filter isDigit = [] := by
    rw [List.filter_eq_nil_iff]
    intro c hc hdigit
    have hblank := List.mem_takeWhile_imp hc
    rw [not_isBlank_of_isDigit hdigit] at hblank
    cases hblank
  calc (cs.dropWhile isBlank).filter isDigit
      = (cs.takeWhile isBlank).filter isDigit ++ (cs.dropWhile isBlank).filter isDigit := by
        rw [hblanks, List.nil_append]
    _ = cs.filter isDigit := by rw [← List.filter_append, List.takeWhile_append_dropWhile]

/-- Trimming takes no digits away. -/
theorem filter_isDigit_trim (s : String) :
    (trim s).toList.filter isDigit = s.toList.filter isDigit := by
  rw [trim, trimChars, String.toList_ofList, List.filter_reverse, filter_isDigit_dropWhile,
    List.filter_reverse, List.reverse_reverse, filter_isDigit_dropWhile]

/-- All digits of the text are ASCII digits. -/
def HasAsciiDigits (s : String) : Prop :=
  ∀ c ∈ s.toList, isDigit c = true → isAsciiDigit c = true

instance (s : String) : Decidable (HasAsciiDigits s) :=
  List.decidableBAll (fun c => isDigit c = true → isAsciiDigit c = true) s.toList

theorem hasAsciiDigits_congr {s t : String}
    (h : s.toList.filter isDigit = t.toList.filter isDigit) :
    HasAsciiDigits s ↔ HasAsciiDigits t := by
  have hfilter (s : String) :
      HasAsciiDigits s ↔ ∀ c ∈ s.toList.filter isDigit, isAsciiDigit c = true := by
    simp [HasAsciiDigits]
  rw [hfilter, hfilter, h]

/-! ## All digits made the same -/

/-- A zero for any digit. -/
def blur (c : Char) : Char :=
  if isDigit c then '0' else c

/-- The texts differ at most in which digits stand at the places of digits. -/
def SpelledAlike (s s' : String) : Prop :=
  s.toList.map blur = s'.toList.map blur

instance (s s' : String) : Decidable (SpelledAlike s s') :=
  inferInstanceAs (Decidable (s.toList.map blur = s'.toList.map blur))

theorem blur_of_isDigit {c : Char} (h : isDigit c = true) : blur c = '0' :=
  if_pos h

theorem blur_of_not_isDigit {c : Char} (h : isDigit c = false) : blur c = c :=
  if_neg (by simp [h])

@[simp] theorem isDigit_blur (c : Char) : isDigit (blur c) = isDigit c := by
  cases h : isDigit c with
  | true =>
    rw [blur_of_isDigit h]
    rfl
  | false => rw [blur_of_not_isDigit h, h]

@[simp] theorem isBlank_blur (c : Char) : isBlank (blur c) = isBlank c := by
  cases h : isDigit c with
  | true =>
    rw [blur_of_isDigit h, not_isBlank_of_isDigit h]
    rfl
  | false => rw [blur_of_not_isDigit h]

/-- A character that is no digit stays where it is. -/
theorem blur_eq_iff {c x : Char} (hx : isDigit x = false) : blur c = x ↔ c = x := by
  constructor
  · rintro rfl
    rw [isDigit_blur] at hx
    exact (blur_of_not_isDigit hx).symm
  · rintro rfl
    exact blur_of_not_isDigit hx

theorem map_blur_eq_iff {cs ds : List Char} (h : ds.any isDigit = false) :
    cs.map blur = ds ↔ cs = ds := by
  induction ds generalizing cs with
  | nil => simp
  | cons d ds ih =>
    rw [List.any_cons, Bool.or_eq_false_iff] at h
    cases cs with
    | nil => simp
    | cons c cs => rw [List.map_cons, List.cons.injEq, List.cons.injEq, blur_eq_iff h.1, ih h.2]

theorem takeWhile_map_blur {p : Char → Bool} (h : ∀ c, p (blur c) = p c) (cs : List Char) :
    (cs.map blur).takeWhile p = (cs.takeWhile p).map blur := by
  have hp : p ∘ blur = p := funext h
  rw [List.takeWhile_map, hp]

theorem dropWhile_map_blur {p : Char → Bool} (h : ∀ c, p (blur c) = p c) (cs : List Char) :
    (cs.map blur).dropWhile p = (cs.dropWhile p).map blur := by
  have hp : p ∘ blur = p := funext h
  rw [List.dropWhile_map, hp]

theorem trimChars_map_blur (cs : List Char) :
    trimChars (cs.map blur) = (trimChars cs).map blur := by
  rw [trimChars, trimChars, dropWhile_map_blur isBlank_blur, ← List.map_reverse,
    dropWhile_map_blur isBlank_blur, ← List.map_reverse]

theorem SpelledAlike.trim {s s' : String} (h : SpelledAlike s s') :
    SpelledAlike (trim s) (trim s') := by
  unfold SpelledAlike Text.trim at *
  rw [String.toList_ofList, String.toList_ofList, ← trimChars_map_blur, ← trimChars_map_blur, h]

end SearchFilter.Text
