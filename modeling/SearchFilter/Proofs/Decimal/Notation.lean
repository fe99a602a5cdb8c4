import SearchFilter.Decimal.Numeral
import SearchFilter.Proofs.Text.Character

/-!
# The notation of numbers

The grammar of the numbers that are read as doubles, over any class of digits, and how the reader of
numerals keeps to it. With the ASCII digits its numerals are among the texts that are read as
doubles. With the digits of all scripts it accepts a text whatever the scripts of its digits are, so
some of its numerals are not.
-/

namespace SearchFilter.Decimal

open Text (isDigit isAsciiDigit blur)

/-! ## The grammar -/

section Grammar

variable {p q : Char → Bool} {cs : List Char}

/-- At least one digit, and nothing but digits. -/
def IsRun (p : Char → Bool) (ds : List Char) : Prop :=
  ds ≠ [] ∧ ∀ d ∈ ds, p d = true

/-- A sign, or none. -/
def IsSign (cs : List Char) : Prop :=
  cs = [] ∨ cs = ['+'] ∨ cs = ['-']

/-- Digits, perhaps with a point before, among or after them. -/
inductive IsMantissa (p : Char → Bool) : List Char → Prop
  | whole {ds : List Char} (hds : IsRun p ds) : IsMantissa p ds
  | point {ds fs : List Char} (hrun : IsRun p (ds ++ fs)) : IsMantissa p (ds ++ '.' :: fs)

/-- An exponent, or none. -/
inductive IsExponent (p : Char → Bool) : List Char → Prop
  | none : IsExponent p []
  | some {e : Char} {sign ds : List Char} (he : e = 'e' ∨ e = 'E') (hsign : IsSign sign)
    (hds : IsRun p ds) : IsExponent p (e :: (sign ++ ds))

/-- A number without a sign at its front. -/
def IsNumber (p : Char → Bool) (cs : List Char) : Prop :=
  ∃ mantissa exponent, IsMantissa p mantissa ∧ IsExponent p exponent ∧ cs = mantissa ++ exponent

/-- A number with at most a minus sign before it. -/
def IsNumeral (p : Char → Bool) (cs : List Char) : Prop :=
  IsNumber p cs ∨ ∃ number, IsNumber p number ∧ cs = '-' :: number

/-- The texts that are read as doubles: numbers in ASCII digits, and words for what is no finite
number, in letters of either case. -/
inductive ReadsAsDouble : List Char → Prop
  | number {sign cs : List Char} (hsign : IsSign sign) (hcs : IsNumber isAsciiDigit cs) :
    ReadsAsDouble (sign ++ cs)
  | word {sign cs : List Char} (hsign : IsSign sign)
    (hcs : String.ofList (cs.map Char.toLower) ∈ ["inf", "infinity", "nan"]) :
    ReadsAsDouble (sign ++ cs)

/-! ## The characters of numbers -/

/-- A character with a place of its own in numbers. -/
def IsPunctuation (c : Char) : Prop :=
  c = '+' ∨ c = '-' ∨ c = '.' ∨ c = 'e' ∨ c = 'E'

theorem IsRun.mono {ds : List Char} (h : IsRun p ds) (hpq : ∀ d ∈ ds, p d = true → q d = true) :
    IsRun q ds :=
  ⟨h.1, fun d hd => hpq d hd (h.2 d hd)⟩

theorem IsSign.chars (h : IsSign cs) : ∀ c ∈ cs, IsPunctuation c := by
  rcases h with rfl | rfl | rfl <;> simp [IsPunctuation]

theorem IsMantissa.chars (h : IsMantissa p cs) : ∀ c ∈ cs, p c = true ∨ c = '.' := by
  cases h with
  | whole hds => exact fun c hc => .inl (hds.2 c hc)
  | point hrun =>
    intro c hc
    rcases List.mem_append.mp hc with hc | hc
    · exact .inl (hrun.2 c (List.mem_append_left _ hc))
    · rcases List.mem_cons.mp hc with rfl | hc
      · exact .inr rfl
      · exact .inl (hrun.2 c (List.mem_append_right _ hc))

theorem IsMantissa.ne_nil (h : IsMantissa p cs) : cs ≠ [] := by
  cases h with
  | whole hds => exact hds.1
  | point => simp

theorem IsExponent.chars (h : IsExponent p cs) : ∀ c ∈ cs, p c = true ∨ IsPunctuation c := by
  cases h with
  | none => simp
  | some he hsign hds =>
    intro c hc
    rcases List.mem_cons.mp hc with rfl | hc
    · exact .inr (by rcases he with rfl | rfl <;> simp [IsPunctuation])
    · rcases List.mem_append.mp hc with hc | hc
      · exact .inr (hsign.chars c hc)
      · exact .inl (hds.2 c hc)

/-- A number is made of digits and punctuation. -/
theorem IsNumber.chars (h : IsNumber p cs) : ∀ c ∈ cs, p c = true ∨ IsPunctuation c := by
  obtain ⟨mantissa, exponent, hm, he, rfl⟩ := h
  intro c hc
  rcases List.mem_append.mp hc with hc | hc
  · rcases hm.chars c hc with hdigit | rfl
    · exact .inl hdigit
    · exact .inr (by simp [IsPunctuation])
  · exact he.chars c hc

theorem IsNumber.ne_nil (h : IsNumber p cs) : cs ≠ [] := by
  obtain ⟨mantissa, exponent, hm, -, rfl⟩ := h
  exact List.append_ne_nil_of_left_ne_nil hm.ne_nil exponent

/-- A number starts with a digit or a point. -/
theorem IsNumber.head {c : Char} (h : IsNumber p (c :: cs)) : p c = true ∨ c = '.' := by
  obtain ⟨mantissa, exponent, hm, he, hsplit⟩ := h
  obtain ⟨c', tail, rfl⟩ := List.exists_cons_of_ne_nil hm.ne_nil
  rw [List.cons_append] at hsplit
  cases hsplit
  exact hm.chars c List.mem_cons_self

theorem IsMantissa.mono (h : IsMantissa p cs) (hpq : ∀ c ∈ cs, p c = true → q c = true) :
    IsMantissa q cs := by
  cases h with
  | whole hds => exact .whole (hds.mono hpq)
  | point hrun =>
    refine .point (hrun.mono fun d hd => hpq d ?_)
    rcases List.mem_append.mp hd with hd | hd
    · exact List.mem_append_left _ hd
    · exact List.mem_append_right _ (List.mem_cons_of_mem _ hd)

theorem IsExponent.mono (h : IsExponent p cs) (hpq : ∀ c ∈ cs, p c = true → q c = true) :
    IsExponent q cs := by
  cases h with
  | none => exact .none
  | some he hsign hds => exact .some he hsign (hds.mono fun d hd => hpq d (by simp [hd]))

/-- A number in one class of digits is a number in any class to which its digits belong. -/
theorem IsNumber.mono (h : IsNumber p cs) (hpq : ∀ c ∈ cs, p c = true → q c = true) :
    IsNumber q cs := by
  obtain ⟨mantissa, exponent, hm, he, rfl⟩ := h
  refine ⟨mantissa, exponent, hm.mono ?_, he.mono ?_, rfl⟩
  · exact fun c hc => hpq c (List.mem_append_left _ hc)
  · exact fun c hc => hpq c (List.mem_append_right _ hc)

theorem IsNumeral.mono (h : IsNumeral p cs) (hpq : ∀ c ∈ cs, p c = true → q c = true) :
    IsNumeral q cs := by
  rcases h with h | ⟨number, h, rfl⟩
  · exact .inl (h.mono hpq)
  · exact .inr ⟨number, h.mono fun c hc => hpq c (List.mem_cons_of_mem _ hc), rfl⟩

theorem readsAsDouble_of_isNumeral (h : IsNumeral isAsciiDigit cs) : ReadsAsDouble cs := by
  rcases h with h | ⟨number, h, rfl⟩
  · exact .number (.inl rfl) h
  · have hsign : IsSign ['-'] := .inr (.inr rfl)
    exact .number hsign h

end Grammar

/-! ## Numerals -/

namespace Numeral

variable {p : Char → Bool} {cs : List Char}

theorem isExponent_of_readExponent? {e : Bool × List Char} (h : readExponent? p cs = some e) :
    IsExponent p cs := by
  have hrun {cs ds : List Char} (h : readExponentDigits? p cs = some ds) : IsRun p cs := by
    rw [readExponentDigits?, Option.ite_none_right_eq_some] at h
    exact ⟨h.1.1, List.all_eq_true.mp h.1.2⟩
  unfold readExponent? at h
  split at h
  · exact .none
  · rw [Option.ite_none_right_eq_some] at h
    obtain ⟨hc, h⟩ := h
    split at h
    · obtain ⟨ds, hds, -⟩ := Option.map_eq_some_iff.mp h
      have hsign : IsSign ['-'] := .inr (.inr rfl)
      exact .some hc hsign (hrun hds)
    · obtain ⟨ds, hds, -⟩ := Option.map_eq_some_iff.mp h
      have hsign : IsSign ['+'] := .inr (.inl rfl)
      exact .some hc hsign (hrun hds)
    · obtain ⟨ds, hds, -⟩ := Option.map_eq_some_iff.mp h
      have hsign : IsSign [] := .inl rfl
      exact .some hc hsign (hrun hds)

theorem isNumber_of_readUnsigned? {negative : Bool} {n : Numeral}
    (h : readUnsigned? p negative cs = some n) :
    IsNumber p cs ∧ ∀ d ∈ n.whole ++ n.fraction, p d = true := by
  have hdigits (cs : List Char) : ∀ d ∈ cs.takeWhile p, p d = true :=
    fun d hd => List.mem_takeWhile_imp hd
  have hsplit := List.takeWhile_append_dropWhile (p := p) (l := cs)
  unfold readUnsigned? at h
  dsimp only at h
  split at h
  next rest hrest =>
    rw [Option.ite_none_left_eq_some] at h
    obtain ⟨hne, h⟩ := h
    obtain ⟨e, he, rfl⟩ := Option.map_eq_some_iff.mp h
    have hrun : IsRun p (cs.takeWhile p ++ rest.takeWhile p) := by
      refine ⟨by simpa using hne, ?_⟩
      intro d hd
      rcases List.mem_append.mp hd with hd | hd <;> exact hdigits _ d hd
    refine ⟨⟨_, _, .point hrun, isExponent_of_readExponent? he, ?_⟩, hrun.2⟩
    rw [List.append_assoc, List.cons_append, List.takeWhile_append_dropWhile, ← hrest, hsplit]
  · rw [Option.ite_none_left_eq_some] at h
    obtain ⟨hne, h⟩ := h
    obtain ⟨e, he, rfl⟩ := Option.map_eq_some_iff.mp h
    refine ⟨⟨_, _, .whole ⟨hne, hdigits cs⟩, isExponent_of_readExponent? he, hsplit.symm⟩, ?_⟩
    rw [List.append_nil]
    exact hdigits cs

theorem isNumeral_of_read? {n : Numeral} (h : read? p cs = some n) :
    IsNumeral p cs ∧ ∀ d ∈ n.whole ++ n.fraction, p d = true := by
  unfold read? at h
  split at h
  next rest =>
    obtain ⟨hnumber, hdigits⟩ := isNumber_of_readUnsigned? h
    exact ⟨.inr ⟨rest, hnumber, rfl⟩, hdigits⟩
  · obtain ⟨hnumber, hdigits⟩ := isNumber_of_readUnsigned? h
    exact ⟨.inl hnumber, hdigits⟩

/-! ### Every number is read -/

section Complete

variable (hp : ∀ c, IsPunctuation c → p c = false)

include hp

theorem startsIn_of_isExponent (h : IsExponent p cs) : Text.StartsIn (fun c => !p c) cs := by
  cases h with
  | none => exact fun c hc => by cases hc
  | some he =>
    apply Text.startsIn_cons
    rw [hp _ (by rcases he with rfl | rfl <;> simp [IsPunctuation]), Bool.not_false]

theorem isSome_readExponent? (h : IsExponent p cs) : (readExponent? p cs).isSome = true := by
  have hrun {ds : List Char} (h : IsRun p ds) : readExponentDigits? p ds = some ds :=
    if_pos ⟨h.1, List.all_eq_true.mpr h.2⟩
  cases h with
  | none => rfl
  | @some e sign ds he hsign hds =>
    have hsome : (readExponentDigits? p ds).isSome = true := by
      rw [hrun hds]
      rfl
    -- without a sign the first digit is not taken for one
    have hhead {c : Char} (hc : IsPunctuation c) {tail : List Char} : ds = c :: tail → False := by
      rintro rfl
      have hdigit := hds.2 c List.mem_cons_self
      rw [hp c hc] at hdigit
      cases hdigit
    rcases hsign with rfl | rfl | rfl
    · rw [List.nil_append, readExponent?, if_pos he, Option.isSome_map]
      · exact hsome
      · exact fun _ => hhead (by simp [IsPunctuation])
      · exact fun _ => hhead (by simp [IsPunctuation])
    · rw [List.singleton_append, readExponent?, if_pos he]
      simpa using hsome
    · rw [List.singleton_append, readExponent?, if_pos he]
      simpa using hsome

theorem isSome_readUnsigned? (negative : Bool) (h : IsNumber p cs) :
    (readUnsigned? p negative cs).isSome = true := by
  have hpoint : p '.' = false := hp '.' (by simp [IsPunctuation])
  obtain ⟨mantissa, exponent, hm, he, rfl⟩ := h
  have hstart := startsIn_of_isExponent hp he
  have hsome := isSome_readExponent? hp he
  cases hm with
  | whole hds =>
    rw [readUnsigned?, Text.takeWhile_append hds.2 hstart, Text.dropWhile_append hds.2 hstart]
    dsimp only
    split
    · -- an exponent does not start with a point
      cases he with
      | some hc => simp at hc
    · rw [if_neg hds.1, Option.isSome_map]
      exact hsome
  | @point ds fs hrun =>
    have hds : ∀ d ∈ ds, p d = true := fun d hd => hrun.2 d (List.mem_append_left _ hd)
    have hfs : ∀ d ∈ fs, p d = true := fun d hd => hrun.2 d (List.mem_append_right _ hd)
    have hafter : Text.StartsIn (fun c => !p c) ('.' :: (fs ++ exponent)) :=
      Text.startsIn_cons (by rw [hpoint, Bool.not_false])
    rw [readUnsigned?, List.append_assoc, List.cons_append, Text.takeWhile_append hds hafter,
      Text.dropWhile_append hds hafter]
    simp only [Text.takeWhile_append hfs hstart, Text.dropWhile_append hfs hstart]
    rw [if_neg (by simpa using hrun.1), Option.isSome_map]
    exact hsome

/-- The reader accepts just the texts that keep to the grammar. -/
theorem isSome_read?_iff : (read? p cs).isSome = true ↔ IsNumeral p cs := by
  constructor
  · intro h
    obtain ⟨n, hn⟩ := Option.isSome_iff_exists.mp h
    exact (isNumeral_of_read? hn).1
  · rintro (h | ⟨number, h, rfl⟩)
    · unfold read?
      split
      · have hdash : p '-' = false := hp '-' (by simp [IsPunctuation])
        simpa [hdash] using h.head
      · exact isSome_readUnsigned? hp false h
    · exact isSome_readUnsigned? hp true h

end Complete

end Numeral

/-! ## Digits of all scripts -/

section Scripts

variable {cs : List Char}

theorem not_isDigit_of_isPunctuation {c : Char} (h : IsPunctuation c) : isDigit c = false := by
  rcases h with rfl | rfl | rfl | rfl | rfl <;> decide

theorem not_isAsciiDigit_of_isPunctuation {c : Char} (h : IsPunctuation c) :
    isAsciiDigit c = false := by
  rcases h with rfl | rfl | rfl | rfl | rfl <;> decide

theorem isRun_map_blur_iff : IsRun isDigit (cs.map blur) ↔ IsRun isDigit cs := by
  simp [IsRun]

theorem isSign_map_blur_iff : IsSign (cs.map blur) ↔ IsSign cs := by
  have hplus : ['+'].any isDigit = false := by decide
  have hminus : ['-'].any isDigit = false := by decide
  rw [IsSign, Text.map_blur_eq_iff hplus, Text.map_blur_eq_iff hminus, List.map_eq_nil_iff, IsSign]

theorem isMantissa_map_blur_iff : IsMantissa isDigit (cs.map blur) ↔ IsMantissa isDigit cs := by
  have hpoint : isDigit '.' = false := by decide
  constructor
  · intro h
    generalize hcs : cs.map blur = ds at h
    cases h with
    | whole hds =>
      subst hcs
      exact .whole (isRun_map_blur_iff.mp hds)
    | point hrun =>
      obtain ⟨ds, rest, rfl, rfl, hrest⟩ := List.map_eq_append_iff.mp hcs
      obtain ⟨c, fs, rfl, hc, rfl⟩ := List.map_eq_cons_iff.mp hrest
      obtain rfl : c = '.' := (Text.blur_eq_iff hpoint).mp hc
      rw [← List.map_append] at hrun
      exact .point (isRun_map_blur_iff.mp hrun)
  · rintro (hds | hrun)
    · exact .whole (isRun_map_blur_iff.mpr hds)
    · rw [List.map_append, List.map_cons, Text.blur_of_not_isDigit hpoint]
      apply IsMantissa.point
      rw [← List.map_append]
      exact isRun_map_blur_iff.mpr hrun

theorem isExponent_map_blur_iff : IsExponent isDigit (cs.map blur) ↔ IsExponent isDigit cs := by
  have hblur {e c : Char} (he : e = 'e' ∨ e = 'E') : blur c = e ↔ c = e := by
    rcases he with rfl | rfl <;> exact Text.blur_eq_iff (by decide)
  constructor
  · intro h
    generalize hcs : cs.map blur = ds at h
    cases h with
    | none =>
      rw [List.map_eq_nil_iff.mp hcs]
      exact .none
    | some he hsign hds =>
      obtain ⟨c, rest, rfl, hc, hrest⟩ := List.map_eq_cons_iff.mp hcs
      obtain ⟨sign, ds, rfl, rfl, rfl⟩ := List.map_eq_append_iff.mp hrest
      obtain rfl := (hblur he).mp hc
      exact .some he (isSign_map_blur_iff.mp hsign) (isRun_map_blur_iff.mp hds)
  · rintro (_ | ⟨he, hsign, hds⟩)
    · exact .none
    · rw [List.map_cons, List.map_append, (hblur he).mpr rfl]
      exact .some he (isSign_map_blur_iff.mpr hsign) (isRun_map_blur_iff.mpr hds)

theorem isNumber_map_blur_iff : IsNumber isDigit (cs.map blur) ↔ IsNumber isDigit cs := by
  constructor
  · rintro ⟨mantissa, exponent, hm, he, hsplit⟩
    obtain ⟨mantissa, exponent, rfl, rfl, rfl⟩ := List.map_eq_append_iff.mp hsplit
    exact ⟨mantissa, exponent, isMantissa_map_blur_iff.mp hm, isExponent_map_blur_iff.mp he, rfl⟩
  · rintro ⟨mantissa, exponent, hm, he, rfl⟩
    exact ⟨_, _, isMantissa_map_blur_iff.mpr hm, isExponent_map_blur_iff.mpr he, List.map_append⟩

theorem isNumeral_map_blur_iff : IsNumeral isDigit (cs.map blur) ↔ IsNumeral isDigit cs := by
  have hdash : isDigit '-' = false := by decide
  constructor
  · rintro (h | ⟨number, h, hcs⟩)
    · exact .inl (isNumber_map_blur_iff.mp h)
    · obtain ⟨c, number, rfl, hc, rfl⟩ := List.map_eq_cons_iff.mp hcs
      obtain rfl : c = '-' := (Text.blur_eq_iff hdash).mp hc
      exact .inr ⟨number, isNumber_map_blur_iff.mp h, rfl⟩
  · rintro (h | ⟨number, h, rfl⟩)
    · exact .inl (isNumber_map_blur_iff.mpr h)
    · refine .inr ⟨number.map blur, isNumber_map_blur_iff.mpr h, ?_⟩
      rw [List.map_cons, Text.blur_of_not_isDigit hdash]

theorem isNumeral_iff {s : String} : isNumeral s = true ↔ IsNumeral isDigit s.toList :=
  Numeral.isSome_read?_iff fun _ => not_isDigit_of_isPunctuation

/-- Whether a text is a numeral does not depend on the scripts of its digits. -/
theorem isNumeral_of_spelledAlike {s s' : String} (h : Text.SpelledAlike s s') :
    isNumeral s = isNumeral s' := by
  rw [Bool.eq_iff_iff, isNumeral_iff, isNumeral_iff, ← isNumeral_map_blur_iff, h,
    isNumeral_map_blur_iff]

/-! ## Numerals that are read as doubles -/

theorem isAscii_of_toLower {c : Char} (h : c.toLower.toNat < 128) : c.toNat < 128 := by
  delta Char.toLower at h
  split at h
  next hupper =>
    have hz : c.toNat ≤ 'Z'.toNat := UInt32.le_iff_toNat_le.mp hupper.2
    have : 'Z'.toNat = 90 := rfl
    omega
  · exact h

/-- Only ASCII texts are read as doubles. -/
theorem ReadsAsDouble.isAscii (h : ReadsAsDouble cs) : ∀ c ∈ cs, c.toNat < 128 := by
  have hpunctuation {c : Char} (h : IsPunctuation c) : c.toNat < 128 := by
    rcases h with rfl | rfl | rfl | rfl | rfl <;> decide
  intro c hc
  cases h with
  | number hsign hcs =>
    rcases List.mem_append.mp hc with hc | hc
    · exact hpunctuation (hsign.chars c hc)
    · rcases hcs.chars c hc with hdigit | hother
      · have := Text.isAsciiDigit_iff.mp hdigit
        omega
      · exact hpunctuation hother
  | @word sign cs hsign hcs =>
    have hletters : ∀ w ∈ ["inf", "infinity", "nan"],
        (w.toList.all fun c => c.toNat < 128) = true := by decide
    rcases List.mem_append.mp hc with hc | hc
    · exact hpunctuation (hsign.chars c hc)
    · apply isAscii_of_toLower
      have hword := hletters _ hcs
      rw [String.toList_ofList, List.all_map, List.all_eq_true] at hword
      exact of_decide_eq_true (hword c hc)

/-- A numeral in digits of all scripts is read as a double exactly if all its digits are ASCII
digits. -/
theorem readsAsDouble_iff_of_isNumeral {s : String} (h : isNumeral s = true) :
    ReadsAsDouble s.toList ↔ ∀ c ∈ s.toList, isDigit c = true → isAsciiDigit c = true := by
  constructor
  · intro hdouble c hc hdigit
    exact Text.isAsciiDigit_of_isDigit hdigit (hdouble.isAscii c hc)
  · intro hascii
    exact readsAsDouble_of_isNumeral ((isNumeral_iff.mp h).mono hascii)

/-- The numerals in ASCII digits are those in the digits of all scripts that are read as doubles. -/
theorem isSome_orderKey?_iff {s : String} :
    (orderKey? s).isSome = true ↔ isNumeral s = true ∧ ReadsAsDouble s.toList := by
  rw [orderKey?, Option.isSome_map,
    Numeral.isSome_read?_iff fun _ => not_isAsciiDigit_of_isPunctuation]
  constructor
  · intro h
    refine ⟨isNumeral_iff.mpr ?_, readsAsDouble_of_isNumeral h⟩
    exact h.mono fun c _ => Text.isDigit_of_isAsciiDigit
  · rintro ⟨hnumeral, hdouble⟩
    exact (isNumeral_iff.mp hnumeral).mono ((readsAsDouble_iff_of_isNumeral hnumeral).mp hdouble)

theorem isNumeral_of_isAsciiDigit {s : String} {n : Numeral}
    (h : Numeral.read? isAsciiDigit s.toList = some n) : isNumeral s = true := by
  have hkey : (orderKey? s).isSome = true := by
    rw [orderKey?, h]
    rfl
  exact (isSome_orderKey?_iff.mp hkey).1

end Scripts

end SearchFilter.Decimal
