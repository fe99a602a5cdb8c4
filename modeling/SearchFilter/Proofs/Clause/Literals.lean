import SearchFilter.Proofs.Decimal.Notation
import SearchFilter.Proofs.Query.Spelling
import SearchFilter.Proofs.Text.Character

/-!
# Numbers and dates in the digits of any script

The readers of numbers and dates take the decimal digits of every script, and a literal is written
with the digits that it has. So a written number is one that is read as a double only if its digits
are ASCII digits, and other bounds of an interval are not compared.
-/

namespace SearchFilter

open Text (isDigit isAsciiDigit blur SpelledAlike)

namespace Clause

/-! ## Dates -/

/-- The reader takes as many characters off a text whatever the scripts of its digits are. -/
def Blind (read : List Char → Option (List Char)) : Prop :=
  ∀ cs, read (cs.map blur) = (read cs).map (List.map blur)

theorem Blind.bind {read read' : List Char → Option (List Char)} (h : Blind read)
    (h' : Blind read') : Blind fun cs => (read cs).bind read' := by
  intro cs
  dsimp only
  rw [h cs]
  cases read cs with
  | none => rfl
  | some rest => exact h' rest

theorem Blind.any {read : List Char → Option (List Char)} (h : Blind read)
    {p : List Char → Bool} (hp : ∀ cs, p (cs.map blur) = p cs) (cs : List Char) :
    (read (cs.map blur)).any p = (read cs).any p := by
  rw [h cs, Option.any_map]
  exact congrArg (Option.any · (read cs)) (funext hp)

theorem blind_takeDigits? (n : Nat) : Blind (takeDigits? n) := by
  intro cs
  induction n generalizing cs with
  | zero => rfl
  | succ n ih =>
    cases cs with
    | nil => rfl
    | cons c cs =>
      rw [List.map_cons, takeDigits?, takeDigits?, Text.isDigit_blur]
      split
      · exact ih cs
      · rfl

theorem blind_takeChar? {x : Char} (hx : isDigit x = false) : Blind (takeChar? x) := by
  intro cs
  cases cs with
  | nil => rfl
  | cons c cs =>
    simp only [List.map_cons, takeChar?, Text.blur_eq_iff hx]
    split <;> rfl

theorem isOffset_eq (cs : List Char) : isOffset cs
    = (takeDigits? 2 cs).any fun rest =>
        (takeDigits? 2 ((takeChar? ':' rest).getD rest)).any List.isEmpty := by
  rw [isOffset]
  cases takeDigits? 2 cs with
  | none => rfl
  | some rest =>
    simp only [Option.any_some]
    rcases takeDigits? 2 ((takeChar? ':' rest).getD rest) with _ | _ | _ <;> rfl

theorem isOffset_map_blur (cs : List Char) : isOffset (cs.map blur) = isOffset cs := by
  have hcolon : isDigit ':' = false := by decide
  rw [isOffset_eq, isOffset_eq]
  apply (blind_takeDigits? 2).any
  intro rest
  rw [blind_takeChar? hcolon rest, Option.getD_map]
  exact (blind_takeDigits? 2).any (fun _ => List.isEmpty_map) _

theorem isZone_cons (c : Char) (cs : List Char) : isZone (c :: cs)
    = if c = 'Z' then cs.isEmpty else if c = '+' ∨ c = '-' then isOffset cs else false := by
  by_cases hz : c = 'Z'
  · subst hz
    cases cs <;> rfl
  by_cases hplus : c = '+'
  · subst hplus
    rfl
  by_cases hminus : c = '-'
  · subst hminus
    rfl
  · unfold isZone
    split <;> simp_all

theorem isAfterSeconds_cons (c : Char) (cs : List Char) : isAfterSeconds (c :: cs)
    = if c = '.' then
        let places := (cs.takeWhile isDigit).length
        1 ≤ places && places ≤ 9 && isZone (cs.dropWhile isDigit)
      else isZone (c :: cs) := by
  unfold isAfterSeconds
  split <;> simp_all

theorem isAfterMinutes_cons (c : Char) (cs : List Char) : isAfterMinutes (c :: cs)
    = if c = ':' then (takeDigits? 2 cs).any isAfterSeconds else isZone (c :: cs) := by
  unfold isAfterMinutes
  split
  next rest heq =>
    cases heq
    rw [if_pos rfl]
    cases takeDigits? 2 cs <;> rfl
  next hne => rw [if_neg fun hc => hne cs (by rw [hc])]

theorem isTime_cons (c : Char) (cs : List Char) : isTime (c :: cs)
    = if c = 'T' then
        ((takeDigits? 2 cs).bind fun cs => (takeChar? ':' cs).bind (takeDigits? 2)).any
          isAfterMinutes
      else false := by
  unfold isTime
  split
  next heq => cases heq
  next rest heq =>
    cases heq
    rw [if_pos rfl]
    cases (takeDigits? 2 cs).bind fun cs => (takeChar? ':' cs).bind (takeDigits? 2) <;> rfl
  next hne => rw [if_neg fun hc => hne cs (by rw [hc])]

theorem isDay_eq (cs : List Char) : isDay cs
    = ((takeDigits? 4 cs).bind fun cs => (takeChar? '-' cs).bind fun cs =>
        (takeDigits? 2 cs).bind fun cs => (takeChar? '-' cs).bind (takeDigits? 2)).any isTime := by
  unfold isDay
  cases (takeDigits? 4 cs).bind fun cs => (takeChar? '-' cs).bind fun cs =>
    (takeDigits? 2 cs).bind fun cs => (takeChar? '-' cs).bind (takeDigits? 2) <;> rfl

theorem isZone_map_blur (cs : List Char) : isZone (cs.map blur) = isZone cs := by
  have hz : isDigit 'Z' = false := by decide
  have hplus : isDigit '+' = false := by decide
  have hminus : isDigit '-' = false := by decide
  cases cs with
  | nil => rfl
  | cons c cs =>
    rw [List.map_cons, isZone_cons, isZone_cons]
    simp only [Text.blur_eq_iff hz, Text.blur_eq_iff hplus, Text.blur_eq_iff hminus,
      isOffset_map_blur, List.isEmpty_map]

theorem isAfterSeconds_map_blur (cs : List Char) :
    isAfterSeconds (cs.map blur) = isAfterSeconds cs := by
  have hpoint : isDigit '.' = false := by decide
  cases cs with
  | nil => rfl
  | cons c cs =>
    have hzone : isZone (blur c :: cs.map blur) = isZone (c :: cs) := isZone_map_blur (c :: cs)
    rw [List.map_cons, isAfterSeconds_cons, isAfterSeconds_cons]
    simp only [Text.blur_eq_iff hpoint, Text.takeWhile_map_blur Text.isDigit_blur,
      Text.dropWhile_map_blur Text.isDigit_blur, List.length_map, isZone_map_blur, hzone]

theorem isAfterMinutes_map_blur (cs : List Char) :
    isAfterMinutes (cs.map blur) = isAfterMinutes cs := by
  have hcolon : isDigit ':' = false := by decide
  cases cs with
  | nil => rfl
  | cons c cs =>
    have hzone : isZone (blur c :: cs.map blur) = isZone (c :: cs) := isZone_map_blur (c :: cs)
    have hseconds := (blind_takeDigits? 2).any isAfterSeconds_map_blur cs
    rw [List.map_cons, isAfterMinutes_cons, isAfterMinutes_cons]
    simp only [Text.blur_eq_iff hcolon, hseconds, hzone]

theorem isTime_map_blur (cs : List Char) : isTime (cs.map blur) = isTime cs := by
  have ht : isDigit 'T' = false := by decide
  have hcolon : isDigit ':' = false := by decide
  cases cs with
  | nil => rfl
  | cons c cs =>
    have hread : Blind fun cs =>
        (takeDigits? 2 cs).bind fun cs => (takeChar? ':' cs).bind (takeDigits? 2) :=
      (blind_takeDigits? 2).bind ((blind_takeChar? hcolon).bind (blind_takeDigits? 2))
    have hminutes := hread.any isAfterMinutes_map_blur cs
    rw [List.map_cons, isTime_cons, isTime_cons]
    simp only [Text.blur_eq_iff ht, hminutes]

theorem isDay_map_blur (cs : List Char) : isDay (cs.map blur) = isDay cs := by
  have hdash : isDigit '-' = false := by decide
  have hdash := blind_takeChar? hdash
  have htwo := blind_takeDigits? 2
  rw [isDay_eq, isDay_eq]
  exact ((blind_takeDigits? 4).bind (hdash.bind (htwo.bind (hdash.bind htwo)))).any
    isTime_map_blur cs

/-- Whether a text is a date does not depend on the scripts of its digits. -/
theorem isDate_of_spelledAlike {s s' : String} (h : SpelledAlike s s') : isDate s = isDate s' := by
  have hword {w : String} (hw : w.toList.any isDigit = false) : (s == w) = (s' == w) := by
    rw [Bool.eq_iff_iff, beq_iff_eq, beq_iff_eq, ← String.toList_inj, ← String.toList_inj,
      ← Text.map_blur_eq_iff hw, h, Text.map_blur_eq_iff hw]
  have hnow : "NOW".toList.any isDigit = false := by decide
  have htoday : "TODAY".toList.any isDigit = false := by decide
  rw [isDate, isDate, hword hnow, hword htoday, ← isDay_map_blur, h, isDay_map_blur]

/-! ## Literals -/

theorem filter_isDigit_quote (s : String) :
    (Text.quote s).toList.filter isDigit = s.toList.filter isDigit := by
  have hquote : isDigit '"' = false := by decide
  have hbackslash : isDigit '\\' = false := by decide
  have hchar (c : Char) : (Text.quoteChar c).filter isDigit = [c].filter isDigit := by
    rw [Text.quoteChar]
    split
    · rw [List.filter_cons_of_neg (by simp [hbackslash])]
    · rfl
  have hbody (cs : List Char) : (cs.flatMap Text.quoteChar).filter isDigit = cs.filter isDigit := by
    induction cs with
    | nil => rfl
    | cons c cs ih =>
      rw [List.flatMap_cons, List.filter_append, hchar, ih, ← List.filter_append,
        List.singleton_append]
  simp [Text.quote, Text.quoteChars, hquote, hbody]

/-- A literal is written with the digits that it has. -/
theorem filter_isDigit_of_scalarOf {r : Rule} {s t : String} (h : scalarOf r s = .ok t) :
    t.toList.filter isDigit = s.toList.filter isDigit := by
  have hwritten : t = Text.trim s ∨ t = Text.quote (Text.trim s) := by
    unfold scalarOf at h
    dsimp only at h
    split at h
    · split_ifs at h
      exact .inl (Except.ok.inj h).symm
    · split_ifs at h
      exact .inr (Except.ok.inj h).symm
    · exact .inr (Except.ok.inj h).symm
  rcases hwritten with rfl | rfl
  · exact Text.filter_isDigit_trim s
  · rw [filter_isDigit_quote, Text.filter_isDigit_trim]

/-- Whether a literal is accepted does not depend on the scripts of its digits. -/
theorem exists_scalarOf_iff_of_spelledAlike (r : Rule) {s s' : String} (h : SpelledAlike s s') :
    (∃ t, scalarOf r s = .ok t) ↔ ∃ t', scalarOf r s' = .ok t' := by
  have hnumeral := Decimal.isNumeral_of_spelledAlike h.trim
  have hdate := isDate_of_spelledAlike h.trim
  unfold scalarOf
  dsimp only
  rw [hnumeral, hdate]
  cases r.type with
  | numeric => cases Decimal.isNumeral (Text.trim s') <;> simp
  | date => cases isDate (Text.trim s') <;> simp
  | _ => simp

theorem scalarOf_numeric {r : Rule} (htype : r.type = .numeric) {s t : String}
    (h : scalarOf r s = .ok t) : t = Text.trim s ∧ Decimal.isNumeral t = true := by
  unfold scalarOf at h
  rw [htype] at h
  dsimp only at h
  split_ifs at h with hnumeral
  obtain rfl := Except.ok.inj h
  exact ⟨rfl, hnumeral⟩

/-- Of the numbers and dates that differ in the scripts of their digits, all are accepted or none.
An accepted literal is written with ASCII digits exactly if its own digits are. Otherwise a number
is not read as a double, and as a bound of an interval it is not compared. -/
theorem digits_of_any_script_are_accepted (r : Rule) :
    (∀ s s', SpelledAlike s s' → ((∃ t, scalarOf r s = .ok t) ↔ ∃ t', scalarOf r s' = .ok t')) ∧
      ∀ s t, scalarOf r s = .ok t →
        (Text.HasAsciiDigits t ↔ Text.HasAsciiDigits s) ∧
        (r.type = .numeric →
          (Decimal.ReadsAsDouble t.toList ↔ Text.HasAsciiDigits s) ∧
          ((Decimal.orderKey? t).isSome = true ↔ Text.HasAsciiDigits s)) := by
  refine ⟨fun s s' h => exists_scalarOf_iff_of_spelledAlike r h, ?_⟩
  intro s t h
  have hdigits := Text.hasAsciiDigits_congr (filter_isDigit_of_scalarOf h)
  refine ⟨hdigits, fun htype => ?_⟩
  have hnumeral := (scalarOf_numeric htype h).2
  have hdouble : Decimal.ReadsAsDouble t.toList ↔ Text.HasAsciiDigits s :=
    (Decimal.readsAsDouble_iff_of_isNumeral hnumeral).trans hdigits
  refine ⟨hdouble, ?_⟩
  rw [Decimal.isSome_orderKey?_iff, hdouble, hnumeral]
  exact and_iff_right rfl

/-- A number in ASCII digits, and the same number in digits of three scripts. -/
theorem digits_of_any_script_are_accepted_in_number :
    let r : Rule := ⟨"r", "size", .numeric, "greater_than", [.literal "-1.20e3"], false⟩
    let ascii := " -1.20e3"
    let mixed := " -1.٢٠e३"
    SpelledAlike ascii mixed ∧ r.type = .numeric ∧ (∃ t, scalarOf r mixed = .ok t) ∧
      scalarOf r ascii = .ok "-1.20e3" ∧ Decimal.ReadsAsDouble "-1.20e3".toList ∧
      scalarOf r mixed = .ok "-1.٢٠e३" ∧ ¬ Decimal.ReadsAsDouble "-1.٢٠e३".toList := by
  intro r ascii mixed
  obtain ⟨haccepted, hwritten⟩ := digits_of_any_script_are_accepted r
  have halike : SpelledAlike ascii mixed := by decide +kernel
  have hascii : scalarOf r ascii = .ok "-1.20e3" := by decide +kernel
  have hmixed : scalarOf r mixed = .ok "-1.٢٠e३" := by decide +kernel
  refine ⟨halike, rfl, (haccepted _ _ halike).mp ⟨_, hascii⟩, hascii, ?_, hmixed, ?_⟩
  · exact ((hwritten _ _ hascii).2 rfl).1.mpr (by decide +kernel)
  · exact fun hdouble => absurd (((hwritten _ _ hmixed).2 rfl).1.mp hdouble) (by decide +kernel)

/-- A number and a date in Arabic digits are written, and so is an interval whose lower bound would
be above its upper bound if it were compared. -/
theorem digits_of_other_scripts_are_written :
    let res := Namespaces.toResolver {}
    let g : Registry := ⟨StockOperation.registrations res .standard⟩
    let number : Rule := ⟨"r", "size", .numeric, "equals", [.literal "٣"], false⟩
    let date : Rule := ⟨"r", "created", .date, "equals", [.literal "٢٠٢٤-01-01"], false⟩
    let interval : Rule :=
      ⟨"r", "size", .numeric, "between", [.literal "٩", .literal "2"], false⟩
    Registry.build (StockOperation.registrations res .standard) = .ok g ∧
      scalarOf number "٣" = .ok "٣" ∧ ¬ Decimal.ReadsAsDouble "٣".toList ∧
      (Compiler.mk g {}).compile (.rule number) = .ok "size:٣" ∧
      scalarOf date "٢٠٢٤-01-01" = .ok "\"٢٠٢٤-01-01\"" ∧
      ¬ Text.HasAsciiDigits "\"٢٠٢٤-01-01\"" ∧
      (Compiler.mk g {}).compile (.rule date) = .ok "created:\"٢٠٢٤-01-01\"" ∧
      (Compiler.mk g {}).compile (.rule interval) = .ok "size:[٩ TO 2]" := by
  intro res g number date interval
  refine ⟨StockOperation.build_registrations res .standard, by decide +kernel, ?_,
    by decide +kernel, by decide +kernel, by decide +kernel, by decide +kernel, by decide +kernel⟩
  intro h
  have hascii : '٣'.toNat < 128 := h.isAscii '٣' (by decide)
  exact absurd hascii (by decide)

end Clause

end SearchFilter
