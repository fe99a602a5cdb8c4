import Mathlib.Data.List.Basic
import SearchFilter.Json.Printer
import SearchFilter.Json.Token

/-!
# Strings in JSON documents

Reading the written form of a string gives the string back, whatever characters are in it.
-/

namespace SearchFilter.Json

open Token (hexValue? codeUnit? readText isHighSurrogate isLowSurrogate)

/-! ## Escapes -/

theorem hexValue?_hexDigit : ∀ n < 16, hexValue? (hexDigit n) = some n := by decide

/-- Four hexadecimal digits stand for the number they were made of. -/
theorem codeUnit?_hexDigits {n : Nat} (h : n < 65536) :
    codeUnit? (hexDigit (n / 4096 % 16)) (hexDigit (n / 256 % 16)) (hexDigit (n / 16 % 16))
      (hexDigit (n % 16)) = some n := by
  have hdigit (k : Nat) : hexValue? (hexDigit (k % 16)) = some (k % 16) :=
    hexValue?_hexDigit _ (Nat.mod_lt _ (by decide))
  have hsum : ((n / 4096 % 16 * 16 + n / 256 % 16) * 16 + n / 16 % 16) * 16 + n % 16 = n := by
    omega
  simp only [codeUnit?, hdigit, hsum]

theorem readText_hexEscape {n : Nat} (h : n < 0x20) (done rest : List Char) :
    readText done (hexEscape n ++ rest) = readText (Char.ofNat n :: done) rest := by
  have hunit := codeUnit?_hexDigits (n := n) (by omega)
  have hhigh : isHighSurrogate n = false := by
    simp only [isHighSurrogate, Bool.and_eq_false_iff, decide_eq_false_iff_not]
    omega
  have hlow : isLowSurrogate n = false := by
    simp only [isLowSurrogate, Bool.and_eq_false_iff, decide_eq_false_iff_not]
    omega
  rw [hexEscape]
  simp only [List.cons_append, List.nil_append]
  rw [readText]
  simp [hunit, hhigh, hlow]

/-- A character that needs no escape stands for itself. -/
theorem readText_cons {c : Char} (hquote : c ≠ '"') (hbackslash : c ≠ '\\')
    (hcontrol : ¬ c.toNat < 0x20) (done rest : List Char) :
    readText done (c :: rest) = readText (c :: done) rest := by
  conv_lhs => unfold readText
  split
  next heq => exact absurd (List.cons.inj heq).1 hquote
  next heq => exact absurd (List.cons.inj heq).1 hbackslash
  next heq => exact absurd (List.cons.inj heq).1 hbackslash
  next heq => exact absurd (List.cons.inj heq).1 hbackslash
  next heq =>
    cases heq
    rw [if_neg hcontrol]
  next heq => cases heq

/-- The written form of a character stands for the character. -/
theorem readText_escapeChar (c : Char) (done rest : List Char) :
    readText done (escapeChar c ++ rest) = readText (c :: done) rest := by
  unfold escapeChar
  split
  · rfl
  · rfl
  · rfl
  · rfl
  · rfl
  · rfl
  · rfl
  next hquote hbackslash _ _ _ _ _ =>
    split
    next hcontrol =>
      rw [readText_hexEscape hcontrol, Char.ofNat_toNat]
    next hcontrol =>
      exact readText_cons (fun h => hquote h) (fun h => hbackslash h) hcontrol done rest

/-! ## Strings -/

theorem readText_flatMap (cs done rest : List Char) :
    readText done (cs.flatMap escapeChar ++ '"' :: rest)
      = some (String.ofList (done.reverse ++ cs), rest) := by
  induction cs generalizing done with
  | nil =>
    rw [List.append_nil]
    rfl
  | cons c cs ih =>
    rw [List.flatMap_cons, List.append_assoc, readText_escapeChar, ih, List.reverse_cons,
      List.append_assoc, List.singleton_append]

theorem toList_renderString (s : String) :
    (renderString s).toList = '"' :: (s.toList.flatMap escapeChar ++ ['"']) := by
  rw [renderString, String.toList_ofList]

/-- A string is read off its written form, whatever follows it. -/
theorem readText_renderString (s : String) (rest : List Char) :
    readText [] (s.toList.flatMap escapeChar ++ '"' :: rest) = some (s, rest) := by
  rw [readText_flatMap, List.reverse_nil, List.nil_append, String.ofList_toList]

end SearchFilter.Json
