import SearchFilter.Text.Character

/-!
# Dates

A date is one of the words `NOW` and `TODAY`, or a day with an optional time. The time has hours and
minutes, then perhaps seconds, perhaps with one to nine places, and then perhaps a zone: `Z` or a
signed offset. The digits may be those of any script, and no number is checked against a calendar.
-/

namespace SearchFilter.Clause

/-- Takes exactly `count` digits off the front. -/
def takeDigits? : Nat → List Char → Option (List Char)
  | 0, cs => some cs
  | _ + 1, [] => none
  | n + 1, c :: cs => if Text.isDigit c then takeDigits? n cs else none

/-- Takes one given character off the front. -/
def takeChar? (expected : Char) : List Char → Option (List Char)
  | [] => none
  | c :: cs => if c = expected then some cs else none

/-- The rest of a date after the offset's sign: two digits, perhaps a colon, and two digits. -/
def isOffset (cs : List Char) : Bool :=
  match takeDigits? 2 cs with
  | none => false
  | some rest =>
    takeDigits? 2 ((takeChar? ':' rest).getD rest) == some []

/-- The rest of a date after the time: nothing or a zone. -/
def isZone : List Char → Bool
  | [] => true
  | ['Z'] => true
  | '+' :: cs => isOffset cs
  | '-' :: cs => isOffset cs
  | _ => false

/-- The rest of a date after the seconds: perhaps places, then perhaps a zone. -/
def isAfterSeconds : List Char → Bool
  | '.' :: cs =>
    let places := (cs.takeWhile Text.isDigit).length
    1 ≤ places && places ≤ 9 && isZone (cs.dropWhile Text.isDigit)
  | cs => isZone cs

/-- The rest of a date after the minutes. -/
def isAfterMinutes : List Char → Bool
  | ':' :: cs =>
    match takeDigits? 2 cs with
    | some rest => isAfterSeconds rest
    | none => false
  | cs => isZone cs

/-- The rest of a date after the day: nothing or a time. -/
def isTime : List Char → Bool
  | [] => true
  | 'T' :: cs =>
    match (takeDigits? 2 cs).bind fun cs => (takeChar? ':' cs).bind (takeDigits? 2) with
    | some rest => isAfterMinutes rest
    | none => false
  | _ => false

/-- A day with an optional time. -/
def isDay (cs : List Char) : Bool :=
  match (takeDigits? 4 cs).bind fun cs => (takeChar? '-' cs).bind fun cs =>
      (takeDigits? 2 cs).bind fun cs => (takeChar? '-' cs).bind (takeDigits? 2) with
  | some rest => isTime rest
  | none => false

/-- The text is a date. -/
def isDate (s : String) : Bool :=
  s == "NOW" || s == "TODAY" || isDay s.toList

end SearchFilter.Clause
