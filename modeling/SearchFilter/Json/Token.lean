import SearchFilter.Json.Numeric

/-!
# JSON tokens

A document is a run of tokens with blanks between them. Only space, tab, line feed and carriage
return are blanks. In a string, a character outside the basic plane may be escaped as a pair of
surrogates; a surrogate without its partner is refused, and so is a control character below U+0020.
-/

namespace SearchFilter.Json

/-- A token of a JSON document. -/
inductive Token where
  | arrayOpen
  | arrayClose
  | objectOpen
  | objectClose
  | comma
  | colon
  | text (value : String)
  /-- A number or one of the names `true`, `false` and `null`. -/
  | scalar (value : Json)

namespace Token

/-- The value of a hexadecimal digit. -/
def hexValue? (c : Char) : Option Nat :=
  if '0' ≤ c ∧ c ≤ '9' then some (c.toNat - '0'.toNat)
  else if 'a' ≤ c ∧ c ≤ 'f' then some (c.toNat - 'a'.toNat + 10)
  else if 'A' ≤ c ∧ c ≤ 'F' then some (c.toNat - 'A'.toNat + 10)
  else none

/-- The code unit that four hexadecimal digits stand for. -/
def codeUnit? (a b c d : Char) : Option Nat :=
  match hexValue? a, hexValue? b, hexValue? c, hexValue? d with
  | some a, some b, some c, some d => some (((a * 16 + b) * 16 + c) * 16 + d)
  | _, _, _, _ => none

/-- The first half of a surrogate pair. -/
def isHighSurrogate (u : Nat) : Bool := 0xD800 ≤ u && u ≤ 0xDBFF

/-- The second half of a surrogate pair. -/
def isLowSurrogate (u : Nat) : Bool := 0xDC00 ≤ u && u ≤ 0xDFFF

/-- The character of a surrogate pair. -/
def pairedChar (high low : Nat) : Char :=
  Char.ofNat (0x10000 + (high - 0xD800) * 0x400 + (low - 0xDC00))

/-- The character that a letter stands for after a backslash. -/
def escaped? (c : Char) : Option Char :=
  match c with
  | '"' => some '"'
  | '\\' => some '\\'
  | '/' => some '/'
  | 'b' => some '\x08'
  | 'f' => some '\x0c'
  | 'n' => some '\n'
  | 'r' => some '\r'
  | 't' => some '\t'
  | _ => none

/-- Reads a string up to its closing quote, `done` being what was read before, last character
first. Answers the string and what follows the quote. -/
def readText (done : List Char) : List Char → Option (String × List Char)
  | '"' :: rest => some (String.ofList done.reverse, rest)
  | '\\' :: 'u' :: a :: b :: c :: d :: rest =>
    match codeUnit? a b c d with
    | none => none
    | some u =>
      if isHighSurrogate u then
        match rest with
        | '\\' :: 'u' :: a' :: b' :: c' :: d' :: rest' =>
          match codeUnit? a' b' c' d' with
          | none => none
          | some l => if isLowSurrogate l then readText (pairedChar u l :: done) rest' else none
        | _ => none
      else if isLowSurrogate u then none
      else readText (Char.ofNat u :: done) rest
  | '\\' :: e :: rest =>
    match escaped? e with
    | none => none
    | some c => readText (c :: done) rest
  | ['\\'] => none
  | c :: rest => if c.toNat < 0x20 then none else readText (c :: done) rest
  | [] => none

theorem length_of_readText {done cs rest : List Char} {s : String}
    (h : readText done cs = some (s, rest)) : rest.length < cs.length := by
  fun_induction readText done cs <;> simp_all <;> omega

/-- The character separates tokens. -/
def isSpace (c : Char) : Bool :=
  c == ' ' || c == '\t' || c == '\n' || c == '\r'

/-- The token that a single character is. -/
def ofChar? (c : Char) : Option Token :=
  match c with
  | '[' => some .arrayOpen
  | ']' => some .arrayClose
  | '\x7b' => some .objectOpen
  | '\x7d' => some .objectClose
  | ',' => some .comma
  | ':' => some .colon
  | _ => none

/-- The character may stand in a number or a name. -/
def isBare (c : Char) : Bool :=
  Text.isAsciiDigit c || ('a' ≤ c && c ≤ 'z') || c == 'E' || c == '-' || c == '+' || c == '.'

/-- The token that a run of bare characters is. -/
def ofBare? (cs : List Char) : Option Token :=
  if cs = ['n', 'u', 'l', 'l'] then some (.scalar .null)
  else if cs = ['t', 'r', 'u', 'e'] then some (.scalar (.bool true))
  else if cs = ['f', 'a', 'l', 's', 'e'] then some (.scalar (.bool false))
  else (Number.read? cs).map fun n => .scalar (.number n)

/-- Splits a document into tokens. -/
def readAll (cs : List Char) : Option (List Token) :=
  match cs with
  | [] => some []
  | c :: rest =>
    if isSpace c then readAll rest
    else if c = '"' then
      match h : readText [] rest with
      | some (s, after) =>
        have := length_of_readText h
        (readAll after).map (.text s :: ·)
      | none => none
    else
      match ofChar? c with
      | some t => (readAll rest).map (t :: ·)
      | none =>
        if isBare c then
          have := (List.dropWhile_suffix (l := rest) isBare).length_le
          match ofBare? (c :: rest.takeWhile isBare) with
          | some t => (readAll (rest.dropWhile isBare)).map (t :: ·)
          | none => none
        else none
termination_by cs.length

end Token

end SearchFilter.Json
