import SearchFilter.Text.Character

/-!
# Literals in a query

A literal is quoted by putting it between double quotes, with a backslash before each double quote
and each backslash inside. A term that stands bare next to a wildcard is escaped character by
character: the operators of the query language and the blank characters get a backslash in front.
Either form has a reader, which tells what a text of the form stands for.
-/

namespace SearchFilter.Text

/-! ## Quoted literals -/

/-- The written form of one character inside quotes. -/
def quoteChar (c : Char) : List Char :=
  if c = '"' ∨ c = '\\' then ['\\', c] else [c]

/-- The written form of a literal, quotes included. -/
def quoteChars (cs : List Char) : List Char :=
  '"' :: (cs.flatMap quoteChar ++ ['"'])

/-- The literal between double quotes. -/
def quote (s : String) : String :=
  String.ofList (quoteChars s.toList)

/-- Reads up to the first double quote that no backslash precedes; a backslash makes the next
character literal. Answers what was read and what follows the closing quote. -/
def readQuotedBody : List Char → Option (List Char × List Char)
  | [] => none
  | '"' :: rest => some ([], rest)
  | '\\' :: c :: rest => (readQuotedBody rest).map fun r => (c :: r.1, r.2)
  | c :: rest => (readQuotedBody rest).map fun r => (c :: r.1, r.2)

/-- Reads one quoted literal off the front of a text. -/
def readQuoted : List Char → Option (List Char × List Char)
  | '"' :: rest => readQuotedBody rest
  | _ => none

/-! ## Escaped terms -/

/-- The characters that the query language reads as operators. -/
def operatorChars : List Char :=
  ['+', '-', '&', '|', '!', '(', ')', '{', '}', '[', ']', '^', '"', '~', '*', '?', ':', '\\', '/']

/-- The character cannot stand bare in a term. -/
def needsEscape (c : Char) : Bool :=
  operatorChars.contains c || isBlank c

/-- The written form of one character of a term. -/
def escapeChar (c : Char) : List Char :=
  if needsEscape c then ['\\', c] else [c]

/-- The written form of a term. -/
def escapeChars (cs : List Char) : List Char :=
  cs.flatMap escapeChar

/-- The term with every operator and every blank character escaped. -/
def escapeTerm (s : String) : String :=
  String.ofList (escapeChars s.toList)

/-- A character of an escaped text, and whether a backslash made it literal. -/
structure Reading where
  char : Char
  escaped : Bool
  deriving DecidableEq, Repr

/-- Reads a text in which a backslash makes the next character literal. A backslash at the very
end is a bare character. -/
def reading : List Char → List Reading
  | '\\' :: c :: rest => ⟨c, true⟩ :: reading rest
  | c :: rest => ⟨c, false⟩ :: reading rest
  | [] => []

/-- The characters that an escaped text stands for. -/
def unescape (cs : List Char) : List Char :=
  (reading cs).map Reading.char

end SearchFilter.Text
