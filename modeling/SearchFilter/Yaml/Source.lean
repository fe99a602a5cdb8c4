/-!
# YAML text

The text of a document, ready to be read: every character has to be one that documents may hold,
and the ways to end a line that mean the same become a line feed. The line and paragraph separators
stay as they are; they end a line too. As the encoding is known, nothing looks for a byte order mark
at the start, so one there takes up a column. A `Cursor` is a place in the text with its line and
column.
-/

namespace SearchFilter.Yaml

/-- The character ends a line. -/
def isBreak (c : Char) : Bool :=
  c == '\n' || c == '\u2028' || c == '\u2029'

/-- The character is a space or a tab. -/
def isGap (c : Char) : Bool :=
  c == ' ' || c == '\t'

/-- The character is a space, a tab or the end of a line. -/
def isGapOrBreak (c : Char) : Bool :=
  isGap c || isBreak c

/-- The byte order mark. -/
def byteOrderMark : Char := '\uFEFF'

/-- A document may hold the character. -/
def isAllowed (c : Char) : Bool :=
  let n := c.toNat
  n == 0x09 || n == 0x0A || n == 0x0D || (0x20 ≤ n && n ≤ 0x7E) || n == 0x85
    || (0xA0 ≤ n && n ≤ 0xFFFD) || 0x10000 ≤ n

/-- Every way to end a line that means a line feed becomes one. -/
def unifyBreaks : List Char → List Char
  | '\r' :: '\n' :: rest => '\n' :: unifyBreaks rest
  | '\r' :: rest => '\n' :: unifyBreaks rest
  | '\x85' :: rest => '\n' :: unifyBreaks rest
  | c :: rest => c :: unifyBreaks rest
  | [] => []

/-- The characters of a document, if it may hold them. -/
def source? (document : String) : Option (List Char) :=
  let cs := document.toList
  if cs.all isAllowed then some (unifyBreaks cs) else none

/-- A place in the text. Lines and columns count from zero. -/
structure Cursor where
  rest : List Char
  line : Nat
  column : Nat
  deriving Repr

namespace Cursor

/-- The place `count` characters further on, in the same line. -/
def skip (p : Cursor) (count : Nat) : Cursor :=
  ⟨p.rest.drop count, p.line, p.column + count⟩

/-- The place `count` characters further on is in a gap or at the end of the line or the text. -/
def gapAt (p : Cursor) (count : Nat) : Bool :=
  match p.rest.drop count with
  | [] => true
  | c :: _ => isGapOrBreak c

end Cursor

/-- The text starts with a document marker, made of three times the given character. -/
def startsMarker (marker : Char) (cs : List Char) : Bool :=
  match cs with
  | a :: b :: c :: rest =>
    a == marker && b == marker && c == marker
      && match rest with
        | [] => true
        | d :: _ => isGapOrBreak d
  | _ => false

/-- The text starts with the marker of the start or of the end of a document. -/
def startsAnyMarker (cs : List Char) : Bool :=
  startsMarker '-' cs || startsMarker '.' cs

end SearchFilter.Yaml
