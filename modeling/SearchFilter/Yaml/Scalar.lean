import SearchFilter.Json.Token
import SearchFilter.Yaml.Source

/-!
# YAML scalars

The text of a scalar depends on its style. In plain and quoted scalars a single line break reads as
a space and further ones as line feeds; in a literal block the lines stay as they are; in a folded
block lines are joined unless one of them starts with a gap. Every reader answers the text and the
place after the scalar, or nothing if the scalar is malformed.
-/

namespace SearchFilter.Yaml

/-! ## Gaps inside a scalar -/

/-- What stands between two pieces of a scalar. -/
inductive Gap where
  /-- Spaces and tabs within a line, last first. -/
  | spaces (chars : List Char)
  /-- Line breaks: the first one, absent if it was escaped, and the further ones, last first. -/
  | breaks (first : Option Char) (more : List Char)

namespace Gap

/-- No gap. -/
def none : Gap := .spaces []

/-- There is a gap. -/
def isOpen : Gap → Bool
  | .spaces [] => false
  | _ => true

/-- A line ends in the gap. -/
def hasBreak : Gap → Bool
  | .spaces _ => false
  | .breaks _ _ => true

/-- The gap with one more space or tab, which counts only within a line. -/
def addSpace (g : Gap) (c : Char) : Gap :=
  match g with
  | .spaces cs => .spaces (c :: cs)
  | .breaks first more => .breaks first more

/-- The gap with one more line break. -/
def addBreak (g : Gap) (c : Char) : Gap :=
  match g with
  | .spaces _ => .breaks (some c) []
  | .breaks first more => .breaks first (c :: more)

/-- What the gap reads as, last character first. -/
def reversed : Gap → List Char
  | .spaces cs => cs
  | .breaks (some '\n') [] => [' ']
  | .breaks (some '\n') more => more
  | .breaks (some c) more => more ++ [c]
  | .breaks Option.none more => more

end Gap

/-! ## Plain scalars -/

/-- The character has a meaning in a flow collection. -/
def isFlowIndicator (c : Char) : Bool :=
  c == ',' || c == '[' || c == ']' || c == '\x7b' || c == '\x7d'

/-- A colon that cannot stand in a plain scalar of a flow collection. -/
def isBadFlowColon (c : Char) (rest : List Char) : Bool :=
  c == ':' && rest.head?.any fun d => isFlowIndicator d || d == '?'

/-- A plain scalar ends before the character. -/
def endsPlain (flow : Bool) (c : Char) (rest : List Char) : Bool :=
  (c == ':' && (rest.head?.all isGapOrBreak)) || (flow && isFlowIndicator c)

/-- What a plain scalar was read as. -/
structure Plain where
  text : String
  after : Cursor
  /-- The scalar was followed by the end of a line. -/
  endsLine : Bool

/-- Reads a plain scalar on, `done` being its text so far, last character first. In a block it goes
on over lines that are indented by at least `indent`. -/
def readPlain (flow : Bool) (indent : Int) (done : List Char) (gap : Gap) (line column : Nat) :
    List Char → Option Plain
  | [] => some ⟨String.ofList done.reverse, ⟨[], line, column⟩, gap.hasBreak⟩
  | c :: rest =>
    if isBreak c then
      readPlain flow indent done (gap.addBreak c) (line + 1) 0 rest
    else if isGap c then
      if c == '\t' && gap.hasBreak && decide ((column : Int) < indent) then none
      else readPlain flow indent done (gap.addSpace c) line (column + 1) rest
    else if gap.isOpen && ((! flow && decide ((column : Int) < indent))
        || (column == 0 && startsAnyMarker (c :: rest)) || c == '#') then
      some ⟨String.ofList done.reverse, ⟨c :: rest, line, column⟩, gap.hasBreak⟩
    else if flow && isBadFlowColon c rest then none
    else if endsPlain flow c rest then
      some ⟨String.ofList done.reverse, ⟨c :: rest, line, column⟩, gap.hasBreak⟩
    else
      readPlain flow indent (c :: (gap.reversed ++ done)) .none line (column + 1) rest

/-! ## Quoted scalars -/

/-- Reads a scalar between single quotes on. Two quotes in a row stand for one. -/
def readSingle (done : List Char) (gap : Gap) (line column : Nat) :
    List Char → Option (String × Cursor)
  | [] => none
  | '\'' :: '\'' :: rest =>
    readSingle ('\'' :: (gap.reversed ++ done)) .none line (column + 2) rest
  | c :: rest =>
    if isBreak c then readSingle done (gap.addBreak c) (line + 1) 0 rest
    else if isGap c then readSingle done (gap.addSpace c) line (column + 1) rest
    else if column == 0 && startsAnyMarker (c :: rest) then none
    else if c == '\'' then
      some (String.ofList (gap.reversed ++ done).reverse, ⟨rest, line, column + 1⟩)
    else readSingle (c :: (gap.reversed ++ done)) .none line (column + 1) rest

/-- The character that a letter stands for after a backslash between double quotes. -/
def escaped? (c : Char) : Option Char :=
  match c with
  | '0' => some '\x00'
  | 'a' => some '\x07'
  | 'b' => some '\x08'
  | 't' => some '\t'
  | '\t' => some '\t'
  | 'n' => some '\n'
  | 'v' => some '\x0b'
  | 'f' => some '\x0c'
  | 'r' => some '\r'
  | 'e' => some '\x1b'
  | ' ' => some ' '
  | '"' => some '"'
  | '/' => some '/'
  | '\\' => some '\\'
  | 'N' => some '\x85'
  | '_' => some '\xa0'
  | 'L' => some '\u2028'
  | 'P' => some '\u2029'
  | _ => none

/-- The character with the code point that hexadecimal digits write. -/
def charOfHex? (digits : List Char) : Option Char := do
  let n ← digits.foldlM (fun n d => (Json.Token.hexValue? d).map (16 * n + ·)) 0
  if n.isValidChar then some (Char.ofNat n) else none

/-- Reads a scalar between double quotes on. A backslash at the end of a line takes the line break
away; elsewhere it starts an escape. -/
def readDouble (done : List Char) (gap : Gap) (line column : Nat) :
    List Char → Option (String × Cursor)
  | [] => none
  | '\\' :: 'x' :: a :: b :: rest => do
    let c ← charOfHex? [a, b]
    readDouble (c :: (gap.reversed ++ done)) .none line (column + 4) rest
  | '\\' :: 'u' :: a :: b :: c :: d :: rest => do
    let c ← charOfHex? [a, b, c, d]
    readDouble (c :: (gap.reversed ++ done)) .none line (column + 6) rest
  | '\\' :: 'U' :: a :: b :: c :: d :: e :: f :: g :: h :: rest => do
    let c ← charOfHex? [a, b, c, d, e, f, g, h]
    readDouble (c :: (gap.reversed ++ done)) .none line (column + 10) rest
  | '\\' :: e :: rest =>
    if isBreak e then
      readDouble (gap.reversed ++ done) (.breaks none []) (line + 1) 0 rest
    else
      match escaped? e with
      | some c => readDouble (c :: (gap.reversed ++ done)) .none line (column + 2) rest
      | none => none
  | c :: rest =>
    if isBreak c then readDouble done (gap.addBreak c) (line + 1) 0 rest
    else if isGap c then readDouble done (gap.addSpace c) line (column + 1) rest
    else if column == 0 && startsAnyMarker (c :: rest) then none
    else if c == '"' then
      some (String.ofList (gap.reversed ++ done).reverse, ⟨rest, line, column + 1⟩)
    else if c == '\\' then none
    else readDouble (c :: (gap.reversed ++ done)) .none line (column + 1) rest

/-! ## Block scalars -/

/-- What happens to the line breaks at the end of a block scalar. -/
inductive Chomping where
  | strip
  /-- One line break stays. -/
  | clip
  | keep
  deriving DecidableEq, Repr

/-- The header of a block scalar. -/
structure BlockHeader where
  chomping : Chomping
  /-- The indentation relative to the block around it, if it is given. -/
  increment : Option Nat

/-- The chomping that an indicator asks for. -/
def chomping? (c : Char) : Option Chomping :=
  if c == '+' then some .keep else if c == '-' then some .strip else none

/-- The indentation that a digit asks for; it is not zero. -/
def increment? (c : Char) : Option Nat :=
  if '1' ≤ c ∧ c ≤ '9' then some (c.toNat - '0'.toNat) else none

/-- Reads the indicators after the one that starts a block scalar, in either order. -/
def readBlockHeader (cs : List Char) : BlockHeader × List Char :=
  match cs with
  | [] => (⟨.clip, none⟩, [])
  | c :: rest =>
    match chomping? c, increment? c with
    | some chomping, _ =>
      match rest with
      | d :: rest' =>
        match increment? d with
        | some n => (⟨chomping, some n⟩, rest')
        | none => (⟨chomping, none⟩, rest)
      | [] => (⟨chomping, none⟩, [])
    | none, some n =>
      match rest with
      | d :: rest' =>
        match chomping? d with
        | some chomping => (⟨chomping, some n⟩, rest')
        | none => (⟨.clip, some n⟩, rest)
      | [] => (⟨.clip, some n⟩, [])
    | none, none => (⟨.clip, none⟩, c :: rest)

/-- Passes gaps and a comment up to the end of the line. Answers what follows the line. -/
def skipRestOfLine? (cs : List Char) : Option (List Char) :=
  let cs := cs.dropWhile isGap
  let cs := if cs.head? = some '#' then cs.dropWhile (! isBreak ·) else cs
  match cs with
  | [] => some []
  | c :: rest => if isBreak c then some rest else none

/-- The lines before the first line of a block scalar that holds more than spaces. -/
structure BlockLead where
  /-- The line breaks, last first. -/
  breaks : List Char
  /-- The greatest column that was reached. -/
  widest : Nat
  after : Cursor

/-- Reads the lines before the first content of a block scalar. An `indent` of zero means that the
indentation is not known yet, and all spaces belong to it. -/
def readBlockLead (indent widest : Nat) (breaks : List Char) (line column : Nat) :
    List Char → Option BlockLead
  | [] => some ⟨breaks, max widest column, ⟨[], line, column⟩⟩
  | c :: rest =>
    if c == ' ' && (indent == 0 || column < indent) then
      readBlockLead indent widest breaks line (column + 1) rest
    else if c == '\t' && (indent == 0 || column < indent) then none
    else if isBreak c then
      readBlockLead indent (max widest column) (c :: breaks) (line + 1) 0 rest
    else some ⟨breaks, max widest column, ⟨c :: rest, line, column⟩⟩

/-- A block scalar that is being read. -/
structure BlockText where
  /-- The text so far, last character first. -/
  done : List Char
  /-- The break of the last line with content. -/
  lineBreak : Option Char
  /-- The breaks after that, last first. -/
  breaks : List Char
  /-- The last line with content starts with a gap. -/
  gapped : Bool

namespace BlockText

/-- The text with the start of a line, which has the first character `c`. -/
def startLine (b : BlockText) (folded : Bool) (c : Char) : BlockText :=
  let joined := folded && b.lineBreak == some '\n' && ! b.gapped && ! isGap c
  let lineBreak :=
    if joined then (if b.breaks.isEmpty then [' '] else []) else b.lineBreak.toList
  ⟨c :: (b.breaks ++ lineBreak ++ b.done), none, [], isGap c⟩

/-- The text at the end of the scalar. -/
def finish (b : BlockText) (chomping : Chomping) : String :=
  let lineBreak := if chomping = .strip then [] else b.lineBreak.toList
  let breaks := if chomping = .keep then b.breaks else []
  String.ofList (breaks ++ lineBreak ++ b.done).reverse

end BlockText

/-- Reads the lines of a block scalar that are indented by `indent`; `inLine` tells whether the
current line has content already. -/
def readBlockLines (folded : Bool) (chomping : Chomping) (indent : Nat) (inLine : Bool)
    (b : BlockText) (line column : Nat) : List Char → Option (String × Cursor)
  | [] => some (b.finish chomping, ⟨[], line, column⟩)
  | c :: rest =>
    if inLine then
      if isBreak c then
        readBlockLines folded chomping indent false { b with lineBreak := some c } (line + 1) 0 rest
      else
        readBlockLines folded chomping indent true { b with done := c :: b.done } line (column + 1)
          rest
    else if c == ' ' && column < indent then
      readBlockLines folded chomping indent false b line (column + 1) rest
    else if c == '\t' && column < indent then none
    else if isBreak c then
      readBlockLines folded chomping indent false { b with breaks := c :: b.breaks } (line + 1) 0
        rest
    else if column == indent then
      readBlockLines folded chomping indent true (b.startLine folded c) line (column + 1) rest
    else some (b.finish chomping, ⟨c :: rest, line, column⟩)

/-- Reads a block scalar in a block of the given indentation, from after its first indicator. -/
def readBlock (folded : Bool) (indent : Int) (p : Cursor) : Option (String × Cursor) := do
  let (header, rest) := readBlockHeader p.rest
  let lines ← skipRestOfLine? rest
  let given : Nat :=
    match header.increment with
    | some n => if 0 ≤ indent then indent.toNat + n else n
    | none => 0
  let lead ← readBlockLead given 0 [] (p.line + 1) 0 lines
  let own := if given = 0 then max (max lead.widest (indent + 1).toNat) 1 else given
  readBlockLines folded header.chomping own false ⟨[], none, lead.breaks, false⟩ lead.after.line
    lead.after.column lead.after.rest

end SearchFilter.Yaml
