import SearchFilter.Yaml.Scalar

/-!
# YAML tokens

The text of a document is split into tokens. Besides the marks that stand in the text there are
tokens for the start and the end of a block collection, which follow from the indentation. A scalar
turns out to be a key only at the colon after it, so the place of a possible key is kept, and the
tokens that announce the key are put before it then. What a tag stands for is written in octets.
-/

namespace SearchFilter.Yaml

/-- A token of a YAML document. -/
inductive Token where
  | version (major minor : Nat)
  | tagDirective (handle : String) (full : List UInt8)
  | documentStart
  | documentEnd
  | blockSequenceStart
  | blockMappingStart
  | blockEnd
  | flowSequenceStart
  | flowSequenceEnd
  | flowMappingStart
  | flowMappingEnd
  | blockEntry
  | flowEntry
  | key
  | value
  | alias (name : String)
  | anchor (name : String)
  | tag (handle : String) (suffix : List UInt8)
  | scalar (text : String) (plain : Bool)
  deriving DecidableEq, Repr

/-- The octet of the exclamation mark with which tags start. -/
def bang : UInt8 := 0x21

/-- A place where a key may have started. -/
structure PossibleKey where
  /-- The key has to come, or the document is malformed. -/
  required : Bool
  /-- How many tokens precede it. -/
  index : Nat
  line : Nat
  column : Nat

/-- The state of splitting a text into tokens. -/
structure Scanner where
  place : Cursor
  /-- The tokens so far, last first. -/
  tokens : List Token := []
  /-- The indentation of the current block, -1 outside of all blocks. -/
  indent : Int := -1
  /-- The indentations of the blocks around it. -/
  outer : List Int := []
  /-- The possible key of the current flow level. -/
  possible : Option PossibleKey := none
  /-- The possible keys of the flow levels around it, one for each. -/
  outerKeys : List (Option PossibleKey) := []
  /-- A key may start here. -/
  keyAllowed : Bool := true

namespace Scanner

/-- The place is inside a flow collection. -/
def inFlow (s : Scanner) : Bool :=
  ! s.outerKeys.isEmpty

/-- Adds a token at the end. -/
def push (s : Scanner) (t : Token) : Scanner :=
  { s with tokens := t :: s.tokens }

/-- Puts a token before all but the first `index` tokens. -/
def insert (s : Scanner) (index : Nat) (t : Token) : Scanner :=
  { s with tokens := s.tokens.insertIdx (s.tokens.length - index) t }

/-- Ends the blocks that are indented further than the column. -/
def endBlocks (column : Int) (indent : Int) (tokens : List Token) :
    List Int → Int × List Int × List Token
  | [] => (indent, [], tokens)
  | o :: outer =>
    if column < indent then endBlocks column o (.blockEnd :: tokens) outer
    else (indent, o :: outer, tokens)

/-- Ends the blocks that are indented further than the column; a flow collection has none. -/
def unroll (s : Scanner) (column : Int) : Scanner :=
  if s.inFlow then s
  else
    let r := endBlocks column s.indent s.tokens s.outer
    { s with indent := r.1, outer := r.2.1, tokens := r.2.2 }

/-- Starts a block at the column if it is indented further, by a token before all but the first
`index` tokens. -/
def roll (s : Scanner) (column : Int) (index : Nat) (t : Token) : Scanner :=
  if s.inFlow || s.indent ≥ column then s
  else { s with indent := column, outer := s.indent :: s.outer }.insert index t

/-- Gives the possible key of the current level up, unless it is required. -/
def dropKey (s : Scanner) : Option Scanner :=
  if s.possible.any PossibleKey.required then none else some { s with possible := none }

/-- Notes that a key may start here. -/
def saveKey (s : Scanner) : Option Scanner :=
  if s.keyAllowed then do
    let s ← s.dropKey
    return { s with
      possible := some
        ⟨! s.inFlow && s.indent == (s.place.column : Int), s.tokens.length, s.place.line,
          s.place.column⟩ }
  else some s

/-- The key, unless the place has left its line or is too far from its start. A required key cannot
be given up. -/
def freshKey (p : Cursor) : Option PossibleKey → Option (Option PossibleKey)
  | none => some none
  | some k =>
    if k.line < p.line || k.column + 1024 < p.column then
      if k.required then none else some none
    else some (some k)

/-- Gives up the possible keys that the place has left behind. -/
def dropStaleKeys (s : Scanner) : Option Scanner := do
  let possible ← freshKey s.place s.possible
  let outerKeys ← s.outerKeys.mapM (freshKey s.place)
  return { s with possible, outerKeys }

/-- Passes gaps, comments and line ends. A tab is a gap only where no key may start. Answers the
place and whether a key may start there. -/
def skipGaps (flow keyAllowed inComment : Bool) (line column : Nat) : List Char → Cursor × Bool
  | [] => (⟨[], line, column⟩, keyAllowed)
  | c :: rest =>
    if isBreak c then skipGaps flow (keyAllowed || ! flow) false (line + 1) 0 rest
    else if inComment then skipGaps flow keyAllowed true line (column + 1) rest
    else if c == ' ' || (c == '\t' && (flow || ! keyAllowed))
        || (c == byteOrderMark && column == 0) then
      skipGaps flow keyAllowed false line (column + 1) rest
    else if c == '#' then skipGaps flow keyAllowed true line (column + 1) rest
    else (⟨c :: rest, line, column⟩, keyAllowed)

/-- Goes `count` characters on. -/
def skip (s : Scanner) (count : Nat) : Scanner :=
  { s with place := s.place.skip count }

/-- Goes to a place. -/
def moveTo (s : Scanner) (p : Cursor) : Scanner :=
  { s with place := p }

/-! ## Directives, tags and anchors -/

/-- The character may stand in the name of an anchor, a handle or a directive. -/
def isNameChar (c : Char) : Bool :=
  ('0' ≤ c && c ≤ '9') || ('a' ≤ c && c ≤ 'z') || ('A' ≤ c && c ≤ 'Z') || c == '_' || c == '-'

/-- The character may stand in a tag. Between angle brackets some flow indicators may too. -/
def isTagChar (verbatim : Bool) (c : Char) : Bool :=
  isNameChar c || [';', '/', '?', ':', '@', '&', '=', '+', '$', '.', '%', '!', '~', '*', '\'', '(',
    ')'].contains c || (verbatim && [',', '[', ']'].contains c)

/-- How many octets follow the first one of a character. -/
def followers? (octet : Nat) : Option Nat :=
  if octet < 0x80 then some 0
  else if 0xC0 ≤ octet && octet < 0xE0 then some 1
  else if 0xE0 ≤ octet && octet < 0xF0 then some 2
  else if 0xF0 ≤ octet && octet < 0xF8 then some 3
  else none

/-- The octets of a tag, where an escape stands for one of them. Of a character that is begun, `due`
octets are still to come, and each has to be one that follows another. -/
def octets? (due : Nat) : List Char → Option (List UInt8)
  | '%' :: a :: b :: rest => do
    let a ← Json.Token.hexValue? a
    let b ← Json.Token.hexValue? b
    let octet := 16 * a + b
    let due ←
      if due = 0 then followers? octet
      else if 0x80 ≤ octet && octet < 0xC0 then some (due - 1)
      else none
    return octet.toUInt8 :: (← octets? due rest)
  | '%' :: _ => none
  | c :: rest => do
    if due = 0 then return c.toNat.toUInt8 :: (← octets? 0 rest) else none
  | [] => if due = 0 then some [] else none

/-- The octets of a tag, which ends before an octet of zero. -/
def readTagOctets? (cs : List Char) : Option (List UInt8) :=
  (octets? 0 cs).map fun os => os.takeWhile (· != 0)

/-- Reads a handle: an exclamation mark, or a name between two of them. Answers its characters,
which may lack the second mark. -/
def readHandle (cs : List Char) : List Char :=
  match cs with
  | '!' :: rest =>
    let name := rest.takeWhile isNameChar
    match rest.dropWhile isNameChar with
    | '!' :: _ => '!' :: (name ++ ['!'])
    | _ => '!' :: name
  | _ => []

/-- Reads a tag. Answers its handle, its suffix and how many characters it has. -/
def readTag? (cs : List Char) : Option (String × List UInt8 × Nat) :=
  match cs with
  | '!' :: '<' :: rest => do
    let uri := rest.takeWhile (isTagChar true)
    if uri.isEmpty || (rest.dropWhile (isTagChar true)).head? ≠ some '>' then none
    else return ("", ← readTagOctets? uri, uri.length + 3)
  | cs => do
    let handle := readHandle cs
    let rest := cs.drop handle.length
    let uri := rest.takeWhile (isTagChar false)
    let length := handle.length + uri.length
    if handle.length > 1 && handle.getLast? == some '!' then
      if uri.isEmpty then none else return (String.ofList handle, ← readTagOctets? uri, length)
    else
      let suffix ← readTagOctets? (handle.tail ++ uri)
      if suffix.isEmpty then return ("", [bang], length) else return ("!", suffix, length)

/-- The value of a run of digits that is neither empty nor too long. -/
def versionNumber? (ds : List Char) : Option Nat :=
  if ds.isEmpty || 9 < ds.length then none
  else some (ds.foldl (fun n d => 10 * n + (d.toNat - '0'.toNat)) 0)

/-- Reads a directive from after its percent sign. Answers the token and what follows its line. -/
def readDirective? (cs : List Char) : Option (Token × List Char) := do
  let isDigit := Char.isDigit
  let name := String.ofList (cs.takeWhile isNameChar)
  let rest := cs.dropWhile isNameChar
  if rest.head?.any (! isGapOrBreak ·) then none
  else if name == "YAML" then
    let rest := rest.dropWhile isGap
    let major ← versionNumber? (rest.takeWhile isDigit)
    match rest.dropWhile isDigit with
    | '.' :: rest =>
      let minor ← versionNumber? (rest.takeWhile isDigit)
      return (.version major minor, ← skipRestOfLine? (rest.dropWhile isDigit))
    | _ => none
  else if name == "TAG" then
    let rest := rest.dropWhile isGap
    let handle := readHandle rest
    let rest := rest.drop handle.length
    if handle.isEmpty || (handle.length > 1 && handle.getLast? ≠ some '!')
        || rest.head?.all (! isGap ·) then none
    else
      let rest := rest.dropWhile isGap
      let uri := rest.takeWhile (isTagChar true)
      let rest := rest.dropWhile (isTagChar true)
      if uri.isEmpty || rest.head?.any (! isGapOrBreak ·) then none
      else
        return (.tagDirective (String.ofList handle) (← readTagOctets? uri),
          ← skipRestOfLine? rest)
  else none

/-- The character may follow the name of an anchor or an alias. -/
def mayFollowAnchor (c : Char) : Bool :=
  isGapOrBreak c || ['?', ':', ',', ']', '\x7d', '%', '@', '\x60'].contains c

/-! ## Tokens -/

/-- Takes the mark of a document's start or end. -/
def takeDocumentMark (s : Scanner) (t : Token) : Option Scanner := do
  let s ← (s.unroll (-1)).dropKey
  return ({ s with keyAllowed := false }.push t).skip 3

/-- Takes a directive. -/
def takeDirective (s : Scanner) : Option Scanner := do
  let s ← (s.unroll (-1)).dropKey
  let (t, rest) ← readDirective? (s.place.rest.drop 1)
  return ({ s with keyAllowed := false }.push t).moveTo ⟨rest, s.place.line + 1, 0⟩

/-- Takes the start of a flow collection, which may be a key itself. -/
def takeFlowStart (s : Scanner) (t : Token) : Option Scanner := do
  let s ← s.saveKey
  let s := { s with possible := none, outerKeys := s.possible :: s.outerKeys, keyAllowed := true }
  return (s.push t).skip 1

/-- Takes the end of a flow collection. -/
def takeFlowEnd (s : Scanner) (t : Token) : Option Scanner := do
  let s ← s.dropKey
  let s :=
    match s.outerKeys with
    | k :: ks => { s with possible := k, outerKeys := ks }
    | [] => s
  return ({ s with keyAllowed := false }.push t).skip 1

/-- Takes a comma. -/
def takeFlowEntry (s : Scanner) : Option Scanner := do
  let s ← s.dropKey
  return ({ s with keyAllowed := true }.push .flowEntry).skip 1

/-- Takes a dash. -/
def takeBlockEntry (s : Scanner) : Option Scanner := do
  if ! s.inFlow && ! s.keyAllowed then none
  else
    let s := s.roll s.place.column s.tokens.length .blockSequenceStart
    let s ← s.dropKey
    return ({ s with keyAllowed := true }.push .blockEntry).skip 1

/-- Takes a question mark. -/
def takeKey (s : Scanner) : Option Scanner := do
  if ! s.inFlow && ! s.keyAllowed then none
  else
    let s := s.roll s.place.column s.tokens.length .blockMappingStart
    let s ← s.dropKey
    return ({ s with keyAllowed := ! s.inFlow }.push .key).skip 1

/-- Takes a colon. -/
def takeValue (s : Scanner) : Option Scanner :=
  match s.possible with
  | some k =>
    let s := (s.insert k.index .key).roll k.column k.index .blockMappingStart
    some (({ s with possible := none, keyAllowed := false }.push .value).skip 1)
  | none =>
    if ! s.inFlow && ! s.keyAllowed then none
    else
      let s := s.roll s.place.column s.tokens.length .blockMappingStart
      some (({ s with keyAllowed := ! s.inFlow }.push .value).skip 1)

/-- Takes an anchor or an alias. -/
def takeAnchor (s : Scanner) (token : String → Token) : Option Scanner := do
  let s ← s.saveKey
  let name := (s.place.rest.drop 1).takeWhile isNameChar
  if name.isEmpty || (s.place.rest.drop (name.length + 1)).head?.any (! mayFollowAnchor ·) then none
  else
    return ({ s with keyAllowed := false }.push (token (String.ofList name))).skip (name.length + 1)

/-- Takes a tag. -/
def takeTag (s : Scanner) : Option Scanner := do
  let s ← s.saveKey
  let (handle, suffix, length) ← readTag? s.place.rest
  let endsWithComma := s.inFlow && (s.place.rest.drop length).head? == some ','
  if ! endsWithComma && ! s.place.gapAt length then none
  else return ({ s with keyAllowed := false }.push (.tag handle suffix)).skip length

/-- Takes a block scalar. -/
def takeBlockScalar (s : Scanner) (folded : Bool) : Option Scanner := do
  let s ← s.dropKey
  let (text, p) ← readBlock folded s.indent (s.place.skip 1)
  return ({ s with keyAllowed := true }.push (.scalar text false)).moveTo p

/-- Takes a quoted scalar. -/
def takeQuoted (s : Scanner)
    (read : List Char → Gap → Nat → Nat → List Char → Option (String × Cursor)) :
    Option Scanner := do
  let s ← s.saveKey
  let (text, p) ← read [] .none s.place.line (s.place.column + 1) (s.place.rest.drop 1)
  return ({ s with keyAllowed := false }.push (.scalar text false)).moveTo p

/-- Takes a plain scalar. -/
def takePlain (s : Scanner) : Option Scanner := do
  let s ← s.saveKey
  let r ← readPlain s.inFlow (s.indent + 1) [] .none s.place.line s.place.column s.place.rest
  return ({ s with keyAllowed := r.endsLine }.push (.scalar r.text true)).moveTo r.after

/-- The characters that mean something at the start of a token. -/
def indicators : List Char :=
  ['-', '?', ':', ',', '[', ']', '\x7b', '\x7d', '#', '&', '*', '!', '|', '>', '\'', '"', '%', '@',
    '\x60']

/-- A plain scalar may start with the character: it is no indicator, or it is one that needs a gap
after it and has none. -/
def startsPlain (s : Scanner) (c : Char) : Bool :=
  ! (isGapOrBreak c || indicators.contains c)
    || (c == '-' && ! (s.place.rest.drop 1).head?.any isGap)
    || (! s.inFlow && (c == '?' || c == ':') && ! s.place.gapAt 1)

/-- Takes the token that starts with the character at the place. -/
def takeToken (s : Scanner) (c : Char) : Option Scanner :=
  let atLineStart := s.place.column == 0
  if atLineStart && c == '%' then s.takeDirective
  else if atLineStart && startsMarker '-' s.place.rest then s.takeDocumentMark .documentStart
  else if atLineStart && startsMarker '.' s.place.rest then s.takeDocumentMark .documentEnd
  else if c == '[' then s.takeFlowStart .flowSequenceStart
  else if c == '\x7b' then s.takeFlowStart .flowMappingStart
  else if c == ']' then s.takeFlowEnd .flowSequenceEnd
  else if c == '\x7d' then s.takeFlowEnd .flowMappingEnd
  else if c == ',' then s.takeFlowEntry
  else if c == '-' && s.place.gapAt 1 then s.takeBlockEntry
  else if c == '?' && (s.inFlow || s.place.gapAt 1) then s.takeKey
  else if c == ':' && (s.inFlow || s.place.gapAt 1) then s.takeValue
  else if c == '*' then s.takeAnchor .alias
  else if c == '&' then s.takeAnchor .anchor
  else if c == '!' then s.takeTag
  else if c == '|' && ! s.inFlow then s.takeBlockScalar false
  else if c == '>' && ! s.inFlow then s.takeBlockScalar true
  else if c == '\'' then s.takeQuoted readSingle
  else if c == '"' then s.takeQuoted readDouble
  else if s.startsPlain c then s.takePlain
  else none

/-- Takes tokens up to the end of the text, at most `fuel` of them. -/
def takeAll (s : Scanner) : Nat → Option Scanner
  | 0 => none
  | fuel + 1 => do
    let (p, keyAllowed) :=
      skipGaps s.inFlow s.keyAllowed false s.place.line s.place.column s.place.rest
    let s ← { s with place := p, keyAllowed }.dropStaleKeys
    match p.rest with
    | [] => (s.unroll (-1)).dropKey
    | c :: _ => takeAll (← (s.unroll p.column).takeToken c) fuel

end Scanner

/-- The tokens of a text. Every token takes a character at least, so there are no more of them than
characters, those apart that follow from the indentation. -/
def Token.readAll (cs : List Char) : Option (List Token) :=
  (Scanner.takeAll { place := ⟨cs, 0, 0⟩ } (cs.length + 1)).map fun s => s.tokens.reverse

end SearchFilter.Yaml
