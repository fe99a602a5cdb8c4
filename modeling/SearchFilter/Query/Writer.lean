import SearchFilter.Dialect
import SearchFilter.Error

/-!
# Writing a query

A query is written into one text from left to right. A step of writing sees the text so far, adds
to it and may fail; the text written before the failure is kept with the error. The steps are the
tokens of the clauses. The text of a clause does not depend on the dialect, but for the delimiters
of groups, the words between alternatives and the markers; each of these has a token of its own,
which the dialect spells.
-/

namespace SearchFilter

/-- A step of writing a query. -/
abbrev Writer := EStateM QueryError String

namespace Writer

/-- Adds a text at the end. -/
def append (s : String) : Writer Unit :=
  modify (· ++ s)

/-- Goes on with a computation that does not write. -/
def lift {α : Type} : Except QueryError α → Writer α
  | .ok a => pure a
  | .error e => throw e

/-- The text that a step writes when nothing was written before. -/
def text (w : Writer Unit) : Except QueryError String :=
  match w.run "" with
  | .ok _ s => .ok s
  | .error e _ => .error e

end Writer

/-! ## Markers

A marker in front of a clause or a group tells how it takes part in the group around it. No boost
has no marker, exclusion always has one, and the other two have one only where they differ from
what the dialect implies. A marker directly follows the start of a group or a blank; after anything
else a space comes first. -/

/-- Where in a query the next clause starts. -/
inductive Position where
  | groupStart
  | afterContent
  deriving DecidableEq, Repr

/-- The position at the end of a text: the start of a group if nothing was written yet or the text
ends with an opening delimiter. -/
def Position.atEnd (d : Dialect) (text : String) : Position :=
  if text.isEmpty ∨ d.groupOpen.toList.isSuffixOf text.toList then .groupStart else .afterContent

namespace Dialect

/-- The marker of a boost. An empty marker is none. -/
def marker? (d : Dialect) (b : Boost) : Option String :=
  match b with
  | .none => none
  | .exclude => visible d.excludeMarker
  | .must => if d.implicitBoost = .must then none else visible d.mustMarker
  | .should => if d.implicitBoost = .should then none else visible d.shouldMarker
where
  /-- The token, if it is not empty. -/
  visible (s : String) : Option String :=
    if s.isEmpty then none else some s

/-- The marker of a boost with the space it needs after the preceding text. -/
def mark? (d : Dialect) (b : Boost) (position : Position) (preceding : String) : Option String :=
  (d.marker? b).map fun m =>
    if position = .afterContent ∧ ¬ Text.endsBlank preceding then " " ++ m else m

/-- Writes the marker of a boost, and tells whether there is one. -/
def writeMark (d : Dialect) (b : Boost) : Writer Bool := do
  let text ← get
  match d.mark? b (.atEnd d text) text with
  | some m =>
    Writer.append m
    return true
  | none => return false

/-- Writes a clause as an excluded group. -/
def writeNegated (d : Dialect) (clause : Writer Unit) : Writer Unit := do
  let _ ← d.writeMark .exclude
  Writer.append d.groupOpen
  clause
  Writer.append d.groupClose

end Dialect

/-! ## Tokens -/

namespace Query

/-- A piece of a clause. -/
inductive Token where
  | text (s : String)
  | groupOpen
  | groupClose
  /-- The junction between two members, with a space on both sides. -/
  | junction (j : Junction)
  | mark (b : Boost)
  deriving DecidableEq, Repr

namespace Token

/-- Writes a token. -/
def write (d : Dialect) : Token → Writer Unit
  | .text s => Writer.append s
  | .groupOpen => Writer.append d.groupOpen
  | .groupClose => Writer.append d.groupClose
  | .junction j => Writer.append (" " ++ d.junctionToken j ++ " ")
  | .mark b => do
    let _ ← d.writeMark b

/-- Writes tokens one after the other. -/
def writeAll (d : Dialect) : List Token → Writer Unit
  | [] => pure ()
  | t :: ts => do
    t.write d
    writeAll d ts

/-- The clause as an excluded group. -/
def negated (ts : List Token) : List Token :=
  .mark .exclude :: .groupOpen :: (ts ++ [.groupClose])

/-- The clauses with a junction between them. -/
def joined (j : Junction) : List (List Token) → List Token
  | [] => []
  | [ts] => ts
  | ts :: rest => ts ++ .junction j :: joined j rest

end Token

end Query

end SearchFilter
