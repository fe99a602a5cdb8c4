import SearchFilter.Clause.Operand
import SearchFilter.Query.Writer

/-!
# Traversals

A traversal follows the relation that a field holds to whatever matches an embedded query. Its form
is a template with places for the field and for the query: the place of the query occurs exactly
once, that of the field at least once. Both places are filled at once, so a field or a query that
itself looks like a place stays as it is.
-/

namespace SearchFilter.Clause

open Query (Token)

/-- The place of the field. -/
def fieldSlot : List Char := ['$', 'f', 'i', 'e', 'l', 'd']

/-- The place of the query. -/
def querySlot : List Char := ['$', 'q', 'u', 'e', 'r', 'y']

/-- Cuts a text at every occurrence of a pattern, from left to right; `part` is the current part,
last character first, and `skip` counts the characters of an occurrence that are still to come. -/
def splitFrom (pattern part : List Char) (skip : Nat) : List Char → List (List Char)
  | [] => [part.reverse]
  | c :: cs =>
    match skip with
    | k + 1 => splitFrom pattern part k cs
    | 0 =>
      if pattern.isPrefixOf (c :: cs) then
        part.reverse :: splitFrom pattern [] (pattern.length - 1) cs
      else splitFrom pattern (c :: part) 0 cs

/-- The parts of a text between the occurrences of a pattern that is not empty. -/
def splitOn (pattern cs : List Char) : List (List Char) :=
  splitFrom pattern [] 0 cs

/-- The text with every occurrence of a pattern replaced. -/
def replace (pattern replacement cs : List Char) : List Char :=
  replacement.intercalate (splitOn pattern cs)

/-- The form of a traversal: what comes before the query and what comes after it. -/
structure Traversal where
  before : List Char
  after : List Char
  deriving DecidableEq, Repr

namespace Traversal

/-- The form that is used where none is given. -/
def standard : Traversal :=
  ⟨fieldSlot ++ [':', '\x7b'], ['\x7d']⟩

/-- The form that a template describes. -/
def ofTemplate (template : String) : Except SettingsError Traversal :=
  match splitOn querySlot template.toList with
  | [before, after] =>
    if (splitOn fieldSlot template.toList).length < 2 then
      .error (.invalid (.fieldSlot template))
    else .ok ⟨before, after⟩
  | _ => .error (.invalid (.querySlot template))

/-- The traversal of a field to the results of a query. -/
def fill (t : Traversal) (field query : String) : String :=
  String.ofList (replace fieldSlot field.toList t.before) ++ query
    ++ String.ofList (replace fieldSlot field.toList t.after)

/-- The clause of a rule, given the text of the query that is its first value, if that is a query.
The text must not be empty. -/
def clause (t : Traversal) (inverted : Bool) (res : Resolver)
    (embedded : Option (Except QueryError String)) (r : Rule) :
    Except QueryError (List Token) := do
  let field ← fieldOf res r
  match embedded with
  | none => .error (.malformed r .noEmbeddedQuery)
  | some result =>
    let query ← result
    if query.isEmpty then .error (.malformed r .emptyEmbeddedQuery)
    else
      let ts := [Token.text (t.fill field query)]
      return if inverted then Token.negated ts else ts

end Traversal

end SearchFilter.Clause
