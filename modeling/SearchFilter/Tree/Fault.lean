import SearchFilter.Json.Basic
import SearchFilter.Text.Inspect
import SearchFilter.Tree.Basic

/-!
# What can be wrong with a tree document

A well-formed JSON document need not be a search tree. Each way in which it can fail to be one has
a constructor, and `message` is its wording.
-/

namespace SearchFilter.Tree

/-- The shape of a JSON value that was not expected. -/
inductive Found where
  | null
  | bool (value : Bool)
  | whole (value : Int)
  | real (value : Decimal.Binary64)
  | text (value : String)
  | sequence
  | map
  deriving DecidableEq, Repr

/-- The shape of a JSON value. -/
def Found.ofJson : Json → Found
  | .null => .null
  | .bool b => .bool b
  | .number (.whole n) => .whole n
  | .number (.real x) => .real x
  | .string s => .text s
  | .array _ => .sequence
  | .object _ => .map

/-- A text between backquotes. -/
def backquoted (s : String) : String :=
  String.ofList ['\x60'] ++ s ++ String.ofList ['\x60']

/-- The wording of a shape. -/
def Found.message : Found → String
  | .null => "null"
  | .bool b => "boolean " ++ backquoted (if b then "true" else "false")
  | .whole n => "integer " ++ backquoted (toString n)
  | .real x => "floating point " ++ backquoted (Json.realLayout.render x)
  | .text s => "string " ++ Text.inspect s
  | .sequence => "sequence"
  | .map => "map"

/-- What a place of a tree document holds. -/
inductive Expected where
  | text
  | bool
  | sequence
  /-- One of a list of names. -/
  | choice
  | node
  /-- The tag of a node. -/
  | tag
  /-- Nothing, in the place of a value. -/
  | nothing
  deriving DecidableEq, Repr

/-- The wording of an expectation. -/
def Expected.message : Expected → String
  | .text => "a string"
  | .bool => "a boolean"
  | .sequence => "a sequence"
  | .choice => "string or map"
  | .node => "internally tagged enum SearchNode"
  | .tag => "variant identifier"
  | .nothing => "unit"

/-- Why a JSON value is not a search tree. -/
inductive Fault where
  | missingField (name : String)
  | wrongType (found : Found) (expected : Expected)
  /-- A choice is given as an object that has not exactly one member. -/
  | notSingleMember
  | unknownChoice (text : String) (known : List String)
  /-- A tag is given by its number, and there is no such kind. -/
  | unknownTagNumber (number : Int)
  /-- A node in array form ends before the last field that has no default. -/
  | tooShort (present : Nat) (kind : NodeKind)
  /-- A node in array form goes on after its last field. -/
  | tooLong (present : Nat) (kind : NodeKind)
  /-- A value of a rule is neither a literal nor a node. -/
  | notAValue
  deriving DecidableEq, Repr

namespace Fault

/-- The wording of a list of names to choose from. -/
def choices : List String → String
  | [a, b] => backquoted a ++ " or " ++ backquoted b
  | names => "one of " ++ String.intercalate ", " (names.map backquoted)

/-- The number of fields of a node, its tag not counted. -/
def fieldCount : NodeKind → Nat
  | .rule => 6
  | .condition => 4

/-- The name of a kind of nodes in messages. -/
def kindName : NodeKind → String
  | .rule => "Rule"
  | .condition => "Condition"

/-- The wording of a fault. -/
def message : Fault → String
  | .missingField name => "missing field " ++ backquoted name
  | .wrongType found expected =>
    "invalid type: " ++ found.message ++ ", expected " ++ expected.message
  | .notSingleMember => "invalid value: map, expected map with a single key"
  | .unknownChoice text known =>
    "unknown variant " ++ backquoted text ++ ", expected " ++ choices known
  | .unknownTagNumber number =>
    "invalid value: integer " ++ backquoted (toString number)
      ++ ", expected variant index 0 <= i < 2"
  | .tooShort present kind =>
    "invalid length " ++ toString present ++ ", expected struct " ++ kindName kind ++ " with "
      ++ toString (fieldCount kind) ++ " elements"
  | .tooLong present kind =>
    "invalid length " ++ toString present ++ ", expected " ++ toString (fieldCount kind)
      ++ " elements in sequence"
  | .notAValue => "data did not match any variant of untagged enum RuleValue"

end Fault

end SearchFilter.Tree
