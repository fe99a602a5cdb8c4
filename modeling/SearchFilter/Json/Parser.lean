import SearchFilter.Json.Token

/-!
# Reading JSON

The reader is a machine that takes one token after another. Its state holds the containers that are
open, innermost first, each with the values read so far, and says what may come next. At most
`depthLimit` containers are open at a time. A member that repeats a name replaces the earlier one.
-/

namespace SearchFilter.Json

/-- How many arrays and objects may be nested in one another. -/
def depthLimit : Nat := 127

/-- An open container that waits for a value, with what it holds so far, last first. -/
inductive Frame where
  | array (elements : List Json)
  | object (members : List Member) (name : String)

/-- What the machine has read and what may come next. -/
inductive State where
  /-- A value must come. -/
  | value (stack : List Frame)
  /-- An array was just opened: a value or the end of the array. -/
  | arrayStart (stack : List Frame)
  /-- An object was just opened: a name or the end of the object. -/
  | objectStart (stack : List Frame)
  /-- An element was read: a comma or the end of the array. -/
  | afterElement (elements : List Json) (stack : List Frame)
  /-- A member was read: a comma or the end of the object. -/
  | afterMember (members : List Member) (stack : List Frame)
  /-- A comma was read in an object: a name must come. -/
  | nextName (members : List Member) (stack : List Frame)
  /-- A name was read: a colon must come. -/
  | colon (members : List Member) (name : String) (stack : List Frame)
  /-- The document is complete. -/
  | done (value : Json)

namespace State

/-- Hands a complete value to the innermost open container. -/
def deliver (v : Json) : List Frame → State
  | [] => .done v
  | .array es :: stack => .afterElement (v :: es) stack
  | .object ms name :: stack => .afterMember (⟨name, v⟩ :: ms) stack

/-- Takes the first token of a value. -/
def startValue (stack : List Frame) : Token → Option State
  | .scalar v => some (deliver v stack)
  | .text s => some (deliver (.string s) stack)
  | .arrayOpen => if stack.length < depthLimit then some (.arrayStart stack) else none
  | .objectOpen => if stack.length < depthLimit then some (.objectStart stack) else none
  | _ => none

/-- Takes one token. -/
def step : State → Token → Option State
  | .value stack, t => startValue stack t
  | .arrayStart stack, .arrayClose => some (deliver (.array []) stack)
  | .arrayStart stack, t => startValue (.array [] :: stack) t
  | .objectStart stack, .objectClose => some (deliver (.object []) stack)
  | .objectStart stack, .text s => some (.colon [] s stack)
  | .afterElement es stack, .comma => some (.value (.array es :: stack))
  | .afterElement es stack, .arrayClose => some (deliver (.array es.reverse) stack)
  | .afterMember ms stack, .comma => some (.nextName ms stack)
  | .afterMember ms stack, .objectClose => some (deliver (ofMembers ms.reverse) stack)
  | .nextName ms stack, .text s => some (.colon ms s stack)
  | .colon ms name stack, .colon => some (.value (.object ms name :: stack))
  | _, _ => none

/-- Takes tokens until one is refused. -/
def run (s : State) : List Token → Option State
  | [] => some s
  | t :: ts => (s.step t).bind fun s' => run s' ts

end State

/-- The value that a run of tokens writes. -/
def ofTokens? (ts : List Token) : Option Json :=
  match State.run (.value []) ts with
  | some (.done v) => some v
  | _ => none

/-- The value of a document; none if the document is not well-formed. -/
def parse? (document : String) : Option Json :=
  (Token.readAll document.toList).bind ofTokens?

end SearchFilter.Json
