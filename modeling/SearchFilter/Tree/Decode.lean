import SearchFilter.Json.Parser
import SearchFilter.Json.Printer
import SearchFilter.Tree.Ids

/-!
# Reading tree documents

A document becomes a tree in three steps. First the tags are looked at, in the root and in the
elements of every `children` and `values` array below it, so that an unknown kind of node is
reported as such. Then the nodes are read. Last the ids are checked.

A node is an object with a tag, or an array of the tag and the fields in their order. Fields that
have a default may be absent: the values and the mark of a rule, and all of a condition but its id.
Members of an object that are no fields are ignored. The first fault is that of the first bad
member in the order of the object; absent fields are reported after all members were read.
-/

namespace SearchFilter

namespace Tree

/-! ## Tags -/

/-- The text of a tag: a string as it is, any other value in compact form. -/
def tagText : Json → String
  | .string s => s
  | v => v.render

/-- The tag of the object, if it has one, names a kind of nodes. -/
def checkTag (members : List Json.Member) : Except QueryError Unit :=
  match Json.find? "nodeType" members with
  | none => .ok ()
  | some tag =>
    if (NodeKind.ofName? (tagText tag)).isSome then .ok ()
    else
      .error (.unsupportedNodeType (((Json.find? "id" members).bind Json.text?).getD "")
        (tagText tag))

mutual

/-- Checks the tags of an object and of the objects below it. -/
def checkTags : Json → Except QueryError Unit
  | .object members => do
    checkTag members
    checkTagsUnder "children" members
    checkTagsUnder "values" members
  | _ => .ok ()

/-- Checks the elements of the array in the named member. -/
def checkTagsUnder (name : String) : List Json.Member → Except QueryError Unit
  | [] => .ok ()
  | ⟨n, v⟩ :: rest => if n = name then checkTagsIn v else checkTagsUnder name rest

/-- Checks the elements of an array. -/
def checkTagsIn : Json → Except QueryError Unit
  | .array elements => checkAllTags elements
  | _ => .ok ()

/-- Checks values one after the other. -/
def checkAllTags : List Json → Except QueryError Unit
  | [] => .ok ()
  | v :: vs => do
    checkTags v
    checkAllTags vs

end

/-! ## Fields -/

/-- A string. -/
def decodeText : Json → Except Fault String
  | .string s => .ok s
  | v => .error (.wrongType (.ofJson v) .text)

/-- A truth value. -/
def decodeBool : Json → Except Fault Bool
  | .bool b => .ok b
  | v => .error (.wrongType (.ofJson v) .bool)

/-- Nothing: a null or an empty object. -/
def decodeNothing : Json → Except Fault Unit
  | .null => .ok ()
  | .object [] => .ok ()
  | v => .error (.wrongType (.ofJson v) .nothing)

/-- One of the names `known`. -/
def decodeName {α : Type} (ofName? : String → Option α) (known : List String) (s : String) :
    Except Fault α :=
  match ofName? s with
  | some a => .ok a
  | none => .error (.unknownChoice s known)

/-- One of the names `known`, as a string or as the only member of an object without a value. -/
def decodeChoice {α : Type} (ofName? : String → Option α) (known : List String) :
    Json → Except Fault α
  | .string s => decodeName ofName? known s
  | .object [⟨name, v⟩] => do
    let a ← decodeName ofName? known name
    decodeNothing v
    return a
  | .object _ => .error .notSingleMember
  | v => .error (.wrongType (.ofJson v) .choice)

/-- A value type. -/
def decodeType : Json → Except Fault ValueType :=
  decodeChoice ValueType.ofName? (ValueType.all.map ValueType.name)

/-- A junction. -/
def decodeJunction : Json → Except Fault Junction :=
  decodeChoice Junction.ofName? (Junction.all.map Junction.name)

/-- A boost. -/
def decodeBoost : Json → Except Fault Boost :=
  decodeChoice Boost.ofName? (Boost.all.map Boost.name)

/-- The tag of a node. Below the root a tag may also be the number of the kind. -/
def decodeTag (root : Bool) : Json → Except Fault NodeKind
  | .string s => decodeName NodeKind.ofName? (NodeKind.all.map NodeKind.name) s
  | .number (.whole n) =>
    if root ∨ n < 0 then .error (.wrongType (.whole n) .tag)
    else
      match NodeKind.all[n.toNat]? with
      | some k => .ok k
      | none => .error (.unknownTagNumber n)
  | v => .error (.wrongType (.ofJson v) .tag)

/-- A field that has to be there. -/
def require {α : Type} (name : String) : Option α → Except Fault α
  | some a => .ok a
  | none => .error (.missingField name)

/-- The fields of a rule that were read so far. -/
structure RuleFields where
  id : Option String := none
  field : Option String := none
  type : Option ValueType := none
  operation : Option String := none
  values : List Value := []
  optional : Bool := false

/-- The rule of the fields, if none is missing. -/
def RuleFields.toRule (f : RuleFields) : Except Fault Rule := do
  let id ← require "id" f.id
  let field ← require "field" f.field
  let type ← require "type" f.type
  let operation ← require "operation" f.operation
  return ⟨id, field, type, operation, f.values, f.optional⟩

/-- The fields of a condition that were read so far. -/
structure ConditionFields where
  id : Option String := none
  junction : Junction := .and
  boost : Boost := .none
  children : List Node := []

/-- The condition of the fields, if none is missing. -/
def ConditionFields.toCondition (f : ConditionFields) : Except Fault Condition := do
  let id ← require "id" f.id
  return ⟨id, f.junction, f.boost, f.children⟩

/-! ## Nodes -/

mutual

/-- Reads a node. -/
def decodeNode (root : Bool) : Json → Except Fault Node
  | .object members => do
    let tag ← require "nodeType" (Json.find? "nodeType" members)
    match ← decodeTag root tag with
    | .rule =>
      let fields ← decodeRuleMembers {} members
      return .rule (← fields.toRule)
    | .condition =>
      let fields ← decodeConditionMembers {} members
      return .condition (← fields.toCondition)
  | .array [] => .error (.missingField "nodeType")
  | .array (tag :: fields) => do
    match ← decodeTag root tag with
    | .rule => return .rule (← decodeRuleFields fields)
    | .condition => return .condition (← decodeConditionFields fields)
  | v => .error (.wrongType (.ofJson v) .node)

/-- Reads the members of a rule. -/
def decodeRuleMembers (f : RuleFields) : List Json.Member → Except Fault RuleFields
  | [] => .ok f
  | ⟨name, v⟩ :: rest => do
    if name = "id" then
      decodeRuleMembers { f with id := some (← decodeText v) } rest
    else if name = "field" then
      decodeRuleMembers { f with field := some (← decodeText v) } rest
    else if name = "type" then
      decodeRuleMembers { f with type := some (← decodeType v) } rest
    else if name = "operation" then
      decodeRuleMembers { f with operation := some (← decodeText v) } rest
    else if name = "values" then
      decodeRuleMembers { f with values := ← decodeValues v } rest
    else if name = "optional" then
      decodeRuleMembers { f with optional := ← decodeBool v } rest
    else
      decodeRuleMembers f rest

/-- Reads the members of a condition. -/
def decodeConditionMembers (f : ConditionFields) :
    List Json.Member → Except Fault ConditionFields
  | [] => .ok f
  | ⟨name, v⟩ :: rest => do
    if name = "id" then
      decodeConditionMembers { f with id := some (← decodeText v) } rest
    else if name = "junction" then
      decodeConditionMembers { f with junction := ← decodeJunction v } rest
    else if name = "boost" then
      decodeConditionMembers { f with boost := ← decodeBoost v } rest
    else if name = "children" then
      decodeConditionMembers { f with children := ← decodeChildren v } rest
    else
      decodeConditionMembers f rest

/-- Reads the fields of a rule in array form. -/
def decodeRuleFields : List Json → Except Fault Rule
  | [] => .error (.tooShort 0 .rule)
  | [id] => do
    let _ ← decodeText id
    .error (.tooShort 1 .rule)
  | [id, field] => do
    let _ ← decodeText id
    let _ ← decodeText field
    .error (.tooShort 2 .rule)
  | [id, field, type] => do
    let _ ← decodeText id
    let _ ← decodeText field
    let _ ← decodeType type
    .error (.tooShort 3 .rule)
  | [id, field, type, operation] => do
    return ⟨← decodeText id, ← decodeText field, ← decodeType type, ← decodeText operation, [],
      false⟩
  | [id, field, type, operation, values] => do
    return ⟨← decodeText id, ← decodeText field, ← decodeType type, ← decodeText operation,
      ← decodeValues values, false⟩
  | id :: field :: type :: operation :: values :: optional :: more => do
    let rule : Rule := ⟨← decodeText id, ← decodeText field, ← decodeType type,
      ← decodeText operation, ← decodeValues values, ← decodeBool optional⟩
    if more.isEmpty then return rule
    else .error (.tooLong (6 + more.length) .rule)

/-- Reads the fields of a condition in array form. -/
def decodeConditionFields : List Json → Except Fault Condition
  | [] => .error (.tooShort 0 .condition)
  | [id] => do
    return ⟨← decodeText id, .and, .none, []⟩
  | [id, junction] => do
    return ⟨← decodeText id, ← decodeJunction junction, .none, []⟩
  | [id, junction, boost] => do
    return ⟨← decodeText id, ← decodeJunction junction, ← decodeBoost boost, []⟩
  | id :: junction :: boost :: children :: more => do
    let condition : Condition := ⟨← decodeText id, ← decodeJunction junction, ← decodeBoost boost,
      ← decodeChildren children⟩
    if more.isEmpty then return condition
    else .error (.tooLong (4 + more.length) .condition)

/-- Reads the children of a condition. -/
def decodeChildren : Json → Except Fault (List Node)
  | .array elements => decodeAllNodes elements
  | v => .error (.wrongType (.ofJson v) .sequence)

/-- Reads nodes below the root. -/
def decodeAllNodes : List Json → Except Fault (List Node)
  | [] => .ok []
  | v :: vs => do
    let n ← decodeNode false v
    return n :: (← decodeAllNodes vs)

/-- Reads the values of a rule. -/
def decodeValues : Json → Except Fault (List Value)
  | .array elements => decodeAllValues elements
  | v => .error (.wrongType (.ofJson v) .sequence)

/-- Reads values one after the other. Whatever is wrong inside a value, the fault is that it is
none. -/
def decodeAllValues : List Json → Except Fault (List Value)
  | [] => .ok []
  | .string s :: vs => do
    return .literal s :: (← decodeAllValues vs)
  | v :: vs => do
    match decodeNode false v with
    | .ok n => return .query n :: (← decodeAllValues vs)
    | .error _ => .error .notAValue

end

end Tree

namespace Node

/-- The tree that a JSON value describes. -/
def ofJson (v : Json) : Except QueryError Node := do
  Tree.checkTags v
  match Tree.decodeNode true v with
  | .ok n =>
    n.checkIds
    return n
  | .error fault => .error (.invalidTree (.shape fault))

/-- The tree that a JSON document describes. -/
def ofDocument (document : String) : Except QueryError Node :=
  match Json.parse? document with
  | some v => ofJson v
  | none => .error (.invalidTree .notJson)

end Node

end SearchFilter
