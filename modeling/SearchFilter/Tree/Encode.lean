import SearchFilter.Json.Printer
import SearchFilter.Tree.Basic

/-!
# Writing tree documents

A node is an object whose first member is its tag; the other members follow in a fixed order. The
mark of an optional rule is written only where it is set. A value is a string or, for an embedded
query, an object.
-/

namespace SearchFilter

mutual

/-- The JSON form of a node. -/
def Node.toJson : Node → Json
  | .rule ⟨id, field, type, operation, values, optional⟩ =>
    .object <|
      [⟨"nodeType", .string NodeKind.rule.name⟩, ⟨"id", .string id⟩, ⟨"field", .string field⟩,
        ⟨"type", .string type.name⟩, ⟨"operation", .string operation⟩,
        ⟨"values", .array (Value.toJsonAll values)⟩]
      ++ if optional then [⟨"optional", .bool true⟩] else []
  | .condition ⟨id, junction, boost, children⟩ =>
    .object
      [⟨"nodeType", .string NodeKind.condition.name⟩, ⟨"id", .string id⟩,
        ⟨"junction", .string junction.name⟩, ⟨"boost", .string boost.name⟩,
        ⟨"children", .array (Node.toJsonAll children)⟩]

/-- The JSON forms of nodes. -/
def Node.toJsonAll : List Node → List Json
  | [] => []
  | n :: ns => n.toJson :: Node.toJsonAll ns

/-- The JSON forms of values. -/
def Value.toJsonAll : List Value → List Json
  | [] => []
  | .literal s :: vs => .string s :: Value.toJsonAll vs
  | .query n :: vs => n.toJson :: Value.toJsonAll vs

end

/-- The compact document of a tree. -/
def Node.render (n : Node) : String :=
  n.toJson.render

end SearchFilter
