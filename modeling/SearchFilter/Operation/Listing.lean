import SearchFilter.Operation.Registry
import SearchFilter.Text.Inspect

/-!
# Listings of operations

The forms in which operations and registries are shown for diagnosis.
-/

namespace SearchFilter

/-- The value type in listings. -/
def ValueType.listing : ValueType → String
  | .string => "String"
  | .numeric => "Numeric"
  | .boolean => "Boolean"
  | .date => "Date"
  | .uri => "Uri"

/-- A record: its name and its fields with their values. -/
def recordListing (name : String) (fields : List (String × String)) : String :=
  name ++ " \x7b " ++ String.intercalate ", " (fields.map fun f => f.1 ++ ": " ++ f.2) ++ " \x7d"

/-- The signature in listings. -/
def Signature.listing (s : Signature) : String :=
  recordListing "Signature"
    [("value_type", s.type.listing), ("operation", Text.inspect s.operation)]

/-- The operation in listings. -/
def Operation.listing (o : Operation) : String :=
  recordListing "Operation" [("name", Text.inspect o.name), ("signature", o.signature.listing)]

/-- The registered operation in listings. -/
def Registration.listing (r : Registration) : String :=
  recordListing "RegisteredOperation"
    [("priority", toString r.priority), ("name", Text.inspect r.operation.name),
      ("signature", r.operation.signature.listing)]

/-- The registry in listings. -/
def Registry.listing (g : Registry) : String :=
  "[" ++ String.intercalate ", " (g.entries.map Registration.listing) ++ "]"

end SearchFilter
