import SearchFilter.Decimal.Shortest
import SearchFilter.Order.Keyed

/-!
# JSON values

An object is a list of members. `ofMembers` puts them in ascending order of their names with one
member for each name, and documents are read that way. A number is either a whole number in the
range of 64-bit words or a double.
-/

namespace SearchFilter.Json

/-- A JSON number. A whole number lies between `-2 ^ 63` and `2 ^ 64 - 1`. -/
inductive Number where
  | whole (value : Int)
  | real (value : Decimal.Binary64)
  deriving DecidableEq, Repr

end SearchFilter.Json

namespace SearchFilter

mutual

/-- A JSON value. -/
inductive Json where
  | null
  | bool (value : Bool)
  | number (value : Json.Number)
  | string (value : String)
  | array (elements : List Json)
  | object (members : List Json.Member)

/-- A named value of an object. -/
structure Json.Member where
  name : String
  value : Json

end

namespace Json

/-- The object with the given members, the last of equal names winning. -/
def ofMembers (members : List Member) : Json :=
  .object (Order.ofListBy Member.name members)

/-- The value of the member with the name. -/
def find? (name : String) (members : List Member) : Option Json :=
  (Order.findBy? Member.name name members).map Member.value

/-- The text, of a string only. -/
def text? : Json → Option String
  | .string s => some s
  | _ => none

/-- The way doubles are written: with a point in place from five zeros after the point up to
sixteen digits before it, else with a signed exponent; whole numbers end in `.0`. -/
def realLayout : Decimal.Layout := ⟨-5, 16, "+", ".0"⟩

/-- The text of a number. -/
def Number.render : Number → String
  | .whole n => toString n
  | .real x => realLayout.render x

end Json

end SearchFilter
