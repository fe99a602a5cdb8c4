import SearchFilter.Query.Writer

/-!
# Operations and registries

An operation writes the rules that it applies to. A registry holds operations with priorities. A
rule belongs to the first operation that applies to it, in the order of ascending priority and,
within a priority, of registration. No two operations of one priority may claim the same signature,
for then the order of registration would decide; the same signature at another priority is how one
operation overrides another.
-/

namespace SearchFilter

/-- What an operation sees while it writes a rule. -/
structure Context where
  dialect : Dialect
  /-- The query of a tree, written on its own by the same operations in the same dialect. The tree
  may be any, and its ids are not checked. -/
  compile : Node → Except QueryError String

/-- The query that is the value of a rule at a position, written on its own; none where the rule has
no embedded query. -/
def Context.embedded (cx : Context) (r : Rule) (i : Nat) : Option (Except QueryError String) :=
  (r.query? i).map cx.compile

/-- An operation of the query language. -/
structure Operation where
  name : String
  signature : Signature
  arity : Arity := .exactly 1
  /-- The operation is for the rule. -/
  applies : Rule → Bool := signature.accepts
  /-- Writes a rule that the operation applies to and that has the right number of values. -/
  write : Context → Rule → Writer Unit

/-- An operation and its priority. -/
structure Registration where
  priority : Int
  operation : Operation

namespace Registration

/-- The priority that is used where none is given. -/
def defaultPriority : Int := 100

/-- The two registrations claim the same rules at the same priority. -/
def collides (a b : Registration) : Bool :=
  a.priority == b.priority && a.operation.signature == b.operation.signature

/-- The first collision in a list: a registration and the latest one before it, out of `earlier`
and the list, with which it collides. The latest of `earlier` comes first. -/
def collision? (earlier : List Registration) :
    List Registration → Option (Registration × Registration)
  | [] => none
  | r :: rest =>
    match earlier.find? (collides r) with
    | some e => some (e, r)
    | none => collision? (r :: earlier) rest

end Registration

/-- The operations in the order in which they are looked up. -/
structure Registry where
  entries : List Registration

namespace Registry

/-- The registry without operations. -/
def empty : Registry := ⟨[]⟩

/-- The registry of a list of registrations, in the order of registration. -/
def build (registrations : List Registration) : Except QueryError Registry :=
  let entries := registrations.mergeSort fun a b => a.priority ≤ b.priority
  match Registration.collision? [] entries with
  | some (first, second) =>
    .error (.ambiguousOperator second.operation.signature second.priority first.operation.name
      second.operation.name)
  | none => .ok ⟨entries⟩

/-- The operation to which a rule belongs. -/
def find? (g : Registry) (r : Rule) : Option Operation :=
  (g.entries.map Registration.operation).find? fun o => o.applies r

/-- The number of operations. -/
def size (g : Registry) : Nat :=
  g.entries.length

end Registry

end SearchFilter
