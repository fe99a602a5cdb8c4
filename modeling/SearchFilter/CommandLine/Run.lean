import SearchFilter.Catalogue
import SearchFilter.CommandLine.Arguments
import SearchFilter.Dialect
import SearchFilter.Field.Namespaces
import SearchFilter.Query.Compile
import SearchFilter.Tree.Decode

/-!
# Runs

A run reads its settings and its tree and prints what was asked for. It goes through its stages in a
fixed order and stops at the first one that fails: the namespaces, the registry, the dialect, the
text of the tree, the tree, the query. It prints last.
-/

namespace SearchFilter.CommandLine

/-- What a run sees of its surroundings. -/
structure Surroundings where
  /-- The content of a file, if it can be read. -/
  file? : String → Option ByteArray
  /-- What comes in without being asked for by name. -/
  standardInput : ByteArray

/-- The cause of a failure. -/
inductive Cause where
  | query (e : QueryError)
  | settings (e : SettingsError)
  /-- A text cannot be read. -/
  | unreadable
  deriving DecidableEq, Repr

/-- A failure: what the run was doing, and the cause. -/
structure Failure where
  context : String
  cause : Cause
  deriving DecidableEq, Repr

/-- A run in progress: it sees the text printed so far and may fail. What was printed before a
failure stays printed. -/
abbrev Session := EStateM Failure String

namespace Session

/-- Prints a text. -/
def print (text : String) : Session Unit :=
  modify (· ++ text)

/-- Goes on with a computation that does not print. -/
def lift {α : Type} : Except Failure α → Session α
  | .ok a => pure a
  | .error f => throw f

end Session

/-- Does a step of a run in a context. -/
def inContext {ε α : Type} (context : String) (cause : ε → Cause) :
    Except ε α → Except Failure α
  | .ok a => .ok a
  | .error e => .error ⟨context, cause e⟩

/-- The content of a file as text. -/
def Surroundings.text? (s : Surroundings) (path : String) : Option String :=
  (s.file? path).bind String.fromUTF8?

/-- Settings from a file. -/
def loadFrom {α : Type} (s : Surroundings) (ofYaml : String → Except SettingsError α)
    (path : String) : Except SettingsError α :=
  match s.text? path with
  | some text => ofYaml text
  | none => .error .unreadable

/-- The namespaces of a run. -/
def loadNamespaces (s : Surroundings) : Option String → Except Failure Namespaces
  | none => .ok {}
  | some path =>
    inContext ("failed to load namespaces from " ++ path) .settings
      (loadFrom s Namespaces.ofYaml path)

/-- The dialect of a run. -/
def loadDialect (s : Surroundings) : Option String → Except Failure Dialect
  | none => .ok {}
  | some path =>
    inContext ("failed to load syntax from " ++ path) .settings (loadFrom s Dialect.ofYaml path)

/-- The path that stands for the standard input. -/
def standardInputPath : String := "-"

/-- The text of a tree. -/
def readTree (s : Surroundings) (path : String) : Except Failure String :=
  if path = standardInputPath then
    match String.fromUTF8? s.standardInput with
    | some text => .ok text
    | none => .error ⟨"failed to read tree from stdin", .unreadable⟩
  else
    match s.text? path with
    | some text => .ok text
    | none => .error ⟨"failed to read " ++ path, .unreadable⟩

/-- The query of a document. -/
def compileDocument (c : Compiler) (document : String) : Except Failure String := do
  let tree ← inContext "failed to decode criteria tree" .query (Node.ofDocument document)
  inContext ("failed to compile tree '" ++ tree.id ++ "'") .query (c.compile tree)

/-- The text with spaces before it up to a width. -/
def padLeft (width : Nat) (s : String) : String :=
  String.ofList (List.replicate (width - s.length) ' ') ++ s

/-- The text with spaces behind it up to a width. -/
def padRight (width : Nat) (s : String) : String :=
  s ++ String.ofList (List.replicate (width - s.length) ' ')

/-- A line for each operation: its priority, its signature and its name. -/
def operationList (g : Registry) : String :=
  let width := (g.entries.map fun r => r.operation.signature.render.utf8ByteSize).foldl max 0
  String.join <| g.entries.map fun r =>
    padLeft 4 (toString r.priority) ++ "  " ++ padRight width r.operation.signature.render ++ "  "
      ++ r.operation.name ++ "\n"

/-- The operations of a run. -/
def loadRegistry (ns : Namespaces) : Except Failure Registry :=
  inContext "failed to build operation registry" .query
    (Registry.build (StockOperation.registrations ns Clause.Traversal.standard))

/-- Does what was asked for. -/
def perform (s : Surroundings) (request : Request) : Session Unit := do
  let ns ← Session.lift (loadNamespaces s request.namespaces)
  let registry ← Session.lift (loadRegistry ns)
  match request.task with
  | .compile tree dialect =>
    let dialect ← Session.lift (loadDialect s dialect)
    let document ← Session.lift (readTree s tree)
    let query ← Session.lift (compileDocument ⟨registry, dialect⟩ document)
    Session.print (query ++ "\n")
  | .operations => Session.print (operationList registry)

/-- What a run prints, if it does not fail. -/
def run (s : Surroundings) (request : Request) : Except Failure String :=
  match (perform s request).run "" with
  | .ok _ printed => .ok printed
  | .error failure _ => .error failure

end SearchFilter.CommandLine
