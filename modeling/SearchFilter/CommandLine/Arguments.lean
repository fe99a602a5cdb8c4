/-!
# Command line arguments

The program has two commands. `compile` takes the path of a tree and perhaps the path of a dialect,
`operations` takes nothing. Before and after the command there may be flags that ask for more
diagnosis and the path of a namespaces file; the path after the command counts if both are given.
Arguments are read from left to right. The value of an option is looked at when the next option or
positional argument, or the end, shows that it is complete, so of two faults the one that shows
first is reported.
-/

namespace SearchFilter.CommandLine

/-- A command of the program. -/
inductive Command where
  | compile
  | operations
  deriving DecidableEq, Repr

namespace Command

/-- Both commands. -/
def all : List Command := [.compile, .operations]

/-- The name of a command. -/
def name : Command → String
  | .compile => "compile"
  | .operations => "operations"

/-- The command with the name. -/
def ofName? (s : String) : Option Command :=
  all.find? fun c => c.name == s

end Command

/-- The name of the command that shows how the program is used. -/
def helpName : String := "help"

/-- Why the arguments do not lead to a run. -/
inductive Usage where
  | help
  | version
  /-- There are no arguments at all. -/
  | nothingAsked
  | missingCommand
  | unknownCommand
  | missingArgument
  | unknownArgument
  | invalidValue
  | repeatedOption
  | valueForFlag
  deriving DecidableEq, Repr

/-- What arguments are read for: to find the command, or within one. -/
inductive Level where
  | top
  | within (c : Command)
  deriving DecidableEq, Repr

/-- A place for a path. -/
inductive Slot where
  | namespaces
  | dialect
  | tree
  deriving DecidableEq, Repr

/-- A flag. -/
inductive Flag where
  | verbose
  | help
  | version
  deriving DecidableEq, Repr

/-- What the name of an option stands for. -/
inductive Meaning where
  | flag (f : Flag)
  | slot (s : Slot)
  deriving DecidableEq, Repr

/-- The options with long names. -/
def Level.long? (level : Level) (name : String) : Option Meaning :=
  match name with
  | "verbose" => some (.flag .verbose)
  | "help" => some (.flag .help)
  | "version" => if level = .top then some (.flag .version) else none
  | "namespaces" => some (.slot .namespaces)
  | "syntax" => if level = .within .compile then some (.slot .dialect) else none
  | _ => none

/-- The flags with short names. -/
def Level.short? (level : Level) (name : Char) : Option Flag :=
  match name with
  | 'v' => some .verbose
  | 'h' => some .help
  | 'V' => if level = .top then some .version else none
  | _ => none

/-- The place of the positional argument that follows `count` others. -/
def Level.positional? (level : Level) (count : Nat) : Option Slot :=
  if level = .within .compile ∧ count = 0 then some .tree else none

/-- The arguments of one level that were read so far. -/
structure Progress where
  namespaces : Option String := none
  dialect : Option String := none
  tree : Option String := none
  /-- A flag that asks for more diagnosis was given. -/
  verbose : Bool := false
  /-- An option or a positional argument that may not be complete, and its value. -/
  pending : Option (Slot × Option String) := none
  /-- The next argument that looks like a value belongs to the pending option. -/
  wantsValue : Bool := false
  /-- Only positional arguments follow. -/
  onlyPositional : Bool := false
  /-- The number of positional arguments. -/
  positionals : Nat := 0
  deriving DecidableEq, Repr

namespace Progress

/-- The path in a place. -/
def get? (p : Progress) : Slot → Option String
  | .namespaces => p.namespaces
  | .dialect => p.dialect
  | .tree => p.tree

/-- Puts a path in a place. -/
def put (p : Progress) (slot : Slot) (path : String) : Progress :=
  match slot with
  | .namespaces => { p with namespaces := some path }
  | .dialect => { p with dialect := some path }
  | .tree => { p with tree := some path }

/-- Takes what is pending as complete. A path is not empty, and is given once. -/
def settle (p : Progress) : Except Usage Progress :=
  match p.pending with
  | none => .ok p
  | some (_, none) => .error .invalidValue
  | some (slot, some path) =>
    if (p.get? slot).isSome then .error .repeatedOption
    else if path.isEmpty then .error .invalidValue
    else .ok { p.put slot path with pending := none, wantsValue := false }

/-- Takes a flag. -/
def takeFlag (p : Progress) (f : Flag) : Except Usage Progress := do
  let p ← p.settle
  match f with
  | .verbose => return { p with verbose := true }
  | .help => .error .help
  | .version => .error .version

/-- Takes flags with short names, one after the other. -/
def takeFlags (level : Level) (p : Progress) : List Char → Except Usage Progress
  | [] => .ok p
  | c :: cs =>
    match level.short? c with
    | some f => do
      let p ← p.takeFlag f
      takeFlags level p cs
    | none => .error .unknownArgument

/-- Takes an option with a long name and perhaps a value behind an equals sign. -/
def takeLong (level : Level) (p : Progress) (name : String) (value : Option String) :
    Except Usage Progress :=
  match level.long? name, value with
  | none, _ => .error .unknownArgument
  | some (.flag f), none => p.takeFlag f
  | some (.flag _), some _ => .error .valueForFlag
  | some (.slot slot), some path => do
    let p ← p.settle
    { p with pending := some (slot, some path) }.settle
  | some (.slot slot), none => do
    let p ← p.settle
    return { p with pending := some (slot, none), wantsValue := true }

/-- Takes an argument that is neither an option nor a command. -/
def takePositional (level : Level) (p : Progress) (argument : String) : Except Usage Progress :=
  match level.positional? p.positionals with
  | some slot => do
    let p ← p.settle
    return { p with pending := some (slot, some argument), positionals := p.positionals + 1 }
  | none =>
    if level = .top ∧ ¬ (p.onlyPositional
        ∧ ((Command.ofName? argument).isSome ∨ argument = helpName)) then
      .error .unknownCommand
    else .error .unknownArgument

/-- Takes an argument that is no command. -/
def take (level : Level) (p : Progress) (argument : String) : Except Usage Progress :=
  if p.onlyPositional then p.takePositional level argument
  else
    match argument.toList with
    | ['-', '-'] => .ok { p with onlyPositional := true }
    | '-' :: '-' :: rest =>
      let name := String.ofList (rest.takeWhile (· != '='))
      match rest.dropWhile (· != '=') with
      | [] => p.takeLong level name none
      | _ :: value => p.takeLong level name (some (String.ofList value))
    | '-' :: c :: cs => takeFlags level p (c :: cs)
    | _ =>
      match p.wantsValue, p.pending with
      | true, some (slot, _) =>
        .ok { p with pending := some (slot, some argument), wantsValue := false }
      | _, _ => p.takePositional level argument

/-- Takes all arguments within a command. -/
def takeAll (level : Level) (p : Progress) : List String → Except Usage Progress
  | [] => p.settle
  | a :: rest => do
    let p ← p.take level a
    takeAll level p rest

end Progress

/-- What a run is asked to do. -/
inductive Task where
  | compile (tree : String) (dialect : Option String)
  | operations
  deriving DecidableEq, Repr

/-- The run that the arguments ask for. -/
structure Request where
  namespaces : Option String
  task : Task
  deriving DecidableEq, Repr

/-- What `help` with the names of commands leads to. -/
def helpOn (names : List String) : Usage :=
  match names with
  | [] => .help
  | [name] => if (Command.ofName? name).isSome ∨ name = helpName then .help else .unknownCommand
  | _ => .unknownCommand

/-- The task of a command with its arguments. -/
def taskOf (c : Command) (p : Progress) : Except Usage Task :=
  match c, p.tree with
  | .compile, some tree => .ok (.compile tree p.dialect)
  | .compile, none => .error .missingArgument
  | .operations, _ => .ok .operations

/-- Reads the arguments up to the command and those within it. -/
def readFrom (p : Progress) : List String → Except Usage Request
  | [] => do
    let p ← p.settle
    if p.namespaces.isSome ∨ p.verbose then .error .missingCommand else .error .nothingAsked
  | a :: rest =>
    if p.onlyPositional ∨ p.wantsValue then do
      readFrom (← p.take .top a) rest
    else if a = helpName then .error (helpOn rest)
    else
      match Command.ofName? a with
      | some c => do
        let inner ← Progress.takeAll (.within c) {} rest
        let task ← taskOf c inner
        let p ← p.settle
        return ⟨inner.namespaces.or p.namespaces, task⟩
      | none => do
        readFrom (← p.take .top a) rest

/-- The run that the arguments ask for, or why there is none. -/
def read (arguments : List String) : Except Usage Request :=
  readFrom {} arguments

end SearchFilter.CommandLine
