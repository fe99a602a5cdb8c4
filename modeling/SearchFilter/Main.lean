import SearchFilter.CommandLine.Directory

/-!
# The program

Reads the arguments, fetches the files that the run may ask for, does the run, and prints its text
or why there is none.
-/

open SearchFilter CommandLine

/-- The paths of the files that a run may ask for. -/
def SearchFilter.CommandLine.Request.paths (r : Request) : List String :=
  r.namespaces.toList ++
    match r.task with
    | .compile tree dialect =>
      dialect.toList ++ if tree = standardInputPath then [] else [tree]
    | .operations => []

/-- The wording of a cause. -/
def SearchFilter.CommandLine.Cause.message : Cause → String
  | .query e => e.message
  | .settings e => e.message
  | .unreadable => "the text cannot be read"

/-- How the program is used. -/
def usageText : String :=
  "Usage: search-filter [-v]... [--namespaces FILE] compile TREE [--syntax FILE]\n"
    ++ "       search-filter [-v]... [--namespaces FILE] operations\n"

/-- The content of a file, if it can be read. -/
def fetch (path : String) : IO (Option (String × ByteArray)) := do
  try
    return some (path, ← IO.FS.readBinFile path)
  catch _ =>
    return none

/-- Does the run that was asked for. -/
def execute (request : Request) : IO UInt32 := do
  let files ← request.paths.filterMapM fetch
  let input ←
    match request.task with
    | .compile tree _ =>
      if tree = standardInputPath then (← IO.getStdin).readBinToEnd else pure ByteArray.empty
    | .operations => pure ByteArray.empty
  let file? (path : String) : Option ByteArray :=
    (files.find? fun f => f.1 == path).map Prod.snd
  match (perform ⟨file?, input⟩ request).run "" with
  | .ok _ printed =>
    IO.print printed
    return 0
  | .error failure printed =>
    IO.print printed
    IO.eprintln ("Error: " ++ failure.context ++ ": " ++ failure.cause.message)
    return 1

/-- Runs the program. -/
def main (arguments : List String) : IO UInt32 := do
  match CommandLine.read arguments with
  | .ok request => execute request
  | .error .help =>
    IO.print usageText
    return 0
  | .error .version =>
    IO.println "search-filter"
    return 0
  | .error _ =>
    IO.eprint usageText
    return 2
