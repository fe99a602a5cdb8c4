import SearchFilter.CommandLine.Run

/-!
# Directories in memory

A directory of files whose contents are held in memory, as the surroundings of a run. A path names a
file of the directory; a dot in front and repeated slashes do not matter. A path that starts with a
slash, or goes on after the file, names nothing.
-/

namespace SearchFilter.CommandLine

/-- Files by their names. -/
structure Directory where
  files : List (String × ByteArray)

namespace Directory

/-- The parts of a path between its slashes. -/
def parts (path : String) : List String :=
  path.splitOn "/"

/-- The name of the file in the directory to which a path leads. -/
def fileName (path : String) : String :=
  let ps := parts path
  if ps.head? = some "" then path
  else
    match ps.getLast? with
    | none | some "" | some "." => path
    | some _ => String.intercalate "/" (ps.filter fun p => p ≠ "" ∧ p ≠ ".")

/-- The content of the file to which a path leads. -/
def file? (d : Directory) (path : String) : Option ByteArray :=
  (d.files.find? fun f => f.1 == fileName path).map Prod.snd

/-- The directory and a standard input as the surroundings of a run. -/
def surroundings (d : Directory) (standardInput : ByteArray) : Surroundings :=
  ⟨d.file?, standardInput⟩

end Directory

end SearchFilter.CommandLine
