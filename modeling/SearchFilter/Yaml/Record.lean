import SearchFilter.Settings
import SearchFilter.Yaml.Node

/-!
# Reading settings from YAML

Settings are a mapping from the names of settings to their values. A text is taken as it is
written, whatever else the scalar might mean. An empty plain scalar, or no document at all, stands
for a mapping or a sequence without entries.
-/

namespace SearchFilter.Yaml

/-- The words that stand for no value. -/
def nullWords : List String := ["~", "null", "Null", "NULL"]

namespace Node

/-- The text of a scalar. -/
def text? : Node → Option String
  | .scalar s _ _ => some s
  | _ => none

/-- The text of a scalar, or that there is no value. A scalar with a tag of its own is a value, and
so is one between quotes. -/
def optionalText? : Node → Option (Option String)
  | .scalar s true none => some (if s.isEmpty || nullWords.contains s then none else some s)
  | .scalar s true (some tag) =>
    if tag = octetsOf "tag:yaml.org,2002:null" then (if nullWords.contains s then some none else none)
    else some (some s)
  | .scalar s false _ => some (some s)
  | _ => none

/-- The name that a tag chooses: what comes after an exclamation mark at its start. -/
def chosenBy? : List UInt8 → Option String
  | octet :: name => if octet = bang then String.fromUTF8? ⟨name.toArray⟩ else none
  | [] => none

/-- The name that a scalar chooses: its text or, where its tag chooses one, that name; after such a
tag there is no value. -/
def choice? : Node → Option String
  | .scalar s _ none => some s
  | .scalar s plain (some tag) =>
    match chosenBy? tag with
    | some name => if plain && (s.isEmpty || nullWords.contains s) then some name else none
    | none => some s
  | _ => none

/-- The items of a sequence. -/
def items? : Node → Option (List Node)
  | .sequence ns => some ns
  | .scalar s plain _ => if plain && s.isEmpty then some [] else none
  | _ => none

/-- The entries of a mapping. -/
def entries? : Node → Option (List (Node × Node))
  | .mapping es => some es
  | .scalar s plain _ => if plain && s.isEmpty then some [] else none
  | _ => none

/-- The texts of a sequence of scalars. -/
def texts? (n : Node) : Option (List String) := do
  (← n.items?).mapM text?

/-- The pairs of texts of a mapping from scalars to scalars. -/
def textPairs? (n : Node) : Option (List (String × String)) := do
  (← n.entries?).mapM fun e => do return (← e.1.text?, ← e.2.text?)

end Node

/-- The entries of the mapping in a text. -/
def entries? (text : String) : Option (List (Node × Node)) := do
  match ← parse? text with
  | none => some []
  | some n => n.entries?

/-- The settings of a text, in their order: known names only, and none twice. -/
def settings? (known : List String) (text : String) : Option (List (String × Node)) := do
  let settings ← (← entries? text).mapM fun e => do return (← e.1.text?, e.2)
  let names := settings.map Prod.fst
  if names.all known.contains && decide names.Nodup then some settings else none

section

variable {α : Type} (known : List String) (set? : α → String → Node → Option α)
  (validate : α → Except SettingsError Unit) (start : α)

/-- A record with the settings of a text, which are put one after the other into the one that there
is at the start. -/
def read? (text : String) : Option α := do
  (← settings? known text).foldlM (fun a s => set? a s.1 s.2) start

/-- A valid record with the settings of a text. -/
def load (text : String) : Except SettingsError α :=
  match read? known set? start text with
  | some a => (validate a).map fun _ => a
  | none => .error .malformed

end

end SearchFilter.Yaml
