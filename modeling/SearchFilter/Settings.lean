/-!
# Refused settings

Settings are refused if their file cannot be read, if it is not a document of the right shape, or
if the values contradict each other. A contradiction has a cause, and `message` is its wording.
-/

namespace SearchFilter

/-- What is wrong with settings that were read. -/
inductive SettingsFault where
  | emptyDelimiter
  | equalDelimiters (delimiter : String)
  | blankJunction
  | emptyExcludeMarker
  | implicitExclude
  | unlistedDefault (name : String)
  | emptyMapping (field : String)
  /-- The template does not hold the place of the query exactly once. -/
  | querySlot (template : String)
  /-- The template does not hold the place of the field. -/
  | fieldSlot (template : String)
  deriving DecidableEq, Repr

/-- The wording of a fault. -/
def SettingsFault.message : SettingsFault → String
  | .emptyDelimiter => "group delimiters must not be empty"
  | .equalDelimiters d => "group delimiters must differ, both are '" ++ d ++ "'"
  | .blankJunction => "junction tokens must not be blank"
  | .emptyExcludeMarker => "exclude_marker must not be empty"
  | .implicitExclude => "implicit_boost cannot be EXCLUDE"
  | .unlistedDefault name => "default_prefix '" ++ name ++ "' is not listed in prefixes"
  | .emptyMapping field => "field '" ++ field ++ "' maps to an empty identifier"
  | .querySlot t => "traversal template '" ++ t ++ "' must contain $query exactly once"
  | .fieldSlot t => "traversal template '" ++ t ++ "' must contain $field"

/-- Why settings are refused. -/
inductive SettingsError where
  /-- The file cannot be read as text. -/
  | unreadable
  /-- The text is no YAML document, or one of the wrong shape. -/
  | malformed
  | invalid (fault : SettingsFault)
  deriving DecidableEq, Repr

/-- The wording of an error. -/
def SettingsError.message : SettingsError → String
  | .unreadable => "failed to read"
  | .malformed => "invalid YAML"
  | .invalid fault => "invalid configuration: " ++ fault.message

end SearchFilter
