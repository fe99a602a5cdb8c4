import SearchFilter.Text.Character
import SearchFilter.Tree.Basic
import SearchFilter.Yaml.Record

/-!
# Dialects of the query language

A dialect is the choice of the tokens around the clauses of a query: the delimiters of a group, the
words between its members, and the markers in front of a clause. A dialect that passes `validate`
has tokens that can be told apart where the query language needs it. It is loaded from YAML, as the
settings that differ from the standard ones, and has to be valid.
-/

namespace SearchFilter

/-- The tokens of the query language. -/
structure Dialect where
  groupOpen : String := "("
  groupClose : String := ")"
  andToken : String := "AND"
  orToken : String := "OR"
  mustMarker : String := "+"
  shouldMarker : String := ""
  excludeMarker : String := "-"
  /-- How a clause without a marker takes part in its group. -/
  implicitBoost : Boost := .should
  deriving DecidableEq, Repr

namespace Dialect

/-- The word between the members of a group. -/
def junctionToken (d : Dialect) : Junction → String
  | .and => d.andToken
  | .or => d.orToken

/-- What is wrong with the tokens, the delimiters first. Exclusion is never implicit, so it always
needs a marker. -/
def fault? (d : Dialect) : Option SettingsFault :=
  if d.groupOpen.isEmpty ∨ d.groupClose.isEmpty then some .emptyDelimiter
  else if d.groupOpen = d.groupClose then some (.equalDelimiters d.groupOpen)
  else if Text.isBlankText d.andToken ∨ Text.isBlankText d.orToken then some .blankJunction
  else if d.excludeMarker.isEmpty then some .emptyExcludeMarker
  else if d.implicitBoost = .exclude then some .implicitExclude
  else none

/-- Refuses tokens that contradict each other. -/
def validate (d : Dialect) : Except SettingsError Unit :=
  match d.fault? with
  | some fault => .error (.invalid fault)
  | none => .ok ()

/-! ## Dialects in YAML -/

/-- The names of the settings. -/
def settingNames : List String :=
  ["group_open", "group_close", "and_token", "or_token", "must_marker", "should_marker",
    "exclude_marker", "implicit_boost"]

/-- The dialect with one setting changed. -/
def set? (d : Dialect) (name : String) (value : Yaml.Node) : Option Dialect :=
  match name with
  | "group_open" => value.text?.map fun s => { d with groupOpen := s }
  | "group_close" => value.text?.map fun s => { d with groupClose := s }
  | "and_token" => value.text?.map fun s => { d with andToken := s }
  | "or_token" => value.text?.map fun s => { d with orToken := s }
  | "must_marker" => value.text?.map fun s => { d with mustMarker := s }
  | "should_marker" => value.text?.map fun s => { d with shouldMarker := s }
  | "exclude_marker" => value.text?.map fun s => { d with excludeMarker := s }
  | "implicit_boost" =>
    (value.choice?.bind Boost.ofName?).map fun b => { d with implicitBoost := b }
  | _ => none

/-- The dialect that a YAML document describes, which has to be valid. -/
def ofYaml : String → Except SettingsError Dialect :=
  Yaml.load settingNames set? validate {}

end Dialect

end SearchFilter
