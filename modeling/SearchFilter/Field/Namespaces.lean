import SearchFilter.Order.Keyed
import SearchFilter.Text.Character
import SearchFilter.Yaml.Record

/-!
# Fields and their namespaces

A field is identified by a name, or by the name of a namespace and a name with a colon between. A
name starts with an ASCII letter or an underscore and goes on with word characters, dots and
dashes, so an identifier has no character that the query language reads as an operator other than
the colon and the dash.

A rule names a field briefly, and the namespaces tell its full identifier. A field with an entry of
its own is replaced by that entry. A field that names a namespace stays as it is if the namespace is
known, and every namespace is known where none is listed. Any other field goes into the default
namespace, if there is one. Whatever identifies fields, by namespaces or otherwise, is a resolver.
-/

namespace SearchFilter

/-! ## Identifiers -/

namespace Field

/-- The character may start a name. -/
def isNameStart (c : Char) : Bool :=
  Text.isAsciiLetter c || c == '_'

/-- The character may stand in a name. -/
def isNameChar (c : Char) : Bool :=
  Text.isWord c || c == '.' || c == '-'

/-- The characters form a name. -/
def isName : List Char → Bool
  | [] => false
  | c :: cs => isNameStart c && cs.all isNameChar

/-- What comes before the first colon and, if there is one, what comes after it. -/
def splitAtColon (cs : List Char) : List Char × Option (List Char) :=
  match cs.dropWhile (· != ':') with
  | [] => (cs, none)
  | _ :: rest => (cs.takeWhile (· != ':'), some rest)

/-- The text identifies a field. -/
def isIdentifier (s : String) : Bool :=
  match splitAtColon s.toList with
  | (name, none) => isName name
  | (first, some second) => isName first && isName second

end Field

/-! ## Namespaces -/

/-- The namespaces of a target system. -/
structure Namespaces where
  /-- The namespace of fields that name none. -/
  default? : Option String := none
  /-- The namespaces that fields may name, in ascending order. -/
  known : List String := []
  /-- The identifiers of fields with an entry of their own, in ascending order of the fields. -/
  fields : List (String × String) := []
  deriving DecidableEq, Repr

namespace Namespaces

/-- The namespaces with a default, which is then a known one too. -/
def setDefault (ns : Namespaces) (name : String) : Namespaces :=
  { ns with default? := some name, known := Order.insertBy id name ns.known }

/-- The namespaces with one more known one. -/
def addKnown (ns : Namespaces) (name : String) : Namespaces :=
  { ns with known := Order.insertBy id name ns.known }

/-- The namespaces with an entry for a field. -/
def addField (ns : Namespaces) (field identifier : String) : Namespaces :=
  { ns with fields := Order.insertBy Prod.fst (field, identifier) ns.fields }

/-- Fields may name the namespace. -/
def knows (ns : Namespaces) (name : String) : Bool :=
  ns.known.isEmpty || ns.known.contains name

/-- The entry of a field. -/
def entry? (ns : Namespaces) (field : String) : Option String :=
  (Order.findBy? Prod.fst field ns.fields).map Prod.snd

/-- The full identifier of a field, or none if the field is empty or names an unknown namespace or
nothing in its namespace. -/
def qualify? (ns : Namespaces) (field : String) : Option String :=
  if field.isEmpty then none
  else
    match ns.entry? field with
    | some identifier => some identifier
    | none =>
      match Field.splitAtColon field.toList with
      | (name, some rest) =>
        if ¬ rest.isEmpty ∧ ns.knows (String.ofList name) then some field else none
      | (_, none) =>
        match ns.default? with
        | some name => some (name ++ ":" ++ field)
        | none => some field

/-- What is wrong with the namespaces: a default that is not listed, or else a field, the first in
order, whose entry is blank. -/
def fault? (ns : Namespaces) : Option SettingsFault :=
  match ns.default?.filter fun name => ! ns.knows name with
  | some name => some (.unlistedDefault name)
  | none =>
    (ns.fields.find? fun f => Text.isBlankText f.2).map fun f => .emptyMapping f.1

/-- Refuses namespaces that contradict themselves. -/
def validate (ns : Namespaces) : Except SettingsError Unit :=
  match ns.fault? with
  | some fault => .error (.invalid fault)
  | none => .ok ()

end Namespaces

/-- A way to identify fields: the full identifier of a field, or none if it has none. -/
structure Resolver where
  identify? : String → Option String

/-- The namespaces identify fields. -/
def Namespaces.toResolver (ns : Namespaces) : Resolver :=
  ⟨ns.qualify?⟩

instance : Coe Namespaces Resolver where
  coe := Namespaces.toResolver

/-! ## Namespaces in YAML

Namespaces are loaded from up to three settings: the default, the list of known ones, and the
entries of fields, of which the last one counts if a field has several. -/

namespace Namespaces

/-- The names of the settings. -/
def settingNames : List String :=
  ["default_prefix", "prefixes", "fields"]

/-- The namespaces with one setting changed. -/
def set? (ns : Namespaces) (name : String) (value : Yaml.Node) : Option Namespaces :=
  match name with
  | "default_prefix" => value.optionalText?.map fun d => { ns with default? := d }
  | "prefixes" => value.texts?.map fun ps => { ns with known := Order.ofListBy id ps }
  | "fields" => value.textPairs?.map fun fs => { ns with fields := Order.ofListBy Prod.fst fs }
  | _ => none

/-- The namespaces that a YAML document describes, which have to be valid. -/
def ofYaml : String → Except SettingsError Namespaces :=
  Yaml.load settingNames set? validate {}

end Namespaces

end SearchFilter
