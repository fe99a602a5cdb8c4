import SearchFilter.Yaml.Token

/-!
# YAML nodes

The tokens of a document form a tree of scalars, sequences, mappings and aliases. Where a node may
be absent an empty scalar stands for it. A text holds at most one document.

A node with an anchor has a number, which is how many different names the anchors before it have,
and an alias stands for the node with the number of the latest anchor of its name. So an anchor that
takes an earlier name again leaves its number to the next one, and the last node with a number is
the one that counts, even if it comes after the alias. Aliases are only replaced as deep as settings
go, so an alias may stand for a node around it; no settings are of that shape.
-/

namespace SearchFilter.Yaml

/-- A node of a document. -/
inductive Node where
  | scalar (text : String) (plain : Bool) (tag : Option (List UInt8))
  | sequence (items : List Node)
  | mapping (entries : List (Node × Node))
  | alias (number : Nat)

namespace Node

/-- The node where none is written. -/
def absent : Node := .scalar "" true none

/-- The node with the nodes for which its aliases stand, if it has at most so many levels. -/
def resolve? (target? : Nat → Option Node) : Nat → Node → Option Node
  | 0, _ => none
  | _ + 1, .scalar text plain tag => some (.scalar text plain tag)
  | levels + 1, .sequence items => do
    return .sequence (← items.mapM (resolve? target? levels))
  | levels + 1, .mapping entries => do
    return .mapping (← entries.mapM fun e => do
      return (← resolve? target? levels e.1, ← resolve? target? levels e.2))
  | levels + 1, .alias number => do resolve? target? levels (← target? number)

end Node

/-- A node with an anchor. -/
structure Anchor where
  name : String
  number : Nat
  /-- The node, unless it has not ended yet. -/
  node? : Option Node

/-- The state of putting a tree together. -/
structure Assembly where
  /-- The tokens that are still to come. -/
  tokens : List Token
  /-- What the handles of tags stand for. -/
  handles : List (String × List UInt8)
  /-- The anchors, in the order in which their nodes start. -/
  anchors : List Anchor

/-- A step of putting a tree together. -/
abbrev Assembler := StateT Assembly Option

namespace Assembler

/-- The next token. -/
def peek : Assembler (Option Token) := do
  return (← get).tokens.head?

/-- Passes the next token. -/
def pass : Assembler Unit :=
  modify fun s => { s with tokens := s.tokens.tail }

/-- Passes the next token if it is the given one, and tells whether it was. -/
def passIf (t : Token) : Assembler Bool := do
  if (← peek) == some t then
    pass
    return true
  else return false

/-- The next token is one of the given ones, or there is none. -/
def nextIn (ts : List Token) : Assembler Bool := do
  return match ← peek with
    | some t => ts.contains t
    | none => true

/-- The anchor and the tag of a node. -/
structure Properties where
  anchor : Option String := none
  tag : Option (String × List UInt8) := none

/-- Takes an anchor and a tag, in either order. -/
def properties : Assembler Properties := do
  match ← peek with
  | some (.anchor a) =>
    pass
    match ← peek with
    | some (.tag handle suffix) =>
      pass
      return ⟨some a, some (handle, suffix)⟩
    | _ => return ⟨some a, none⟩
  | some (.tag handle suffix) =>
    pass
    match ← peek with
    | some (.anchor a) =>
      pass
      return ⟨some a, some (handle, suffix)⟩
    | _ => return ⟨none, some (handle, suffix)⟩
  | _ => return {}

/-- The full form of a tag. -/
def resolve (tag : String × List UInt8) : Assembler (List UInt8) := do
  if tag.1.isEmpty then return tag.2
  else
    match (← get).handles.find? fun h => h.1 == tag.1 with
    | some h => return h.2 ++ tag.2
    | none => failure

/-- The alias of a name, which has to be that of an anchor. -/
def aliasOf (name : String) : Assembler Node := do
  match (← get).anchors.reverse.find? fun a => a.name == name with
  | some a => return .alias a.number
  | none => failure

/-- Takes a node and notes it under its anchor, in the place that it has from its start. -/
def noting (anchor : Option String) (node : Assembler Node) : Assembler Node := do
  match anchor with
  | none => node
  | some name =>
    let anchors := (← get).anchors
    let number := (anchors.map Anchor.name).eraseDups.length
    modify fun s => { s with anchors := anchors ++ [⟨name, number, none⟩] }
    let n ← node
    modify fun s => { s with anchors := s.anchors.set anchors.length ⟨name, number, some n⟩ }
    return n

/-- The tag of a scalar. The tag that is a lone exclamation mark says nothing about it. -/
def scalarTag (tag : Option (List UInt8)) : Option (List UInt8) :=
  tag.filter fun t => t != [bang]

/-- Where a node stands: it may be a block collection, or also a sequence that is not indented. -/
structure Place where
  block : Bool
  indentless : Bool

mutual

/-- Takes a node. -/
def node (place : Place) : Nat → Assembler Node
  | 0 => failure
  | fuel + 1 => do
    if let some (.alias name) ← peek then
      pass
      aliasOf name
    else
      let p ← properties
      let tag ← p.tag.mapM resolve
      noting p.anchor (content place (p.anchor.isSome || tag.isSome) tag fuel)

/-- Takes what follows the properties of a node. -/
def content (place : Place) (hasProperties : Bool) (tag : Option (List UInt8)) :
    Nat → Assembler Node
  | 0 => failure
  | fuel + 1 => do
    match ← peek with
    | some (.scalar text plain) =>
      pass
      return .scalar text plain (scalarTag tag)
    | some .flowSequenceStart =>
      pass
      return .sequence (← flowItems true fuel)
    | some .flowMappingStart =>
      pass
      return .mapping (← flowEntries true fuel)
    | some .blockEntry =>
      if place.indentless then return .sequence (← indentlessItems fuel)
      else if hasProperties then return .scalar "" true tag
      else failure
    | some .blockSequenceStart =>
      if place.block then
        pass
        return .sequence (← blockItems fuel)
      else if hasProperties then return .scalar "" true tag
      else failure
    | some .blockMappingStart =>
      if place.block then
        pass
        return .mapping (← blockEntries fuel)
      else if hasProperties then return .scalar "" true tag
      else failure
    | _ => if hasProperties then return .scalar "" true tag else failure

/-- Takes a node, or nothing if one of the given tokens comes next. -/
def nodeUnless (place : Place) (ts : List Token) : Nat → Assembler Node
  | 0 => failure
  | fuel + 1 => do
    if ← nextIn ts then return .absent else node place fuel

/-- Takes the items of a block sequence and its end. -/
def blockItems : Nat → Assembler (List Node)
  | 0 => failure
  | fuel + 1 => do
    if ← passIf .blockEntry then
      let n ← nodeUnless ⟨true, false⟩ [.blockEntry, .blockEnd] fuel
      return n :: (← blockItems fuel)
    else if ← passIf .blockEnd then return []
    else failure

/-- Takes the items of a block sequence that is not indented. -/
def indentlessItems : Nat → Assembler (List Node)
  | 0 => failure
  | fuel + 1 => do
    if ← passIf .blockEntry then
      let n ← nodeUnless ⟨true, false⟩ [.blockEntry, .key, .value, .blockEnd] fuel
      return n :: (← indentlessItems fuel)
    else return []

/-- Takes the entries of a block mapping and its end. -/
def blockEntries : Nat → Assembler (List (Node × Node))
  | 0 => failure
  | fuel + 1 => do
    if ← passIf .key then
      let k ← nodeUnless ⟨true, true⟩ [.key, .value, .blockEnd] fuel
      let v ←
        if ← passIf .value then nodeUnless ⟨true, true⟩ [.key, .value, .blockEnd] fuel
        else pure .absent
      return (k, v) :: (← blockEntries fuel)
    else if ← passIf .blockEnd then return []
    else failure

/-- Takes the items of a flow sequence and its end; `first` tells that no item was taken yet. -/
def flowItems (first : Bool) : Nat → Assembler (List Node)
  | 0 => failure
  | fuel + 1 => do
    if ← passIf .flowSequenceEnd then return []
    else if first || (← passIf .flowEntry) then
      if ← passIf .flowSequenceEnd then return []
      else if ← passIf .key then
        let k ← nodeUnless ⟨false, false⟩ [.value, .flowEntry, .flowSequenceEnd] fuel
        let v ←
          if ← passIf .value then
            nodeUnless ⟨false, false⟩ [.flowEntry, .flowSequenceEnd] fuel
          else pure .absent
        return .mapping [(k, v)] :: (← flowItems false fuel)
      else
        let n ← node ⟨false, false⟩ fuel
        return n :: (← flowItems false fuel)
    else failure

/-- Takes the entries of a flow mapping and its end; `first` tells that no entry was taken yet. -/
def flowEntries (first : Bool) : Nat → Assembler (List (Node × Node))
  | 0 => failure
  | fuel + 1 => do
    if ← passIf .flowMappingEnd then return []
    else if first || (← passIf .flowEntry) then
      if ← passIf .flowMappingEnd then return []
      else if ← passIf .key then
        let k ← nodeUnless ⟨false, false⟩ [.value, .flowEntry, .flowMappingEnd] fuel
        let v ←
          if ← passIf .value then
            nodeUnless ⟨false, false⟩ [.flowEntry, .flowMappingEnd] fuel
          else pure .absent
        return (k, v) :: (← flowEntries false fuel)
      else
        let k ← node ⟨false, false⟩ fuel
        return (k, .absent) :: (← flowEntries false fuel)
    else failure

end

/-- Takes the directives before a document: at most one version, which has to be 1.1 or 1.2, and no
two for one handle. Answers whether there was any. -/
def directives (seen : Bool) (hasVersion : Bool) (handles : List (String × List UInt8)) :
    List Token → Assembler Bool
  | .version major minor :: rest => do
    if hasVersion || major ≠ 1 || (minor ≠ 1 && minor ≠ 2) then failure
    else directives true true handles rest
  | .tagDirective handle full :: rest => do
    if handles.any fun h => h.1 == handle then failure
    else directives true hasVersion ((handle, full) :: handles) rest
  | rest => do
    modify fun s => { s with tokens := rest, handles := handles ++ s.handles }
    return seen

/-- Takes the only document of a text, if there is one. -/
def document (fuel : Nat) : Assembler (Option Node) := do
  if (← get).tokens.isEmpty then return none
  else
    let hasDirectives ← directives false false [] (← get).tokens
    let n ←
      if ← passIf .documentStart then
        match ← peek with
        | none | some .documentStart | some .documentEnd | some (.version _ _)
        | some (.tagDirective _ _) => pure .absent
        | _ => node ⟨true, false⟩ fuel
      else if hasDirectives then failure
      else node ⟨true, false⟩ fuel
    if (← get).tokens.all (· == .documentEnd) then return some n else failure

end Assembler

/-- The octets of a text. -/
def octetsOf (text : String) : List UInt8 :=
  text.toUTF8.toList

/-- The handles that every document knows. -/
def standardHandles : List (String × List UInt8) :=
  [("!", octetsOf "!"), ("!!", octetsOf "tag:yaml.org,2002:")]

/-- How many levels settings have at most: a mapping with a sequence or another mapping of scalars
in it, either of them and each of the scalars by an alias. -/
def greatestDepth : Nat := 5

/-- The document that the tokens form. Each token is taken in at most four steps. -/
def Node.ofTokens? (ts : List Token) : Option (Option Node) := do
  let (n?, s) ← (Assembler.document (4 * ts.length + 8)).run ⟨ts, standardHandles, []⟩
  let target? (number : Nat) : Option Node :=
    (s.anchors.reverse.find? fun a => a.number == number).bind Anchor.node?
  n?.mapM (Node.resolve? target? greatestDepth)

/-- The document in a text: malformed, none, or a node that is not deeper than settings are. -/
def parse? (text : String) : Option (Option Node) := do
  Node.ofTokens? (← Token.readAll (← source? text))

end SearchFilter.Yaml
