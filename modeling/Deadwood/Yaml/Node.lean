import Deadwood.Yaml.Lexer
import Deadwood.Yaml.Tag

/-!
The nodes of a document, with their tags. Lists and mappings are numbered, and so is every node with
an anchor; an alias is the number of the node that it stands for, which may be one around it.
-/
namespace Deadwood.Yaml

inductive Node where
  | scalar (tag : Tag) (text : Text)
  | sequence (label : Nat) (tag : Tag) (items : List Node)
  | mapping (label : Nat) (tag : Tag) (pairs : List (Node × Node))
  | alias (label : Nat)

namespace Node

mutual

def size : Node → Nat
  | .scalar .. | .alias _ => 1
  | .sequence _ _ items => 1 + sizeAll items
  | .mapping _ _ pairs => 1 + sizePairs pairs

def sizeAll : List Node → Nat
  | [] => 0
  | n :: ns => size n + sizeAll ns

def sizePairs : List (Node × Node) → Nat
  | [] => 0
  | (a, b) :: rest => size a + size b + sizePairs rest

end

end Node

structure Document where
  root : Node
  anchored : List (Nat × Node)
  cyclic : Bool

structure Composer where
  tokens : List Token
  failure : Error
  handles : List (Text × Text) := []
  anchors : List (Text × Nat) := []
  anchored : List (Nat × Node) := []
  labels : Nat := 0
  cyclic : Bool := false

abbrev Compose := StateT Composer (Except Error)

namespace Compose

def peek : Compose Token := do
  match (← get).tokens with
  | [] => throw (← get).failure
  | t :: _ => return t

def skip : Compose Unit :=
  modify fun s => { s with tokens := s.tokens.drop 1 }

def isNext (tokens : List Token) : Compose Bool := do
  return tokens.contains (← peek)

def accept (token : Token) : Compose Bool := do
  if (← peek) == token then
    skip
    return true
  else return false

def expect (token : Token) : Compose Unit := do
  if !(← accept token) then throw .malformed

def fresh : Compose Nat := do
  let n := (← get).labels
  modify fun s => { s with labels := n + 1 }
  return n

def properties : Compose (Option Text × Option (Option Text × Text)) := do
  match ← peek with
  | .anchor name =>
    skip
    match ← peek with
    | .tag handle suffix =>
      skip
      return (some name, some (handle, suffix))
    | _ => return (some name, none)
  | .tag handle suffix =>
    skip
    match ← peek with
    | .anchor name =>
      skip
      return (some name, some (handle, suffix))
    | _ => return (none, some (handle, suffix))
  | _ => return (none, none)

def tagName (parts : Option Text × Text) : Compose Text := do
  match parts with
  | (none, suffix) => return suffix
  | (some handle, suffix) =>
    match (← get).handles.lookup handle with
    | some expansion => return expansion ++ suffix
    | none => throw .malformed

/-- The node that an alias stands for. One that is not complete is around the alias. -/
def aliasNode (name : Text) : Compose Node := do
  let s ← get
  match s.anchors.lookup name with
  | none => throw .malformed
  | some label =>
    if (s.anchored.lookup label).isNone then set { s with cyclic := true }
    return .alias label

def anchor (name : Option Text) (label : Nat) : Compose Unit := do
  match name with
  | none => return
  | some name =>
    let s ← get
    if (s.anchors.lookup name).isSome then throw .malformed
    set { s with anchors := (name, label) :: s.anchors }

def complete (name : Option Text) (label : Nat) (node : Node) : Compose Node := do
  if name.isSome then modify fun s => { s with anchored := (label, node) :: s.anchored }
  return node

def empty : Node :=
  .scalar .null []

def scalarTag (tag : Option Text) (isPlain : Bool) (text : Text) : Tag :=
  match tag with
  | none => if isPlain then .ofSpelling text else .str
  | some name => if name == primaryHandle then .ofSpelling text else .ofName name

def collectionTag (tag : Option Text) (usual : Tag) : Tag :=
  match tag with
  | none => usual
  | some name => if name == primaryHandle then usual else .ofName name

def flowSequenceStops : List Token := [.value, .flowEntry, .flowSequenceEnd]

def flowMappingStops : List Token := [.value, .flowEntry, .flowMappingEnd]

mutual

/-- A node. In a block it may be a block collection; as the value of a key it may be a sequence that
is not indented. -/
def node : Nat → Bool → Bool → Compose Node
  | 0, _, _ => throw .malformed
  | fuel + 1, inBlock, indentless => do
    match ← peek with
    | .alias name =>
      skip
      aliasNode name
    | _ =>
      let (name, parts) ← properties
      let tag ← parts.mapM tagName
      let label ← fresh
      anchor name label
      match ← peek with
      | .scalar text isPlain =>
        skip
        complete name label (.scalar (scalarTag tag isPlain text) text)
      | .flowSequenceStart =>
        skip
        complete name label (.sequence label (collectionTag tag .seq) (← flowItems fuel true))
      | .flowMappingStart =>
        skip
        complete name label (.mapping label (collectionTag tag .map) (← flowPairs fuel true))
      | .blockEntry =>
        if indentless then
          complete name label (.sequence label (collectionTag tag .seq) (← indentlessItems fuel))
        else absent name label tag
      | .blockSequenceStart =>
        if inBlock then
          skip
          complete name label (.sequence label (collectionTag tag .seq) (← blockItems fuel))
        else absent name label tag
      | .blockMappingStart =>
        if inBlock then
          skip
          complete name label (.mapping label (collectionTag tag .map) (← blockPairs fuel))
        else absent name label tag
      | _ => absent name label tag

def absent (name : Option Text) (label : Nat) (tag : Option Text) : Compose Node :=
  if name.isNone && tag.isNone then throw .malformed
  else complete name label (.scalar (scalarTag tag true []) [])

def optional (fuel : Nat) (stops : List Token) (inBlock indentless : Bool) : Compose Node := do
  if ← isNext stops then return empty
  else
    match fuel with
    | 0 => throw .malformed
    | fuel + 1 => node fuel inBlock indentless

def blockItems : Nat → Compose (List Node)
  | 0 => throw .malformed
  | fuel + 1 => do
    if ← accept .blockEntry then
      let item ← optional fuel [.blockEntry, .blockEnd] true false
      return item :: (← blockItems fuel)
    else
      expect .blockEnd
      return []

def indentlessItems : Nat → Compose (List Node)
  | 0 => throw .malformed
  | fuel + 1 => do
    if ← accept .blockEntry then
      let item ← optional fuel [.blockEntry, .key, .value, .blockEnd] true false
      return item :: (← indentlessItems fuel)
    else return []

def blockPairs : Nat → Compose (List (Node × Node))
  | 0 => throw .malformed
  | fuel + 1 => do
    if ← accept .key then
      let stops := [.key, .value, .blockEnd]
      let key ← optional fuel stops true true
      let value ← if ← accept .value then optional fuel stops true true else pure empty
      return (key, value) :: (← blockPairs fuel)
    else
      expect .blockEnd
      return []

/-- A pair inside a list makes a mapping of its own. -/
def flowItems : Nat → Bool → Compose (List Node)
  | 0, _ => throw .malformed
  | fuel + 1, isFirst => do
    if ← accept .flowSequenceEnd then return []
    else
      if !isFirst then expect .flowEntry
      if ← accept .key then
        let label ← fresh
        let key ← optional fuel flowSequenceStops false false
        let value ← if ← accept .value then
            optional fuel [.flowEntry, .flowSequenceEnd] false false
          else pure empty
        return .mapping label .map [(key, value)] :: (← flowItems fuel false)
      else if ← accept .flowSequenceEnd then return []
      else
        let item ← optional fuel [] false false
        return item :: (← flowItems fuel false)

def flowPairs : Nat → Bool → Compose (List (Node × Node))
  | 0, _ => throw .malformed
  | fuel + 1, isFirst => do
    if ← accept .flowMappingEnd then return []
    else
      if !isFirst then expect .flowEntry
      if ← accept .key then
        let key ← optional fuel flowMappingStops false false
        let value ← if ← accept .value then
            optional fuel [.flowEntry, .flowMappingEnd] false false
          else pure empty
        return (key, value) :: (← flowPairs fuel false)
      else if ← accept .flowMappingEnd then return []
      else
        let key ← optional fuel [] false false
        return (key, empty) :: (← flowPairs fuel false)

end

def usualHandles : List (Text × Text) :=
  [(Text.ofString "!", Text.ofString "!"), (Text.ofString "!!", Text.ofString "tag:yaml.org,2002:")]

def directives : Nat → Bool → List (Text × Text) → Compose Unit
  | 0, _, _ => throw .malformed
  | fuel + 1, versioned, handles => do
    match ← peek with
    | .directive d =>
      skip
      match d with
      | .version major =>
        if versioned || major != 1 then throw .malformed
        directives fuel true handles
      | .handle name expansion =>
        if (handles.lookup name).isSome then throw .malformed
        directives fuel versioned ((name, expansion) :: handles)
      | .unknown => directives fuel versioned handles
    | _ => modify fun s => { s with handles := handles ++ usualHandles }

def skipDocumentEnds : Nat → Compose Unit
  | 0 => return
  | fuel + 1 => do
    if ← accept .documentEnd then skipDocumentEnds fuel

def single (fuel : Nat) : Compose (Option Document) := do
  modify fun s => { s with handles := usualHandles }
  let isExplicit ← match ← peek with
    | .directive _ | .documentStart | .streamEnd => pure true
    | _ => pure false
  if isExplicit && (← peek) == .streamEnd then return none
  if isExplicit then
    directives fuel false []
    expect .documentStart
  let isAbsent ← match ← peek with
    | .directive _ | .documentStart | .documentEnd | .streamEnd => pure isExplicit
    | _ => pure false
  let root ← if isAbsent then pure empty else node fuel true false
  skipDocumentEnds fuel
  expect .streamEnd
  let s ← get
  return some ⟨root, s.anchored, s.cyclic⟩

end Compose

def Document.parse (source : Text) : Except Error (Option Document) :=
  let (tokens, failure) := tokens source
  let start : Composer := { tokens, failure := failure.getD .malformed }
  ((Compose.single (4 * tokens.length + 8)).run start).map (·.1)

end Deadwood.Yaml
