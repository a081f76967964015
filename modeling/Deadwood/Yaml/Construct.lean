import Deadwood.Decimal.Reading
import Deadwood.Yaml.Node
import Deadwood.Yaml.Value

/-!
From the nodes of a document to its value. The parts of a list or mapping are read after the list or
mapping itself, level by level, except for keys, which are read at once; this decides which error is
reported when there are several.
-/
namespace Deadwood.Yaml

namespace Scalar

def readInt (t : Text) : Except Error Scalar := do
  let t := t.filter fun c : CodePoint => c != '_'
  let read (base : Nat) (t : Text) : Except Error Int :=
    match Text.integer? base t with
    | some n => .ok n
    | none => .error (.integer base t)
  let (negative, body) := Text.breakSign t
  let size : Int ←
    if t.isEmpty then .error .emptyNumber
    else if body == Text.ofString "0" then .ok 0
    else
      match (Text.ofString "0b").isPrefixOf? body, (Text.ofString "0x").isPrefixOf? body with
      | some rest, _ => read 2 rest
      | _, some rest => read 16 rest
      | none, none =>
        match body with
        | [] => .error .emptyNumber
        | c :: _ =>
          if c == '0' then read 8 body
          else if body.any (· == ':') then do
            let parts ← (body.split ':').mapM (read 10)
            pure (parts.foldl (fun n part => 60 * n + part) 0)
          else read 10 body
  return .int (if negative then -size else size)

def sixties (parts : List Float) : Float :=
  (parts.reverse.foldl (fun (sum, base) part => (sum + part * base, base * 60)) ((0 : Float), (1 : Float))).1

def readFloat (t : Text) : Except Error Scalar := do
  let t := Text.toLower (t.filter fun c : CodePoint => c != '_')
  let read (t : Text) : Except Error Float :=
    match Text.decimal? t with
    | some x => .ok x
    | none => .error (.decimal t)
  let (negative, body) := Text.breakSign t
  if t.isEmpty then .error .emptyNumber
  else if body == Text.ofString ".nan" then return .nan
  else
    let size : Float ←
      if body == Text.ofString ".inf" then .ok (1.0 / 0.0)
      else if body.any (· == ':') then do
        let parts ← (body.split ':').mapM read
        pure (sixties parts)
      else read body
    return .float (if negative then -size else size)

def readBool (t : Text) : Except Error Scalar :=
  let word := t.toLower
  if Plain.isWord ["yes", "true", "on"] word then .ok (.bool true)
  else if Plain.isWord ["no", "false", "off"] word then .ok (.bool false)
  else .error (.truth word)

def readTimestamp (t : Text) : Except Error Scalar :=
  match Plain.stamp? (Plain.dropLineEnd t) with
  | none => .error .timestamp
  | some stamp =>
    match stamp.clock with
    | none =>
      match Calendar.Date.make stamp.year stamp.month stamp.day with
      | .ok d => .ok (.date d)
      | .error e => .error (.calendar e)
    | some clock =>
      match Calendar.Timestamp.make stamp.year stamp.month stamp.day clock.hour clock.minute
          clock.second clock.microsecond clock.offset with
      | .ok t => .ok (.timestamp t)
      | .error e => .error (.calendar e)

def base64Value? (c : CodePoint) : Option Nat :=
  if c.inRange 'A' 'Z' then some (c.val - 'A'.toNat)
  else if c.inRange 'a' 'z' then some (c.val - 'a'.toNat + 26)
  else if c.isDigit then some (c.val - '0'.toNat + 52)
  else if c == '+' then some 62
  else if c == '/' then some 63
  else none

/-- Bytes in base sixty-four. `held` are the bits of the `place` signs of an unfinished group; signs of
no value are skipped, and enough padding ends the text. -/
def base64? (place held pads : Nat) : Text → Option Bytes
  | [] => if place == 0 then some [] else none
  | c :: t =>
    if c == '=' then
      if 2 ≤ place && 4 ≤ place + pads + 1 then some []
      else base64? place held (if 2 ≤ place then pads + 1 else pads) t
    else
      match base64Value? c with
      | none => base64? place held pads t
      | some v =>
        match place with
        | 0 => base64? 1 v 0 t
        | 1 => (base64? 2 (v % 16) 0 t).map ((held * 4 + v / 16).toUInt8 :: ·)
        | 2 => (base64? 3 (v % 4) 0 t).map ((held * 16 + v / 4).toUInt8 :: ·)
        | _ => (base64? 0 0 0 t).map ((held * 64 + v).toUInt8 :: ·)

def readBinary (t : Text) : Except Error Scalar :=
  if t.all (·.val < 0x80) then
    match base64? 0 0 0 t with
    | some b => .ok (.bytes b)
    | none => .error .malformed
  else .error .malformed

def read (tag : Tag) (t : Text) : Except Error Scalar :=
  match tag with
  | .null => .ok .null
  | .bool => readBool t
  | .int => readInt t
  | .float => readFloat t
  | .str => .ok (.text t)
  | .binary => readBinary t
  | .timestamp => readTimestamp t
  | _ => .error .malformed

end Scalar

namespace Document

def resolve (d : Document) : Node → Node
  | .alias label => (d.anchored.lookup label).getD (.scalar .unknown [])
  | n => n

def tagOf (d : Document) (n : Node) : Tag :=
  match d.resolve n with
  | .scalar tag _ | .sequence _ tag _ | .mapping _ tag _ => tag
  | .alias _ => .unknown

def scalarText (d : Document) : Nat → Node → Except Error Text
  | 0, _ => .error .malformed
  | fuel + 1, n =>
    match d.resolve n with
    | .scalar _ text => .ok text
    | .mapping _ _ pairs =>
      match pairs.find? fun (key, _) => d.tagOf key == .value with
      | some (_, value) => d.scalarText fuel value
      | none => .error .malformed
    | _ => .error .malformed

def isMerge (d : Document) (pair : Node × Node) : Bool :=
  d.tagOf pair.1 == .merge

mutual

/-- The pairs of a mapping with those that it merges in front. A mapping that is being merged into
itself gives its own pairs only. -/
def flatten (d : Document) : Nat → List Nat → Node → Except Error (List (Node × Node))
  | 0, _, _ => .error .malformed
  | fuel + 1, around, n =>
    match d.resolve n with
    | .mapping label _ pairs => do
      let own := pairs.filter fun p => !d.isMerge p
      if around.contains label then return own
      let merged ← (pairs.filter d.isMerge).mapM fun (_, value) => d.mergedPairs fuel (label :: around) value
      return merged.flatten ++ own
    | _ => .error .malformed

/-- What a merge key brings: the pairs of a mapping, or of several, the last first. -/
def mergedPairs (d : Document) : Nat → List Nat → Node → Except Error (List (Node × Node))
  | 0, _, _ => .error .malformed
  | fuel + 1, around, n =>
    match d.resolve n with
    | .sequence _ _ items => do
      let all ← items.mapM fun item => d.flatten fuel around item
      return all.reverse.flatten
    | _ => d.flatten fuel around n

end

/-- A key that stands for the value of its mapping is a plain text as a key. -/
def keyNode (d : Document) (n : Node) : Node :=
  match d.resolve n with
  | .scalar .value text => .scalar .str text
  | resolved => resolved

def hashable : Value → Except Error Scalar
  | .scalar s => .ok s
  | _ => .error .malformed

/-- A key with parts is refused before any of its parts is read. -/
def plainKey (d : Document) (n : Node) : Except Error Node :=
  let key := d.keyNode n
  if (d.tagOf key).isCollection then .error .malformed else .ok key

def onlyPair (d : Document) (n : Node) : Except Error (Node × Node) :=
  match d.resolve n with
  | .mapping _ _ [pair] => .ok pair
  | _ => .error .malformed

mutual

/-- The value of a node. `around` are the numbers of the nodes around it. -/
def build (d : Document) : Nat → List Nat → Node → Except Error Value
  | 0, _, _ => .error .malformed
  | fuel + 1, around, n =>
    let label? (label : Nat) : Option Nat := if d.cyclic then some label else none
    match d.resolve n with
    | .sequence label .seq items =>
      if around.contains label then .ok (.again label true)
      else do
        let items ← items.mapM fun item => d.build fuel (label :: around) item
        return .list (label? label) items
    | .sequence label .omap items => d.buildPairs fuel label around items (label? label)
    | .sequence label .pairs items => d.buildPairs fuel label around items (label? label)
    | .mapping label .map pairs =>
      if around.contains label then .ok (.again label false)
      else do
        let pairs ← d.flatten fuel [] (.mapping label .map pairs)
        let entries ← pairs.foldlM (fun entries (key, value) => do
          let key ← hashable (← d.build fuel (label :: around) (← d.plainKey key))
          let value ← d.build fuel (label :: around) value
          return Value.insert entries key value) []
        return .mapping (label? label) entries
    | .mapping label .set pairs =>
      if around.contains label then .error .malformed
      else do
        let pairs ← d.flatten fuel [] (.mapping label .set pairs)
        let entries ← pairs.foldlM (fun entries (key, value) => do
          let key ← hashable (← d.build fuel (label :: around) (← d.plainKey key))
          let value ← d.build fuel (label :: around) value
          return Value.insert entries key value) []
        return .set (entries.map (·.1))
    | resolved => do
      let tag := d.tagOf resolved
      if tag.isCollection || [Tag.merge, .value, .unknown].contains tag then .error .malformed
      else
        let text ← d.scalarText fuel resolved
        return .scalar (← Scalar.read tag text)

def buildPairs (d : Document) (fuel label : Nat) (around : List Nat) (items : List Node)
    (own : Option Nat) : Except Error Value :=
  if around.contains label then .ok (.again label true)
  else
    match fuel with
    | 0 => .error .malformed
    | fuel + 1 => do
      let items ← items.mapM fun item => do
        let (key, value) ← d.onlyPair item
        return .pair (← d.build fuel (label :: around) key) (← d.build fuel (label :: around) value)
      return .list own items

end

/-- Reads a part now, or puts it off if it has parts of its own. -/
def visit (d : Document) (fuel : Nat) (later : List Node) (n : Node) : Except Error (List Node) :=
  if (d.tagOf n).isCollection then .ok (later ++ [d.resolve n])
  else (d.build fuel [] n).map fun _ => later

def expand (d : Document) (fuel : Nat) (n : Node) : Except Error (List Node) :=
  let pairsOf (n : Node) : Except Error (List Node) := do
    let pairs ← d.flatten fuel [] n
    pairs.foldlM (fun later (key, value) => do
      let _ ← hashable (← d.build fuel [] (← d.plainKey key))
      d.visit fuel later value) []
  match n with
  | .sequence _ .seq items => items.foldlM (d.visit fuel) []
  | .sequence _ .omap items | .sequence _ .pairs items =>
    items.foldlM (fun later item => do
      let (key, value) ← d.onlyPair item
      d.visit fuel (← d.visit fuel later key) value) []
  | .mapping _ .map _ | .mapping _ .set _ => pairsOf n
  | _ => .error .malformed

def labelOf? : Node → Option Nat
  | .sequence label _ _ | .mapping label _ _ => some label
  | _ => none

/-- The first error, reading level by level. A node is read once. -/
def firstError? (d : Document) (fuel : Nat) : Nat → List Nat → List Node → Option Error
  | 0, _, _ => none
  | rounds + 1, seen, level =>
    match level.foldlM (fun (seen, later) n => do
        let isKnown := (labelOf? n).any seen.contains
        if isKnown then return (seen, later)
        else return ((labelOf? n).toList ++ seen, later ++ (← d.expand fuel n))) (seen, []) with
    | .error e => some e
    | .ok (seen, later) => if later.isEmpty then none else d.firstError? fuel rounds seen later

/-- The value of a document. Nodes on the way down are all different, so their number bounds the
depth. -/
def value (d : Document) : Except Error Value :=
  let size := 4 * d.root.size + 8
  match d.build size [] d.root with
  | .ok v => .ok v
  | .error e =>
    if (d.tagOf d.root).isCollection then .error ((d.firstError? size size [] [d.resolve d.root]).getD e)
    else .error e

end Document

def load (source : Text) : Except Error Value := do
  match ← Document.parse source with
  | some d => d.value
  | none => return .scalar .null

end Deadwood.Yaml
