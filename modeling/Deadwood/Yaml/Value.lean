import Deadwood.Yaml.Scalar

/-!
Values of a document. A list or a mapping may hold itself: it then carries a label, and inside it a
reference to the label stands for the whole again. Reading the parts of such a value puts the whole
in the place of the reference.
-/
namespace Deadwood.Yaml

inductive Value where
  | scalar (s : Scalar)
  | list (label : Option Nat) (items : List Value)
  | pair (first second : Value)
  | set (members : List Scalar)
  | mapping (label : Option Nat) (entries : List (Scalar × Value))
  /-- The list or mapping around it that has this label. -/
  | again (label : Nat) (isList : Bool)

namespace Value

instance : Inhabited Value := ⟨scalar .null⟩

def kindName : Value → String
  | scalar s => s.kindName
  | list .. => "list"
  | pair .. => "tuple"
  | set _ => "set"
  | mapping .. => "dict"
  | again _ isList => if isList then "list" else "dict"

mutual

def unfold (label : Nat) (whole : Value) : Value → Value
  | scalar s => scalar s
  | list own items => list own (unfoldAll label whole items)
  | pair first second => pair (unfold label whole first) (unfold label whole second)
  | set members => set members
  | mapping own entries => mapping own (unfoldEntries label whole entries)
  | again other isList => if other == label then whole else again other isList

def unfoldAll (label : Nat) (whole : Value) : List Value → List Value
  | [] => []
  | v :: vs => unfold label whole v :: unfoldAll label whole vs

def unfoldEntries (label : Nat) (whole : Value) : List (Scalar × Value) → List (Scalar × Value)
  | [] => []
  | (key, v) :: rest => (key, unfold label whole v) :: unfoldEntries label whole rest

end

def items : Value → List Value
  | list none items => items
  | whole@(list (some label) items) => unfoldAll label whole items
  | _ => []

def entries : Value → List (Scalar × Value)
  | mapping none entries => entries
  | whole@(mapping (some label) entries) => unfoldEntries label whole entries
  | _ => []

def isMapping : Value → Bool
  | mapping .. => true
  | _ => false

def isNull : Value → Bool
  | scalar .null => true
  | _ => false

def get? (name : Text) (v : Value) : Option Value :=
  (v.entries.find? fun (key, _) => key.same (.text name)).map (·.2)

def present? (name : Text) (v : Value) : Option Value :=
  (v.get? name).filter (!·.isNull)

/-- Entries in the order of their first keys; a later value of the same key replaces an earlier. -/
def insert (entries : List (Scalar × Value)) (key : Scalar) (v : Value) : List (Scalar × Value) :=
  match entries with
  | [] => [(key, v)]
  | (known, old) :: rest =>
    if known.same key then (known, v) :: rest else (known, old) :: insert rest key v

mutual

/-- The text of a value inside another. The values around it, given by their labels, are not written
again. -/
def nestedIn (around : List Nat) : Value → Text
  | scalar s => s.nested
  | list label items =>
    if label.any around.contains then "[...]"
    else "[" ++ Text.join ", " (nestedAll (label.toList ++ around) items) ++ "]"
  | pair first second => "(" ++ first.nestedIn around ++ ", " ++ second.nestedIn around ++ ")"
  | set members =>
    if members.isEmpty then "set()"
    else "\x7b" ++ Text.join ", " (members.map Scalar.nested) ++ "\x7d"
  | mapping label entries =>
    if label.any around.contains then "\x7b...\x7d"
    else "\x7b" ++ Text.join ", " (nestedEntries (label.toList ++ around) entries) ++ "\x7d"
  | again _ isList => if isList then "[...]" else "\x7b...\x7d"

def nestedAll (around : List Nat) : List Value → List Text
  | [] => []
  | v :: vs => v.nestedIn around :: nestedAll around vs

def nestedEntries (around : List Nat) : List (Scalar × Value) → List Text
  | [] => []
  | (key, v) :: rest => (key.nested ++ ": " ++ v.nestedIn around) :: nestedEntries around rest

end

def toText : Value → Text
  | scalar s => s.toText
  | v => v.nestedIn []

mutual

/-- Whether every integer that the text of a value shows can be written out. -/
def isWritableIn (around : List Nat) : Value → Bool
  | scalar s => s.isWritable
  | list label items =>
    label.any around.contains || areWritableIn (label.toList ++ around) items
  | pair first second => first.isWritableIn around && second.isWritableIn around
  | set members => members.all Scalar.isWritable
  | mapping label entries =>
    label.any around.contains || entriesWritableIn (label.toList ++ around) entries
  | again .. => true

def areWritableIn (around : List Nat) : List Value → Bool
  | [] => true
  | v :: vs => v.isWritableIn around && areWritableIn around vs

def entriesWritableIn (around : List Nat) : List (Scalar × Value) → Bool
  | [] => true
  | (key, v) :: rest => key.isWritable && v.isWritableIn around && entriesWritableIn around rest

end

def isWritable (v : Value) : Bool :=
  v.isWritableIn []

end Value

end Deadwood.Yaml
