import Deadwood.Dart.Header

/-!
The syntax tree of Dart source, as far as the analysis looks at it: the nodes of classes, functions,
directives and string literals, with all words and signs as leaves. What is inside brackets depends
on what stands before them, so each group is read in a context. Of broken source only brackets
without a partner are marked.
-/
namespace Deadwood.Dart

inductive Context where
  | unit
  | members
  | enumeration
  | statements
  | expression
  deriving DecidableEq

abbrev Reader := Context → List Item → List Node

def Token.leaf (t : Token) : Node :=
  { label := if t.kind == .word && !reservedWords.contains t.text then "identifier" else t.text
    span := t.span }

def branch (label : String) (children : List Node) : Node :=
  let start := (children.head?.map (·.span.start)).getD 0
  let stop := (children.getLast?.map (·.span.stop)).getD start
  { label, span := ⟨start, stop⟩, children }

namespace Item

def groupNode (label : String) (opening : Token) (inner : List Node) (closing : Option Token) :
    Node :=
  let stop := (inner.getLast?.map (·.span.stop)).getD opening.span.stop
  let missing : Node := { label := "missing", span := ⟨stop, stop⟩, defect := some .missing }
  branch label (opening.leaf :: inner ++ [closing.elim missing Token.leaf])

/-- A piece of a string literal. What is interpolated stands in a node of its own, so that it
counts as code. -/
def pieceNode (read : Reader) : Item → Node
  | token t =>
    if t.kind == .interpolatedName then
      branch "template_substitution" [{ label := "identifier", span := t.span }]
    else t.leaf
  | group opening items closing =>
    groupNode "template_substitution" opening (read .expression items) closing
  | literal span _ => { label := "string_literal", span }

def node (read : Reader) (context : Context) : Item → Node
  | token t => if t.isClosing then { t.leaf with defect := some .error } else t.leaf
  | group opening items closing => groupNode "group" opening (read context items) closing
  | literal span pieces =>
    { label := "string_literal", span, children := pieces.map (pieceNode read) }

def leaf (i : Item) : Node :=
  i.node (fun _ _ => []) .expression

end Item

/-- What the items before one tell about braces: after parameters they are the body of a function,
unless the parentheses belong to a control word. -/
inductive Lead where
  | other
  | control
  | parameters
  deriving DecidableEq

def Lead.next (lead : Lead) (i : Item) : Lead :=
  if i.isParens then if lead == .control then .other else .parameters
  else if ["switch", "if", "for", "while"].any i.isWord then .control
  else if lead == .parameters && (i.isWord "async" || i.isGenerator) then .parameters
  else .other

def expressionNodes (read : Reader) : Lead → List Item → List Node
  | _, [] => []
  | lead, i :: rest =>
    let context := if i.isBraces && lead == .parameters then .statements else .expression
    i.node read context :: expressionNodes read (lead.next i) rest

structure Taken where
  nodes : List Node
  count : Nat

namespace Taken

def andThen (first : Taken) (second : Taken) : Taken :=
  ⟨first.nodes ++ second.nodes, first.count + second.count⟩

def leaves (read : Reader) (n : Nat) (items : List Item) : Taken :=
  ⟨(items.take n).map (·.node read .expression), n⟩

def none : Taken :=
  ⟨[], 0⟩

end Taken

def throughSemicolon (read : Reader) (items : List Item) : Taken :=
  let body := items.takeWhile (!·.isSymbol ";")
  let stop := (items.drop body.length).take 1
  ⟨expressionNodes read .other body ++ stop.map Item.leaf, body.length + stop.length⟩

def functionBody (read : Reader) (items : List Item) : Taken :=
  let marks := items.takeWhile fun i => i.isWord "async" || i.isGenerator
  let rest := items.drop marks.length
  let marked : Taken := ⟨marks.map Item.leaf, marks.length⟩
  match rest with
  | i :: _ =>
    if i.isBraces then marked.andThen ⟨[i.node read .statements], 1⟩
    else marked.andThen (throughSemicolon read rest)
  | [] => marked

/-- Items before the block of a constructor: braces are a block if they follow an operand. -/
def initializers (before : Option Item) : List Item → Nat
  | [] => 0
  | i :: rest =>
    let afterOperand := before.any fun b =>
      b.isLiteral || b.isParens || b.isGroup "[" || b.isBraces || (b.word?.any (· != "const")) ||
        match b with
        | .token t => t.kind == .number
        | _ => false
    if i.isSymbol ";" || (i.isBraces && afterOperand) then 0
    else 1 + initializers (some i) rest

def constructorBody (read : Reader) (items : List Item) : Taken :=
  if items.head?.any (·.isSymbol ":") then
    let n := initializers none items
    (Taken.mk (expressionNodes read .other (items.take n)) n).andThen
      (functionBody read (items.drop n))
  else functionBody read items

def Header.node (read : Reader) (h : Header) (items : List Item) : Node :=
  branch h.kind.label ((items.take h.length).mapIdx fun i item =>
    let n := item.node read .expression
    if i == h.name then { n with field := some "name" } else n)

def Header.taken (read : Reader) (h : Header) (items : List Item) : Taken :=
  let rest := items.drop h.length
  let body := if h.kind == .constructor then constructorBody read rest else functionBody read rest
  (Taken.mk [h.node read items] h.length).andThen body

def dottedName : List Item → Nat
  | dot :: name :: rest =>
    if dot.isSymbol "." && name.word?.isSome then 2 + dottedName rest else 0
  | _ => 0

/-- An annotation, if one starts here. Its arguments follow without a gap. -/
def annotation? (items : List Item) : Option Nat :=
  match items with
  | sign :: name :: rest =>
    if sign.isSymbol "@" && name.word?.isSome then
      let n := 2 + dottedName rest
      let k := n + typeArguments (items.drop n)
      match (items.drop (k - 1)).take 2 with
      | [last, arguments] =>
        if arguments.isParens && last.span.stop == arguments.span.start then some (k + 1) else some n
      | _ => some n
    else none
  | _ => none

def annotations (items : List Item) : Nat :=
  match items, annotation? items with
  | i :: rest, some (n + 1) => n + 1 + annotations ((i :: rest).drop (n + 1))
  | _, _ => 0
termination_by items.length
decreasing_by simp only [List.length_drop, List.length_cons]; omega

def annotationTaken (read : Reader) (n : Nat) (items : List Item) : Taken :=
  ⟨[branch "annotation" (expressionNodes read .other (items.take n))], n⟩

def statement (read : Reader) (items : List Item) : Taken :=
  match items with
  | [] => .none
  | i :: rest =>
    let parens := countIf Item.isParens rest
    match annotation? items with
    | some n => annotationTaken read n items
    | none =>
      if i.isBraces then ⟨[i.node read .statements], 1⟩
      else
        match i.word? with
        | some "if" | some "while" | some "for" | some "catch" | some "switch" =>
          .leaves read (1 + parens) items
        | some "else" | some "do" | some "try" | some "finally" => .leaves read 1 items
        | some "case" =>
          .leaves read (1 + (rest.takeWhile (!·.isSymbol ":")).length + 1) items
        | some "default" => .leaves read 2 items
        | _ =>
          if i.isWord "await" && rest.head?.any (·.isWord "for") then .leaves read 1 items
          else if i.isName && rest.head?.any (·.isSymbol ":") then .leaves read 2 items
          else
            let clause := (type? rest).getD 0
            if i.isWord "on" && 0 < clause &&
                (rest.drop clause).head?.any (fun j => j.isBraces || j.isWord "catch") then
              .leaves read (1 + clause) items
            else
              match Header.local? items with
              | some h => h.taken read items
              | none => throughSemicolon read items

def modifiers : List String :=
  ["external", "static", "abstract", "covariant", "late", "final", "const", "var", "augment"]

/-- How many modifiers stand here. A word is one only if a type or a name follows. -/
def modifierCount : List Item → Nat
  | i :: next :: rest =>
    let startsType := next.word?.isSome ||
      (next.isParens && rest.head?.any fun j => j.word?.isSome || j.isSymbol "?")
    if modifiers.any i.isWord && startsType then 1 + modifierCount (next :: rest) else 0
  | _ => 0

def declared (read : Reader) (header? : Bool → List Item → Option Header) (items : List Item) :
    Taken :=
  let n := modifierCount items
  let isStatic := (items.take n).any (·.isWord "static")
  let rest := items.drop n
  (Taken.leaves read n items).andThen
    (match header? isStatic rest with
    | some h => h.taken read rest
    | none => throughSemicolon read rest)

def member (read : Reader) (items : List Item) : Taken :=
  match annotation? items with
  | some n => annotationTaken read n items
  | none => declared read Header.member? items

def untilBody (items : List Item) : Nat :=
  (items.takeWhile fun i => !i.isBraces && !i.isSymbol ";").length

def bodied (read : Reader) (label : String) (body : Context) (name : Nat) (items : List Item) :
    Taken :=
  let n := untilBody items
  let head := (items.take n).mapIdx fun i item =>
    let node := item.node read .expression
    if i == name then { node with field := some "name" } else node
  let last := (items.drop n).take 1
  ⟨[branch label (head ++ last.map (·.node read body))], n + last.length⟩

def classModifiers : List String :=
  ["abstract", "sealed", "base", "interface", "final", "mixin", "inline", "augment"]

def classWord? (items : List Item) : Option Nat :=
  let n := (items.takeWhile fun i => classModifiers.any i.isWord).length
  match items.drop n with
  | word :: name :: _ => if word.isWord "class" && name.isName then some n else none
  | _ => none

/-- A class. One that is made by applying mixins has no name of its own in the tree. -/
def classTaken (read : Reader) (n : Nat) (items : List Item) : Taken :=
  let parameters := typeArguments (items.drop (n + 2))
  if (items.drop (n + 2 + parameters)).head?.any (·.isSymbol "=") then
    let application := throughSemicolon read (items.drop (n + 1))
    let head := (items.take (n + 1)).map fun i => { i.leaf with label := "keyword" }
    ⟨[branch "class_definition" (head ++ [branch "mixin_application_class" application.nodes])],
      n + 1 + application.count⟩
  else bodied read "class_definition" .members (n + 1) items

/-- An import or export with the annotations before it. The annotations of an import stand before
the node of what is imported, those of an export beside the URI. -/
def directive (read : Reader) (metadata : Nat) (items : List Item) : Taken :=
  let notes := expressionNodes read .other (items.take metadata)
  let rest := items.drop metadata
  let body := throughSemicolon read (rest.drop 2)
  let uri := branch "uri" (((rest.drop 1).take 1).map (·.node read .expression))
  let named := (rest.take 1).map Item.leaf ++ branch "configurable_uri" [uri] :: body.nodes
  let inner :=
    if rest.head?.any (·.isWord "import") then
      branch "library_import" (notes ++ [branch "import_specification" named])
    else branch "library_export" (notes ++ named)
  ⟨[branch "import_or_export" [inner]], metadata + min 2 rest.length + body.count⟩

def partOf (read : Reader) (items : List Item) : Taken :=
  let words := items.take 2
  let joined : Node :=
    { label := "part_of"
      span := (branch "part_of" (words.map Item.leaf)).span }
  (Taken.mk [joined] words.length).andThen (throughSemicolon read (items.drop words.length))

def topLevel (read : Reader) (items : List Item) : Taken :=
  let metadata := annotations items
  let rest := items.drop metadata
  let first (w : String) : Bool := rest.head?.any (·.isWord w)
  let second (p : Item → Bool) : Bool := rest[1]?.any p
  if (first "import" || first "export") && second Item.isLiteral then
    directive read metadata items
  else
    match annotation? items with
    | some n => annotationTaken read n items
    | none =>
      if first "part" && second (·.isWord "of") then partOf read items
      else if (first "part" && second Item.isLiteral) || (first "library" && !second Item.isParens) ||
          (first "typedef" && second fun i => i.word?.isSome || i.isParens) then
        throughSemicolon read items
      else
        match classWord? items with
        | some n => classTaken read n items
        | none =>
          if first "enum" && second Item.isName then
            bodied read "enum_declaration" .enumeration 1 items
          else if (first "mixin" && second Item.isName) || (first "base" && second (·.isWord "mixin"))
          then bodied read "mixin_declaration" .members 1 items
          else if first "extension" && second fun i => i.word?.isSome || i.isSymbol "<" then
            bodied read "extension_declaration" .members 1 items
          else if rest.head?.any (·.isBraces) || ["if", "for", "while", "do", "try", "switch"].any first
          then statement read items
          else declared read (fun _ => Header.topLevel?) items

def sequence (step : List Item → Taken) (items : List Item) : List Node :=
  match items with
  | [] => []
  | i :: rest =>
    let taken := step (i :: rest)
    taken.nodes ++ sequence step (rest.drop (taken.count - 1))
termination_by items.length
decreasing_by simp only [List.length_drop, List.length_cons]; omega

/-- The nodes of a run of items, with groups nested at most `depth` deep. -/
def outline (depth : Nat) (context : Context) (items : List Item) : List Node :=
  match depth with
  | 0 => items.map Item.leaf
  | depth + 1 =>
    let read := outline depth
    match context with
    | .unit => sequence (topLevel read) items
    | .members => sequence (member read) items
    | .enumeration =>
      let values := throughSemicolon read items
      values.nodes ++ sequence (member read) (items.drop values.count)
    | .statements => sequence (statement read) items
    | .expression => expressionNodes read .other items

def syntaxTree (source : Text) : Node :=
  let all := tokens source
  { label := "program"
    span := ⟨0, (Utf8.encode source).length⟩
    children := outline (all.length + 1) .unit (nest all) }

end Deadwood.Dart
