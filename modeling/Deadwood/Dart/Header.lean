import Deadwood.Dart.Item

/-!
The headers of declarations, told apart by what they start with. A reader here says how many items
it takes, so that the caller can go on after them.
-/
namespace Deadwood.Dart

def reservedWords : List String :=
  ["assert", "break", "case", "catch", "class", "const", "continue", "default", "do", "else", "enum",
    "extends", "false", "final", "finally", "for", "if", "in", "is", "new", "null", "rethrow",
    "return", "super", "switch", "this", "throw", "true", "try", "var", "void", "while", "with"]

namespace Item

def isName (i : Item) : Bool :=
  i.word?.any fun w => !reservedWords.contains w

def isTypePiece (i : Item) : Bool :=
  i.word?.isSome || i.isParens || [".", ",", "?", "&", "@"].any i.isSymbol

end Item

def countIf (p : Item → Bool) (items : List Item) : Nat :=
  if items.head?.any p then 1 else 0

def angleItems? (taken : Nat) : Nat → List Item → Option Nat
  | _, [] => none
  | 0, _ => none
  | depth + 1, i :: rest =>
    if i.isSymbol ">" then
      match depth with
      | 0 => some (taken + 1)
      | _ => angleItems? (taken + 1) depth rest
    else if i.isSymbol "<" then angleItems? (taken + 1) (depth + 2) rest
    else if i.isTypePiece then angleItems? (taken + 1) (depth + 1) rest
    else none

def typeArguments (items : List Item) : Nat :=
  match items with
  | i :: rest => if i.isSymbol "<" then (angleItems? 1 1 rest).getD 0 else 0
  | [] => 0

def functionType? (items : List Item) : Option Nat :=
  if items.head?.any (·.isWord "Function") then
    let n := 1 + typeArguments (items.drop 1)
    if (items.drop n).head?.any Item.isParens then
      some (n + 1 + countIf (·.isSymbol "?") (items.drop (n + 1)))
    else none
  else none

def functionTypes (items : List Item) : Nat :=
  match items, functionType? items with
  | i :: rest, some (n + 1) => n + 1 + functionTypes ((i :: rest).drop (n + 1))
  | _, _ => 0
termination_by items.length
decreasing_by simp only [List.length_drop, List.length_cons]; omega

def qualifiedName? : List Item → Option Nat
  | a :: dot :: b :: _ =>
    if a.isName then some (if dot.isSymbol "." && b.isName then 3 else 1) else none
  | a :: _ => if a.isName then some 1 else none
  | [] => none

def simpleType? (items : List Item) : Option Nat :=
  match items with
  | [] => none
  | i :: rest =>
    if i.isWord "void" then some 1
    else if i.isParens then some (1 + countIf (·.isSymbol "?") rest)
    else (qualifiedName? items).map fun n =>
      let n := n + typeArguments (items.drop n)
      n + countIf (·.isSymbol "?") (items.drop n)

def type? (items : List Item) : Option Nat :=
  match functionType? items with
  | some n => some (n + functionTypes (items.drop n))
  | none => (simpleType? items).map fun n => n + functionTypes (items.drop n)

namespace Header

inductive Kind where
  | function
  | getter
  | setter
  | operator
  | constructor
  deriving DecidableEq, Repr

def Kind.label : Kind → String
  | .function => "function_signature"
  | .getter => "getter_signature"
  | .setter => "setter_signature"
  | .operator => "operator_signature"
  | .constructor => "constructor_signature"

end Header

/-- The first `length` items are a header; the name, if it is one to record, stands at `name`. -/
structure Header where
  kind : Header.Kind
  name : Nat
  length : Nat
  deriving Repr

namespace Header

def functionAfter? (n : Nat) (items : List Item) : Option Header :=
  match items.drop n with
  | name :: rest =>
    let k := typeArguments rest
    if name.isName && !name.isWord "Function" && (rest.drop k).head?.any Item.isParens then
      some ⟨.function, n, n + k + 2⟩
    else none
  | [] => none

def startsBody (items : List Item) : Bool :=
  items.head?.any fun i => i.isArrow || i.isBraces || i.isGenerator || i.isWord "async"

def getterAfter? (n : Nat) (items : List Item) : Option Header :=
  match items.drop n with
  | get :: name :: rest =>
    if get.isWord "get" && name.isName &&
        (rest.isEmpty || rest.head?.any (·.isSymbol ";") || startsBody rest) then
      some ⟨.getter, n + 1, n + 2⟩
    else none
  | _ => none

def setterAfter? (n : Nat) (items : List Item) : Option Header :=
  match items.drop n with
  | set :: name :: parameters :: _ =>
    if set.isWord "set" && name.isName && parameters.isParens then some ⟨.setter, n + 1, n + 3⟩
    else none
  | _ => none

def operatorAfter? (n : Nat) (items : List Item) : Option Header :=
  match items.drop n with
  | keyword :: first :: rest =>
    let isOperator := match first with
      | .token t => t.kind == .symbol && !(([";", ",", ".", "?"] : List String).contains t.text) &&
          (t.text != "=" || rest.head?.any (·.isSymbol "="))
      | _ => first.isGroup "["
    let signs := (first :: rest).takeWhile (!·.isParens)
    if keyword.isWord "operator" && isOperator && signs.length ≤ rest.length then
      some ⟨.operator, n, n + 1 + signs.length + 1⟩
    else none
  | _ => none

def constructorAfter? (n : Nat) (items : List Item) : Option Header :=
  match items.drop n with
  | name :: parameters :: rest =>
    if !name.isName || name.isWord "Function" then none
    else if parameters.isParens then some ⟨.constructor, n, n + 2⟩
    else
      match rest with
      | second :: parameters' :: _ =>
        if parameters.isSymbol "." && second.word?.isSome && parameters'.isParens then
          some ⟨.constructor, n, n + 4⟩
        else none
      | _ => none
  | _ => none

def declaredAfter? (n : Nat) (items : List Item) : Option Header :=
  getterAfter? n items <|> setterAfter? n items <|> operatorAfter? n items <|>
    functionAfter? n items

def any? (items : List Item) : Option Header :=
  declaredAfter? 0 items <|> (type? items).bind (declaredAfter? · items)

/-- A header in the body of a class. What has neither type nor type parameters nor a mark that it
is static is a constructor, whatever its name. -/
def member? (isStatic : Bool) (items : List Item) : Option Header :=
  if items.head?.any (·.isWord "factory") && (constructorAfter? 1 items).isSome then
    constructorAfter? 1 items
  else if isStatic then any? items
  else
    match getterAfter? 0 items <|> setterAfter? 0 items <|> operatorAfter? 0 items with
    | some h => some h
    | none => constructorAfter? 0 items <|> any? items

def areParameters (items : List Item) : Bool :=
  match items with
  | [] => true
  | i :: rest =>
    if i.isSymbol "=" || i.isSymbol ":" then areParameters (rest.dropWhile (!·.isSymbol ","))
    else (i.isTypePiece || i.isSymbol "<" || i.isSymbol ">" || i.isBraces || i.isGroup "[") &&
      areParameters rest
termination_by items.length
decreasing_by
  · have := (List.dropWhile_suffix (l := rest) (!·.isSymbol ",")).length_le
    simp only [List.length_cons]; omega
  · simp

/-- A header at the top of a file. A bare name and a list of arguments, with nothing after them, is
a call. -/
def topLevel? (items : List Item) : Option Header :=
  (any? items).bind fun h =>
    let isCall := h.kind == .function && h.name == 0 && (items.drop h.length).head?.any (·.isSymbol ";") &&
      match items.drop (h.length - 1) with
      | .group _ arguments _ :: _ => !areParameters arguments
      | _ => false
    if isCall then none else some h

/-- The header of a function inside a block; without a body it is a call or a variable. -/
def local? (items : List Item) : Option Header :=
  (functionAfter? 0 items <|> (type? items).bind (functionAfter? · items)).bind fun h =>
    if startsBody (items.drop h.length) then some h else none

end Header

end Deadwood.Dart
