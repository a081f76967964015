import Deadwood.Text.Basic

/-!
Paths separated by slashes. Nothing here looks at files: `..` is resolved in the text alone.
-/
namespace Deadwood.Path

def slash : CodePoint := '/'

def here : Text := "."

def above : Text := ".."

def isAbsolute (p : Text) : Bool :=
  p.head? == some slash

def components (p : Text) : List Text :=
  (Text.split slash p).filter fun name => !name.isEmpty && name != here

/-- Says something on a path: it is not empty and not a single dot, and no slash ends it early. -/
def IsComponent (name : Text) : Prop :=
  name ≠ [] ∧ name ≠ here ∧ slash ∉ name

def IsName (name : Text) : Prop :=
  IsComponent name ∧ name ≠ above

instance : DecidablePred IsComponent :=
  fun name => inferInstanceAs (Decidable (name ≠ [] ∧ name ≠ here ∧ slash ∉ name))

instance : DecidablePred IsName :=
  fun name => inferInstanceAs (Decidable (IsComponent name ∧ name ≠ above))

/-- Resolves `..` against the name before it. Above the root of an absolute path it vanishes. -/
def collapse (absolute : Bool) (names : List Text) : List Text :=
  (names.foldl (fun (stack : List Text) name =>
    if name != above then name :: stack
    else match stack with
      | [] => if absolute then [] else [name]
      | top :: below => if top == above then name :: stack else below) []).reverse

/-- The slashes that start a path. Exactly two are kept, any other number counts as one. -/
def leadingSlashes : Text → Text
  | a :: b :: c :: _ => if a != slash then [] else if b == slash && c != slash then [a, b] else [a]
  | [a, b] => if a != slash then [] else if b == slash then [a, b] else [a]
  | [a] => if a == slash then [a] else []
  | [] => []

def ofComponents (lead : Text) (names : List Text) : Text :=
  let p := lead ++ Text.join [slash] names
  if p.isEmpty then here else p

/-- The shortest way to write a path without looking at links. -/
def normalize (p : Text) : Text :=
  ofComponents (leadingSlashes p) (collapse (isAbsolute p) (components p))

def clean (p : Text) : Text :=
  ofComponents (leadingSlashes p) (components p)

/-- `p` seen from `base`; an absolute `p` stays as it is. -/
def join (base p : Text) : Text :=
  if isAbsolute p || base.isEmpty then p
  else if base.getLast? == some slash then base ++ p
  else base ++ slash :: p

def absolute (cwd p : Text) : Text :=
  normalize (join cwd p)

inductive Error where
  | empty
  deriving DecidableEq, Repr

def Error.message : Error → String
  | .empty => "no path specified"

def dropCommon : List Text → List Text → List Text × List Text
  | a :: as, b :: bs => if a == b then dropCommon as bs else (a :: as, b :: bs)
  | as, bs => (as, bs)

/-- How to reach `p` from `start`: up to the last common directory, then down. -/
def relative (cwd p start : Text) : Except Error Text :=
  if p.isEmpty then .error .empty
  else
    let (up, down) := dropCommon (components (absolute cwd start)) (components (absolute cwd p))
    let names := up.map (fun _ => above) ++ down
    .ok (if names.isEmpty then here else Text.join [slash] names)

def forwardSlashes (p : Text) : Text :=
  Text.replace '\\' '/' p

def baseName (p : Text) : Text :=
  (Text.split slash p).getLastD []

def lastName (p : Text) : Text :=
  (components p).getLastD []

/-- A file name cut before its extension, which starts at the last dot that has something other
than dots before it. -/
def splitExtension (name : Text) : Text × Text :=
  let extension := name.reverse.takeWhile (fun c : CodePoint => c != '.')
  let stem := name.take (name.length - extension.length - 1)
  if extension.length < name.length && stem.any (fun c : CodePoint => c != '.') then
    (stem, '.' :: extension.reverse)
  else (name, [])

end Deadwood.Path
