import Deadwood.Text.Basic

/-!
A string literal is a run of adjacent quoted parts. Interpolations cut a part into static segments,
one more than there are interpolations. The fragments of a literal are the static texts it can
contribute to a path or a name.
-/
namespace Deadwood

structure StringPart where
  first : Text
  others : List Text := []
  deriving DecidableEq, Repr

namespace StringPart

def segments (part : StringPart) : List Text :=
  part.first :: part.others

def ofSegments? : List Text → Option StringPart
  | [] => none
  | first :: others => some ⟨first, others⟩

def isInterpolated (part : StringPart) : Bool :=
  !part.others.isEmpty

def value? (part : StringPart) : Option Text :=
  if part.isInterpolated then none else some part.first

/-- What the segments of a part have contributed so far, and the run of text since the last
interpolation. -/
structure Gathered where
  fragments : List Text := []
  run : Text := []

def Gathered.flush (c : Gathered) : Gathered :=
  if c.run.isEmpty then c else ⟨c.fragments ++ [c.run], []⟩

def Gathered.add (c : Gathered) (segment : Text) : Gathered :=
  ⟨c.flush.fragments ++ [segment], c.flush.run ++ segment⟩

def gather (segments : List Text) : List Text :=
  (segments.foldl Gathered.add {}).flush.fragments

/-- A simple part contributes its value, an interpolated one each segment and, again, each run of
text between two interpolations that is not empty. -/
def fragments (part : StringPart) : List Text :=
  if part.isInterpolated then gather part.segments else [part.first]

end StringPart

namespace Literal

def value? (parts : List StringPart) : Option Text :=
  if parts.isEmpty then none else (parts.mapM StringPart.value?).map List.flatten

def jointFragments (parts : List StringPart) : List Text :=
  let simple := parts.filterMap StringPart.value?
  if 1 < parts.length then simple ++ [simple.flatten] else []

def fragments (parts : List StringPart) : List Text :=
  jointFragments parts ++ parts.flatMap StringPart.fragments

end Literal

end Deadwood
