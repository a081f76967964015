import Deadwood.Literal.Scanner

/-!
The scanner addressed by positions: each function reads a text from a position on and gives the
position where it stops. Positions count code points from the start of the text.
-/
namespace Deadwood.Literal

inductive PositionError where
  | outOfRange
  deriving DecidableEq, Repr

def PositionError.message : PositionError → String
  | .outOfRange => "string index out of range"

def stopAt (text : Text) (pos : Nat) (rest : Text) : Nat :=
  if text.length ≤ pos then pos else text.length - rest.length

def afterWordAt (text : Text) (pos : Nat) : Bool :=
  pos != 0 && text[pos - 1]?.any CodePoint.isWordChar

def skipTriviaAt (text : Text) (pos : Nat) : Nat :=
  stopAt text pos (skipTrivia (text.drop pos))

def skipBracedAt (text : Text) (pos : Nat) : Nat :=
  stopAt text pos (skipBraced (afterWordAt text pos) 0 (text.drop pos)).val

/-- The part at `pos` and its end; where there is none, the end of the text. -/
def scanPartAt (text : Text) (pos : Nat) : Except PositionError (Option StringPart × Nat) :=
  if text.length ≤ pos then .error .outOfRange
  else
    match scanPart? (text.drop pos) with
    | some (part, rest) => .ok (some part, text.length - rest.length)
    | none => .ok (none, text.length)

def escapeAt (text : Text) (pos : Nat) : Text × Nat :=
  let (decoded, taken) := escape (text.drop (pos + 1))
  if text.length ≤ pos + 1 then (decoded, text.length) else (decoded, pos + 1 + taken)

def startsRawAt (text : Text) (pos : Nat) : Except PositionError Bool :=
  if text.length ≤ pos then .error .outOfRange
  else .ok (startsRaw (afterWordAt text pos) (text.drop pos))

end Deadwood.Literal
