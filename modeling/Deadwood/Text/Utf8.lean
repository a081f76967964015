import Deadwood.Text.Basic

/-!
Reading UTF-8. Bytes are cut into pieces: a well-formed sequence gives a code point, and each
longest start of a sequence that cannot be completed gives one malformed piece. The three readers
differ only in what they make of a malformed piece.
-/
namespace Deadwood

abbrev Bytes := List UInt8

namespace Bytes

def slice (source : Bytes) (start stop : Nat) : Bytes :=
  (source.take stop).drop start

/-- The one-based line of an offset; only a line feed ends a line. -/
def lineAt (source : Bytes) (offset : Nat) : Nat :=
  (source.take offset).count 0x0A + 1

end Bytes

namespace Utf8

inductive Piece where
  | scalar (c : CodePoint)
  | malformed
  deriving DecidableEq, Repr

def isTail (b : UInt8) : Bool :=
  0x80 ≤ b && b ≤ 0xBF

/-- The bytes that may follow `lead`, narrower than `isTail` where an overlong form, a surrogate or
a number past the last code point would begin. -/
def mayFollow (lead b : UInt8) : Bool :=
  if lead == 0xE0 then 0xA0 ≤ b && b ≤ 0xBF
  else if lead == 0xED then 0x80 ≤ b && b ≤ 0x9F
  else if lead == 0xF0 then 0x90 ≤ b && b ≤ 0xBF
  else if lead == 0xF4 then 0x80 ≤ b && b ≤ 0x8F
  else isTail b

def tailLength? (lead : UInt8) : Option Nat :=
  if lead < 0x80 then some 0
  else if lead < 0xC2 then none
  else if lead < 0xE0 then some 1
  else if lead < 0xF0 then some 2
  else if lead < 0xF5 then some 3
  else none

def leadBits (lead : UInt8) : Nat → Nat
  | 0 => lead.toNat
  | 1 => lead.toNat % 0x20
  | 2 => lead.toNat % 0x10
  | _ => lead.toNat % 0x08

def tail (lead : UInt8) (n : Nat) : Bytes → Bytes
  | [] => []
  | b :: rest => if n != 0 && mayFollow lead b then b :: (rest.take (n - 1)).takeWhile isTail else []

def firstPiece (lead : UInt8) (rest : Bytes) : Piece × Nat :=
  match tailLength? lead with
  | none => (.malformed, 0)
  | some n =>
    let taken := tail lead n rest
    if taken.length == n then
      (.scalar (.ofNat (taken.foldl (fun v b => v * 0x40 + b.toNat % 0x40) (leadBits lead n))), n)
    else (.malformed, taken.length)

/-- The pieces after the next `skip` bytes, which belong to a piece already read. -/
def piecesFrom (skip : Nat) : Bytes → List Piece
  | [] => []
  | b :: rest =>
    match skip with
    | k + 1 => piecesFrom k rest
    | 0 => let (piece, n) := firstPiece b rest
           piece :: piecesFrom n rest

def pieces (source : Bytes) : List Piece :=
  piecesFrom 0 source

def decodeSkipping (source : Bytes) : Text :=
  (pieces source).filterMap fun
    | .scalar c => some c
    | .malformed => none

def decodeReplacing (source : Bytes) : Text :=
  (pieces source).map fun
    | .scalar c => c
    | .malformed => '\uFFFD'

def decode? (source : Bytes) : Option Text :=
  (pieces source).mapM fun
    | .scalar c => some c
    | .malformed => none

def encodePoint (c : CodePoint) : Bytes :=
  let n := c.val
  if n < 0x80 then [n.toUInt8]
  else if n < 0x800 then [(0xC0 + n / 0x40).toUInt8, (0x80 + n % 0x40).toUInt8]
  else if n < 0x10000 then
    [(0xE0 + n / 0x1000).toUInt8, (0x80 + n / 0x40 % 0x40).toUInt8, (0x80 + n % 0x40).toUInt8]
  else
    [(0xF0 + n / 0x40000).toUInt8, (0x80 + n / 0x1000 % 0x40).toUInt8,
      (0x80 + n / 0x40 % 0x40).toUInt8, (0x80 + n % 0x40).toUInt8]

def encode (t : Text) : Bytes :=
  t.flatMap encodePoint

end Utf8

namespace Text

def unifyNewlines : Text → Text
  | [] => []
  | c :: t =>
    if c == '\r' then
      match t with
      | d :: rest => if d == '\n' then '\n' :: unifyNewlines rest else '\n' :: unifyNewlines (d :: rest)
      | [] => ['\n']
    else c :: unifyNewlines t

def ofFile? (content : Bytes) : Option Text :=
  (Utf8.decode? content).map unifyNewlines

end Text

end Deadwood
