import Deadwood.Text.Basic

/-!
A place in the text of a document, with its line and column.
-/
namespace Deadwood.Yaml

def isBreak (c : CodePoint) : Bool :=
  c == '\n' || c == '\r' || c.val == 0x85 || c.val == 0x2028 || c.val == 0x2029

def isSpace (c : CodePoint) : Bool :=
  c == ' '

def isIndent (c : CodePoint) : Bool :=
  c == ' ' || c == '\t'

def endsLine (next : Option CodePoint) : Bool :=
  next.all isBreak

def endsField (next : Option CodePoint) : Bool :=
  next.all fun c => isSpace c || isBreak c

def endsWord (next : Option CodePoint) : Bool :=
  next.all fun c => isIndent c || isBreak c

structure Cursor where
  rest : Text
  index : Nat := 0
  line : Nat := 0
  column : Nat := 0

namespace Cursor

def peek (p : Cursor) (n : Nat) : Option CodePoint :=
  p.rest[n]?

/-- One character on. A byte order mark takes no column, and a carriage return before a line feed
does not end the line by itself. -/
def next (p : Cursor) : Cursor :=
  match p.rest with
  | [] => p
  | c :: rest =>
    if isBreak c && !(c == '\r' && rest.head? == some '\n') then
      ⟨rest, p.index + 1, p.line + 1, 0⟩
    else ⟨rest, p.index + 1, p.line, if c.val == 0xFEFF then p.column else p.column + 1⟩

def advance : Nat → Cursor → Cursor
  | 0, p => p
  | n + 1, p => advance n p.next

def takeWhile (test : CodePoint → Bool) (p : Cursor) : Text × Cursor :=
  let run := p.rest.takeWhile test
  (run, p.advance run.length)

def dropWhile (test : CodePoint → Bool) (p : Cursor) : Cursor :=
  (p.takeWhile test).2

def lineBreak? (p : Cursor) : Option (CodePoint × Cursor) :=
  match p.rest with
  | [] => none
  | c :: rest =>
    if c == '\r' && rest.head? == some '\n' then some ('\n', p.advance 2)
    else if c == '\r' || c == '\n' || c.val == 0x85 then some ('\n', p.next)
    else if isBreak c then some (c, p.next)
    else none

def isMark (mark : String) (p : Cursor) : Bool :=
  (Text.ofString mark).isPrefixOf p.rest && endsWord (p.peek 3)

def isDocumentMark (p : Cursor) : Bool :=
  p.isMark "---" || p.isMark "..."

def skipComment (p : Cursor) : Cursor :=
  let p := p.dropWhile isSpace
  if p.rest.head? == some '#' then p.dropWhile (!isBreak ·) else p

end Cursor

end Deadwood.Yaml
