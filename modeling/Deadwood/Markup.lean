import Deadwood.Text.Basic

/-!
Markup of console text: a tag in square brackets gives the style of what follows and is not printed. A
tag starts with a small letter or one of a few signs; other brackets are text. A backslash before a
tag makes it text.
-/
namespace Deadwood.Markup

def bracket : CodePoint := '['

def backslash : CodePoint := '\\'

def startsTag (c : CodePoint) : Bool :=
  c.inRange 'a' 'z' || c == '#' || c == '/' || c == '@'

def tagLength? (t : Text) : Option Nat :=
  match t with
  | first :: c :: rest =>
    if first == bracket && startsTag c then
      let inner := rest.takeWhile fun d : CodePoint => d != '[' && d != ']'
      if (rest.drop inner.length).head? == some ']' then some (inner.length + 3) else none
    else none
  | _ => none

structure Cut where
  before : Text
  slashes : Nat
  tag : Text
  after : Text

def tagHere? (t : Text) : Option Cut :=
  let slashes := (t.takeWhile (· == backslash)).length
  let rest := t.drop slashes
  (tagLength? rest).map fun n => ⟨[], slashes, rest.take n, rest.drop n⟩

def cut? (t : Text) : Option Cut :=
  match tagHere? t with
  | some cut => some cut
  | none =>
    match t with
    | [] => none
    | c :: rest => (cut? rest).map fun cut => { cut with before := c :: cut.before }

def escapeTags : Nat → Text → Text
  | 0, t => t
  | fuel + 1, t =>
    match cut? t with
    | none => t
    | some cut =>
      cut.before ++ List.replicate (2 * cut.slashes + 1) backslash ++ cut.tag ++ escapeTags fuel cut.after

/-- Markup that prints as the text. A single backslash at the end is doubled, so that it cannot act on
what is put after it. -/
def escape (t : Text) : Text :=
  let escaped := escapeTags t.length t
  if escaped.getLast? == some backslash && escaped.dropLast.getLast? != some backslash then
    escaped ++ [backslash]
  else escaped

def plainBrackets : Text → Text
  | [] => []
  | [c] => [c]
  | c :: d :: rest =>
    if c == backslash && d == bracket then d :: plainBrackets rest else c :: plainBrackets (d :: rest)

/-- What markup prints: tags vanish unless an odd number of backslashes stands before them. -/
def renderTags : Nat → Text → Text
  | 0, t => plainBrackets t
  | fuel + 1, t =>
    match cut? t with
    | none => plainBrackets t
    | some cut =>
      plainBrackets cut.before ++ List.replicate (cut.slashes / 2) backslash ++
        (if cut.slashes % 2 == 1 then cut.tag else []) ++ renderTags fuel cut.after

/-- Control characters that would move the cursor are not printed. -/
def isDropped (c : CodePoint) : Bool :=
  [0x07, 0x08, 0x0B, 0x0C, 0x0D].contains c.val

def render (t : Text) : Text :=
  let printed := if t.any (· == bracket) then renderTags t.length t else t
  printed.filter (!isDropped ·)

end Deadwood.Markup
