import Deadwood.Literal.Scanner
import Deadwood.Tree.Basic

/-!
The tokens of Dart source. Strings are taken apart, because the code in an interpolation counts as
code: a string gives a token for each quote mark and each interpolated name, and the code between
`${` and its closing brace gives the tokens it would give outside.
-/
namespace Deadwood.Dart

inductive Token.Kind where
  | word
  | number
  | generator
  | arrow
  | symbol
  | openString
  | closeString
  | interpolatedName
  | openCode
  | closeCode
  deriving DecidableEq, Repr

structure Token where
  kind : Token.Kind
  text : String
  span : Span
  deriving Repr

structure Located where
  char : CodePoint
  offset : Nat

def Located.is (l : Located) (c : CodePoint) : Bool :=
  l.char == c

def locate (offset : Nat) : Text → List Located
  | [] => []
  | c :: t => ⟨c, offset⟩ :: locate (offset + (Utf8.encodePoint c).length) t

inductive Mode where
  | code (braces : Nat)
  | string (delimiter : Literal.Delimiter)

def isWordStart (c : CodePoint) : Bool :=
  c.isNameStart || c == '$'

def isWordPart (c : CodePoint) : Bool :=
  c.isNameChar || c == '$'

def isGap (c : CodePoint) : Bool :=
  c.isBlank || c.val == 0xFEFF

def startsWith (p : String) (s : List Located) : Bool :=
  (Text.ofString p).isPrefixOf (s.map Located.char |>.take p.length)

/-- The rest after a block comment whose opening was read; comments nest. -/
def afterComment (depth : Nat) : List Located → List Located
  | a :: b :: rest =>
    if a.is '*' && b.is '/' then
      match depth with
      | 0 => rest
      | k + 1 => afterComment k rest
    else if a.is '/' && b.is '*' then afterComment (depth + 1) rest
    else afterComment depth (b :: rest)
  | _ => []

def numberLength (s : List Located) : Nat :=
  let digits (s : List Located) : Nat :=
    (s.takeWhile fun l => l.char.isDigit || l.is '_').length
  if startsWith "0x" s || startsWith "0X" s then
    2 + ((s.drop 2).takeWhile fun l => l.char.isHexDigit || l.is '_').length
  else
    let whole := digits s
    let fraction :=
      match s.drop whole with
      | dot :: rest => if dot.is '.' && 0 < digits rest then 1 + digits rest else 0
      | [] => 0
    let mantissa := whole + fraction
    let exponent :=
      match s.drop mantissa with
      | e :: rest =>
        if e.is 'e' || e.is 'E' then
          let sign := if (rest.head?.any fun l => l.is '+' || l.is '-') then 1 else 0
          let power := digits (rest.drop sign)
          if power == 0 then 0 else 1 + sign + power
        else 0
      | [] => 0
    mantissa + exponent

def openString? (s : List Located) : Option (Literal.Delimiter × Nat) :=
  let raw := s.head?.any (·.is 'r')
  let s' := if raw then s.drop 1 else s
  let rawLength := if raw then 1 else 0
  match s' with
  | q :: rest =>
    if q.char.isQuote then
      let triple := (rest.take 2).map Located.char == [q.char, q.char]
      some (⟨q.char, triple, raw⟩, rawLength + if triple then 3 else 1)
    else none
  | [] => none

/-- What is read at one place: how many characters beyond the first, the token if they make one,
and what the lexer is inside of afterwards. -/
structure Step where
  extra : Nat
  kind : Option Token.Kind
  modes : List Mode

namespace Step

def skip (extra : Nat) (modes : List Mode) : Step :=
  ⟨extra, none, modes⟩

def emit (kind : Token.Kind) (extra : Nat) (modes : List Mode) : Step :=
  ⟨extra, some kind, modes⟩

end Step

def stringStep (d : Literal.Delimiter) (modes : List Mode) (c : CodePoint) (rest : List Located) :
    Step :=
  if d.mark.isPrefixOf (c :: (rest.take 2).map Located.char) then
    .emit .closeString (d.mark.length - 1) modes
  else if d.endsBefore c then .emit .closeString 0 modes
  else if c == '\\' && !d.raw then .skip 1 (.string d :: modes)
  else if c == '$' && !d.raw && (rest.head?.any (·.is '\x7b')) then
    .emit .openCode 1 (.code 0 :: .string d :: modes)
  else .skip 0 (.string d :: modes)

def codeStep (modes : List Mode) (c : CodePoint) (rest : List Located) : Step :=
  let here : Located := ⟨c, 0⟩
  if isGap c then .skip 0 modes
  else if c == '/' && startsWith "/" rest then
    .skip ((rest.takeWhile fun l => !l.is '\n').length) modes
  else if c == '/' && startsWith "*" rest then
    .skip (rest.length - (afterComment 0 (rest.drop 1)).length) modes
  else
    match openString? (here :: rest) with
    | some (d, n) => .emit .openString (n - 1) (.string d :: modes)
    | none =>
      if isWordStart c then
        let word := rest.takeWhile fun l => isWordPart l.char
        let text := c :: word.map Located.char
        if (text == Text.ofString "async" || text == Text.ofString "sync") &&
            startsWith "*" (rest.drop word.length) then
          .emit .generator (word.length + 1) modes
        else .emit .word word.length modes
      else if c.isDigit then .emit .number (numberLength (here :: rest) - 1) modes
      else if c == '=' && startsWith ">" rest then .emit .arrow 1 modes
      else
        match modes with
        | .code braces :: outer =>
          if c == '\x7b' then .emit .symbol 0 (.code (braces + 1) :: outer)
          else if c == '\x7d' then
            match braces with
            | 0 => .emit .closeCode 0 outer
            | k + 1 => .emit .symbol 0 (.code k :: outer)
          else .emit .symbol 0 modes
        | _ => .emit .symbol 0 modes

def interpolatedWord? (d : Literal.Delimiter) (c : CodePoint) (rest : List Located) :
    Option (List Located) :=
  if c == '$' && !d.raw && (rest.head?.any fun l => l.char.isNameStart) then
    some (rest.takeWhile fun l => l.char.isNameChar)
  else none

def textOf (s : List Located) : String :=
  String.ofList (s.filterMap fun l => l.char.toChar?)

def offsetOf (total : Nat) (s : List Located) : Nat :=
  match s with
  | l :: _ => l.offset
  | [] => total

def lex (total : Nat) (modes : List Mode) (s : List Located) : List Token :=
  match s with
  | [] => []
  | l :: rest =>
    let interpolated := match modes with
      | .string d :: _ => interpolatedWord? d l.char rest
      | _ => none
    match interpolated with
    | some word =>
      let after := rest.drop word.length
      ⟨.interpolatedName, textOf word, ⟨offsetOf total rest, offsetOf total after⟩⟩ ::
        lex total modes after
    | none =>
      let step := match modes with
        | .string d :: outer => stringStep d outer l.char rest
        | _ => codeStep modes l.char rest
      let after := rest.drop step.extra
      match step.kind with
      | some kind =>
        ⟨kind, textOf (l :: rest.take step.extra), ⟨l.offset, offsetOf total after⟩⟩ ::
          lex total step.modes after
      | none => lex total step.modes after
termination_by s.length
decreasing_by
  all_goals simp only [List.length_cons, List.length_drop]; omega

def tokens (source : Text) : List Token :=
  let s := locate 0 source
  let total := (Utf8.encode source).length
  let body := s.dropWhile fun l => l.char.val == 0xFEFF
  lex total [] (if startsWith "#!" body then body.dropWhile (!·.is '\n') else body)

end Deadwood.Dart
