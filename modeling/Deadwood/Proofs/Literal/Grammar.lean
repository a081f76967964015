import Deadwood.Literal.Scanner

/-!
The grammar of string literals. A rule relates source text, from some place to its very end, to
what stands there and to the text that follows it, so a rule can look ahead as far as the format
does. Nothing here refers to how literals are scanned.
-/
namespace Deadwood.Literal

/-- A hexadecimal digit of either case, with its value. -/
inductive HexDigit : CodePoint → Nat → Prop
  | decimal {c : CodePoint} {v : Nat} : v < 10 → c.val = '0'.toNat + v → HexDigit c v
  | lower {c : CodePoint} {v : Nat} : v < 6 → c.val = 'a'.toNat + v → HexDigit c (10 + v)
  | upper {c : CodePoint} {v : Nat} : v < 6 → c.val = 'A'.toNat + v → HexDigit c (10 + v)

inductive HexNumeral : Text → Nat → Prop
  | digit {c : CodePoint} {v : Nat} : HexDigit c v → HexNumeral [c] v
  | snoc {t : Text} {n : Nat} {c : CodePoint} {v : Nat} :
      HexNumeral t n → HexDigit c v → HexNumeral (t ++ [c]) (16 * n + v)

def controlLetters : List (CodePoint × CodePoint) :=
  [('n', '\n'), ('r', '\r'), ('t', '\t'), ('b', '\x08'), ('f', '\x0C'), ('v', '\x0B')]

/-- What does not stand for itself after a backslash. A carriage return is among them because it
takes a line feed after it along. -/
def notItself : Text :=
  ['n', 'r', 't', 'b', 'f', 'v', 'x', 'u', '\r']

/-- What follows the backslash of an escape, the code point that the escape denotes, and what
follows the escape. -/
inductive Escape : Text → CodePoint → Text → Prop
  | control {l c : CodePoint} {rest : Text} : (l, c) ∈ controlLetters → Escape (l :: rest) c rest
  | byte {digits rest : Text} {c : CodePoint} :
      digits.length = 2 → HexNumeral digits c.val → Escape ('x' :: (digits ++ rest)) c rest
  | short {digits rest : Text} {c : CodePoint} :
      digits.length = 4 → HexNumeral digits c.val → Escape ('u' :: (digits ++ rest)) c rest
  | braced {digits rest : Text} {c : CodePoint} :
      HexNumeral digits c.val → Escape ('u' :: '{' :: (digits ++ CodePoint.ofChar '}' :: rest)) c rest
  | itself {c : CodePoint} {rest : Text} : c ∉ notItself → Escape (c :: rest) c rest

def blockEnd : Text := ['*', '/']

inductive Comment : Text → Text → Prop
  | line {body rest : Text} : CodePoint.ofChar '\n' ∉ body →
      Comment ('/' :: '/' :: (body ++ CodePoint.ofChar '\n' :: rest)) rest
  | block {body rest : Text} : ¬ blockEnd <:+: body →
      Comment ('/' :: '*' :: (body ++ blockEnd ++ rest)) rest

inductive Trivia : Text → Prop
  | nil : Trivia []
  | blank {c : CodePoint} {t : Text} : c.isBlank → Trivia t → Trivia (c :: t)
  | comment {t rest : Text} : Comment t rest → Trivia rest → Trivia t

/-- A line of spaces and tabs only, with what follows it. A carriage return before a line feed is
no line break of its own. -/
inductive BlankLine : Text → Text → Prop
  | lineFeed {s : Text} : BlankLine ('\n' :: s) s
  | returnFeed {s : Text} : BlankLine ('\r' :: '\n' :: s) s
  | carriageReturn {s : Text} : s.head? ≠ some (CodePoint.ofChar '\n') → BlankLine ('\r' :: s) s
  | space {c : CodePoint} {t s : Text} : c = ' ' ∨ c = '\t' → BlankLine t s → BlankLine (c :: t) s

/-- What stands before the quotes of a part: a raw one is marked. -/
inductive RawMark : Bool → Text → Prop
  | none : RawMark false []
  | lower : RawMark true ['r']
  | upper : RawMark true ['R']

/-- The start of a part, with its body. After triple quotes a blank first line is not part of the
body, and a body cannot start with one. -/
inductive Opens : Delimiter → Text → Text → Prop
  | single {q : CodePoint} {raw : Bool} {m body : Text} : q.isQuote → RawMark raw m →
      Opens ⟨q, false, raw⟩ (m ++ q :: body) body
  | triple {q : CodePoint} {raw : Bool} {m body : Text} : q.isQuote → RawMark raw m →
      (∀ s, ¬ BlankLine body s) → Opens ⟨q, true, raw⟩ (m ++ q :: q :: q :: body) body
  | tripleLine {q : CodePoint} {raw : Bool} {m t body : Text} : q.isQuote → RawMark raw m →
      BlankLine t body → Opens ⟨q, true, raw⟩ (m ++ q :: q :: q :: t) body

/-- A dollar sign before this text starts an interpolation. -/
def StartsInterpolation (source : Text) : Prop :=
  ∃ c ∈ source.head?, c = '{' ∨ c.isNameStart

/-- `c` can stand for itself in a part, before `source`. -/
structure Delimiter.Verbatim (d : Delimiter) (c : CodePoint) (source : Text) : Prop where
  not_closing : ¬ d.mark <+: c :: source
  same_line : d.triple = false → c.isNewline = false
  not_escape : d.raw = false → c ≠ '\\'
  not_interpolation : d.raw = false → c = '$' → ¬ StartsInterpolation source

/-- `c` can stand for itself in interpolated code, before `source`. After a word, `r` belongs to
the word and a quote that follows starts a plain part. -/
structure PlainCode (afterWord : Bool) (c : CodePoint) (source : Text) : Prop where
  not_quote : c.isQuote = false
  not_brace : c ≠ '{' ∧ c ≠ '}'
  not_comment : c = '/' → ∀ x ∈ source.head?, x ≠ '/' ∧ x ≠ '*'
  not_raw : c = 'r' ∨ c = 'R' → afterWord = false → ∀ q ∈ source.head?, q.isQuote = false

mutual

/-- The body of a part up to and with its closing quotes, the segments written in it, and what
follows. -/
inductive Body : Delimiter → Text → StringPart → Text → Prop
  | close {d : Delimiter} {rest : Text} : Body d (d.mark ++ rest) ⟨[], []⟩ rest
  | verbatim {d : Delimiter} {c : CodePoint} {source rest : Text} {part : StringPart} :
      d.Verbatim c source → Body d source part rest →
      Body d (c :: source) ⟨c :: part.first, part.others⟩ rest
  | escape {d : Delimiter} {source after rest : Text} {c : CodePoint} {part : StringPart} :
      d.raw = false → Escape source c after → Body d after part rest →
      Body d ('\\' :: source) ⟨c :: part.first, part.others⟩ rest
  | name {d : Delimiter} {c : CodePoint} {word source rest : Text} {part : StringPart} :
      d.raw = false → c.isNameStart → word.all CodePoint.isNameChar →
      (∀ x ∈ source.head?, x.isNameChar = false) → Body d source part rest →
      Body d ('$' :: c :: (word ++ source)) ⟨[], part.segments⟩ rest
  | code {d : Delimiter} {source after rest : Text} {part : StringPart} :
      d.raw = false → Code false source after → Body d after part rest →
      Body d ('$' :: '{' :: source) ⟨[], part.segments⟩ rest

/-- Code up to and with the brace that closes it, and what follows. The flag says whether the
character before could make `r` the end of a longer word. -/
inductive Code : Bool → Text → Text → Prop
  | close {w : Bool} {rest : Text} : Code w ('}' :: rest) rest
  | plain {w : Bool} {c : CodePoint} {source rest : Text} :
      PlainCode w c source → Code c.isWordChar source rest → Code w (c :: source) rest
  | braces {w : Bool} {source after rest : Text} :
      Code false source after → Code false after rest → Code w ('{' :: source) rest
  | comment {w : Bool} {source after rest : Text} :
      Comment source after → Code false after rest → Code w source rest
  | part {w : Bool} {d : Delimiter} {source body after rest : Text} {part : StringPart} :
      Opens d source body → (d.raw → w = false) →
      (d.triple = false → ¬ [d.quote, d.quote] <+: body) →
      Body d body part after → Code false after rest → Code w source rest

end

inductive Part : Text → StringPart → Text → Prop
  | mk {d : Delimiter} {source body rest : Text} {part : StringPart} :
      Opens d source body → Body d body part rest → Part source part rest

/-- Parts with trivia between them, and perhaps after the last. -/
inductive Adjacent : List StringPart → Text → Prop
  | last {source rest : Text} {part : StringPart} :
      Part source part rest → Trivia rest → Adjacent [part] source
  | next {source gap more : Text} {part : StringPart} {parts : List StringPart} :
      Part source part (gap ++ more) → Trivia gap → gap ≠ [] → Adjacent parts more →
      Adjacent (part :: parts) source

/-- The text writes a literal with these parts. -/
inductive Written : List StringPart → Text → Prop
  | none {t : Text} : Trivia t → Written [] t
  | some {lead source : Text} {parts : List StringPart} :
      Trivia lead → Adjacent parts source → Written parts (lead ++ source)

end Deadwood.Literal
