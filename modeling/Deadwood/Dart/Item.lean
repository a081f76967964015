import Deadwood.Dart.Token

/-!
Tokens nested by their brackets. Adjacent string literals are one item, as they are one literal to
the grammar.
-/
namespace Deadwood.Dart

inductive Item where
  | token (token : Token)
  | group (opening : Token) (items : List Item) (closing : Option Token)
  | literal (span : Span) (pieces : List Item)

namespace Item

def span : Item → Span
  | token t => t.span
  | group opening _ closing => ⟨opening.span.start, (closing.getD opening).span.stop⟩
  | literal span _ => span

def word? : Item → Option String
  | token ⟨.word, text, _⟩ => some text
  | _ => none

def isWord (w : String) (i : Item) : Bool :=
  i.word? == some w

def isSymbol (s : String) : Item → Bool
  | token ⟨.symbol, text, _⟩ => text == s
  | _ => false

def isArrow : Item → Bool
  | token t => t.kind == .arrow
  | _ => false

def isGenerator : Item → Bool
  | token t => t.kind == .generator
  | _ => false

def isLiteral : Item → Bool
  | literal .. => true
  | _ => false

def isGroup (bracket : String) : Item → Bool
  | group opening _ _ => opening.text == bracket
  | _ => false

def isParens : Item → Bool :=
  isGroup "("

def isBraces : Item → Bool :=
  isGroup "\x7b"

end Item

def Token.isOpening (t : Token) : Bool :=
  match t.kind with
  | .openString | .openCode => true
  | .symbol => ["(", "[", "\x7b"].contains t.text
  | _ => false

def Token.isClosing (t : Token) : Bool :=
  match t.kind with
  | .closeString | .closeCode => true
  | .symbol => [")", "]", "\x7d"].contains t.text
  | _ => false

/-- Puts an item after others, which are listed last first; a literal joins a literal before it. -/
def Item.after (i : Item) (before : List Item) : List Item :=
  match i, before with
  | .literal second pieces', .literal first pieces :: rest =>
    .literal ⟨first.start, second.stop⟩ (pieces ++ pieces') :: rest
  | _, _ => i :: before

def Item.enclosed (opening : Token) (items : List Item) (closing : Option Token) : Item :=
  match opening.kind with
  | .openString =>
    .literal ⟨opening.span.start, (closing.getD opening).span.stop⟩
      (.token opening :: items ++ (closing.map Item.token).toList)
  | _ => .group opening items closing

/-- The items of a run of tokens. Each frame holds an opening token and the items before it;
`current` holds the items after the last opening token. Both list the last item first. -/
def nestFrom (frames : List (Token × List Item)) (current : List Item) : List Token → List Item
  | [] =>
    (frames.foldl (fun inner (opening, outer) =>
      (Item.enclosed opening inner.reverse none).after outer) current).reverse
  | t :: rest =>
    if t.isOpening then nestFrom ((t, current) :: frames) [] rest
    else
      match frames with
      | (opening, outer) :: frames' =>
        if t.isClosing then
          nestFrom frames' ((Item.enclosed opening current.reverse (some t)).after outer) rest
        else nestFrom frames (.token t :: current) rest
      | [] => nestFrom [] (.token t :: current) rest

def nest (tokens : List Token) : List Item :=
  nestFrom [] [] tokens

end Deadwood.Dart
