import Deadwood.Proofs.Literal.Grammar

/-!
The grammar of JSON. Every rule relates a text to what it denotes, and nothing here refers to how a
document is written or read.
-/
namespace Deadwood.Json

open Deadwood.Literal (HexNumeral)

/-- What a text denotes. A number with a fraction or an exponent is a significand times a power of
ten; members keep their order, and names may repeat. -/
inductive Document where
  | null
  | bool (value : Bool)
  | integer (value : Int)
  | decimal (significand exponent : Int)
  | string (value : Text)
  | array (items : List Document)
  | object (members : List (Text × Document))

def isSpace (c : CodePoint) : Bool :=
  c == ' ' || c == '\t' || c == '\n' || c == '\r'

def Spaces (t : Text) : Prop :=
  ∀ c ∈ t, isSpace c

/-! ### Numbers -/

/-- Decimal digits, the highest first, with the number they write. -/
inductive Numeral : Text → Nat → Prop
  | digit {c : CodePoint} {v : Nat} : v < 10 → c.val = '0'.toNat + v → Numeral [c] v
  | snoc {t : Text} {n : Nat} {c : CodePoint} {v : Nat} : Numeral t n → v < 10 →
      c.val = '0'.toNat + v → Numeral (t ++ [c]) (10 * n + v)

/-- The digits before the point: a zero stands alone. -/
structure Whole (digits : Text) : Prop where
  ne_nil : digits ≠ []
  zero_alone : digits.head? = some (CodePoint.ofChar '0') → digits = [CodePoint.ofChar '0']

inductive Minus : Text → Bool → Prop
  | absent : Minus [] false
  | minus : Minus ['-'] true

inductive Fraction : Text → Text → Prop
  | absent : Fraction [] []
  | present {digits : Text} : digits ≠ [] → Fraction ('.' :: digits) digits

inductive Exponent : Text → Int → Prop
  | absent : Exponent [] 0
  | positive {mark : CodePoint} {sign digits : Text} {n : Nat} : mark = 'e' ∨ mark = 'E' →
      sign = [] ∨ sign = [CodePoint.ofChar '+'] → Numeral digits n →
      Exponent (mark :: (sign ++ digits)) n
  | negative {mark : CodePoint} {digits : Text} {n : Nat} : mark = 'e' ∨ mark = 'E' →
      Numeral digits n → Exponent (mark :: '-' :: digits) (-n)

def signed (negative : Bool) (n : Nat) : Int :=
  if negative then -n else n

inductive Number : Text → Document → Prop
  | integer {sign whole : Text} {negative : Bool} {n : Nat} : Minus sign negative → Whole whole →
      Numeral whole n → Number (sign ++ whole) (.integer (signed negative n))
  | decimal {sign whole point digits power : Text} {negative : Bool} {n : Nat} {e : Int} :
      Minus sign negative → Whole whole → Fraction point digits → Numeral (whole ++ digits) n →
      Exponent power e → point ++ power ≠ [] →
      Number (sign ++ (whole ++ (point ++ power)))
        (.decimal (signed negative n) (e - digits.length))

/-! ### Strings -/

def letterEscapes : List (CodePoint × CodePoint) :=
  [('"', '"'), ('\\', '\\'), ('/', '/'), ('b', '\x08'), ('f', '\x0C'), ('n', '\n'), ('r', '\r'),
    ('t', '\t')]

/-- The first and the second half of a pair that stands for one code point past `FFFF`. -/
def isHigh (c : CodePoint) : Bool :=
  0xD800 ≤ c.val && c.val < 0xDC00

def isLow (c : CodePoint) : Bool :=
  0xDC00 ≤ c.val && c.val < 0xE000

inductive CodeUnit : Text → CodePoint → Prop
  | mk {digits : Text} {c : CodePoint} : digits.length = 4 → HexNumeral digits c.val →
      CodeUnit ('\\' :: 'u' :: digits) c

/-- What stands between the quotes. Two escapes that make a pair are not read one by one. -/
inductive Characters : Text → Text → Prop
  | nil : Characters [] []
  | plain {c : CodePoint} {t s : Text} : 0x20 ≤ c.val → c ≠ '"' → c ≠ '\\' → Characters t s →
      Characters (c :: t) (c :: s)
  | letter {l c : CodePoint} {t s : Text} : (l, c) ∈ letterEscapes → Characters t s →
      Characters ('\\' :: l :: t) (c :: s)
  | unit {u t s : Text} {c : CodePoint} : CodeUnit u c →
      (isHigh c → ∀ u' low, u' <+: t → CodeUnit u' low → isLow low = false) → Characters t s →
      Characters (u ++ t) (c :: s)
  | pair {u u' t s : Text} {high low c : CodePoint} : CodeUnit u high → isHigh high →
      CodeUnit u' low → isLow low →
      c.val = 0x10000 + (high.val - 0xD800) * 0x400 + (low.val - 0xDC00) →
      Characters t s → Characters (u ++ (u' ++ t)) (c :: s)

/-! ### Values -/

mutual

inductive Value : Text → Document → Prop
  | wordNull : Value (Text.ofString "null") .null
  | wordTrue : Value (Text.ofString "true") (.bool true)
  | wordFalse : Value (Text.ofString "false") (.bool false)
  | number {t : Text} {d : Document} : Number t d → Value t d
  | string {t s : Text} : Characters t s → Value ('"' :: (t ++ [CodePoint.ofChar '"'])) (.string s)
  | emptyArray {t : Text} : Spaces t → Value ('[' :: (t ++ [CodePoint.ofChar ']'])) (.array [])
  | array {t : Text} {ds : List Document} : Elements t ds →
      Value ('[' :: (t ++ [CodePoint.ofChar ']'])) (.array ds)
  | emptyObject {t : Text} : Spaces t → Value ('{' :: (t ++ [CodePoint.ofChar '}'])) (.object [])
  | object {t : Text} {ms : List (Text × Document)} : Members t ms →
      Value ('{' :: (t ++ [CodePoint.ofChar '}'])) (.object ms)

/-- A value with spaces around it. A whole text is one element. -/
inductive Element : Text → Document → Prop
  | mk {before t after : Text} {d : Document} : Spaces before → Value t d → Spaces after →
      Element (before ++ (t ++ after)) d

inductive Elements : Text → List Document → Prop
  | last {t : Text} {d : Document} : Element t d → Elements t [d]
  | next {t more : Text} {d : Document} {ds : List Document} : Element t d → Elements more ds →
      Elements (t ++ CodePoint.ofChar ',' :: more) (d :: ds)

inductive Member : Text → Text × Document → Prop
  | mk {before t name after value : Text} {d : Document} : Spaces before → Characters t name →
      Spaces after → Element value d →
      Member (before ++ CodePoint.ofChar '"' :: (t ++ CodePoint.ofChar '"' ::
        (after ++ CodePoint.ofChar ':' :: value))) (name, d)

inductive Members : Text → List (Text × Document) → Prop
  | last {t : Text} {m : Text × Document} : Member t m → Members t [m]
  | next {t more : Text} {m : Text × Document} {ms : List (Text × Document)} : Member t m →
      Members more ms → Members (t ++ CodePoint.ofChar ',' :: more) (m :: ms)

end

end Deadwood.Json
