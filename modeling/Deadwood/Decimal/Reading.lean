import Deadwood.Text.Blank

/-!
Numbers read from text. Blanks around a number are allowed, a single underscore may stand between
two digits, and digits of any script count.
-/
namespace Deadwood

def Text.decimalZeros : List Nat :=
  [0x660, 0x6F0, 0x7C0, 0x966, 0x9E6, 0xA66, 0xAE6, 0xB66, 0xBE6, 0xC66, 0xCE6, 0xD66, 0xDE6,
   0xE50, 0xED0, 0xF20, 0x1040, 0x1090, 0x17E0, 0x1810, 0x1946, 0x19D0, 0x1A80, 0x1A90, 0x1B50,
   0x1BB0, 0x1C40, 0x1C50, 0xA620, 0xA8D0, 0xA900, 0xA9D0, 0xA9F0, 0xAA50, 0xABF0, 0xFF10,
   0x104A0, 0x10D30, 0x11066, 0x110F0, 0x11136, 0x111D0, 0x112F0, 0x11450, 0x114D0, 0x11650,
   0x116C0, 0x11730, 0x118E0, 0x11950, 0x11C50, 0x11D50, 0x11DA0, 0x16A60, 0x16AC0, 0x16B50,
   0x1D7CE, 0x1D7D8, 0x1D7E2, 0x1D7EC, 0x1D7F6, 0x1E140, 0x1E2F0, 0x1E950, 0x1FBF0]

def CodePoint.decimalValue? (c : CodePoint) : Option Nat :=
  if c.val < 0x80 then if c.isDigit then some (c.val - '0'.toNat) else none
  else (Text.decimalZeros.find? fun first => first ≤ c.val && c.val < first + 10).map (c.val - ·)

namespace Text

def digitValue? (base : Nat) (c : CodePoint) : Option Nat :=
  (c.decimalValue? <|> c.hexValue?).filter (· < base)

/-- The digits of a number; `afterDigit` says whether an underscore may come next. -/
def digitRun? (base : Nat) (afterDigit : Bool) : Text → Option (List Nat)
  | [] => if afterDigit then some [] else none
  | c :: t =>
    if c == '_' then if afterDigit then digitRun? base false t else none
    else (digitValue? base c).bind fun d => (digitRun? base true t).map (d :: ·)

def ofDigits (base : Nat) (digits : List Nat) : Nat :=
  digits.foldl (fun n d => base * n + d) 0

def breakSign (t : Text) : Bool × Text :=
  match t with
  | c :: rest => if c == '-' then (true, rest) else if c == '+' then (false, rest) else (false, t)
  | [] => (false, [])

def baseLetter? : Nat → Option CodePoint
  | 2 => some 'b'
  | 8 => some 'o'
  | 16 => some 'x'
  | _ => none

def dropBaseMark (base : Nat) (t : Text) : Text :=
  match t with
  | zero :: letter :: rest =>
    if zero == '0' && some letter.toLower == baseLetter? base then
      if rest.head? == some '_' then rest.drop 1 else rest
    else t
  | _ => t

/-- Decimal numbers with more digits are neither read nor written. -/
def digitLimit : Nat := 4300

def integer? (base : Nat) (t : Text) : Option Int :=
  let (negative, body) := breakSign t.strip
  (digitRun? base false (dropBaseMark base body)).bind fun digits =>
    if base == 10 && digitLimit < digits.length then none
    else
      let size : Int := ofDigits base digits
      some (if negative then -size else size)

/-- The number `m · 10 ^ e`. Past the limits every such number is zero or infinite, so that large
exponents cost nothing. -/
def scientific (m : Nat) (e : Int) : Float :=
  let digits : Int := (Nat.toDigits 10 m).length
  if m == 0 || e + digits < -400 then 0.0
  else if 400 < e + digits then 1.0 / 0.0
  else if e < 0 then Float.ofScientific m true e.natAbs
  else Float.ofScientific m false e.natAbs

def leadingDigits (t : Text) : List Nat × Text :=
  let run := t.takeWhile fun c => c.decimalValue?.isSome
  (run.filterMap CodePoint.decimalValue?, t.drop run.length)

def exponent? (t : Text) : Option Int :=
  match t with
  | [] => some 0
  | c :: rest =>
    if c.toLower == 'e' then
      let (negative, body) := breakSign rest
      let (digits, rest) := leadingDigits body
      if digits.isEmpty || !rest.isEmpty then none
      else some (if negative then -(ofDigits 10 digits : Int) else ofDigits 10 digits)
    else none

def unsignedDecimal? (t : Text) : Option Float :=
  let (whole, rest) := leadingDigits t
  let (fraction, rest) := match rest with
    | c :: after => if c == '.' then leadingDigits after else ([], rest)
    | [] => ([], rest)
  if whole.isEmpty && fraction.isEmpty then none
  else (exponent? rest).map fun e =>
    scientific (ofDigits 10 (whole ++ fraction)) (e - fraction.length)

def decimal? (t : Text) : Option Float :=
  let (negative, body) := breakSign t.strip
  let name := body.toLower
  let size :=
    if name == Text.ofString "inf" || name == Text.ofString "infinity" then some (1.0 / 0.0)
    else if name == Text.ofString "nan" then some (0.0 / 0.0)
    else unsignedDecimal? body
  size.map fun x => if negative then -x else x

end Text

end Deadwood
