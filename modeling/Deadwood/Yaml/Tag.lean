import Deadwood.Calendar
import Deadwood.Text.Basic

/-!
Tags say what kind of value a node is. A plain scalar without a tag gets one from its spelling.
-/
namespace Deadwood.Yaml

inductive Tag where
  | null
  | bool
  | int
  | float
  | str
  | binary
  | timestamp
  | seq
  | map
  | set
  | omap
  | pairs
  | merge
  | value
  | unknown
  deriving DecidableEq, Repr

namespace Tag

def ofName (name : Text) : Tag :=
  match ((Text.ofString "tag:yaml.org,2002:").isPrefixOf? name).bind Text.toString? with
  | some "null" => null
  | some "bool" => bool
  | some "int" => int
  | some "float" => float
  | some "str" => str
  | some "binary" => binary
  | some "timestamp" => timestamp
  | some "seq" => seq
  | some "map" => map
  | some "set" => set
  | some "omap" => omap
  | some "pairs" => pairs
  | some "merge" => merge
  | some "value" => value
  | _ => unknown

def isCollection (t : Tag) : Bool :=
  [seq, map, set, omap, pairs].contains t

end Tag

/-! ### Spellings of plain scalars -/

namespace Plain

def isWord (words : List String) (t : Text) : Bool :=
  words.any fun w => Text.ofString w == t

def isNull (t : Text) : Bool :=
  isWord ["", "~", "null", "Null", "NULL"] t

def isBool (t : Text) : Bool :=
  isWord ["yes", "Yes", "YES", "no", "No", "NO", "true", "True", "TRUE", "false", "False", "FALSE",
    "on", "On", "ON", "off", "Off", "OFF"] t

def dropSign (t : Text) : Text :=
  match t with
  | c :: rest => if c == '+' || c == '-' then rest else t
  | [] => []

def isUnderscore (c : CodePoint) : Bool :=
  c == '_'

def isDigitOrGap (c : CodePoint) : Bool :=
  c.isDigit || isUnderscore c

def inDigits (lo hi : Char) (c : CodePoint) : Bool :=
  c.inRange lo hi || isUnderscore c

def isRun (test : CodePoint → Bool) (t : Text) : Bool :=
  !t.isEmpty && t.all test

def isNumber (first : CodePoint → Bool) (t : Text) : Bool :=
  match t with
  | c :: rest => first c && rest.all isDigitOrGap
  | [] => false

def isSixtieth (t : Text) : Bool :=
  match t with
  | [a] => a.isDigit
  | [a, b] => a.inRange '0' '5' && b.isDigit
  | _ => false

def startsAbove (c : CodePoint) : Bool :=
  c.inRange '1' '9'

def isInt (t : Text) : Bool :=
  let body := dropSign t
  let marked (mark : String) (test : CodePoint → Bool) : Bool :=
    match (Text.ofString mark).isPrefixOf? body with
    | some rest => isRun test rest
    | none => false
  body == Text.ofString "0" || marked "0b" (inDigits '0' '1') || marked "0" (inDigits '0' '7') ||
    marked "0x" (fun c => c.isHexDigit || isUnderscore c) || isNumber startsAbove body ||
    match body.split ':' with
    | first :: second :: rest => isNumber startsAbove first && (second :: rest).all isSixtieth
    | _ => false

def isExponent (t : Text) : Bool :=
  match t with
  | [] => true
  | e :: sign :: digits =>
    (e == 'e' || e == 'E') && (sign == '+' || sign == '-') && isRun CodePoint.isDigit digits
  | _ => false

def isFraction (t : Text) : Bool :=
  isExponent (t.dropWhile isDigitOrGap)

def isFloat (t : Text) : Bool :=
  let body := dropSign t
  let (whole, fraction) := body.breakAt '.'
  let hasPoint := body.any (· == '.')
  let positional := hasPoint && isNumber CodePoint.isDigit whole && isFraction fraction
  let pointFirst := match t with
    | point :: c :: rest => point == '.' && c.isDigit && isFraction rest
    | _ => false
  let sixties := hasPoint && fraction.all isDigitOrGap && match whole.split ':' with
    | first :: second :: rest =>
      isNumber CodePoint.isDigit first && (second :: rest).all isSixtieth
    | _ => false
  positional || pointFirst || sixties || isWord [".inf", ".Inf", ".INF"] body ||
    isWord [".nan", ".NaN", ".NAN"] t

def digits? (least most : Nat) (t : Text) : Option (Text × Text) :=
  let run := (t.take most).takeWhile CodePoint.isDigit
  if least ≤ run.length then some (run, t.drop run.length) else none

def sign? (c : Char) (t : Text) : Option Text :=
  match t with
  | d :: rest => if d == c then some rest else none
  | [] => none

def natural (digits : Text) : Nat :=
  digits.foldl (fun n c => 10 * n + (c.val - '0'.toNat)) 0

/-- The time of day in a timestamp; the offset is in minutes. -/
structure Clock where
  hour : Nat
  minute : Nat
  second : Nat
  microsecond : Nat
  offset : Option Int

/-- The parts of a timestamp. `full` says whether month and day have two digits. -/
structure Stamp where
  year : Nat
  month : Nat
  day : Nat
  full : Bool
  clock : Option Clock

def isGap (c : CodePoint) : Bool :=
  c == ' ' || c == '\t'

def offset? (t : Text) : Option (Option Int) :=
  if t.isEmpty then some none
  else
    match t.dropWhile isGap with
    | [] => none
    | c :: rest =>
      if c == 'Z' then if rest.isEmpty then some (some 0) else none
      else if c == '+' || c == '-' then do
        let (hours, rest) ← digits? 1 2 rest
        let minutes ← if rest.isEmpty then some 0 else do
          let rest ← sign? ':' rest
          let (minutes, rest) ← digits? 2 2 rest
          if rest.isEmpty then some (natural minutes) else none
        let size : Int := natural hours * 60 + minutes
        return some (if c == '-' then -size else size)
      else none

def fraction? (t : Text) : Nat × Text :=
  match sign? '.' t with
  | none => (0, t)
  | some rest =>
    let digits := rest.takeWhile CodePoint.isDigit
    let kept := digits.take 6
    (natural kept * Nat.pow 10 (6 - kept.length), rest.drop digits.length)

def clock? (t : Text) : Option Clock := do
  let (hour, t) ← digits? 1 2 t
  let t ← sign? ':' t
  let (minute, t) ← digits? 2 2 t
  let t ← sign? ':' t
  let (second, t) ← digits? 2 2 t
  let (microsecond, t) := fraction? t
  let offset ← offset? t
  return ⟨natural hour, natural minute, natural second, microsecond, offset⟩

def stamp? (t : Text) : Option Stamp := do
  let (year, t) ← digits? 4 4 t
  let t ← sign? '-' t
  let (month, t) ← digits? 1 2 t
  let t ← sign? '-' t
  let (day, t) ← digits? 1 2 t
  let full := month.length == 2 && day.length == 2
  match t with
  | [] => return ⟨natural year, natural month, natural day, full, none⟩
  | c :: rest =>
    let time ← if c == 'T' || c == 't' then some rest
      else if isGap c then some (rest.dropWhile isGap) else none
    let clock ← clock? time
    return ⟨natural year, natural month, natural day, full, some clock⟩

def isTimestamp (t : Text) : Bool :=
  (stamp? t).any fun stamp => stamp.full || stamp.clock.isSome

/-- A final line feed does not count in a spelling. -/
def dropLineEnd (t : Text) : Text :=
  if t.getLast? == some '\n' then t.dropLast else t

end Plain

def Tag.ofSpelling (t : Text) : Tag :=
  let t := if t.length == 1 then t else Plain.dropLineEnd t
  if Plain.isBool t then .bool
  else if Plain.isFloat t then .float
  else if Plain.isInt t then .int
  else if t == Text.ofString "<<" then .merge
  else if Plain.isNull t then .null
  else if Plain.isTimestamp t then .timestamp
  else if t == Text.ofString "=" then .value
  else if Plain.isWord ["!", "&", "*"] t then .unknown
  else .str

end Deadwood.Yaml
