import Deadwood.Calendar
import Deadwood.Decimal.Reading
import Deadwood.Decimal.Shortest
import Deadwood.Text.Quoted
import Deadwood.Text.Utf8

/-!
Values without parts. They are what a mapping can have as keys, so it matters when two are the
same: numbers are compared as numbers, and a truth value counts as zero or one.
-/
namespace Deadwood.Yaml

inductive Scalar where
  | null
  | bool (b : Bool)
  | int (n : Int)
  | float (x : Float)
  /-- What `.nan` writes: always one and the same, so that it is a key like any other. -/
  | nan
  | text (t : Text)
  | bytes (b : Bytes)
  | date (d : Calendar.Date)
  | timestamp (t : Calendar.Timestamp)

namespace Scalar

def kindName : Scalar → String
  | null => "NoneType"
  | bool _ => "bool"
  | int _ => "int"
  | float _ | nan => "float"
  | text _ => "str"
  | bytes _ => "bytes"
  | date _ => "date"
  | timestamp _ => "datetime"

def quoteByte (quote : CodePoint) (b : UInt8) : Text :=
  let c := CodePoint.ofNat b.toNat
  if b.toNat < 0x7F then Text.quoteChar quote c else "\\x" ++ Text.hexDigits 2 b.toNat

def quotedBytes (bytes : Bytes) : Text :=
  let ascii : Text := bytes.map fun b => CodePoint.ofNat b.toNat
  let quote : CodePoint := if ascii.any (· == '\'') && !ascii.any (· == '"') then '"' else '\''
  "b" ++ (quote :: bytes.flatMap (quoteByte quote)) ++ [quote]

def toText : Scalar → Text
  | null => "None"
  | bool b => if b then "True" else "False"
  | int n => Text.ofInt n
  | float x => Text.ofString (Decimal.text x)
  | nan => "nan"
  | text t => t
  | bytes b => quotedBytes b
  | date d => Text.ofString d.text
  | timestamp t => Text.ofString t.text

/-- An integer of more digits is not written out. -/
def isWritable : Scalar → Bool
  | int n => (Text.ofNat n.natAbs).length ≤ Text.digitLimit
  | _ => true

def nested : Scalar → Text
  | text t => t.quoted
  | date d => Text.ofString d.nested
  | timestamp t => Text.ofString t.nested
  | s => s.toText

def wholeOf? (x : Float) : Option Int :=
  if x.isNaN || x.isInf then none
  else
    let size := Decimal.Binary.ofBits x.toBits
    let scale := Nat.pow 2 (-size.exponent).toNat
    if size.mantissa % scale == 0 then
      let n := Int.ofNat (size.mantissa * Nat.pow 2 size.exponent.toNat / scale)
      some (if x.toBits.toNat < Decimal.signWeight then n else -n)
    else none

def integer? : Scalar → Option Int
  | bool b => some (if b then 1 else 0)
  | int n => some n
  | _ => none

def same : Scalar → Scalar → Bool
  | null, null | nan, nan => true
  | text a, text b => a == b
  | bytes a, bytes b => a == b
  | date a, date b => a == b
  | timestamp a, timestamp b => a.same b
  | float a, float b => a == b
  | float a, b => b.integer?.any fun n => wholeOf? a == some n
  | a, float b => a.integer?.any fun n => wholeOf? b == some n
  | a, b =>
    match a.integer?, b.integer? with
    | some m, some n => m == n
    | _, _ => false

end Scalar

end Deadwood.Yaml
