import Deadwood.Text.Basic

/-!
Decimal text of a floating-point number with the fewest digits that read back to it. The digits are
chosen in exact arithmetic: a number of 64 bits is `m · 2 ^ q`, and the reals that round to it are an
interval, which holds its ends if `m` is even.
-/
namespace Deadwood.Decimal

def signWeight : Nat := 0x8000000000000000

def unitWeight : Nat := 0x10000000000000

/-- The number `mantissa · 2 ^ exponent`. The next number below is nearer than the next above if
`narrow`. -/
structure Binary where
  mantissa : Nat
  exponent : Int
  narrow : Bool
  deriving Repr

def Binary.ofBits (bits : UInt64) : Binary :=
  let raw := bits.toNat % signWeight
  let fraction := raw % unitWeight
  match raw / unitWeight with
  | 0 => ⟨fraction, -1074, false⟩
  | power + 1 => ⟨unitWeight + fraction, (power : Int) - 1074, fraction == 0 && 0 < power⟩

structure Numeral where
  digits : Nat
  exponent : Int
  deriving DecidableEq, Repr

def compareScaled (a : Nat) (q : Int) (b : Nat) (s : Int) : Ordering :=
  let left := a * Nat.pow 2 q.toNat * Nat.pow 10 (-s).toNat
  let right := b * Nat.pow 10 s.toNat * Nat.pow 2 (-q).toNat
  if left < right then .lt else if left == right then .eq else .gt

def Binary.readsFrom (x : Binary) (d : Numeral) : Bool :=
  let low := if x.narrow then 4 * x.mantissa - 1 else 4 * x.mantissa - 2
  let high := 4 * x.mantissa + 2
  let ends := x.mantissa % 2 == 0
  let below := compareScaled low (x.exponent - 2) d.digits d.exponent
  let above := compareScaled high (x.exponent - 2) d.digits d.exponent
  (below == .lt || (ends && below == .eq)) && (above == .gt || (ends && above == .eq))

def Binary.floorAt (x : Binary) (s : Int) : Nat :=
  (x.mantissa * Nat.pow 2 x.exponent.toNat * Nat.pow 10 (-s).toNat) /
    (Nat.pow 2 (-x.exponent).toNat * Nat.pow 10 s.toNat)

def Binary.leadFrom (x : Binary) : Nat → Int → Int
  | 0, s => s
  | fuel + 1, s => if 0 < x.floorAt s then s else leadFrom x fuel (s - 1)

/-- The power of ten of the leading digit. Numbers lie between `10 ^ -324` and `10 ^ 309`. -/
def Binary.lead (x : Binary) : Int :=
  x.leadFrom 640 309

/-- The decimal next to the number on the grid of `10 ^ s` that reads back, the nearer of two, and
the even one if both are as near. -/
def Binary.onGrid? (x : Binary) (s : Int) : Option Numeral :=
  let n := x.floorAt s
  let low : Numeral := ⟨n, s⟩
  let high : Numeral := ⟨n + 1, s⟩
  match x.readsFrom low, x.readsFrom high with
  | true, false => some low
  | false, true => some high
  | false, false => none
  | true, true =>
    match compareScaled (2 * x.mantissa) x.exponent (2 * n + 1) s with
    | .lt => some low
    | .gt => some high
    | .eq => some (if n % 2 == 0 then low else high)

/-- The decimal with the fewest digits that reads back. -/
def Binary.shortest (x : Binary) : Numeral :=
  let lead := x.lead
  ((List.range 17).findSome? fun (k : Nat) => x.onGrid? (lead - k)).getD ⟨x.floorAt (lead - 16), lead - 16⟩

/-- Digits and the place of the point: the number is `0.digits · 10 ^ point`. Zeros at the end are
dropped. -/
def Numeral.places (d : Numeral) : List Char × Int :=
  let digits := Nat.toDigits 10 d.digits
  let kept := (digits.reverse.dropWhile (· == '0')).reverse
  (kept, d.exponent + digits.length)

/-- Numbers from `10 ^ -4` and below `10 ^ 16` are written with a point among their digits, others with
an exponent that has a sign and two digits at least. -/
def Numeral.layout (d : Numeral) : String :=
  let (digits, point) := d.places
  if -4 < point && point ≤ 16 then
    if point ≤ 0 then
      "0." ++ String.ofList (List.replicate (-point).toNat '0' ++ digits)
    else
      let whole := (digits.take point.toNat)
      let whole := whole ++ List.replicate (point.toNat - whole.length) '0'
      let fraction := digits.drop point.toNat
      String.ofList whole ++ "." ++ (if fraction.isEmpty then "0" else String.ofList fraction)
  else
    let power := point - 1
    let size := Nat.toDigits 10 power.natAbs
    let size := if size.length < 2 then '0' :: size else size
    let mantissa := match digits with
      | first :: second :: rest => String.ofList (first :: '.' :: second :: rest)
      | _ => String.ofList digits
    mantissa ++ (if power < 0 then "e-" else "e+") ++ String.ofList size

def text (x : Float) : String :=
  if x.isNaN then "nan"
  else
    let bits := x.toBits
    let sign := if bits.toNat < signWeight then "" else "-"
    if x.isInf then sign ++ "inf"
    else
      let size := Binary.ofBits bits
      sign ++ (if size.mantissa == 0 then "0.0" else size.shortest.layout)

end Deadwood.Decimal
