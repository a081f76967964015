import Deadwood.Text.Basic

/-!
Dates and points in time. A date is of the Gregorian calendar; a point in time may say how far its
clock is from universal time.
-/
namespace Deadwood.Calendar

inductive Error where
  | year (n : Nat)
  | month
  | day
  | hour
  | minute
  | second
  /-- An offset of a whole day or more, in minutes. -/
  | offset (minutes : Int)
  deriving DecidableEq, Repr

def number (n : Nat) : String :=
  String.ofList (Nat.toDigits 10 n)

def signed : Int → String
  | .ofNat n => number n
  | .negSucc n => "-" ++ number (n + 1)

def padded (width n : Nat) : String :=
  let digits := Nat.toDigits 10 n
  String.ofList (List.replicate (width - digits.length) '0' ++ digits)

def duration (minutes : Int) : String :=
  let days := Int.fdiv minutes 1440
  let seconds := (minutes - days * 1440) * 60
  let parts := (if days == 0 then [] else ["days=" ++ signed days]) ++
    (if seconds == 0 then [] else ["seconds=" ++ signed seconds])
  "datetime.timedelta(" ++ (if parts.isEmpty then "0" else ", ".intercalate parts) ++ ")"

def Error.message : Error → String
  | year n => "year " ++ number n ++ " is out of range"
  | month => "month must be in 1..12"
  | day => "day is out of range for month"
  | hour => "hour must be in 0..23"
  | minute => "minute must be in 0..59"
  | second => "second must be in 0..59"
  | offset minutes =>
    "offset must be a timedelta strictly between -timedelta(hours=24) and timedelta(hours=24), not "
      ++ duration minutes ++ "."

def isLeap (year : Nat) : Bool :=
  year % 4 == 0 && (year % 100 != 0 || year % 400 == 0)

def daysIn (year month : Nat) : Nat :=
  if month == 2 then if isLeap year then 29 else 28
  else if [4, 6, 9, 11].contains month then 30 else 31

structure Date where
  year : Nat
  month : Nat
  day : Nat
  deriving DecidableEq, Repr

namespace Date

def make (year month day : Nat) : Except Error Date :=
  if year == 0 then .error (.year year)
  else if month == 0 || 12 < month then .error .month
  else if day == 0 || daysIn year month < day then .error .day
  else .ok ⟨year, month, day⟩

def text (d : Date) : String :=
  padded 4 d.year ++ "-" ++ padded 2 d.month ++ "-" ++ padded 2 d.day

def fields (d : Date) : List String :=
  [number d.year, number d.month, number d.day]

def nested (d : Date) : String :=
  "datetime.date(" ++ ", ".intercalate d.fields ++ ")"

def ordinal (d : Date) : Nat :=
  let past := d.year - 1
  let months := ((List.range (d.month - 1)).map fun m => daysIn d.year (m + 1)).foldl (· + ·) 0
  past * 365 + past / 4 - past / 100 + past / 400 + months + d.day - 1

end Date

/-- A point in time; `offset` is in minutes, east of universal time positive. -/
structure Timestamp where
  date : Date
  hour : Nat
  minute : Nat
  second : Nat
  microsecond : Nat
  offset : Option Int
  deriving DecidableEq, Repr

namespace Timestamp

def checkOffset : Option Int → Except Error Unit
  | some minutes => if minutes ≤ -1440 || 1440 ≤ minutes then .error (.offset minutes) else .ok ()
  | none => .ok ()

/-- The offset is looked at first, then the date, then the time of day. -/
def make (year month day hour minute second microsecond : Nat) (offset : Option Int) :
    Except Error Timestamp := do
  checkOffset offset
  let date ← Date.make year month day
  if 23 < hour then .error .hour
  else if 59 < minute then .error .minute
  else if 59 < second then .error .second
  else .ok ⟨date, hour, minute, second, microsecond, offset⟩

def offsetText (minutes : Int) : String :=
  (if minutes < 0 then "-" else "+") ++ padded 2 (minutes.natAbs / 60) ++ ":" ++
    padded 2 (minutes.natAbs % 60)

def text (t : Timestamp) : String :=
  t.date.text ++ " " ++ padded 2 t.hour ++ ":" ++ padded 2 t.minute ++ ":" ++ padded 2 t.second ++
    (if t.microsecond == 0 then "" else "." ++ padded 6 t.microsecond) ++
    (t.offset.map offsetText).getD ""

def offsetNested (minutes : Int) : String :=
  if minutes == 0 then "datetime.timezone.utc"
  else "datetime.timezone(" ++ duration minutes ++ ")"

def nested (t : Timestamp) : String :=
  let seconds :=
    if t.microsecond != 0 then [number t.second, number t.microsecond]
    else if t.second != 0 then [number t.second] else []
  let zone := (t.offset.map fun minutes => "tzinfo=" ++ offsetNested minutes).toList
  "datetime.datetime(" ++
    ", ".intercalate (t.date.fields ++ [number t.hour, number t.minute] ++ seconds ++ zone) ++ ")"

def instant (t : Timestamp) : Int :=
  let seconds : Int := ((t.date.ordinal * 24 + t.hour) * 60 + t.minute) * 60 + t.second
  (seconds - t.offset.getD 0 * 60) * 1000000 + t.microsecond

/-- Whether two mean the same time. Only with offsets, or without on both sides, are they
comparable. -/
def same (a b : Timestamp) : Bool :=
  a.offset.isSome == b.offset.isSome && a.instant == b.instant

end Timestamp

end Deadwood.Calendar
