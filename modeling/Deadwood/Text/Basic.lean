/-!
Text is a list of Unicode code points. Surrogate code points are allowed, because a string escape
can name one; only text without them has a `String` form.
-/
namespace Deadwood

abbrev CodePoint := Fin 0x110000

abbrev Text := List CodePoint

namespace CodePoint

@[inline] def ofChar (c : Char) : CodePoint :=
  ⟨c.toNat, by
    have h := c.valid
    simp only [UInt32.isValidChar, Nat.isValidChar] at h
    change c.val.toNat < _
    omega⟩

instance : Coe Char CodePoint := ⟨ofChar⟩

@[simp] theorem ofChar_inj {a b : Char} : ofChar a = ofChar b ↔ a = b := by
  simp only [ofChar, Fin.mk.injEq]
  exact Char.toNat_inj

/-- The code point of a number, which counts from zero again after the last one. -/
def ofNat (n : Nat) : CodePoint :=
  ⟨n % 0x110000, Nat.mod_lt n (by decide)⟩

def toChar? (c : CodePoint) : Option Char :=
  if h : c.val.isValidChar then some (Char.ofNatAux c.val h) else none

def isSurrogate (c : CodePoint) : Bool :=
  0xD800 ≤ c.val && c.val ≤ 0xDFFF

def inRange (lo hi : Char) (c : CodePoint) : Bool :=
  lo.toNat ≤ c.val && c.val ≤ hi.toNat

def isDigit (c : CodePoint) : Bool :=
  c.inRange '0' '9'

def isLetter (c : CodePoint) : Bool :=
  c.inRange 'a' 'z' || c.inRange 'A' 'Z'

def isNameStart (c : CodePoint) : Bool :=
  c.isLetter || c == '_'

def isNameChar (c : CodePoint) : Bool :=
  c.isNameStart || c.isDigit

def isQuote (c : CodePoint) : Bool :=
  c == '\'' || c == '"'

def isNewline (c : CodePoint) : Bool :=
  c == '\n' || c == '\r'

def hexValue? (c : CodePoint) : Option Nat :=
  if c.isDigit then some (c.val - '0'.toNat)
  else if c.inRange 'a' 'f' then some (c.val - 'a'.toNat + 10)
  else if c.inRange 'A' 'F' then some (c.val - 'A'.toNat + 10)
  else none

def isHexDigit (c : CodePoint) : Bool :=
  c.hexValue?.isSome

def toLower (c : CodePoint) : CodePoint :=
  if h : c.inRange 'A' 'Z' then
    ⟨c.val + 32, by
      simp only [inRange, Bool.and_eq_true, decide_eq_true_eq] at h
      have : ('Z' : Char).toNat = 90 := rfl
      omega⟩
  else c

end CodePoint

namespace Text

def ofString (s : String) : Text :=
  s.toList.map CodePoint.ofChar

instance : Coe String Text := ⟨ofString⟩

def toString? (t : Text) : Option String :=
  (t.mapM CodePoint.toChar?).map String.ofList

def contains (needle : Text) : Text → Bool
  | [] => needle.isEmpty
  | c :: t => needle.isPrefixOf (c :: t) || contains needle t

/-- The pieces between occurrences of `sep`; there is always at least one. -/
def split (sep : CodePoint) : Text → List Text
  | [] => [[]]
  | c :: t =>
    if c == sep then [] :: split sep t
    else match split sep t with
      | [] => [[c]]
      | piece :: pieces => (c :: piece) :: pieces

def breakAt (sep : CodePoint) (t : Text) : Text × Text :=
  (t.takeWhile (· != sep), (t.dropWhile (· != sep)).drop 1)

def join (sep : Text) (pieces : List Text) : Text :=
  sep.intercalate pieces

def endsWith (suffix t : Text) : Bool :=
  suffix.isSuffixOf t

def replace (old new : CodePoint) (t : Text) : Text :=
  t.map fun c => if c == old then new else c

def toLower (t : Text) : Text :=
  t.map CodePoint.toLower

def ofNat (n : Nat) : Text :=
  (Nat.toDigits 10 n).map CodePoint.ofChar

def ofInt : Int → Text
  | .ofNat n => ofNat n
  | .negSucc n => '-' :: ofNat (n + 1)

def le : Text → Text → Bool
  | [], _ => true
  | _ :: _, [] => false
  | a :: s, b :: t => a.val < b.val || (a == b && le s t)

def sort (l : List Text) : List Text :=
  l.mergeSort le

/-- Membership in a set of code points that is given by its boundaries in ascending order: an odd
number of them lies at or below a member. -/
def withinBounds (bounds : List Nat) (c : CodePoint) : Bool :=
  bounds.countP (· ≤ c.val) % 2 == 1

def hexNumber? (t : Text) : Option Nat :=
  if t.isEmpty then none
  else t.foldl (fun n c => n.bind fun n => c.hexValue?.map (16 * n + ·)) (some 0)

def addAll (known new : List Text) : List Text :=
  new.foldl (fun texts t => texts.insert t) known

@[simp] theorem mem_addAll {t : Text} {known new : List Text} :
    t ∈ addAll known new ↔ t ∈ known ∨ t ∈ new := by
  induction new generalizing known with
  | nil => simp [addAll]
  | cons a new ih =>
    have := @ih (known.insert a)
    simp only [addAll, List.foldl_cons] at this ⊢
    simp only [this, List.mem_insert_iff, List.mem_cons]
    grind

end Text

end Deadwood
