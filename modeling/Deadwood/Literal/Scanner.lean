import Deadwood.Literal.Basic
import Deadwood.Text.Alphanumeric
import Deadwood.Text.Blank

/-!
Reading the source text of a string literal. Every function takes the text that is still to be read
and gives back what it leaves, which is never longer; so the scanner ends by the length of the text.
An unterminated part or interpolation runs as far as it can.
-/
namespace Deadwood.Literal

/-- How a quoted part was opened: this decides how it ends and whether escapes and interpolations
count in it. -/
structure Delimiter where
  quote : CodePoint
  triple : Bool
  raw : Bool
  deriving DecidableEq, Repr

def Delimiter.mark (d : Delimiter) : Text :=
  if d.triple then [d.quote, d.quote, d.quote] else [d.quote]

def Delimiter.close? (d : Delimiter) (t : Text) : Option Text :=
  d.mark.isPrefixOf? t

/-- A part within one line ends, unclosed, before a line break. -/
def Delimiter.endsBefore (d : Delimiter) (c : CodePoint) : Bool :=
  !d.triple && c.isNewline

def afterLine (t : Text) : Text :=
  (t.dropWhile fun c : CodePoint => c != '\n').drop 1

/-- What follows the end of a block comment; the first end counts, comments do not nest. -/
def afterBlock : Text → Text
  | [] => []
  | c :: t => if c == '*' && t.head? == some '/' then t.drop 1 else afterBlock t

def afterComment? : Text → Option Text
  | c :: d :: t =>
    if c == '/' && d == '/' then some (afterLine t)
    else if c == '/' && d == '*' then some (afterBlock t)
    else none
  | _ => none

theorem length_afterLine (t : Text) : (afterLine t).length ≤ t.length := by
  have := (List.dropWhile_suffix (l := t) fun c : CodePoint => c != '\n').length_le
  simp only [afterLine, List.length_drop]
  omega

theorem length_afterBlock (t : Text) : (afterBlock t).length ≤ t.length := by
  fun_induction afterBlock t with
  | case1 => simp
  | case2 c t h => simp only [List.length_drop, List.length_cons]; omega
  | case3 c t h ih => simp only [List.length_cons]; omega

theorem length_afterComment {t r : Text} (h : afterComment? t = some r) : r.length < t.length := by
  unfold afterComment? at h
  split at h
  · next c d t =>
    have hl := length_afterLine t
    have hb := length_afterBlock t
    simp only [List.length_cons]
    split at h
    · cases h; omega
    · split at h
      · cases h; omega
      · cases h
  · cases h

def skipTrivia (t : Text) : Text :=
  match t with
  | [] => []
  | c :: rest =>
    if c.isBlank then skipTrivia rest
    else
      match h : afterComment? (c :: rest) with
      | some r =>
        have : r.length < rest.length + 1 := length_afterComment h
        skipTrivia r
      | none => c :: rest
termination_by t.length

theorem length_skipTrivia (t : Text) : (skipTrivia t).length ≤ t.length := by
  fun_induction skipTrivia t with
  | case1 => simp
  | case2 c rest h ih => simp only [List.length_cons]; omega
  | case3 c rest h r hr ih => have := length_afterComment hr; omega
  | case4 => simp

def dropBlankLine (t : Text) : Text :=
  match t.dropWhile (fun c : CodePoint => c == ' ' || c == '\t') with
  | c :: rest =>
    if c == '\r' then if rest.head? == some '\n' then rest.drop 1 else rest
    else if c == '\n' then rest
    else t
  | [] => t

theorem length_dropBlankLine (t : Text) : (dropBlankLine t).length ≤ t.length := by
  unfold dropBlankLine
  have h := (List.dropWhile_suffix (l := t) fun c : CodePoint => c == ' ' || c == '\t').length_le
  split
  · next c rest heq =>
    rw [heq, List.length_cons] at h
    split
    · split
      · simp only [List.length_drop]; omega
      · omega
    · split <;> omega
  · omega

def openQuotes? (raw : Bool) : Text → Option (Delimiter × Text)
  | [] => none
  | q :: rest =>
    if q.isQuote then
      match [q, q].isPrefixOf? rest with
      | some more => some (⟨q, true, raw⟩, dropBlankLine more)
      | none => some (⟨q, false, raw⟩, rest)
    else none

def openPart? (t : Text) : Option (Delimiter × Text) :=
  match t with
  | [] => none
  | c :: rest => if c == 'r' || c == 'R' then openQuotes? true rest else openQuotes? false t

theorem length_isPrefixOf? {p t r : Text} (h : p.isPrefixOf? t = some r) : r.length ≤ t.length := by
  induction p generalizing t with
  | nil =>
    have h : some t = some r := h
    cases h
    exact Nat.le_refl _
  | cons a p ih =>
    cases t with
    | nil => cases h
    | cons b t =>
      have h : (if a == b then p.isPrefixOf? t else none) = some r := h
      split at h
      · exact Nat.le_succ_of_le (ih h)
      · cases h

theorem length_openQuotes {raw : Bool} {t : Text} {d : Delimiter} {body : Text}
    (h : openQuotes? raw t = some (d, body)) : body.length < t.length := by
  unfold openQuotes? at h
  split at h
  · cases h
  · next q rest =>
    simp only [List.length_cons]
    split at h
    · split at h
      · next more hm =>
        have := length_isPrefixOf? hm
        have := length_dropBlankLine more
        cases h
        omega
      · cases h; omega
    · cases h

theorem length_openPart {t : Text} {d : Delimiter} {body : Text}
    (h : openPart? t = some (d, body)) : body.length < t.length := by
  unfold openPart? at h
  split at h
  · cases h
  · split at h
    · have := length_openQuotes h
      simp only [List.length_cons]
      omega
    · exact length_openQuotes h

def letterEscape? (c : CodePoint) : Option CodePoint :=
  if c == 'n' then some '\n'
  else if c == 'r' then some '\r'
  else if c == 't' then some '\t'
  else if c == 'b' then some '\x08'
  else if c == 'f' then some '\x0C'
  else if c == 'v' then some '\x0B'
  else none

def fixedHex? (width : Nat) (t : Text) : Option CodePoint :=
  let digits := t.take width
  if digits.length == width then
    (Text.hexNumber? digits).bind fun n => if h : n < 0x110000 then some ⟨n, h⟩ else none
  else none

def bracedHex? (t : Text) : Option (CodePoint × Nat) :=
  let digits := t.takeWhile fun c : CodePoint => c != '}'
  if digits.length < t.length then
    (Text.hexNumber? digits).bind fun n =>
      if h : n < 0x110000 then some (⟨n, h⟩, digits.length) else none
  else none

/-- Decodes the escape whose backslash was just read: the text it stands for, and how many code
points it takes. A malformed escape stands for the character after the backslash. -/
def escape : Text → Text × Nat
  | [] => ([], 0)
  | c :: t =>
    match letterEscape? c with
    | some e => ([e], 1)
    | none =>
      if c == 'x' then
        match fixedHex? 2 t with
        | some e => ([e], 3)
        | none => ([c], 1)
      else if c == 'u' then
        if t.head? == some '{' then
          match bracedHex? (t.drop 1) with
          | some (e, n) => ([e], n + 3)
          | none => ([c], 1)
        else
          match fixedHex? 4 t with
          | some e => ([e], 5)
          | none => ([c], 1)
      else if c == '\r' && t.head? == some '\n' then (['\r', '\n'], 2)
      else ([c], 1)

/-- Whether a raw part starts here; `afterWord` says that the character before could make `r` the
end of a longer word. -/
def startsRaw (afterWord : Bool) : Text → Bool
  | c :: q :: _ => (c == 'r' || c == 'R') && q.isQuote && !afterWord
  | _ => false

def nestedPart? (afterWord : Bool) (t : Text) : Option (Delimiter × Text) :=
  if (t.head?.any CodePoint.isQuote) || startsRaw afterWord t then openPart? t else none

theorem length_nestedPart {afterWord : Bool} {t : Text} {d : Delimiter} {body : Text}
    (h : nestedPart? afterWord t = some (d, body)) : body.length < t.length := by
  unfold nestedPart? at h
  split at h
  · exact length_openPart h
  · cases h

inductive Interpolation where
  | braced (code : Text)
  | name (rest : Text)

def interpolation? : Text → Option Interpolation
  | [] => none
  | c :: t =>
    if c == '{' then some (.braced t)
    else if c.isNameStart then some (.name (t.dropWhile CodePoint.isNameChar))
    else none

/-- A part read from a text of `n` code points, and the text it leaves. -/
structure Scan (n : Nat) where
  first : Text
  others : List Text
  rest : Text
  bound : rest.length ≤ n

namespace Scan

variable {m n : Nat}

def finish (rest : Text) (bound : rest.length ≤ n) : Scan n :=
  ⟨[], [], rest, bound⟩

def prepend (t : Text) (scan : Scan m) (h : m ≤ n) : Scan n :=
  ⟨t ++ scan.first, scan.others, scan.rest, Nat.le_trans scan.bound h⟩

def interpolate (scan : Scan m) (h : m ≤ n) : Scan n :=
  ⟨[], scan.first :: scan.others, scan.rest, Nat.le_trans scan.bound h⟩

end Scan

theorem length_close {d : Delimiter} {t r : Text} (h : d.close? t = some r) : r.length ≤ t.length :=
  length_isPrefixOf? h

theorem length_interpolation_braced {t code : Text} (h : interpolation? t = some (.braced code)) :
    code.length < t.length := by
  unfold interpolation? at h
  split at h
  · cases h
  · split at h
    · cases h; simp
    · split at h <;> cases h

theorem length_interpolation_name {t rest : Text} (h : interpolation? t = some (.name rest)) :
    rest.length < t.length := by
  unfold interpolation? at h
  split at h
  · cases h
  · next c t =>
    split at h
    · cases h
    · split at h
      · have := (List.dropWhile_suffix (l := t) CodePoint.isNameChar).length_le
        cases h
        simp only [List.length_cons]
        omega
      · cases h

mutual

def scanBody (d : Delimiter) (t : Text) : Scan t.length :=
  match t with
  | [] => .finish [] (Nat.le_refl 0)
  | c :: rest =>
    match hc : d.close? (c :: rest) with
    | some r => .finish r (length_close hc)
    | none =>
      if d.endsBefore c then .finish (c :: rest) (Nat.le_refl _)
      else if c == '\\' && !d.raw then
        (scanBody d (rest.drop (escape rest).2)).prepend (escape rest).1 (by simp; omega)
      else if c == '$' && !d.raw then
        match hi : interpolation? rest with
        | some (.braced code) =>
          match skipBraced false 0 code with
          | ⟨after, _⟩ =>
            (scanBody d after).interpolate (by have := length_interpolation_braced hi; simp; omega)
        | some (.name after) =>
          (scanBody d after).interpolate (by have := length_interpolation_name hi; simp; omega)
        | none => (scanBody d rest).prepend [c] (by simp)
      else (scanBody d rest).prepend [c] (by simp)
termination_by t.length
decreasing_by
  all_goals simp only [List.length_cons, List.length_drop]
  · omega
  · have := length_interpolation_braced hi; omega
  · have := length_interpolation_braced hi; omega
  · have := length_interpolation_name hi; omega
  · omega
  · omega

/-- Skips code up to the brace that closes `depth` open ones and the interpolation itself. Quoted
parts and comments are skipped whole, so that braces in them do not count. -/
def skipBraced (afterWord : Bool) (depth : Nat) (t : Text) : { r : Text // r.length ≤ t.length } :=
  match t with
  | [] => ⟨[], Nat.le_refl 0⟩
  | c :: rest =>
    match hp : nestedPart? afterWord (c :: rest) with
    | some (d, body) =>
      match scanBody d body with
      | ⟨_, _, left, _⟩ =>
        match skipBraced false depth left with
        | ⟨after, _⟩ => ⟨after, by have := length_nestedPart hp; omega⟩
    | none =>
      match hq : afterComment? (c :: rest) with
      | some left =>
        match skipBraced false depth left with
        | ⟨after, _⟩ => ⟨after, by have := length_afterComment hq; omega⟩
      | none =>
        if c == '}' then
          match depth with
          | 0 => ⟨rest, by simp⟩
          | k + 1 =>
            match skipBraced false k rest with
            | ⟨after, _⟩ => ⟨after, by simp; omega⟩
        else
          match skipBraced c.isWordChar (if c == '{' then depth + 1 else depth) rest with
          | ⟨after, _⟩ => ⟨after, by simp; omega⟩
termination_by t.length
decreasing_by
  · exact length_nestedPart hp
  · have := length_nestedPart hp; omega
  · exact length_afterComment hq
  · simp
  · simp

end

def scanPart? (t : Text) : Option (StringPart × Text) :=
  (openPart? t).map fun (d, body) =>
    let scan := scanBody d body
    (⟨scan.first, scan.others⟩, scan.rest)

theorem length_scanPart {t : Text} {part : StringPart} {rest : Text}
    (h : scanPart? t = some (part, rest)) : rest.length < t.length := by
  unfold scanPart? at h
  cases ho : openPart? t with
  | none => rw [ho] at h; cases h
  | some o =>
    obtain ⟨d, body⟩ := o
    have := length_openPart ho
    have := (scanBody d body).bound
    rw [ho] at h
    cases h
    omega

def partsAfterTrivia (t : Text) : List StringPart :=
  match h : scanPart? t with
  | none => []
  | some (part, rest) =>
    have := Nat.lt_of_le_of_lt (length_skipTrivia rest) (length_scanPart h)
    part :: partsAfterTrivia (skipTrivia rest)
termination_by t.length

def decode (t : Text) : List StringPart :=
  partsAfterTrivia (skipTrivia t)

end Deadwood.Literal
