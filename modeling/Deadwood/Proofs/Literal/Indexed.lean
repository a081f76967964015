import Deadwood.Literal.Position
import Deadwood.Proofs.Literal.Lookahead

/-!
The scanner as loops over the positions of an indexed text. Whatever can go wrong is checked where it
happens: reading a character, a number or a code point, taking the first segment of a part, and going
on at a position that is not further.
-/
namespace Deadwood.Literal.Indexed

inductive Fault where
  | outOfRange
  | noNumber
  | noCodePoint
  | noSegment
  | stalled
  deriving DecidableEq, Repr

section Loops

variable (text : Text)

def charAt (pos : Nat) : Except Fault CodePoint :=
  match text[pos]? with
  | some c => .ok c
  | none => .error .outOfRange

def startsAt (mark : Text) (pos : Nat) : Bool :=
  (mark.isPrefixOf? (text.drop pos)).isSome

def posOf (rest : Text) : Nat :=
  text.length - rest.length

def find? (mark : Text) (pos : Nat) : Option Nat :=
  if _ : pos < text.length then
    if startsAt text mark pos then some pos else find? mark (pos + 1)
  else none
termination_by text.length - pos

def endOf (mark : Text) (pos : Nat) : Nat :=
  match find? text mark pos with
  | some start => start + mark.length
  | none => text.length

def commentEnd? (pos : Nat) : Option Nat :=
  if startsAt text "//" pos then some (endOf text "\n" pos)
  else if startsAt text "/*" pos then some (endOf text "*/" (pos + 2))
  else none

def skipTrivia (pos : Nat) : Except Fault Nat :=
  if _ : pos < text.length then do
    let c ← charAt text pos
    if c.isBlank then skipTrivia (pos + 1)
    else
      match commentEnd? text pos with
      | some next => if _ : pos < next then skipTrivia next else .error .stalled
      | none => .ok pos
  else .ok pos
termination_by text.length - pos

def number (digits : Text) : Except Fault Nat :=
  match Text.hexNumber? digits with
  | some n => .ok n
  | none => .error .noNumber

def codePoint (n : Nat) : Except Fault CodePoint :=
  if h : n < 0x110000 then .ok ⟨n, h⟩ else .error .noCodePoint

def isNumeral (digits : Text) : Bool :=
  !digits.isEmpty && digits.all CodePoint.isHexDigit

def fixedEscape (letter : CodePoint) (width pos : Nat) : Except Fault (Text × Nat) :=
  let digits := (text.drop pos).take width
  if digits.length == width && isNumeral digits then do
    let n ← number digits
    let c ← codePoint n
    .ok ([c], pos + width)
  else .ok ([letter], pos)

def bracedEscape (letter : CodePoint) (pos : Nat) : Except Fault (Text × Nat) :=
  match find? text "\x7d" (pos + 1) with
  | none => .ok ([letter], pos)
  | some stop =>
    let digits := (text.take stop).drop (pos + 1)
    if isNumeral digits then do
      let n ← number digits
      if n ≤ 0x10FFFF then do
        let c ← codePoint n
        .ok ([c], stop + 1)
      else .ok ([letter], pos)
    else .ok ([letter], pos)

def escape (pos : Nat) : Except Fault (Text × Nat) :=
  if text.length ≤ pos + 1 then .ok ([], text.length)
  else do
    let c ← charAt text (pos + 1)
    match letterEscape? c with
    | some e => .ok ([e], pos + 2)
    | none =>
      if c == 'x' then fixedEscape text c 2 (pos + 2)
      else if c == 'u' then
        if startsAt text "\x7b" (pos + 2) then bracedEscape text c (pos + 2)
        else fixedEscape text c 4 (pos + 2)
      else if c == '\r' && startsAt text "\r\n" (pos + 1) then .ok ("\r\n", pos + 3)
      else .ok ([c], pos + 2)

def startsRaw (pos : Nat) : Except Fault Bool := do
  let c ← charAt text pos
  if !(c == 'r' || c == 'R') || !text[pos + 1]?.any CodePoint.isQuote then .ok false
  else if pos = 0 then .ok true
  else do
    let before ← charAt text (pos - 1)
    .ok !before.isWordChar

def startsPart (pos : Nat) : Except Fault Bool := do
  let c ← charAt text pos
  if c.isQuote then .ok true else startsRaw text pos

def openQuotes (raw : Bool) (pos : Nat) : Except Fault (Option (Delimiter × Nat)) :=
  if text.length ≤ pos then .ok none
  else do
    let q ← charAt text pos
    if q.isQuote then
      if startsAt text [q, q, q] pos then
        .ok (some (⟨q, true, raw⟩, posOf text (dropBlankLine (text.drop (pos + 3)))))
      else .ok (some (⟨q, false, raw⟩, pos + 1))
    else .ok none

def openPart (pos : Nat) : Except Fault (Option (Delimiter × Nat)) := do
  let c ← charAt text pos
  if c == 'r' || c == 'R' then openQuotes text true (pos + 1) else openQuotes text false pos

def nameEnd? (pos : Nat) : Option Nat :=
  if text[pos]?.any CodePoint.isNameStart then
    some (posOf text ((text.drop (pos + 1)).dropWhile CodePoint.isNameChar))
  else none

-- Code reads a part at its own position, and a part is read from a later one on; the measures leave
-- room for these calls between two positions.
mutual

/-- Reads on inside a part; `buffer` is what was read since the last interpolation. -/
def scanBody (d : Delimiter) (segments : List Text) (buffer : Text) (pos : Nat) :
    Except Fault (List Text × Nat) :=
  if _ : pos < text.length then
    if startsAt text d.mark pos then .ok (segments ++ [buffer], pos + d.mark.length)
    else do
      let c ← charAt text pos
      if d.endsBefore c then .ok (segments ++ [buffer], pos)
      else if c == '\\' && !d.raw then do
        let (decoded, next) ← escape text pos
        if _ : pos < next then scanBody d segments (buffer ++ decoded) next else .error .stalled
      else if c == '$' && !d.raw && startsAt text "\x7b" (pos + 1) then do
        let next ← skipBraced 1 (pos + 2)
        if _ : pos < next then scanBody d (segments ++ [buffer]) [] next else .error .stalled
      else
        match if c == '$' && !d.raw then nameEnd? text (pos + 1) else none with
        | some next =>
          if _ : pos < next then scanBody d (segments ++ [buffer]) [] next else .error .stalled
        | none => scanBody d segments (buffer ++ [c]) (pos + 1)
  else .ok (segments ++ [buffer], pos)
termination_by 3 * (text.length - pos)

def skipBraced (depth pos : Nat) : Except Fault Nat :=
  if _ : pos < text.length then do
    let c ← charAt text pos
    let starts ← startsPart text pos
    if starts then do
      let (_, next) ← scanPart pos
      if _ : pos < next then skipBraced depth next else .error .stalled
    else
      match commentEnd? text pos with
      | some next => if _ : pos < next then skipBraced depth next else .error .stalled
      | none =>
        if c == '{' then skipBraced (depth + 1) (pos + 1)
        else if c == '}' then
          if depth = 1 then .ok (pos + 1) else skipBraced (depth - 1) (pos + 1)
        else skipBraced depth (pos + 1)
  else .ok pos
termination_by 3 * (text.length - pos) + 2

def scanPart (pos : Nat) : Except Fault (Option (List Text) × Nat) := do
  match ← openPart text pos with
  | none => .ok (none, text.length)
  | some (d, body) =>
    if _ : pos < body then do
      let (segments, next) ← scanBody d [] [] body
      .ok (some segments, next)
    else .error .stalled
termination_by 3 * (text.length - pos) + 1

end

def partsFrom (pos : Nat) : Except Fault (List (List Text)) :=
  if _ : pos < text.length then do
    match ← scanPart text pos with
    | (none, _) => .ok []
    | (some segments, next) =>
      let start ← skipTrivia text next
      if _ : pos < start then do
        let more ← partsFrom start
        .ok (segments :: more)
      else .error .stalled
  else .ok []
termination_by text.length - pos

def decode : Except Fault (List (List Text)) := do
  partsFrom text (← skipTrivia text 0)

end Loops

/-! What is made of the segments of the parts. -/

def firstSegment : List Text → Except Fault Text
  | [] => .error .noSegment
  | first :: _ => .ok first

def isInterpolated (segments : List Text) : Bool :=
  1 < segments.length

def value (parts : List (List Text)) : Except Fault (Option Text) :=
  if parts.isEmpty || parts.any isInterpolated then .ok none
  else do
    let texts ← parts.mapM firstSegment
    .ok (some texts.flatten)

def jointFragments (parts : List (List Text)) : Except Fault (List Text) :=
  if 1 < parts.length then do
    let simple ← (parts.filter (!isInterpolated ·)).mapM firstSegment
    .ok (simple ++ [simple.flatten])
  else .ok []

def partFragments (segments : List Text) : Except Fault (List Text) :=
  if isInterpolated segments then .ok (StringPart.gather segments)
  else do
    let text ← firstSegment segments
    .ok [text]

def fragments (parts : List (List Text)) : Except Fault (List Text) := do
  let joint ← jointFragments parts
  let own ← parts.mapM partFragments
  .ok (joint ++ own.flatten)

variable {text t rest m : Text} {c : CodePoint}

@[simp] theorem ok_bind {α β : Type} (a : α) (f : α → Except Fault β) :
    (Except.ok a >>= f) = f a := rfl

/-! Ends of the text and the positions at which they begin. -/

theorem drop_posOf (h : t <:+ text) : text.drop (posOf text t) = t :=
  (List.suffix_iff_eq_drop.mp h).symm

theorem posOf_drop {pos : Nat} (h : pos ≤ text.length) : posOf text (text.drop pos) = pos := by
  simp only [posOf, List.length_drop]
  omega

theorem posOf_lt (h : t <:+ text) (hlt : rest.length < t.length) :
    posOf text t < posOf text rest := by
  have := h.length_le
  unfold posOf
  omega

theorem posOf_cons_lt (h : c :: t <:+ text) : posOf text (c :: t) < text.length := by
  have := h.length_le
  simp only [posOf, List.length_cons] at this ⊢
  omega

@[simp] theorem posOf_nil : posOf text [] = text.length := rfl

theorem posOf_add {n : Nat} (h : t <:+ text) (hn : n ≤ t.length) :
    posOf text t + n = posOf text (t.drop n) := by
  have := h.length_le
  simp only [posOf, List.length_drop] at this ⊢
  omega

theorem posOf_append (h : m ++ t <:+ text) : posOf text (m ++ t) + m.length = posOf text t := by
  rw [posOf_add h (by simp), List.drop_left]

theorem posOf_cons (h : c :: t <:+ text) : posOf text (c :: t) + 1 = posOf text t :=
  posOf_add (n := 1) h (by simp)

theorem getElem?_posOf (h : t <:+ text) : text[posOf text t]? = t.head? := by
  rw [← List.head?_drop, drop_posOf h]

theorem charAt_posOf (h : c :: t <:+ text) : charAt text (posOf text (c :: t)) = .ok c := by
  rw [charAt, getElem?_posOf h, List.head?_cons]

theorem startsAt_posOf (h : t <:+ text) :
    startsAt text m (posOf text t) = (m.isPrefixOf? t).isSome := by
  rw [startsAt, drop_posOf h]

theorem find?_length : find? text m text.length = none := by
  rw [find?]
  simp

theorem find?_cons (h : c :: t <:+ text) :
    find? text m (posOf text (c :: t)) =
      if (m.isPrefixOf? (c :: t)).isSome then some (posOf text (c :: t))
      else find? text m (posOf text t) := by
  rw [find?, dif_pos (posOf_cons_lt h), startsAt_posOf h, posOf_cons h]

theorem endOf_length : endOf text m text.length = text.length := by
  rw [endOf, find?_length]

theorem endOf_cons (h : c :: t <:+ text) (hm : m.isPrefixOf? (c :: t) = none) :
    endOf text m (posOf text (c :: t)) = endOf text m (posOf text t) := by
  rw [endOf, find?_cons h, hm]
  rfl

theorem endOf_append (h : m ++ t <:+ text) (hm : m ≠ []) :
    endOf text m (posOf text (m ++ t)) = posOf text t := by
  obtain ⟨c, more, rfl⟩ := List.exists_cons_of_ne_nil hm
  have hfound : (c :: more).isPrefixOf? (c :: (more ++ t)) = some t :=
    List.isPrefixOf?_eq_some_iff_append_eq.mpr rfl
  have hcons : c :: (more ++ t) <:+ text := h
  rw [endOf, List.cons_append, find?_cons hcons, hfound]
  exact posOf_append h

/-! Comments and trivia. -/

theorem endOf_newline (h : t <:+ text) :
    endOf text "\n" (posOf text t) = posOf text (afterLine t) := by
  induction t with
  | nil => exact endOf_length
  | cons c t ih =>
    by_cases hc : c = '\n'
    · subst hc
      exact endOf_append (m := "\n") h (by decide)
    · rw [afterLine_cons_of_ne hc, ← ih ((List.suffix_cons c t).trans h)]
      apply endOf_cons h
      apply isPrefixOf?_eq_none
      rintro ⟨rest, hrest⟩
      cases hrest
      exact hc rfl

theorem isSome_single (a : CodePoint) (t : Text) :
    ([a].isPrefixOf? t).isSome = (t.head? == some a) := by
  cases t with
  | nil => rfl
  | cons c t =>
    rw [isPrefixOf?_cons]
    by_cases h : a = c
    · subst h
      rw [if_pos (beq_self_eq_true a), List.head?_cons]
      exact (beq_self_eq_true (some a)).symm
    · simp [h, Ne.symm h]

theorem isSome_pair (a b c : CodePoint) (t : Text) :
    ([a, b].isPrefixOf? (c :: t)).isSome = (c == a && t.head? == some b) := by
  rw [isPrefixOf?_cons, ← isSome_single]
  by_cases h : a = c
  · simp [h]
  · simp [h, Ne.symm h]

theorem endOf_block (h : t <:+ text) :
    endOf text "*/" (posOf text t) = posOf text (afterBlock t) := by
  induction t with
  | nil => exact endOf_length
  | cons c t ih =>
    rw [afterBlock]
    split
    · next hend =>
      simp only [Bool.and_eq_true, beq_iff_eq] at hend
      obtain ⟨rfl, hslash⟩ := hend
      obtain ⟨rest, rfl⟩ := List.head?_eq_some_iff.mp hslash
      exact endOf_append (m := "*/") h (by decide)
    · next hend =>
      rw [← ih ((List.suffix_cons c t).trans h)]
      apply endOf_cons h
      apply isPrefixOf?_eq_none
      rintro ⟨rest, hrest⟩
      cases hrest
      exact hend rfl

theorem commentEnd?_posOf (h : t <:+ text) :
    commentEnd? text (posOf text t) = (afterComment? t).map (posOf text) := by
  unfold commentEnd?
  rw [startsAt_posOf h, startsAt_posOf h]
  cases t with
  | nil => rfl
  | cons c t =>
    have hline : (List.isPrefixOf? (Text.ofString "//") (c :: t)).isSome =
        (c == '/' && t.head? == some (.ofChar '/')) := isSome_pair _ _ c t
    have hblock : (List.isPrefixOf? (Text.ofString "/*") (c :: t)).isSome =
        (c == '/' && t.head? == some (.ofChar '*')) := isSome_pair _ _ c t
    rw [hline, hblock]
    cases t with
    | nil => simp [afterComment?]
    | cons e t =>
      have ht : t <:+ text := List.IsSuffix.trans ⟨[c, e], rfl⟩ h
      rw [List.head?_cons, afterComment?, Option.some_beq_some, Option.some_beq_some]
      split
      · next hc =>
        simp only [Bool.and_eq_true, beq_iff_eq] at hc
        obtain ⟨rfl, rfl⟩ := hc
        rw [endOf_cons h rfl, endOf_cons ((List.suffix_cons _ _).trans h) rfl, endOf_newline ht]
        rfl
      · split
        · next hc =>
          simp only [Bool.and_eq_true, beq_iff_eq] at hc
          obtain ⟨rfl, rfl⟩ := hc
          rw [posOf_add (n := 2) h (by simp)]
          exact congrArg some (endOf_block ht)
        · rfl

theorem skipTrivia_posOf (h : t <:+ text) :
    skipTrivia text (posOf text t) = .ok (posOf text (Literal.skipTrivia t)) := by
  fun_induction Literal.skipTrivia t with
  | case1 =>
    rw [skipTrivia]
    simp
  | case2 c t hblank ih =>
    rw [skipTrivia, dif_pos (posOf_cons_lt h), charAt_posOf h, ok_bind, if_pos hblank, posOf_cons h]
    exact ih ((List.suffix_cons c t).trans h)
  | case3 c t hblank rest hcomment _ ih =>
    have hnext := posOf_lt h (length_afterComment hcomment)
    rw [skipTrivia, dif_pos (posOf_cons_lt h), charAt_posOf h, ok_bind, if_neg hblank,
      commentEnd?_posOf h, hcomment, Option.map_some]
    dsimp only
    rw [dif_pos hnext]
    exact ih ((suffix_afterComment hcomment).trans h)
  | case4 c t hblank hcomment =>
    rw [skipTrivia, dif_pos (posOf_cons_lt h), charAt_posOf h, ok_bind, if_neg hblank,
      commentEnd?_posOf h, hcomment, Option.map_none]

/-! Escapes. -/

theorem hexValue?_lt {v : Nat} (h : c.hexValue? = some v) : v < 16 := by
  have h0 : '0'.toNat = 48 := rfl
  have h9 : '9'.toNat = 57 := rfl
  have ha : 'a'.toNat = 97 := rfl
  have hf : 'f'.toNat = 102 := rfl
  have hA : 'A'.toNat = 65 := rfl
  have hF : 'F'.toNat = 70 := rfl
  unfold CodePoint.hexValue? CodePoint.isDigit CodePoint.inRange at h
  grind

theorem exists_hexNumber {digits : Text} (h : isNumeral digits) :
    ∃ n, Text.hexNumber? digits = some n ∧ (digits.length ≤ 4 → n < 0x110000) := by
  have hfold : ∀ (t : Text) (k : Nat), t.all CodePoint.isHexDigit →
      ∃ n, t.foldl (fun n c => n.bind fun n => c.hexValue?.map (16 * n + ·)) (some k) = some n ∧
        n < (k + 1) * 16 ^ t.length := by
    intro t
    induction t with
    | nil => exact fun k _ => ⟨k, rfl, by simp⟩
    | cons c t ih =>
      intro k ht
      simp only [List.all_cons, Bool.and_eq_true, CodePoint.isHexDigit] at ht
      obtain ⟨v, hv⟩ := Option.isSome_iff_exists.mp ht.1
      obtain ⟨n, hn, hlt⟩ := ih (16 * k + v) ht.2
      refine ⟨n, by simpa [hv] using hn, ?_⟩
      have hbound : (16 * k + v + 1) * 16 ^ t.length ≤ (16 * k + 16) * 16 ^ t.length := by
        have := hexValue?_lt hv
        apply Nat.mul_le_mul_right
        omega
      rw [List.length_cons, Nat.pow_succ]
      grind
  simp only [isNumeral, Bool.and_eq_true, Bool.not_eq_true'] at h
  obtain ⟨n, hn, hlt⟩ := hfold digits 0 h.2
  refine ⟨n, by simp [Text.hexNumber?, h.1, hn], fun hlength => ?_⟩
  have hpow : 16 ^ digits.length ≤ 16 ^ 4 := Nat.pow_le_pow_right (by decide) hlength
  omega

theorem hexNumber?_of_not_numeral {digits : Text} (h : isNumeral digits = false) :
    Text.hexNumber? digits = none := by
  cases hempty : digits.isEmpty with
  | true => simp [Text.hexNumber?, hempty]
  | false =>
    apply hexNumber?_eq_none
    simpa [isNumeral, hempty, CodePoint.isHexDigit] using h

theorem fixedEscape_posOf (letter : CodePoint) {width : Nat} (hwidth : width ≤ 4)
    (h : t <:+ text) :
    fixedEscape text letter width (posOf text t) =
      .ok (match fixedHex? width t with
        | some e => ([e], posOf text (t.drop width))
        | none => ([letter], posOf text t)) := by
  rw [fixedEscape, fixedHex?, drop_posOf h]
  cases hlength : (t.take width).length == width with
  | false => simp
  | true =>
    cases hdigits : isNumeral (t.take width) with
    | false => simp [hexNumber?_of_not_numeral hdigits]
    | true =>
      have hlong : width ≤ t.length := by
        simp only [List.length_take, beq_iff_eq] at hlength
        omega
      obtain ⟨n, hn, hlt⟩ := exists_hexNumber hdigits
      rw [beq_iff_eq.mp hlength] at hlt
      simp [number, hn, codePoint, hlt hwidth, posOf_add h hlong]

theorem find?_brace (h : t <:+ text) :
    find? text "\x7d" (posOf text t) =
      if (t.takeWhile fun c : CodePoint => c != '}').length < t.length then
        some (posOf text t + (t.takeWhile fun c : CodePoint => c != '}').length)
      else none := by
  induction t with
  | nil => exact find?_length
  | cons c t ih =>
    rw [find?_cons h]
    by_cases hc : c = '}'
    · subst hc
      have hmark : List.isPrefixOf? (Text.ofString "\x7d") ('}' :: t) = some t :=
        List.isPrefixOf?_eq_some_iff_append_eq.mpr rfl
      simp [hmark]
    · have hmark : List.isPrefixOf? (Text.ofString "\x7d") (c :: t) = none := by
        apply isPrefixOf?_eq_none
        rintro ⟨rest, hrest⟩
        cases hrest
        exact hc rfl
      rw [hmark, if_neg (by simp), ih ((List.suffix_cons c t).trans h), ← posOf_cons h]
      simp [hc]
      grind

theorem bracedEscape_posOf (letter : CodePoint) (h : c :: t <:+ text) :
    bracedEscape text letter (posOf text (c :: t)) =
      .ok (match bracedHex? t with
        | some (e, n) => ([e], posOf text (t.drop (n + 1)))
        | none => ([letter], posOf text (c :: t))) := by
  have ht : t <:+ text := (List.suffix_cons c t).trans h
  have hprefix : (t.takeWhile fun c : CodePoint => c != '}') <+: t := List.takeWhile_prefix _
  rw [bracedEscape, bracedHex?, posOf_cons h, find?_brace ht]
  generalize (t.takeWhile fun c : CodePoint => c != '}') = digits at hprefix ⊢
  by_cases hbrace : digits.length < t.length
  · have hslice : (text.take (posOf text t + digits.length)).drop (posOf text t) = digits := by
      rw [List.drop_take, drop_posOf ht, Nat.add_sub_cancel_left, ← List.prefix_iff_eq_take.mp hprefix]
    simp only [if_pos hbrace, hslice]
    cases hdigits : isNumeral digits with
    | false => simp [hexNumber?_of_not_numeral hdigits]
    | true =>
      obtain ⟨n, hn, _⟩ := exists_hexNumber hdigits
      by_cases hlt : n < 0x110000
      · simp [number, hn, codePoint, hlt, Nat.le_of_lt_succ hlt, ← posOf_add ht hbrace, Nat.add_assoc]
      · have hlarge : ¬ n ≤ 0x10FFFF := by omega
        simp [number, hn, hlt, hlarge]
  · simp [hbrace]

theorem escape_posOf (h : c :: t <:+ text) :
    escape text (posOf text (c :: t)) =
      .ok ((Literal.escape t).1, posOf text (t.drop (Literal.escape t).2)) := by
  have ht : t <:+ text := (List.suffix_cons c t).trans h
  rw [escape, posOf_cons h]
  cases t with
  | nil => simp [Literal.escape]
  | cons e t =>
    have hsource : t <:+ text := (List.suffix_cons e t).trans ht
    have hnext : posOf text (c :: e :: t) + 2 = posOf text t := posOf_add (n := 2) h (by simp)
    have hmore := posOf_cons_lt ht
    rw [if_neg (by omega), charAt_posOf ht, ok_bind, hnext, fixedEscape_posOf e (by decide) hsource,
      fixedEscape_posOf e (by decide) hsource, startsAt_posOf hsource, startsAt_posOf ht,
      Literal.escape]
    cases letterEscape? e with
    | some l => rfl
    | none =>
      have hbrace : (List.isPrefixOf? (Text.ofString "\x7b") t).isSome = (t.head? == some '{') :=
        isSome_single _ t
      have hline : (List.isPrefixOf? (Text.ofString "\r\n") (e :: t)).isSome =
          (e == '\r' && t.head? == some '\n') := isSome_pair _ _ e t
      rw [hbrace, hline, ← Bool.and_assoc, Bool.and_self]
      dsimp only
      split
      · cases fixedHex? 2 t <;> rfl
      · split
        · split
          · next hhead =>
            obtain ⟨source, rfl⟩ := List.head?_eq_some_iff.mp (beq_iff_eq.mp hhead)
            rw [bracedEscape_posOf e hsource]
            cases hhex : bracedHex? source <;> simp [hhex]
          · cases fixedHex? 4 t <;> rfl
        · split
          · next hhead =>
            simp only [Bool.and_eq_true, beq_iff_eq] at hhead
            obtain ⟨rfl, hhead⟩ := hhead
            obtain ⟨source, rfl⟩ := List.head?_eq_some_iff.mp hhead
            rw [posOf_add (n := 3) h (by simp)]
            rfl
          · rfl

/-! The start of a part. -/

theorem startsRaw_posOf (h : c :: t <:+ text) :
    startsRaw text (posOf text (c :: t)) =
      .ok (Literal.startsRaw (afterWordAt text (posOf text (c :: t))) (c :: t)) := by
  have ht : t <:+ text := (List.suffix_cons c t).trans h
  rw [startsRaw, charAt_posOf h, ok_bind, posOf_cons h, getElem?_posOf ht]
  cases t with
  | nil => simp [Literal.startsRaw]
  | cons q t =>
    have hinside := posOf_cons_lt h
    generalize posOf text (c :: q :: t) = pos at hinside ⊢
    rw [Literal.startsRaw, List.head?_cons, Option.any_some, ← Bool.not_and]
    cases (c == 'r' || c == 'R') && q.isQuote with
    | false => rfl
    | true =>
      by_cases hpos : pos = 0
      · simp [hpos, afterWordAt]
      · have hbefore : pos - 1 < text.length := by omega
        simp [hpos, afterWordAt, charAt, hbefore]

theorem openQuotes_posOf (raw : Bool) (h : t <:+ text) :
    openQuotes text raw (posOf text t) =
      .ok ((openQuotes? raw t).map fun (d, body) => (d, posOf text body)) := by
  rw [openQuotes]
  cases t with
  | nil => simp [openQuotes?]
  | cons q t =>
    have hinside := posOf_cons_lt h
    rw [if_neg (by omega), charAt_posOf h, ok_bind, startsAt_posOf h, openQuotes?]
    split
    · have htriple : [q, q, q].isPrefixOf? (q :: t) = [q, q].isPrefixOf? t := by
        simp [isPrefixOf?_cons]
      rw [htriple]
      cases hmore : [q, q].isPrefixOf? t with
      | none => simp [posOf_cons h]
      | some more =>
        obtain rfl := List.append_eq_of_isPrefixOf?_eq_some hmore
        have hdrop : text.drop (posOf text (q :: ([q, q] ++ more)) + 3) = more := by
          rw [← List.drop_drop, drop_posOf h]
          rfl
        rw [hdrop]
        rfl
    · rfl

theorem openPart_posOf (h : c :: t <:+ text) :
    openPart text (posOf text (c :: t)) =
      .ok ((openPart? (c :: t)).map fun (d, body) => (d, posOf text body)) := by
  rw [openPart, charAt_posOf h, ok_bind, posOf_cons h, openPart?]
  split
  · exact openQuotes_posOf true ((List.suffix_cons c t).trans h)
  · exact openQuotes_posOf false h

theorem startsAt_brace (h : t <:+ text) :
    startsAt text "\x7b" (posOf text t) =
      match interpolation? t with
      | some (.braced _) => true
      | _ => false := by
  have hbrace : (List.isPrefixOf? (Text.ofString "\x7b") t).isSome = (t.head? == some '{') :=
    isSome_single _ t
  rw [startsAt_posOf h, hbrace]
  cases t with
  | nil => rfl
  | cons c t =>
    by_cases hbrace : c = '{'
    · subst hbrace
      rfl
    · cases hname : c.isNameStart <;> simp [interpolation?, hbrace, hname]

theorem nameEnd?_posOf (h : t <:+ text) :
    nameEnd? text (posOf text t) =
      match interpolation? t with
      | some (.name rest) => some (posOf text rest)
      | _ => none := by
  rw [nameEnd?, getElem?_posOf h]
  cases t with
  | nil => rfl
  | cons c t =>
    rw [posOf_cons h, drop_posOf ((List.suffix_cons c t).trans h)]
    by_cases hbrace : c = '{'
    · subst hbrace
      rfl
    · cases hname : c.isNameStart <;> simp [interpolation?, hbrace, hname]

end Deadwood.Literal.Indexed
