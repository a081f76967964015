import Deadwood.Proofs.Json.Grammar
import Deadwood.Proofs.Literal.Scanning
import Mathlib.Data.List.Induction

/-!
Readers of JSON numbers and strings. They answer with what they read and the text that follows.
Main statements: every number that the grammar derives is read where a number ends, and every
string up to its closing quote.
-/
namespace Deadwood.Json

open Deadwood.Literal (HexDigit HexNumeral fixedHex? fixedHex?_append)

/-! ### Numbers -/

def readDigits? (t : Text) : Option (Text × Text) :=
  let digits := t.takeWhile CodePoint.isDigit
  if digits.isEmpty then none else some (digits, t.dropWhile CodePoint.isDigit)

def numeral (digits : Text) : Nat :=
  digits.foldl (fun n c => 10 * n + (c.val - '0'.toNat)) 0

def readMinus : Text → Bool × Text
  | [] => (false, [])
  | c :: t => if c == '-' then (true, t) else (false, c :: t)

def readSign : Text → Bool × Text
  | [] => (false, [])
  | c :: t => if c == '+' then (false, t) else readMinus (c :: t)

def readFraction? : Text → Option (Text × Text)
  | [] => some ([], [])
  | c :: t => if c == '.' then readDigits? t else some ([], c :: t)

def readExponent? : Text → Option (Option Int × Text)
  | [] => some (none, [])
  | c :: t =>
    if c == 'e' || c == 'E' then
      let (negative, t) := readSign t
      (readDigits? t).map fun (digits, t) => (some (signed negative (numeral digits)), t)
    else some (none, c :: t)

def readNumber? (t : Text) : Option (Document × Text) :=
  let (negative, t) := readMinus t
  (readDigits? t).bind fun (whole, t) =>
    if whole.head? == some (CodePoint.ofChar '0') && whole != [CodePoint.ofChar '0'] then none
    else
      (readFraction? t).bind fun (fraction, t) =>
        (readExponent? t).map fun (exponent, t) =>
          let significand := signed negative (numeral (whole ++ fraction))
          if fraction.isEmpty && exponent.isNone then (.integer significand, t)
          else (.decimal significand (exponent.getD 0 - fraction.length), t)

theorem Numeral.ne_nil {t : Text} {n : Nat} (h : Numeral t n) : t ≠ [] := by
  cases h <;> simp

theorem isDigit_of_val {c : CodePoint} {v : Nat} (hv : v < 10) (hc : c.val = '0'.toNat + v) :
    c.isDigit := by
  have h0 : '0'.toNat = 48 := rfl
  have h9 : '9'.toNat = 57 := rfl
  simp only [CodePoint.isDigit, CodePoint.inRange, Bool.and_eq_true, decide_eq_true_eq]
  omega

theorem Numeral.isDigit {t : Text} {n : Nat} (h : Numeral t n) : ∀ c ∈ t, c.isDigit := by
  induction h with
  | digit hv hc => simpa using isDigit_of_val hv hc
  | snoc _ hv hc ih =>
    intro c hmem
    rcases List.mem_append.mp hmem with hmem | hmem
    · exact ih c hmem
    · exact List.mem_singleton.mp hmem ▸ isDigit_of_val hv hc

theorem Numeral.numeral_eq {t : Text} {n : Nat} (h : Numeral t n) : numeral t = n := by
  induction h with
  | digit _ hc => simp [numeral, hc]
  | snoc _ _ hc ih =>
    unfold numeral at ih ⊢
    rw [List.foldl_append, ih]
    simp [hc]

theorem readDigits?_append {digits rest : Text} (hne : digits ≠ [])
    (hdigits : ∀ c ∈ digits, c.isDigit) (hrest : ∀ c ∈ rest.head?, c.isDigit = false) :
    readDigits? (digits ++ rest) = some (digits, rest) := by
  have htake : rest.takeWhile CodePoint.isDigit = [] ∧ rest.dropWhile CodePoint.isDigit = rest := by
    cases rest with
    | nil => exact ⟨rfl, rfl⟩
    | cons c rest =>
      have hc := hrest c rfl
      exact ⟨List.takeWhile_cons_of_neg (by simp [hc]), List.dropWhile_cons_of_neg (by simp [hc])⟩
  unfold readDigits?
  rw [List.takeWhile_append_of_pos hdigits, List.dropWhile_append_of_pos hdigits, htake.1, htake.2]
  simp [hne]

theorem readMinus_of_ne {t : Text} (h : t.head? ≠ some (CodePoint.ofChar '-')) :
    readMinus t = (false, t) := by
  cases t with
  | nil => rfl
  | cons c t =>
    have hc : c ≠ CodePoint.ofChar '-' := fun hc => h (by rw [hc]; rfl)
    simp [readMinus, hc]

/-- Characters that end a number: no digit, point or exponent can follow it. -/
def EndsNumber (rest : Text) : Prop :=
  ∀ c ∈ rest.head?, c.isDigit = false ∧ c ≠ '.' ∧ c ≠ 'e' ∧ c ≠ 'E'

theorem not_isDigit_ofChar {a : Char} (h : (CodePoint.ofChar a).isDigit = false) {c : CodePoint}
    (hc : c.isDigit) : c ≠ CodePoint.ofChar a := by
  rintro rfl
  simp [h] at hc

theorem Minus.readMinus_append {sign : Text} {negative : Bool} (h : Minus sign negative)
    {t : Text} (ht : ∀ c ∈ t.head?, c.isDigit) : readMinus (sign ++ t) = (negative, t) := by
  cases h with
  | minus => rfl
  | absent =>
    apply readMinus_of_ne
    intro hminus
    exact absurd (ht _ hminus) (by decide)

theorem Exponent.readExponent?_append {t : Text} {e : Int} (h : Exponent t e) {rest : Text}
    (hrest : EndsNumber rest) :
    readExponent? (t ++ rest) = some (if t.isEmpty then none else some e, rest) := by
  have hend : ∀ c ∈ rest.head?, c.isDigit = false := fun c hc => (hrest c hc).1
  cases h with
  | absent =>
    cases rest with
    | nil => rfl
    | cons c rest =>
      obtain ⟨-, -, he, hE⟩ := hrest c rfl
      simp [readExponent?, he, hE]
  | @positive mark sign digits n hmark hsign hn =>
    have hread := readDigits?_append hn.ne_nil hn.isDigit hend
    have hs : readSign (sign ++ (digits ++ rest)) = (false, digits ++ rest) := by
      rcases hsign with rfl | rfl
      · cases hd : digits with
        | nil => exact absurd hd hn.ne_nil
        | cons c more =>
          have hc : c.isDigit := hn.isDigit c (by simp [hd])
          have hplus := not_isDigit_ofChar (a := '+') (by decide) hc
          have hminus := not_isDigit_ofChar (a := '-') (by decide) hc
          simp [readSign, readMinus, hplus, hminus]
      · simp [readSign]
    rcases hmark with rfl | rfl <;>
      simp [readExponent?, hs, hread, hn.numeral_eq, signed]
  | @negative mark digits n hmark hn =>
    have hread := readDigits?_append hn.ne_nil hn.isDigit hend
    rcases hmark with rfl | rfl <;>
      simp [readExponent?, readSign, readMinus, hread, hn.numeral_eq, signed]

theorem Exponent.isDigit_head? {t : Text} {e : Int} (h : Exponent t e) {rest : Text}
    (hrest : EndsNumber rest) : ∀ c ∈ (t ++ rest).head?, c.isDigit = false ∧ c ≠ '.' := by
  cases h with
  | absent => exact fun c hc => ⟨(hrest c hc).1, (hrest c hc).2.1⟩
  | positive hmark _ _ => rcases hmark with rfl | rfl <;> simp <;> decide
  | negative hmark _ => rcases hmark with rfl | rfl <;> simp <;> decide

theorem Fraction.readFraction?_append {t digits : Text} (h : Fraction t digits)
    (hdigits : ∀ c ∈ digits, c.isDigit) {rest : Text}
    (hrest : ∀ c ∈ rest.head?, c.isDigit = false ∧ c ≠ '.') :
    readFraction? (t ++ rest) = some (digits, rest) := by
  cases h with
  | absent =>
    cases rest with
    | nil => rfl
    | cons c rest => simp [readFraction?, (hrest c rfl).2]
  | present hne => simp [readFraction?, readDigits?_append hne hdigits fun c hc => (hrest c hc).1]

theorem Fraction.isDigit_head? {t digits : Text} (h : Fraction t digits) {rest : Text}
    (hrest : ∀ c ∈ rest.head?, c.isDigit = false ∧ c ≠ '.') :
    ∀ c ∈ (t ++ rest).head?, c.isDigit = false := by
  cases h with
  | absent => exact fun c hc => (hrest c hc).1
  | present => simp; decide

theorem readNumber?_append {sign whole point digits power rest : Text} {negative : Bool} {n : Nat}
    {e : Int} (hsign : Minus sign negative) (hwhole : Whole whole) (hpoint : Fraction point digits)
    (hn : Numeral (whole ++ digits) n) (hpower : Exponent power e) (hrest : EndsNumber rest) :
    readNumber? (sign ++ (whole ++ (point ++ (power ++ rest)))) =
      some (if digits.isEmpty && power.isEmpty then .integer (signed negative n)
        else .decimal (signed negative n) (e - digits.length), rest) := by
  have hdigit := hn.isDigit
  have hafter := hpower.isDigit_head? hrest
  have hminus : readMinus (sign ++ (whole ++ (point ++ (power ++ rest)))) =
      (negative, whole ++ (point ++ (power ++ rest))) := by
    apply hsign.readMinus_append
    cases whole with
    | nil => exact absurd rfl hwhole.ne_nil
    | cons c whole => simpa using hdigit c (by simp)
  have hread := readDigits?_append hwhole.ne_nil (fun c hc => hdigit c (by simp [hc]))
    (hpoint.isDigit_head? hafter)
  have hzero : (whole.head? == some (CodePoint.ofChar '0') && whole != [CodePoint.ofChar '0'])
      = false := by
    rw [Bool.and_eq_false_imp]
    intro hhead
    simpa using hwhole.zero_alone (by simpa using hhead)
  have hfraction := hpoint.readFraction?_append (fun c hc => hdigit c (by simp [hc])) hafter
  have hexponent := hpower.readExponent?_append hrest
  have he : power.isEmpty → e = 0 := by cases hpower <;> simp
  unfold readNumber?
  simp only [hminus, hread, Option.bind_some, hzero, Bool.false_eq_true, if_false, hfraction,
    hexponent, Option.map_some, hn.numeral_eq]
  cases hempty : power.isEmpty with
  | false => simp
  | true => cases digits <;> simp [he hempty]

theorem Number.readNumber?_append {t rest : Text} {d : Document} (h : Number t d)
    (hrest : EndsNumber rest) : readNumber? (t ++ rest) = some (d, rest) := by
  cases h with
  | integer hsign hwhole hn =>
    have hread := Json.readNumber?_append hsign hwhole .absent (by simpa using hn) .absent hrest
    simpa using hread
  | @decimal sign whole point digits power negative n e hsign hwhole hpoint hn hpower hne =>
    have hread := Json.readNumber?_append hsign hwhole hpoint hn hpower hrest
    have hempty : (digits.isEmpty && power.isEmpty) = false := by
      cases hpoint with
      | absent => simpa using hne
      | present hdigits => simp [hdigits]
    rw [hempty] at hread
    simpa using hread

theorem Minus.head_append {sign whole : Text} {negative : Bool} (hsign : Minus sign negative)
    (hwhole : Whole whole) (hdigits : ∀ c ∈ whole, c.isDigit) (more : Text) :
    ∃ c rest, sign ++ (whole ++ more) = c :: rest ∧ (c.isDigit ∨ c = '-') := by
  cases hsign with
  | minus => exact ⟨_, _, rfl, .inr rfl⟩
  | absent =>
    cases whole with
    | nil => exact absurd rfl hwhole.ne_nil
    | cons c whole => exact ⟨_, _, rfl, .inl (hdigits c (by simp))⟩

theorem Number.head {t : Text} {d : Document} (h : Number t d) :
    ∃ c rest, t = c :: rest ∧ (c.isDigit ∨ c = '-') := by
  cases h with
  | integer hsign hwhole hn => simpa using hsign.head_append hwhole hn.isDigit []
  | decimal hsign hwhole hpoint hn hpower hne =>
    exact hsign.head_append hwhole (fun c hc => hn.isDigit c (by simp [hc])) _

/-! ### Strings -/

def readUnit? : Text → Option (CodePoint × Text)
  | b :: u :: t =>
    if b == '\\' && u == 'u' then (fixedHex? 4 t).map fun c => (c, t.drop 4) else none
  | _ => none

def joinPair (high low : CodePoint) : CodePoint :=
  CodePoint.ofNat (0x10000 + (high.val - 0xD800) * 0x400 + (low.val - 0xDC00))

def readPair? (t : Text) : Option (CodePoint × Text) :=
  (readUnit? t).map fun (c, t) =>
    match (readUnit? t).filter fun next => isHigh c && isLow next.1 with
    | some (low, t) => (joinPair c low, t)
    | none => (c, t)

def readEscape? : Text → Option (CodePoint × Text)
  | [] => none
  | l :: t =>
    if l == 'u' then readPair? ('\\' :: l :: t)
    else (letterEscapes.lookup l).map fun c => (c, t)

def readCharacter? (c : CodePoint) (t : Text) : Option (CodePoint × Text) :=
  if c == '\\' then readEscape? t else if c.val < 0x20 then none else some (c, t)

def readCharacters? : Nat → Text → Option (Text × Text)
  | 0, _ => none
  | _, [] => none
  | fuel + 1, c :: t =>
    if c == '"' then some ([], t)
    else
      (readCharacter? c t).bind fun (c, t) =>
        (readCharacters? fuel t).map fun (s, t) => (c :: s, t)

def readString? (t : Text) : Option (Text × Text) :=
  readCharacters? t.length t

theorem CodeUnit.readUnit?_append {u : Text} {c : CodePoint} (h : CodeUnit u c) (rest : Text) :
    readUnit? (u ++ rest) = some (c, rest) := by
  cases h with
  | @mk digits _ hlength hdigits =>
    have hread := fixedHex?_append rest hdigits
    have hdrop : (digits ++ rest).drop 4 = rest := List.drop_left' hlength
    rw [hlength] at hread
    simp [readUnit?, hread, hdrop]

theorem hexDigit_of_hexValue? {c : CodePoint} {v : Nat} (h : c.hexValue? = some v) :
    HexDigit c v := by
  have h0 : '0'.toNat = 48 := rfl
  have h9 : '9'.toNat = 57 := rfl
  have ha : 'a'.toNat = 97 := rfl
  have hf : 'f'.toNat = 102 := rfl
  have hA : 'A'.toNat = 65 := rfl
  have hF : 'F'.toNat = 70 := rfl
  simp only [CodePoint.hexValue?, CodePoint.isDigit, CodePoint.inRange, Bool.and_eq_true,
    decide_eq_true_eq] at h
  split at h
  · cases h
    exact .decimal (by omega) (by omega)
  · split at h
    · cases h
      rw [Nat.add_comm]
      exact .lower (by omega) (by omega)
    · split at h
      · cases h
        rw [Nat.add_comm]
        exact .upper (by omega) (by omega)
      · cases h

theorem hexNumeral_of_hexNumber? {t : Text} {n : Nat} (h : Text.hexNumber? t = some n) :
    HexNumeral t n := by
  unfold Text.hexNumber? at h
  induction t using List.reverseRecOn generalizing n with
  | nil => cases h
  | append_singleton t c ih =>
    rw [if_neg (by simp), List.foldl_append] at h
    simp only [List.foldl_cons, List.foldl_nil, Option.bind_eq_some_iff,
      Option.map_eq_some_iff] at h
    obtain ⟨m, hm, v, hv, rfl⟩ := h
    cases ht : t.isEmpty with
    | true =>
      obtain rfl : t = [] := by simpa using ht
      obtain rfl : 0 = m := by simpa using hm
      simpa using HexNumeral.digit (hexDigit_of_hexValue? hv)
    | false => exact .snoc (ih (by rw [ht]; exact hm)) (hexDigit_of_hexValue? hv)

theorem exists_of_readUnit? {t rest : Text} {c : CodePoint} (h : readUnit? t = some (c, rest)) :
    ∃ u, CodeUnit u c ∧ t = u ++ rest := by
  unfold readUnit? at h
  split at h
  · next b u t =>
    split at h
    · next hstart =>
      simp only [Bool.and_eq_true, beq_iff_eq] at hstart
      obtain ⟨rfl, rfl⟩ := hstart
      simp only [Option.map_eq_some_iff, Prod.mk.injEq] at h
      obtain ⟨c, hc, rfl, rfl⟩ := h
      simp only [fixedHex?, beq_iff_eq] at hc
      split at hc
      · next hlength =>
        obtain ⟨n, hn, hc⟩ := Option.bind_eq_some_iff.mp hc
        split at hc
        · cases hc
          exact ⟨_, .mk hlength (hexNumeral_of_hexNumber? hn), by simp⟩
        · cases hc
      · cases hc
    · cases h
  · cases h

theorem CodeUnit.quote_notMem {u : Text} {c : CodePoint} (h : CodeUnit u c) :
    CodePoint.ofChar '"' ∉ u := by
  cases h with
  | mk _ hdigits =>
    intro hmem
    simp only [List.mem_cons] at hmem
    rcases hmem with hmem | hmem | hmem
    · exact absurd hmem (by decide)
    · exact absurd hmem (by decide)
    · exact absurd (hdigits.isSome_hexValue? _ hmem) (by decide)

theorem CodeUnit.prefix_of_append {u t rest more : Text} {c : CodePoint} (h : CodeUnit u c)
    (heq : t ++ CodePoint.ofChar '"' :: rest = u ++ more) : u <+: t := by
  rcases List.append_eq_append_iff.mp heq with ⟨x, hu, hx⟩ | ⟨x, ht, _⟩
  · cases x with
    | nil => exact ⟨[], by simpa using hu⟩
    | cons y x =>
      obtain ⟨rfl, -⟩ := List.cons_eq_cons.mp hx
      exact absurd (hu ▸ by simp) h.quote_notMem
  · exact ⟨x, ht.symm⟩

theorem readPair?_of_unit {u t rest : Text} {c : CodePoint} (hu : CodeUnit u c)
    (hlow : isHigh c → ∀ u' low, u' <+: t → CodeUnit u' low → isLow low = false) :
    readPair? (u ++ (t ++ CodePoint.ofChar '"' :: rest)) =
      some (c, t ++ CodePoint.ofChar '"' :: rest) := by
  have hnone : (readUnit? (t ++ CodePoint.ofChar '"' :: rest)).filter
      (fun next => isHigh c && isLow next.1) = none := by
    simp only [Option.filter_eq_none_iff, Bool.and_eq_true, not_and, Bool.not_eq_true]
    intro next hnext hhigh
    obtain ⟨u', hu', heq⟩ := exists_of_readUnit? hnext
    exact hlow hhigh u' next.1 (hu'.prefix_of_append heq) hu'
  simp [readPair?, hu.readUnit?_append, hnone]

theorem readPair?_of_pair {u u' : Text} {high low c : CodePoint} (hu : CodeUnit u high)
    (hhigh : isHigh high) (hu' : CodeUnit u' low) (hlow : isLow low)
    (hc : c.val = 0x10000 + (high.val - 0xD800) * 0x400 + (low.val - 0xDC00)) (rest : Text) :
    readPair? (u ++ (u' ++ rest)) = some (c, rest) := by
  have hjoin : joinPair high low = c := by
    apply Fin.ext
    rw [joinPair, CodePoint.ofNat, hc]
    exact Nat.mod_eq_of_lt (hc ▸ c.isLt)
  simp [readPair?, hu.readUnit?_append, hu'.readUnit?_append, Option.filter, hhigh, hlow, hjoin]

theorem readCharacter?_backslash (t : Text) : readCharacter? '\\' t = readEscape? t :=
  rfl

theorem readCharacters?_cons {fuel : Nat} {t more : Text} {c e : CodePoint} (hfuel : 0 < fuel)
    (hquote : c ≠ '"')
    (hread : readCharacter? c t = some (e, more)) :
    readCharacters? fuel (c :: t) =
      (readCharacters? (fuel - 1) more).map fun (s, t) => (e :: s, t) := by
  obtain ⟨fuel, rfl⟩ := Nat.exists_eq_add_one.mpr hfuel
  rewrite [readCharacters?, if_neg (by simpa using hquote), hread]
  rfl

theorem CodeUnit.length_eq {u : Text} {c : CodePoint} (h : CodeUnit u c) : u.length = 6 := by
  cases h with
  | mk hlength _ => simp [hlength]

theorem readCharacters?_unit {u t more : Text} {c e : CodePoint} {fuel : Nat} (hfuel : 0 < fuel)
    (hu : CodeUnit u c) (hread : readPair? (u ++ t) = some (e, more)) :
    readCharacters? fuel (u ++ t) =
      (readCharacters? (fuel - 1) more).map fun (s, t) => (e :: s, t) := by
  cases hu with
  | mk =>
    exact readCharacters?_cons hfuel (by decide) hread

theorem lookup_letterEscapes {l c : CodePoint} (h : (l, c) ∈ letterEscapes) :
    l ≠ 'u' ∧ letterEscapes.lookup l = some c := by
  simp only [letterEscapes, List.mem_cons, List.not_mem_nil, or_false, Prod.mk.injEq] at h
  rcases h with ⟨rfl, rfl⟩ | ⟨rfl, rfl⟩ | ⟨rfl, rfl⟩ | ⟨rfl, rfl⟩ | ⟨rfl, rfl⟩ | ⟨rfl, rfl⟩ |
    ⟨rfl, rfl⟩ | ⟨rfl, rfl⟩ <;> decide

theorem Characters.readCharacters?_append {t s : Text} (h : Characters t s) (rest : Text)
    {fuel : Nat} (hfuel : t.length < fuel) :
    readCharacters? fuel (t ++ CodePoint.ofChar '"' :: rest) = some (s, rest) := by
  have hpos : 0 < fuel := by omega
  induction h generalizing fuel with
  | nil =>
    obtain ⟨fuel, rfl⟩ := Nat.exists_eq_add_one.mpr hpos
    rfl
  | @plain c t s hlow hquote hslash _ ih =>
    rw [List.length_cons] at hfuel
    have hread : readCharacter? c (t ++ CodePoint.ofChar '"' :: rest) =
        some (c, t ++ CodePoint.ofChar '"' :: rest) := by
      rw [readCharacter?, if_neg (by simpa using hslash), if_neg (by omega)]
    rewrite [List.cons_append, readCharacters?_cons hpos hquote hread, ih (by omega) (by omega)]
    rfl
  | @letter l c t s hmem _ ih =>
    rw [List.length_cons, List.length_cons] at hfuel
    obtain ⟨hu, hlookup⟩ := lookup_letterEscapes hmem
    have hread : readCharacter? '\\' (l :: (t ++ CodePoint.ofChar '"' :: rest)) =
        some (c, t ++ CodePoint.ofChar '"' :: rest) := by
      rewrite [readCharacter?_backslash, readEscape?, if_neg (by simpa using hu), hlookup]
      rfl
    rewrite [List.cons_append, List.cons_append, readCharacters?_cons hpos (by decide) hread,
      ih (by omega) (by omega)]
    rfl
  | @unit u t s c hu hlow _ ih =>
    rw [List.length_append, hu.length_eq] at hfuel
    rewrite [List.append_assoc, readCharacters?_unit hpos hu (readPair?_of_unit hu hlow),
      ih (by omega) (by omega)]
    rfl
  | @pair u u' t s high low c hu hhigh hu' hlow hc _ ih =>
    rw [List.length_append, List.length_append, hu.length_eq] at hfuel
    rewrite [List.append_assoc, List.append_assoc,
      readCharacters?_unit hpos hu (readPair?_of_pair hu hhigh hu' hlow hc _),
      ih (by omega) (by omega)]
    rfl

theorem Characters.readString?_append {t s : Text} (h : Characters t s) (rest : Text) :
    readString? (t ++ CodePoint.ofChar '"' :: rest) = some (s, rest) :=
  h.readCharacters?_append rest (by simp)

end Deadwood.Json
