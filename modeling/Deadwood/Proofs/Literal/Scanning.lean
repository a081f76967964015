import Deadwood.Proofs.Literal.Grammar
import Mathlib.Data.List.Basic

/-!
What each piece of the scanner does on text that a rule of the grammar derives: comments and
trivia are skipped, escapes are decoded, and the quotes that open a part are recognised.
-/
namespace Deadwood.Literal

theorem isPrefixOf?_cons (a b : CodePoint) (p t : Text) :
    (a :: p).isPrefixOf? (b :: t) = if a == b then p.isPrefixOf? t else none := rfl

theorem isPrefixOf?_eq_none {p t : Text} (h : ¬ p <+: t) : p.isPrefixOf? t = none := by
  cases hp : p.isPrefixOf? t with
  | none => rfl
  | some r => exact absurd ⟨r, List.append_eq_of_isPrefixOf?_eq_some hp⟩ h

/-! Comments and trivia. -/

theorem afterLine_append {body : Text} (rest : Text) (h : CodePoint.ofChar '\n' ∉ body) :
    afterLine (body ++ CodePoint.ofChar '\n' :: rest) = rest := by
  unfold afterLine
  rw [List.dropWhile_append_of_pos]
  · simp
  · intro c hc
    simp only [bne_iff_ne, ne_eq]
    rintro rfl
    exact h hc

theorem afterBlock_append {body : Text} (rest : Text) (h : ¬ blockEnd <:+: body) :
    afterBlock (body ++ blockEnd ++ rest) = rest := by
  induction body with
  | nil => simp [blockEnd, afterBlock]
  | cons c body ih =>
    have hbody : ¬ blockEnd <:+: body := fun hin => h (List.infix_cons hin)
    simp only [List.cons_append, afterBlock]
    rw [if_neg, ih hbody]
    -- the slash after a star would have to be the body's own
    intro hend
    simp only [Bool.and_eq_true, beq_iff_eq] at hend
    obtain ⟨rfl, hhead⟩ := hend
    cases body with
    | nil => simp [blockEnd] at hhead
    | cons x body =>
      obtain rfl : x = CodePoint.ofChar '/' := by simpa using hhead
      exact h ⟨[], body, rfl⟩

theorem afterComment?_of_comment {source rest : Text} (h : Comment source rest) :
    afterComment? source = some rest := by
  cases h with
  | line hbody => simp [afterComment?, afterLine_append rest hbody]
  | block hbody =>
    have hend := afterBlock_append rest hbody
    simp [afterComment?] at hend ⊢
    exact hend

theorem Comment.append {source rest : Text} (h : Comment source rest) (t : Text) :
    Comment (source ++ t) (rest ++ t) := by
  cases h with
  | line hbody =>
    have hline : Comment _ (rest ++ t) := Comment.line hbody
    simpa using hline
  | block hbody =>
    have hblock : Comment _ (rest ++ t) := Comment.block hbody
    simpa using hblock

theorem skipTrivia_of_blank {c : CodePoint} (t : Text) (h : c.isBlank) :
    skipTrivia (c :: t) = skipTrivia t := by
  rw [skipTrivia, if_pos h]

theorem skipTrivia_of_comment {source rest : Text} (h : Comment source rest) :
    skipTrivia source = skipTrivia rest := by
  have hafter := afterComment?_of_comment h
  obtain ⟨t, rfl⟩ : ∃ t, source = CodePoint.ofChar '/' :: t := by cases h <;> exact ⟨_, rfl⟩
  rw [skipTrivia, if_neg (by decide)]
  split
  · next r hr =>
    rw [hafter] at hr
    cases hr
    rfl
  · next hr =>
    rw [hafter] at hr
    cases hr

theorem skipTrivia_append {t : Text} (h : Trivia t) (s : Text) :
    skipTrivia (t ++ s) = skipTrivia s := by
  induction h with
  | nil => rfl
  | blank hc _ ih => rw [List.cons_append, skipTrivia_of_blank _ hc, ih]
  | comment hk _ ih => rw [skipTrivia_of_comment (hk.append s), ih]

theorem skipTrivia_of_trivia {t : Text} (h : Trivia t) : skipTrivia t = [] := by
  have := skipTrivia_append h []
  rwa [List.append_nil, skipTrivia] at this

/-! Numbers and escapes. -/

theorem hexValue?_of_hexDigit {c : CodePoint} {v : Nat} (h : HexDigit c v) :
    c.hexValue? = some v := by
  have h0 : '0'.toNat = 48 := rfl
  have h9 : '9'.toNat = 57 := rfl
  have ha : 'a'.toNat = 97 := rfl
  have hf : 'f'.toNat = 102 := rfl
  have hA : 'A'.toNat = 65 := rfl
  have hF : 'F'.toNat = 70 := rfl
  unfold CodePoint.hexValue? CodePoint.isDigit CodePoint.inRange
  cases h with
  | decimal hv hc =>
    rw [if_pos (by simp; omega), hc]
    simp
  | lower hv hc =>
    rw [if_neg (by simp; omega), if_pos (by simp; omega), hc]
    simp; omega
  | upper hv hc =>
    rw [if_neg (by simp; omega), if_neg (by simp; omega), if_pos (by simp; omega), hc]
    simp; omega

theorem hexNumber?_of_hexNumeral {t : Text} {n : Nat} (h : HexNumeral t n) :
    Text.hexNumber? t = some n := by
  induction h with
  | digit hd => simp [Text.hexNumber?, hexValue?_of_hexDigit hd]
  | @snoc t n c v _ hd ih =>
    unfold Text.hexNumber? at ih ⊢
    split at ih
    · cases ih
    · rw [if_neg (by simp), List.foldl_append, ih]
      simp [hexValue?_of_hexDigit hd]

theorem HexNumeral.isSome_hexValue? {t : Text} {n : Nat} (h : HexNumeral t n) :
    ∀ c ∈ t, c.hexValue?.isSome := by
  induction h with
  | digit hd => simp [hexValue?_of_hexDigit hd]
  | snoc _ hd ih =>
    intro c hc
    rcases List.mem_append.mp hc with hc | hc
    · exact ih c hc
    · rw [List.mem_singleton.mp hc, hexValue?_of_hexDigit hd]
      rfl

theorem fixedHex?_append {digits : Text} {c : CodePoint} (rest : Text)
    (h : HexNumeral digits c.val) : fixedHex? digits.length (digits ++ rest) = some c := by
  unfold fixedHex?
  simp [hexNumber?_of_hexNumeral h]

theorem bracedHex?_append {digits : Text} {c : CodePoint} (rest : Text)
    (h : HexNumeral digits c.val) :
    bracedHex? (digits ++ CodePoint.ofChar '}' :: rest) = some (c, digits.length) := by
  have hdigits : (digits ++ CodePoint.ofChar '}' :: rest).takeWhile
      (fun c : CodePoint => c != '}') = digits := by
    rw [List.takeWhile_append_of_pos]
    · simp
    · intro x hx
      have hsome := h.isSome_hexValue? x hx
      simp only [bne_iff_ne, ne_eq]
      rintro rfl
      exact absurd hsome (by decide)
  unfold bracedHex?
  simp [hdigits, hexNumber?_of_hexNumeral h]

theorem letterEscape?_of_control {l c : CodePoint} (h : (l, c) ∈ controlLetters) :
    letterEscape? l = some c := by
  simp only [controlLetters, List.mem_cons, List.not_mem_nil, or_false, Prod.mk.injEq] at h
  rcases h with ⟨rfl, rfl⟩ | ⟨rfl, rfl⟩ | ⟨rfl, rfl⟩ | ⟨rfl, rfl⟩ | ⟨rfl, rfl⟩ | ⟨rfl, rfl⟩ <;> rfl

theorem letterEscape?_eq_none {c : CodePoint} (h : c ∉ notItself) : letterEscape? c = none := by
  simp only [notItself, List.mem_cons, List.not_mem_nil, or_false, not_or] at h
  simp [letterEscape?, h]

theorem escape_of_escape {source rest : Text} {c : CodePoint} (h : Escape source c rest) :
    (escape source).1 = [c] ∧ source.drop (escape source).2 = rest := by
  cases h with
  | control hl => simp [escape, letterEscape?_of_control hl]
  | byte hlen hd =>
    have hx : letterEscape? (CodePoint.ofChar 'x') = none := rfl
    have hhex := fixedHex?_append rest hd
    rw [hlen] at hhex
    simp [escape, hx, hhex, hlen]
  | short hlen hd =>
    have hu : letterEscape? (CodePoint.ofChar 'u') = none := rfl
    have hhex := fixedHex?_append rest hd
    obtain ⟨x, digits, rfl⟩ := List.exists_cons_of_length_eq_add_one hlen
    have hx : x ≠ CodePoint.ofChar '{' := by
      rintro rfl
      exact absurd (hd.isSome_hexValue? _ List.mem_cons_self) (by decide)
    rw [hlen, List.cons_append] at hhex
    have hdrop : (digits ++ rest).drop 3 = rest := by
      rw [← Nat.succ.inj hlen, List.drop_left]
    simp [escape, hu, hx, hhex, hdrop]
  | braced hd =>
    have hu : letterEscape? (CodePoint.ofChar 'u') = none := rfl
    have hhex := bracedHex?_append rest hd
    simp [escape, hu, hhex, List.drop_append]
  | itself hc =>
    have hl := letterEscape?_eq_none hc
    simp only [notItself, List.mem_cons, List.not_mem_nil, or_false, not_or] at hc
    simp [escape, hl, hc]

/-! The start of a part. -/

theorem blankLine_cons {c : CodePoint} {t s : Text} (hc : c = ' ' ∨ c = '\t') :
    BlankLine (c :: t) s ↔ BlankLine t s := by
  constructor
  · intro h
    cases h with
    | lineFeed => simp at hc
    | returnFeed => simp at hc
    | carriageReturn => simp at hc
    | space _ h => exact h
  · exact BlankLine.space hc

theorem blankLine_dropWhile {t s : Text} :
    BlankLine (t.dropWhile fun c : CodePoint => c == ' ' || c == '\t') s ↔ BlankLine t s := by
  induction t with
  | nil => rfl
  | cons c t ih =>
    rw [List.dropWhile_cons]
    split
    · next hc => rw [ih, blankLine_cons (by simpa using hc)]
    · rfl

theorem dropBlankLine_of_blankLine {t s : Text} (h : BlankLine t s) : dropBlankLine t = s := by
  have hd := blankLine_dropWhile.mpr h
  have hhead := List.head?_dropWhile_not (fun c : CodePoint => c == ' ' || c == '\t') t
  unfold dropBlankLine
  generalize t.dropWhile (fun c : CodePoint => c == ' ' || c == '\t') = u at hd hhead
  cases hd with
  | lineFeed => simp
  | returnFeed => simp
  | carriageReturn hs => simp [hs]
  | space hc _ => exact absurd hc (not_or.mpr (by simpa using hhead))

theorem dropBlankLine_eq_self {t : Text} (h : ∀ s, ¬ BlankLine t s) : dropBlankLine t = t := by
  have hd : ∀ s, ¬ BlankLine (t.dropWhile fun c : CodePoint => c == ' ' || c == '\t') s :=
    fun s hs => h s (blankLine_dropWhile.mp hs)
  unfold dropBlankLine
  split
  · next c u heq =>
    rw [heq] at hd
    split
    · next hc =>
      obtain rfl := eq_of_beq hc
      split
      · next hf =>
        obtain ⟨v, rfl⟩ := List.head?_eq_some_iff.mp (eq_of_beq hf)
        exact absurd BlankLine.returnFeed (hd v)
      · next hf => exact absurd (BlankLine.carriageReturn fun he => hf (beq_of_eq he)) (hd u)
    · split
      · next hc =>
        obtain rfl := eq_of_beq hc
        exact absurd BlankLine.lineFeed (hd u)
      · rfl
  · rfl

theorem openQuotes?_single {q : CodePoint} {body : Text} (raw : Bool) (hq : q.isQuote)
    (h : ¬ [q, q] <+: body) : openQuotes? raw (q :: body) = some (⟨q, false, raw⟩, body) := by
  simp [openQuotes?, hq, isPrefixOf?_eq_none h]

theorem openQuotes?_triple {q : CodePoint} (raw : Bool) (hq : q.isQuote) (t : Text) :
    openQuotes? raw (q :: q :: q :: t) = some (⟨q, true, raw⟩, dropBlankLine t) := by
  have htwo : [q, q].isPrefixOf? (q :: q :: t) = some t :=
    List.isPrefixOf?_eq_some_iff_append_eq.mpr rfl
  simp [openQuotes?, hq, htwo]

theorem openPart?_mark {raw : Bool} {m : Text} {q : CodePoint} (hm : RawMark raw m)
    (hq : q.isQuote) (t : Text) : openPart? (m ++ q :: t) = openQuotes? raw (q :: t) := by
  cases hm with
  | none =>
    have hr : ¬ (q == CodePoint.ofChar 'r' || q == CodePoint.ofChar 'R') := by
      intro hr
      simp only [Bool.or_eq_true, beq_iff_eq] at hr
      rcases hr with rfl | rfl <;> exact absurd hq (by decide)
    rw [List.nil_append, openPart?, if_neg hr]
  | lower => rfl
  | upper => rfl

theorem openPart?_of_opens {d : Delimiter} {source body : Text} (h : Opens d source body)
    (hd : d.triple = false → ¬ [d.quote, d.quote] <+: body) :
    openPart? source = some (d, body) := by
  cases h with
  | single hq hm => rw [openPart?_mark hm hq, openQuotes?_single _ hq (hd rfl)]
  | triple hq hm hbody => rw [openPart?_mark hm hq, openQuotes?_triple _ hq, dropBlankLine_eq_self hbody]
  | tripleLine hq hm hline =>
    rw [openPart?_mark hm hq, openQuotes?_triple _ hq, dropBlankLine_of_blankLine hline]

theorem Opens.head {d : Delimiter} {source body : Text} (h : Opens d source body) :
    ∃ m q t, source = m ++ q :: t ∧ q.isQuote ∧ RawMark d.raw m := by
  cases h with
  | single hq hm => exact ⟨_, _, _, rfl, hq, hm⟩
  | triple hq hm => exact ⟨_, _, _, rfl, hq, hm⟩
  | tripleLine hq hm => exact ⟨_, _, _, rfl, hq, hm⟩

theorem nestedPart?_of_opens {w : Bool} {d : Delimiter} {source body : Text}
    (h : Opens d source body) (hw : d.raw → w = false)
    (hd : d.triple = false → ¬ [d.quote, d.quote] <+: body) :
    nestedPart? w source = some (d, body) := by
  rw [nestedPart?, if_pos, openPart?_of_opens h hd]
  obtain ⟨m, q, t, rfl, hq, hm⟩ := h.head
  generalize d.raw = raw at hm hw
  cases hm with
  | none => simp [hq]
  | lower => simp [startsRaw, hq, hw rfl]
  | upper => simp [startsRaw, hq, hw rfl]

theorem nestedPart?_of_plain {w : Bool} {c : CodePoint} {source : Text}
    (h : PlainCode w c source) : nestedPart? w (c :: source) = none := by
  rw [nestedPart?, if_neg]
  have hquote := h.not_quote
  have hraw := h.not_raw
  cases source with
  | nil => simp [hquote, startsRaw]
  | cons q t =>
    simp only [List.head?_cons, Option.any_some, hquote, startsRaw, Bool.false_or,
      Bool.and_eq_true, Bool.or_eq_true, beq_iff_eq, Bool.not_eq_true', not_and]
    intro ⟨hc, hq⟩ hw
    rw [hraw hc hw q rfl] at hq
    cases hq

theorem afterComment?_of_plain {w : Bool} {c : CodePoint} {source : Text}
    (h : PlainCode w c source) : afterComment? (c :: source) = none := by
  cases source with
  | nil => rfl
  | cons x t =>
    have hx := fun hc => h.not_comment hc x rfl
    rw [afterComment?, if_neg, if_neg]
    · intro hc
      simp only [Bool.and_eq_true, beq_iff_eq] at hc
      exact (hx hc.1).2 hc.2
    · intro hc
      simp only [Bool.and_eq_true, beq_iff_eq] at hc
      exact (hx hc.1).1 hc.2

/-! Interpolations. -/

theorem interpolation?_name {c : CodePoint} {word source : Text} (hc : c.isNameStart)
    (hword : word.all CodePoint.isNameChar) (hnext : ∀ x ∈ source.head?, x.isNameChar = false) :
    interpolation? (c :: (word ++ source)) = some (.name source) := by
  have hbrace : ¬ (c == CodePoint.ofChar '{') := by
    intro hb
    rw [eq_of_beq hb] at hc
    exact absurd hc (by decide)
  have hdrop : (word ++ source).dropWhile CodePoint.isNameChar = source := by
    rw [List.dropWhile_append_of_pos (List.all_eq_true.mp hword)]
    cases source with
    | nil => rfl
    | cons x source => rw [List.dropWhile_cons_of_neg (by simp [hnext x rfl])]
  rw [interpolation?, if_neg hbrace, if_pos hc, hdrop]

theorem interpolation?_eq_none {source : Text} (h : ¬ StartsInterpolation source) :
    interpolation? source = none := by
  cases source with
  | nil => rfl
  | cons c source =>
    have hc : ¬ (c = CodePoint.ofChar '{' ∨ c.isNameStart) := fun hc => h ⟨c, rfl, hc⟩
    rw [not_or] at hc
    rw [interpolation?, if_neg (fun hb => hc.1 (eq_of_beq hb)), if_neg hc.2]

end Deadwood.Literal
