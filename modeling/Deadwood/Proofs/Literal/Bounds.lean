import Deadwood.Proofs.Literal.Fragments
import Deadwood.Proofs.Literal.Indexed

/-!
The scanner reads within its text and always moves on. The loops over positions take the turns that
the scanner takes, none of which meets a fault.
-/
namespace Deadwood.Literal

namespace Indexed

variable {text t rest : Text} {c : CodePoint} {w : Bool} {d : Delimiter}

/-! Whether a raw part can start depends on the character before. -/

/-- As far as raw parts go, the flag tells whether `t` stands behind a word in the text. -/
def AfterWord (text : Text) (w : Bool) (t : Text) : Prop :=
  Literal.startsRaw (afterWordAt text (posOf text t)) t = Literal.startsRaw w t

theorem afterWord_cons (h : c :: t <:+ text) : AfterWord text c.isWordChar t := by
  have hpos := posOf_cons h
  have hword : afterWordAt text (posOf text t) = c.isWordChar := by
    rw [afterWordAt, ← hpos, Nat.add_sub_cancel, getElem?_posOf h]
    simp
  rw [AfterWord, hword]

theorem afterWord_of_separator (h : rest = [] ∨ ∃ q, q :: rest <:+ text ∧ q.isWordChar = false) :
    AfterWord text false rest := by
  rcases h with rfl | ⟨q, hq, hword⟩
  · rfl
  · rw [← hword]
    exact afterWord_cons hq

theorem afterLine_separated (t : Text) :
    afterLine t = [] ∨ CodePoint.ofChar '\n' :: afterLine t <:+ t := by
  induction t with
  | nil => exact .inl rfl
  | cons c t ih =>
    by_cases hc : c = '\n'
    · subst hc
      right
      simp [afterLine]
    · rw [afterLine_cons_of_ne hc]
      exact ih.imp_right fun h => h.trans (List.suffix_cons c t)

theorem afterBlock_separated (t : Text) :
    afterBlock t = [] ∨ CodePoint.ofChar '/' :: afterBlock t <:+ t := by
  fun_induction afterBlock t with
  | case1 => exact .inl rfl
  | case2 c t hend =>
    simp only [Bool.and_eq_true, beq_iff_eq] at hend
    obtain ⟨rest, rfl⟩ := List.head?_eq_some_iff.mp hend.2
    exact .inr (List.suffix_cons _ _)
  | case3 c t _ ih => exact ih.imp_right fun h => h.trans (List.suffix_cons c t)

theorem afterWord_afterComment (h : t <:+ text) (hcomment : afterComment? t = some rest) :
    AfterWord text false rest := by
  apply afterWord_of_separator
  unfold afterComment? at hcomment
  split at hcomment
  · next c e t =>
    have ht : t <:+ text := List.IsSuffix.trans ⟨[c, e], rfl⟩ h
    split at hcomment
    · cases hcomment
      exact (afterLine_separated t).imp_right fun h => ⟨_, h.trans ht, by decide⟩
    · split at hcomment
      · cases hcomment
        exact (afterBlock_separated t).imp_right fun h => ⟨_, h.trans ht, by decide⟩
      · cases hcomment
  · cases hcomment

theorem isWordChar_of_isQuote (h : c.isQuote) : c.isWordChar = false := by
  simp only [CodePoint.isQuote, Bool.or_eq_true, beq_iff_eq] at h
  rcases h with rfl | rfl <;> decide

theorem afterWord_of_exit (hd : d.quote.isQuote) (h : d.Exit t rest) (ht : t <:+ text) :
    AfterWord text false rest := by
  cases h with
  | closed hclose =>
    have hmark : d.mark ++ rest = t := List.append_eq_of_isPrefixOf?_eq_some hclose
    apply afterWord_of_separator
    refine .inr ⟨d.quote, List.IsSuffix.trans ?_ ht, isWordChar_of_isQuote hd⟩
    rw [← hmark, Delimiter.mark]
    split
    · exact ⟨[d.quote, d.quote], rfl⟩
    · exact List.suffix_rfl
  | @line c source hclose hline =>
    have hnewline : c.isNewline := by
      simp only [Delimiter.endsBefore, Bool.and_eq_true] at hline
      exact hline.2
    have hraw : ∀ w, Literal.startsRaw w (c :: source) = false := by
      simp only [CodePoint.isNewline, Bool.or_eq_true, beq_iff_eq] at hnewline
      intro w
      rcases hnewline with rfl | rfl <;> cases source <;> simp [Literal.startsRaw]
    rw [AfterWord, hraw, hraw]
  | ended => exact afterWord_of_separator (.inl rfl)

/-- What a part leaves does not stand behind a word: it ends with a quote, before a line break or
with the text. -/
theorem afterWord_scanBody (hd : d.quote.isQuote) (t : Text) (ht : t <:+ text) :
    AfterWord text false (Literal.scanBody d t).result.2 := by
  rcases d.exit_or_turn t with ⟨rest, h⟩ | ⟨read, rest, h⟩
  · rw [h.result]
    exact afterWord_of_exit hd h ht
  · have hlt := h.length_lt
    rw [h.result, Read.before_snd]
    exact afterWord_scanBody hd rest ((h.suffix fun code _ => suffix_skipBraced false 0 code).trans ht)
termination_by t.length

theorem afterWord_of_turn {w' : Bool} {depth depth' : Nat}
    (h : CodeTurn w depth t w' depth' rest) (ht : t <:+ text) : AfterWord text w' rest := by
  cases h with
  | part hpart =>
    have hopen := openPart_of_nestedPart hpart
    exact afterWord_scanBody (opens_of_openPart hopen).1.isQuote _ ((suffix_openPart hopen).trans ht)
  | comment _ hcomment => exact afterWord_afterComment ht hcomment
  | brace => exact afterWord_of_separator (.inr ⟨_, ht, by decide⟩)
  | other => exact afterWord_cons ht

/-! One turn of each loop. -/

theorem startsAt_mark (h : t <:+ text) :
    startsAt text d.mark (posOf text t) = (d.close? t).isSome :=
  startsAt_posOf h

theorem scanBody_of_exit (h : d.Exit t rest) (ht : t <:+ text) (segments : List Text)
    (buffer : Text) :
    scanBody text d segments buffer (posOf text t) = .ok (segments ++ [buffer], posOf text rest) := by
  cases h with
  | closed hclose =>
    have hstart := startsAt_mark (d := d) ht
    rw [hclose, Option.isSome_some] at hstart
    obtain rfl := List.append_eq_of_isPrefixOf?_eq_some hclose
    have hinside : posOf text (d.mark ++ rest) < text.length := by
      have hmark := List.length_pos_iff.mpr d.mark_ne_nil
      have hlength := ht.length_le
      simp only [posOf, List.length_append] at hlength ⊢
      omega
    rw [scanBody, dif_pos hinside, if_pos hstart, posOf_append ht]
  | line hclose hline =>
    rw [scanBody, dif_pos (posOf_cons_lt ht), startsAt_mark ht, hclose, if_neg (by simp),
      charAt_posOf ht, ok_bind, if_pos hline]
  | ended =>
    rw [scanBody]
    simp

def advance (segments : List Text) (buffer : Text) : Read → List Text × Text
  | .text t => (segments, buffer ++ t)
  | .interpolation => (segments ++ [buffer], [])

theorem scanBody_inside (hin : d.Inside c t) (h : c :: t <:+ text) (segments : List Text)
    (buffer : Text) :
    scanBody text d segments buffer (posOf text (c :: t)) =
      if c == '\\' && !d.raw then do
        let (decoded, next) ← escape text (posOf text (c :: t))
        if _ : posOf text (c :: t) < next then scanBody text d segments (buffer ++ decoded) next
        else .error .stalled
      else if c == '$' && !d.raw && startsAt text "\x7b" (posOf text t) then do
        let next ← skipBraced text 1 (posOf text (c :: t) + 2)
        if _ : posOf text (c :: t) < next then scanBody text d (segments ++ [buffer]) [] next
        else .error .stalled
      else
        match if c == '$' && !d.raw then nameEnd? text (posOf text t) else none with
        | some next =>
          if _ : posOf text (c :: t) < next then scanBody text d (segments ++ [buffer]) [] next
          else .error .stalled
        | none => scanBody text d segments (buffer ++ [c]) (posOf text t) := by
  rewrite [scanBody, dif_pos (posOf_cons_lt h), startsAt_mark h, hin.not_closing, if_neg (by simp),
    charAt_posOf h, ok_bind, if_neg (by simp [hin.same_line]), posOf_cons h]
  rfl

theorem scanBody_of_turn {read : Read} (h : d.Turn t read rest) (ht : t <:+ text)
    (hcode : ∀ code : Text, code.length < t.length → code <:+ text → AfterWord text false code →
      skipBraced text 1 (posOf text code) = .ok (posOf text (Literal.skipBraced false 0 code).val))
    (segments : List Text) (buffer : Text) :
    scanBody text d segments buffer (posOf text t) =
      scanBody text d (advance segments buffer read).1 (advance segments buffer read).2
        (posOf text rest) := by
  have hnext := posOf_lt ht h.length_lt
  cases h with
  | escape hin hraw =>
    rw [scanBody_inside hin ht, if_pos (by simp [hraw]), escape_posOf ht, ok_bind]
    exact dif_pos hnext
  | @code source code hin hraw hi =>
    have hsource : source <:+ text := (List.suffix_cons _ _).trans ht
    have hstart := startsAt_brace hsource
    rw [hi] at hstart
    obtain rfl := interpolation?_braced hi
    have hskip := hcode code (by simp only [List.length_cons]; omega)
      ((List.suffix_cons _ _).trans hsource) (afterWord_of_separator (.inr ⟨_, hsource, by decide⟩))
    rw [scanBody_inside hin ht, if_neg (by simp), if_pos (by simp [hraw, hstart]),
      posOf_add (n := 2) ht (by simp)]
    change (skipBraced text 1 (posOf text code) >>= _) = _
    rw [hskip, ok_bind]
    exact dif_pos hnext
  | name hin hraw hi =>
    have hsource := (List.suffix_cons _ _).trans ht
    rw [scanBody_inside hin ht, if_neg (by simp), startsAt_brace hsource, nameEnd?_posOf hsource, hi,
      if_neg (by simp), if_pos (by simp [hraw])]
    exact dif_pos hnext
  | @verbatim c _ hin hplain =>
    have hsource := (List.suffix_cons _ _).trans ht
    rw [scanBody_inside hin ht, startsAt_brace hsource, nameEnd?_posOf hsource]
    cases hraw : d.raw with
    | true => simp [advance]
    | false =>
      obtain ⟨hslash, hdollar⟩ := hplain hraw
      by_cases hc : c = '$'
      · rw [hdollar hc]
        simp [hslash, advance]
      · simp [hslash, hc, advance]

theorem startsPart_posOf (h : c :: t <:+ text) (hw : AfterWord text w (c :: t)) :
    startsPart text (posOf text (c :: t)) = .ok (nestedPart? w (c :: t)).isSome := by
  have hnested : (nestedPart? w (c :: t)).isSome = (c.isQuote || Literal.startsRaw w (c :: t)) := by
    cases hstarts : c.isQuote || Literal.startsRaw w (c :: t) with
    | false => rw [nestedPart?_eq_none_iff.mpr (by simpa using hstarts), Option.isSome_none]
    | true =>
      rw [nestedPart?, if_pos (by simpa using hstarts)]
      exact isSome_openPart (w := w) (by simpa using hstarts)
  rw [startsPart, charAt_posOf h, ok_bind, hnested, startsRaw_posOf h, hw]
  cases c.isQuote <;> rfl

theorem scanPart_of_open {body : Text} (h : c :: t <:+ text)
    (hopen : openPart? (c :: t) = some (d, body)) :
    scanPart text (posOf text (c :: t)) =
      scanBody text d [] [] (posOf text body) >>= fun found => .ok (some found.1, found.2) := by
  rw [scanPart, openPart_posOf h, hopen, ok_bind]
  exact dif_pos (posOf_lt h (length_openPart hopen))

theorem skipBraced_code (h : c :: t <:+ text) (hw : AfterWord text w (c :: t))
    (hpart : nestedPart? w (c :: t) = none) (depth : Nat) :
    skipBraced text depth (posOf text (c :: t)) =
      match (afterComment? (c :: t)).map (posOf text) with
      | some next =>
        if _ : posOf text (c :: t) < next then skipBraced text depth next else .error .stalled
      | none =>
        if c == '{' then skipBraced text (depth + 1) (posOf text t)
        else if c == '}' then
          if depth = 1 then .ok (posOf text t) else skipBraced text (depth - 1) (posOf text t)
        else skipBraced text depth (posOf text t) := by
  rewrite [skipBraced, dif_pos (posOf_cons_lt h), charAt_posOf h, ok_bind, startsPart_posOf h hw,
    ok_bind, hpart, if_neg (by simp), commentEnd?_posOf h, posOf_cons h]
  rfl

theorem skipBraced_of_exit {depth : Nat} (h : CodeExit depth t rest) (ht : t <:+ text) :
    skipBraced text (depth + 1) (posOf text t) = .ok (posOf text rest) := by
  cases h with
  | brace =>
    rw [skipBraced_code ht rfl (nestedPart?_brace _ rest (.inr rfl)),
      afterComment?_brace rest (.inr rfl)]
    rfl
  | ended =>
    rw [skipBraced]
    simp

theorem skipBraced_of_turn {w' : Bool} {depth depth' : Nat} (h : CodeTurn w depth t w' depth' rest)
    (ht : t <:+ text) (hw : AfterWord text w t)
    (hbody : ∀ (d : Delimiter) (body : Text), body.length < t.length → body <:+ text →
      ∃ segments, scanBody text d [] [] (posOf text body) =
        .ok (segments, posOf text (Literal.scanBody d body).result.2)) :
    skipBraced text (depth + 1) (posOf text t) = skipBraced text (depth' + 1) (posOf text rest) := by
  have hlt := h.length_lt
  have hnext := posOf_lt ht hlt
  obtain ⟨c, source, rfl⟩ := List.exists_cons_of_length_pos (Nat.zero_lt_of_lt hlt)
  cases h with
  | @part _ _ body d hpart =>
    have hopen := openPart_of_nestedPart hpart
    obtain ⟨segments, hscan⟩ := hbody d body (length_openPart hopen)
      ((suffix_openPart hopen).trans ht)
    rw [skipBraced, dif_pos (posOf_cons_lt ht), charAt_posOf ht, ok_bind, startsPart_posOf ht hw,
      ok_bind, hpart, if_pos (by simp), scanPart_of_open ht hopen, hscan, ok_bind, ok_bind]
    exact dif_pos hnext
  | comment hpart hcomment =>
    rw [skipBraced_code ht hw hpart, hcomment]
    exact dif_pos hnext
  | brace =>
    rw [skipBraced_code ht hw (nestedPart?_brace w rest (.inr rfl)),
      afterComment?_brace rest (.inr rfl)]
    rfl
  | other hpart hcomment hc =>
    rw [skipBraced_code ht hw hpart, hcomment]
    by_cases hopen : c = '{'
    · simp [hopen]
    · simp [hopen, hc]

/-! Whole runs. -/

/-- The segments of a part of which `segments` and `buffer` were read before. -/
def completed (segments : List Text) (buffer : Text) (part : StringPart) : List Text :=
  segments ++ (buffer ++ part.first) :: part.others

theorem completed_advance (segments : List Text) (buffer : Text) (read : Read)
    (result : StringPart × Text) :
    completed (advance segments buffer read).1 (advance segments buffer read).2 result.1 =
      completed segments buffer (read.before result).1 := by
  cases read <;> simp [completed, advance, Read.before, prepended, interpolated, StringPart.segments]

-- Both loops at once, by the length of what is left: the code in a part is shorter than the part, and
-- a part in code is shorter than the code.
mutual

theorem scanBody_posOf (d : Delimiter) (t : Text) (ht : t <:+ text) (segments : List Text)
    (buffer : Text) :
    scanBody text d segments buffer (posOf text t) =
      .ok (completed segments buffer (Literal.scanBody d t).result.1,
        posOf text (Literal.scanBody d t).result.2) := by
  rcases d.exit_or_turn t with ⟨rest, h⟩ | ⟨read, rest, h⟩
  · rw [scanBody_of_exit h ht, h.result]
    simp [completed]
  · have hlt := h.length_lt
    have hrest := (h.suffix fun code _ => suffix_skipBraced false 0 code).trans ht
    rw [scanBody_of_turn h ht fun code hcode hsuffix hw => skipBraced_posOf false 0 code hsuffix hw,
      scanBody_posOf d rest hrest, completed_advance, h.result, Read.before_snd]
termination_by t.length

theorem skipBraced_posOf (w : Bool) (depth : Nat) (t : Text) (ht : t <:+ text)
    (hw : AfterWord text w t) :
    skipBraced text (depth + 1) (posOf text t) =
      .ok (posOf text (Literal.skipBraced w depth t).val) := by
  rcases codeExit_or_turn w depth t with ⟨rest, h⟩ | ⟨w', depth', rest, h⟩
  · rw [skipBraced_of_exit h ht, h.val]
  · have hlt := h.length_lt
    have hrest := (h.suffix fun d body _ => suffix_scanBody d body).trans ht
    rw [skipBraced_of_turn h ht hw fun d body hbody hsuffix => ⟨_, scanBody_posOf d body hsuffix [] []⟩,
      skipBraced_posOf w' depth' rest hrest (afterWord_of_turn h ht), h.val]
termination_by t.length

end

theorem scanPart_posOf (h : c :: t <:+ text) :
    scanPart text (posOf text (c :: t)) =
      .ok (match scanPart? (c :: t) with
        | some (part, rest) => (some part.segments, posOf text rest)
        | none => (none, text.length)) := by
  cases hopen : openPart? (c :: t) with
  | none =>
    rw [scanPart, openPart_posOf h, scanPart?, hopen]
    rfl
  | some opened =>
    obtain ⟨d, body⟩ := opened
    rw [scanPart_of_open h hopen, scanBody_posOf d body ((suffix_openPart hopen).trans h), scanPart?,
      hopen]
    rfl

theorem partsFrom_posOf (t : Text) (ht : t <:+ text) :
    partsFrom text (posOf text t) = .ok ((partsAfterTrivia t).map StringPart.segments) := by
  rw [partsFrom]
  cases t with
  | nil => simp [partsAfterTrivia_nil]
  | cons c t =>
    rw [dif_pos (posOf_cons_lt ht), scanPart_posOf ht, ok_bind]
    cases hscan : scanPart? (c :: t) with
    | none =>
      rw [partsAfterTrivia_eq_nil hscan]
      rfl
    | some found =>
      obtain ⟨part, rest⟩ := found
      have hrest := suffix_scanPart hscan
      have hmore := suffix_skipTrivia rest
      have hlt := Nat.lt_of_le_of_lt hmore.length_le (length_scanPart hscan)
      simp only
      rw [skipTrivia_posOf (hrest.trans ht), ok_bind, dif_pos (posOf_lt ht hlt),
        partsFrom_posOf _ ((hmore.trans hrest).trans ht), ok_bind, partsAfterTrivia_of_scanPart? hscan]
      rfl
termination_by t.length

theorem decode_eq (text : Text) :
    decode text = .ok ((Literal.decode text).map StringPart.segments) := by
  have hzero : posOf text text = 0 := Nat.sub_self _
  rw [decode, ← hzero, skipTrivia_posOf List.suffix_rfl, ok_bind,
    partsFrom_posOf _ (suffix_skipTrivia text), Literal.decode]

/-! The segments of a decoded part are never empty, so that their first can be taken. -/

theorem isInterpolated_segments (part : StringPart) :
    isInterpolated part.segments = part.isInterpolated := by
  obtain ⟨first, others⟩ := part
  cases others <;> simp [isInterpolated, StringPart.isInterpolated, StringPart.segments]

theorem isInterpolated_comp_segments :
    isInterpolated ∘ StringPart.segments = StringPart.isInterpolated :=
  funext isInterpolated_segments

theorem mapM_firstSegment (parts : List StringPart) :
    (parts.map StringPart.segments).mapM firstSegment = .ok (parts.map StringPart.first) := by
  rw [List.mapM_map]
  exact List.mapM_pure

theorem value_segments (parts : List StringPart) :
    value (parts.map StringPart.segments) = .ok (Literal.value? parts) := by
  rw [value, value?_eq, List.any_map, isInterpolated_comp_segments, List.isEmpty_map,
    mapM_firstSegment, ok_bind, List.flatMap]
  split <;> rfl

theorem jointFragments_segments (parts : List StringPart) :
    jointFragments (parts.map StringPart.segments) = .ok (Literal.jointFragments parts) := by
  have hsimple : (parts.map StringPart.segments).filter (!isInterpolated ·) =
      (parts.filter fun part => !part.isInterpolated).map StringPart.segments := by
    rw [List.filter_map]
    congr 2
    funext part
    exact congrArg _ (isInterpolated_segments part)
  rw [jointFragments, hsimple, mapM_firstSegment, ok_bind, List.length_map, Literal.jointFragments,
    filterMap_value?]
  split <;> rfl

theorem partFragments_segments (part : StringPart) :
    partFragments part.segments = .ok part.fragments := by
  rw [partFragments, isInterpolated_segments, StringPart.fragments]
  split <;> rfl

theorem fragments_segments (parts : List StringPart) :
    fragments (parts.map StringPart.segments) = .ok (Literal.fragments parts) := by
  have hown : (parts.map StringPart.segments).mapM partFragments =
      .ok (parts.map StringPart.fragments) := by
    rw [List.mapM_map, show partFragments ∘ StringPart.segments = fun part => .ok part.fragments from
      funext partFragments_segments]
    exact List.mapM_pure
  rw [fragments, jointFragments_segments, ok_bind, hown, ok_bind, Literal.fragments, List.flatMap]

end Indexed

/-! The scanner at a position of the text. -/

open Indexed

theorem fixedHex?_width {width : Nat} {t : Text} {e : CodePoint} (h : fixedHex? width t = some e) :
    width ≤ t.length := by
  rw [fixedHex?] at h
  split at h
  · next hlength =>
    simp only [List.length_take, beq_iff_eq] at hlength
    omega
  · cases h

theorem bracedHex?_length {t : Text} {e : CodePoint} {n : Nat} (h : bracedHex? t = some (e, n)) :
    n < t.length := by
  rw [bracedHex?] at h
  split at h
  · next hlength =>
    rw [Option.bind_eq_some_iff] at h
    obtain ⟨value, _, h⟩ := h
    split at h
    · cases h
      exact hlength
    · cases h
  · cases h

theorem length_escape (t : Text) : (Literal.escape t).2 ≤ t.length := by
  cases t with
  | nil => simp [Literal.escape]
  | cons c t =>
    rw [Literal.escape, List.length_cons]
    split
    · simp
    · split
      · split
        · next hhex => simpa using fixedHex?_width hhex
        · simp
      · split
        · split
          · split
            · next hhex =>
              have := bracedHex?_length hhex
              simp only [List.length_drop] at this
              simp only
              omega
            · simp
          · split
            · next hhex => simpa using fixedHex?_width hhex
            · simp
        · split
          · next hline =>
            simp only [Bool.and_eq_true, beq_iff_eq] at hline
            obtain ⟨t, rfl⟩ := List.head?_eq_some_iff.mp hline.2
            simp
          · simp

variable {text : Text} {pos : Nat}

theorem exists_drop_cons (h : pos < text.length) :
    ∃ c t, text.drop pos = c :: t ∧ c :: t <:+ text ∧ posOf text (c :: t) = pos := by
  have hdrop := List.drop_eq_getElem_cons h
  have hsuffix := List.drop_suffix pos text
  have hpos := posOf_drop (Nat.le_of_lt h)
  rw [hdrop] at hsuffix hpos
  exact ⟨_, _, hdrop, hsuffix, hpos⟩

theorem scanPart_in_bounds (h : pos < text.length) :
    Indexed.scanPart text pos = .ok (none, text.length) ∧
        scanPartAt text pos = .ok (none, text.length) ∨
      ∃ part p, Indexed.scanPart text pos = .ok (some part.segments, p) ∧
        scanPartAt text pos = .ok (some part, p) ∧ part.segments ≠ [] ∧ pos < p ∧
        p ≤ text.length := by
  obtain ⟨c, t, hdrop, ht, rfl⟩ := exists_drop_cons h
  rw [scanPart_posOf ht, scanPartAt, if_neg (by omega), hdrop]
  cases hscan : scanPart? (c :: t) with
  | none => exact .inl ⟨rfl, rfl⟩
  | some found =>
    exact .inr ⟨found.1, _, rfl, rfl, List.cons_ne_nil _ _, posOf_lt ht (length_scanPart hscan),
      Nat.sub_le _ _⟩

theorem escape_in_bounds (h : pos < text.length) :
    ∃ decoded p, Indexed.escape text pos = .ok (decoded, p) ∧ escapeAt text pos = (decoded, p) ∧
      pos < p ∧ p ≤ text.length := by
  obtain ⟨c, t, hdrop, ht, rfl⟩ := exists_drop_cons h
  have hsource : t <:+ text := (List.suffix_cons c t).trans ht
  refine ⟨_, _, escape_posOf ht, ?_, posOf_lt ht ?_, Nat.sub_le _ _⟩
  · rw [escapeAt, posOf_cons ht, drop_posOf hsource]
    change (if text.length ≤ posOf text t then ((Literal.escape t).1, text.length)
      else ((Literal.escape t).1, posOf text t + (Literal.escape t).2)) = _
    rw [posOf_add hsource (length_escape t)]
    split
    · next hend =>
      have hnil : t.length = 0 := by
        have := hsource.length_le
        unfold posOf at hend
        omega
      rw [List.eq_nil_of_length_eq_zero hnil]
      rfl
    · rfl
  · simp only [List.length_drop, List.length_cons]
    omega

theorem startsPart_leads_to_part (h : pos < text.length) :
    ∃ starts, Indexed.startsPart text pos = .ok starts ∧
      (starts → ∃ part p, scanPartAt text pos = .ok (some part, p)) := by
  obtain ⟨c, t, hdrop, ht, rfl⟩ := exists_drop_cons h
  refine ⟨_, startsPart_posOf ht rfl, fun hstarts => ?_⟩
  obtain ⟨opened, hopened⟩ := Option.isSome_iff_exists.mp hstarts
  rw [scanPartAt, if_neg (by omega), hdrop, scanPart?, openPart_of_nestedPart hopened]
  exact ⟨_, _, rfl⟩

variable {rest : Text}

theorem stopAt_eq (h : pos ≤ text.length) (hrest : rest <:+ text.drop pos) :
    stopAt text pos rest = posOf text rest := by
  have hlength := hrest.length_le
  simp only [List.length_drop] at hlength
  unfold stopAt posOf
  split <;> omega

theorem le_posOf (h : pos ≤ text.length) (hrest : rest <:+ text.drop pos) : pos ≤ posOf text rest := by
  have hlength := hrest.length_le
  simp only [List.length_drop] at hlength
  unfold posOf
  omega

theorem skipTrivia_in_bounds (h : pos ≤ text.length) :
    Indexed.skipTrivia text pos = .ok (skipTriviaAt text pos) ∧ pos ≤ skipTriviaAt text pos ∧
      skipTriviaAt text pos ≤ text.length := by
  have hrest := suffix_skipTrivia (text.drop pos)
  have hread := skipTrivia_posOf (List.drop_suffix pos text)
  rw [posOf_drop h] at hread
  rw [skipTriviaAt, stopAt_eq h hrest]
  exact ⟨hread, le_posOf h hrest, Nat.sub_le _ _⟩

theorem length_skipBraced_cons (w : Bool) (depth : Nat) (c : CodePoint) (t : Text) :
    (Literal.skipBraced w depth (c :: t)).val.length < (c :: t).length := by
  rcases codeExit_or_turn w depth (c :: t) with ⟨rest, h⟩ | ⟨w', depth', rest, h⟩
  · rw [h.val]
    cases h
    simp
  · rw [h.val]
    exact Nat.lt_of_le_of_lt (Literal.skipBraced w' depth' rest).property h.length_lt

theorem skipBraced_in_bounds (h : pos ≤ text.length) :
    Indexed.skipBraced text 1 pos = .ok (skipBracedAt text pos) ∧ pos ≤ skipBracedAt text pos ∧
      skipBracedAt text pos ≤ text.length ∧ (pos < text.length → pos < skipBracedAt text pos) := by
  have hrest := suffix_skipBraced (afterWordAt text pos) 0 (text.drop pos)
  have hread := skipBraced_posOf (afterWordAt text pos) 0 _ (List.drop_suffix pos text)
    (by rw [AfterWord, posOf_drop h])
  rw [posOf_drop h] at hread
  rw [skipBracedAt, stopAt_eq h hrest]
  refine ⟨hread, le_posOf h hrest, Nat.sub_le _ _, fun hlt => ?_⟩
  obtain ⟨c, t, hdrop, ht, hpos⟩ := exists_drop_cons hlt
  have hshort := posOf_lt ht (length_skipBraced_cons (afterWordAt text pos) 0 c t)
  rwa [hpos, ← hdrop] at hshort

/-- The scanner reads within the text and moves on, whatever the text is. -/
theorem scanner_in_bounds (text : Text) :
    (∀ pos, pos < text.length →
      (Indexed.scanPart text pos = .ok (none, text.length) ∧
          scanPartAt text pos = .ok (none, text.length) ∨
        ∃ part p, Indexed.scanPart text pos = .ok (some part.segments, p) ∧
          scanPartAt text pos = .ok (some part, p) ∧ part.segments ≠ [] ∧ pos < p ∧
          p ≤ text.length) ∧
      (∃ decoded p, Indexed.escape text pos = .ok (decoded, p) ∧
        escapeAt text pos = (decoded, p) ∧ pos < p ∧ p ≤ text.length) ∧
      ∃ starts, Indexed.startsPart text pos = .ok starts ∧
        (starts → ∃ part p, scanPartAt text pos = .ok (some part, p))) ∧
    (∀ pos, pos ≤ text.length →
      (Indexed.skipTrivia text pos = .ok (skipTriviaAt text pos) ∧ pos ≤ skipTriviaAt text pos ∧
        skipTriviaAt text pos ≤ text.length) ∧
      Indexed.skipBraced text 1 pos = .ok (skipBracedAt text pos) ∧ pos ≤ skipBracedAt text pos ∧
      skipBracedAt text pos ≤ text.length ∧ (pos < text.length → pos < skipBracedAt text pos)) ∧
    Indexed.decode text = .ok ((Literal.decode text).map StringPart.segments) ∧
    (Indexed.decode text >>= Indexed.value) = .ok (value? (Literal.decode text)) ∧
    (Indexed.decode text >>= Indexed.fragments) = .ok (fragments (Literal.decode text)) := by
  refine ⟨fun pos h => ⟨scanPart_in_bounds h, escape_in_bounds h, startsPart_leads_to_part h⟩,
    fun pos h => ⟨skipTrivia_in_bounds h, skipBraced_in_bounds h⟩, decode_eq text, ?_, ?_⟩
  · rw [decode_eq, ok_bind, value_segments]
  · rw [decode_eq, ok_bind, fragments_segments]

/-- A malformed escape, then an interpolation in which a comment hides the rest of the text. -/
def brokenOff : Text := "'\\u\x7b$\x7b/*'"

theorem scanner_in_bounds_brokenOff :
    0 < brokenOff.length ∧
    (∃ (part : StringPart) (p : Nat), Indexed.scanPart brokenOff 0 = .ok (some part.segments, p) ∧
      0 < p ∧ p ≤ brokenOff.length) ∧
    (∃ decoded p, Indexed.escape brokenOff 1 = .ok (decoded, p) ∧ 1 < p ∧ p ≤ brokenOff.length) ∧
    Indexed.skipBraced brokenOff 1 6 = .ok (skipBracedAt brokenOff 6) ∧
    6 < skipBracedAt brokenOff 6 := by
  obtain ⟨hread, hskip, _⟩ := scanner_in_bounds brokenOff
  obtain ⟨_, hbraced, _, _, hfurther⟩ := hskip 6 (by decide)
  obtain ⟨_, ⟨decoded, p, hescape, _, hlt, hle⟩, _⟩ := hread 1 (by decide)
  refine ⟨by decide, ?_, ⟨decoded, p, hescape, hlt, hle⟩, hbraced, hfurther (by decide)⟩
  rcases (hread 0 (by decide)).1 with hnone | ⟨part, p, hpart, _, _, hlt, hle⟩
  · have habsent := congrArg Except.toOption hnone.2
    exact absurd habsent (by decide +kernel)
  · exact ⟨part, p, hpart, hlt, hle⟩

end Deadwood.Literal
