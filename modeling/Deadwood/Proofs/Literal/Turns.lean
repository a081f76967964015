import Deadwood.Proofs.Literal.Decoding

/-!
The two loops of the scanner, one turn at a time. A turn inside a part reads text or an
interpolation; a turn over code passes a part, a comment or one character. Whatever the text is, a
loop either takes a turn or leaves.
-/
namespace Deadwood.Literal

/-- What one turn inside a part reads. -/
inductive Read where
  | text (t : Text)
  | interpolation
  deriving DecidableEq

def Read.before : Read → StringPart × Text → StringPart × Text
  | .text t => prepended t
  | .interpolation => interpolated

namespace Delimiter

/-- Neither the closing quotes nor the end of the line stand here. -/
structure Inside (d : Delimiter) (c : CodePoint) (source : Text) : Prop where
  not_closing : d.close? (c :: source) = none
  same_line : d.endsBefore c = false

inductive Turn (d : Delimiter) : Text → Read → Text → Prop
  | escape {source : Text} : d.Inside '\\' source → d.raw = false →
      d.Turn ('\\' :: source) (.text (escape source).1) (source.drop (escape source).2)
  | code {source code : Text} : d.Inside '$' source → d.raw = false →
      interpolation? source = some (.braced code) →
      d.Turn ('$' :: source) .interpolation (skipBraced false 0 code).val
  | name {source rest : Text} : d.Inside '$' source → d.raw = false →
      interpolation? source = some (.name rest) → d.Turn ('$' :: source) .interpolation rest
  | verbatim {c : CodePoint} {source : Text} : d.Inside c source →
      (d.raw = false → c ≠ '\\' ∧ (c = '$' → interpolation? source = none)) →
      d.Turn (c :: source) (.text [c]) source

/-- Where the loop inside a part leaves, and what it leaves to be read. -/
inductive Exit (d : Delimiter) : Text → Text → Prop
  | closed {t rest : Text} : d.close? t = some rest → d.Exit t rest
  | line {c : CodePoint} {source : Text} : d.close? (c :: source) = none → d.endsBefore c →
      d.Exit (c :: source) (c :: source)
  | ended : d.Exit [] []

variable {d : Delimiter} {t rest : Text} {read : Read}

theorem exit_or_turn (d : Delimiter) (t : Text) :
    (∃ rest, d.Exit t rest) ∨ ∃ read rest, d.Turn t read rest := by
  cases t with
  | nil => exact .inl ⟨[], .ended⟩
  | cons c source =>
    cases hclose : d.close? (c :: source) with
    | some rest => exact .inl ⟨rest, .closed hclose⟩
    | none =>
      cases hline : d.endsBefore c with
      | true => exact .inl ⟨_, .line hclose hline⟩
      | false =>
        right
        have hin : d.Inside c source := ⟨hclose, hline⟩
        cases hraw : d.raw with
        | true => exact ⟨_, _, .verbatim hin (by simp [hraw])⟩
        | false =>
          by_cases hslash : c = '\\'
          · subst hslash
            exact ⟨_, _, .escape hin hraw⟩
          · by_cases hdollar : c = '$'
            · subst hdollar
              cases hi : interpolation? source with
              | none => exact ⟨_, _, .verbatim hin (by simp [hi])⟩
              | some i =>
                cases i with
                | braced code => exact ⟨_, _, .code hin hraw hi⟩
                | name rest => exact ⟨_, _, .name hin hraw hi⟩
            · exact ⟨_, _, .verbatim hin (by simp [hslash, hdollar])⟩

theorem Turn.result (h : d.Turn t read rest) :
    (scanBody d t).result = read.before (scanBody d rest).result := by
  cases h with
  | escape hin hraw =>
    rw [result_scanBody_cons, hin.not_closing]
    simp [hin.same_line, hraw, Read.before]
  | code hin hraw hi =>
    rw [result_scanBody_cons, hin.not_closing]
    simp [hin.same_line, hraw, hi, Read.before]
  | name hin hraw hi =>
    rw [result_scanBody_cons, hin.not_closing]
    simp [hin.same_line, hraw, hi, Read.before]
  | @verbatim c source hin hplain =>
    rw [result_scanBody_cons, hin.not_closing]
    cases hraw : d.raw with
    | true => simp [hin.same_line, Read.before]
    | false =>
      obtain ⟨hslash, hdollar⟩ := hplain hraw
      by_cases hc : c = '$'
      · subst hc
        simp [hin.same_line, hdollar rfl, Read.before]
      · simp [hin.same_line, hslash, hc, Read.before]

theorem mark_ne_nil (d : Delimiter) : d.mark ≠ [] := by
  unfold mark
  split <;> simp

theorem Exit.result (h : d.Exit t rest) : (scanBody d t).result = (⟨[], []⟩, rest) := by
  cases h with
  | closed hclose =>
    rw [← List.append_eq_of_isPrefixOf?_eq_some hclose]
    exact result_scanBody_close d rest
  | line hclose hline =>
    rw [result_scanBody_cons, hclose]
    simp [hline]
  | ended =>
    rw [scanBody]
    rfl

end Delimiter

/-- One turn over code. The flag says whether the character before belongs to a word, the number how
many braces are open. -/
inductive CodeTurn : Bool → Nat → Text → Bool → Nat → Text → Prop
  | part {w : Bool} {depth : Nat} {t body : Text} {d : Delimiter} :
      nestedPart? w t = some (d, body) →
      CodeTurn w depth t false depth (scanBody d body).result.2
  | comment {w : Bool} {depth : Nat} {t rest : Text} : nestedPart? w t = none →
      afterComment? t = some rest → CodeTurn w depth t false depth rest
  | brace {w : Bool} {depth : Nat} {rest : Text} :
      CodeTurn w (depth + 1) ('}' :: rest) false depth rest
  | other {w : Bool} {depth : Nat} {c : CodePoint} {rest : Text} : nestedPart? w (c :: rest) = none →
      afterComment? (c :: rest) = none → c ≠ '}' →
      CodeTurn w depth (c :: rest) c.isWordChar (if c = '{' then depth + 1 else depth) rest

inductive CodeExit : Nat → Text → Text → Prop
  | brace {rest : Text} : CodeExit 0 ('}' :: rest) rest
  | ended {depth : Nat} : CodeExit depth [] []

theorem codeExit_or_turn (w : Bool) (depth : Nat) (t : Text) :
    (∃ rest, CodeExit depth t rest) ∨ ∃ w' depth' rest, CodeTurn w depth t w' depth' rest := by
  cases t with
  | nil => exact .inl ⟨[], .ended⟩
  | cons c source =>
    cases hpart : nestedPart? w (c :: source) with
    | some opened => exact .inr ⟨_, _, _, .part hpart⟩
    | none =>
      cases hcomment : afterComment? (c :: source) with
      | some rest => exact .inr ⟨_, _, _, .comment hpart hcomment⟩
      | none =>
        by_cases hc : c = '}'
        · subst hc
          cases depth with
          | zero => exact .inl ⟨_, .brace⟩
          | succ depth => exact .inr ⟨_, _, _, .brace⟩
        · exact .inr ⟨_, _, _, .other hpart hcomment hc⟩

theorem CodeTurn.val {w w' : Bool} {depth depth' : Nat} {t rest : Text}
    (h : CodeTurn w depth t w' depth' rest) :
    (skipBraced w depth t).val = (skipBraced w' depth' rest).val := by
  cases h with
  | part hpart => exact val_skipBraced_part depth hpart
  | comment hpart hcomment =>
    cases t with
    | nil => cases hcomment
    | cons c source => rw [val_skipBraced_cons, hpart, hcomment]
  | brace =>
    rw [val_skipBraced_brace w _ rest (.inr rfl)]
    rfl
  | other hpart hcomment hc =>
    rw [val_skipBraced_cons, hpart, hcomment]
    simp [hc]

theorem CodeExit.val {depth : Nat} {t rest : Text} (h : CodeExit depth t rest) (w : Bool) :
    (skipBraced w depth t).val = rest := by
  cases h with
  | brace =>
    rw [val_skipBraced_brace w 0 rest (.inr rfl)]
    rfl
  | ended =>
    cases depth <;> rw [skipBraced]

/-! What a loop leaves is the end of what it was given. -/

theorem afterLine_cons_of_ne {c : CodePoint} (h : c ≠ '\n') (t : Text) :
    afterLine (c :: t) = afterLine t := by
  simp [afterLine, h]

theorem suffix_afterLine (t : Text) : afterLine t <:+ t :=
  (List.drop_suffix _ _).trans (List.dropWhile_suffix _)

theorem suffix_afterBlock (t : Text) : afterBlock t <:+ t := by
  fun_induction afterBlock t with
  | case1 => exact List.suffix_rfl
  | case2 c t _ => exact (List.drop_suffix 1 t).trans (List.suffix_cons c t)
  | case3 c t _ ih => exact ih.trans (List.suffix_cons c t)

theorem suffix_afterComment {t rest : Text} (h : afterComment? t = some rest) : rest <:+ t := by
  unfold afterComment? at h
  split at h
  · next c e t =>
    have hbehind : t <:+ c :: e :: t := ⟨[c, e], rfl⟩
    split at h
    · cases h
      exact (suffix_afterLine t).trans hbehind
    · split at h
      · cases h
        exact (suffix_afterBlock t).trans hbehind
      · cases h
  · cases h

theorem suffix_skipTrivia (t : Text) : skipTrivia t <:+ t := by
  fun_induction skipTrivia t with
  | case1 => exact List.suffix_rfl
  | case2 c rest _ ih => exact ih.trans (List.suffix_cons c rest)
  | case3 c rest _ r hr _ ih => exact ih.trans (suffix_afterComment hr)
  | case4 => exact List.suffix_rfl

theorem suffix_dropBlankLine (t : Text) : dropBlankLine t <:+ t := by
  unfold dropBlankLine
  split
  · next c rest heq =>
    have hrest : rest <:+ t := by
      apply List.IsSuffix.trans (List.suffix_cons c rest)
      rw [← heq]
      exact List.dropWhile_suffix _
    split
    · split
      · exact (List.drop_suffix 1 rest).trans hrest
      · exact hrest
    · split
      · exact hrest
      · exact List.suffix_rfl
  · exact List.suffix_rfl

theorem suffix_isPrefixOf? {p t rest : Text} (h : p.isPrefixOf? t = some rest) : rest <:+ t :=
  ⟨p, List.append_eq_of_isPrefixOf?_eq_some h⟩

theorem suffix_openQuotes {raw : Bool} {t body : Text} {d : Delimiter}
    (h : openQuotes? raw t = some (d, body)) : body <:+ t := by
  unfold openQuotes? at h
  split at h
  · cases h
  · next q rest =>
    split at h
    · split at h
      · next more hmore =>
        cases h
        exact ((suffix_dropBlankLine more).trans (suffix_isPrefixOf? hmore)).trans
          (List.suffix_cons q rest)
      · cases h
        exact List.suffix_cons q body
    · cases h

theorem suffix_openPart {t body : Text} {d : Delimiter} (h : openPart? t = some (d, body)) :
    body <:+ t := by
  unfold openPart? at h
  split at h
  · cases h
  · next c rest =>
    split at h
    · exact (suffix_openQuotes h).trans (List.suffix_cons c rest)
    · exact suffix_openQuotes h

theorem openPart_of_nestedPart {w : Bool} {t body : Text} {d : Delimiter}
    (h : nestedPart? w t = some (d, body)) : openPart? t = some (d, body) := by
  unfold nestedPart? at h
  split at h
  · exact h
  · cases h

theorem suffix_interpolation_braced {t code : Text} (h : interpolation? t = some (.braced code)) :
    code <:+ t := by
  unfold interpolation? at h
  split at h
  · cases h
  · next c t =>
    split at h
    · cases h
      exact List.suffix_cons c code
    · split at h <;> cases h

theorem suffix_interpolation_name {t rest : Text} (h : interpolation? t = some (.name rest)) :
    rest <:+ t := by
  unfold interpolation? at h
  split at h
  · cases h
  · next c t =>
    split at h
    · cases h
    · split at h
      · cases h
        exact (List.dropWhile_suffix _).trans (List.suffix_cons c t)
      · cases h

theorem Delimiter.Turn.length_lt {d : Delimiter} {t rest : Text} {read : Read}
    (h : d.Turn t read rest) : rest.length < t.length := by
  cases h with
  | escape => simp only [List.length_drop, List.length_cons]; omega
  | @code source code _ _ hi =>
    have := length_interpolation_braced hi
    have := (skipBraced false 0 code).property
    simp only [List.length_cons]
    omega
  | name _ _ hi =>
    have := length_interpolation_name hi
    simp only [List.length_cons]
    omega
  | verbatim => simp

theorem CodeTurn.length_lt {w w' : Bool} {depth depth' : Nat} {t rest : Text}
    (h : CodeTurn w depth t w' depth' rest) : rest.length < t.length := by
  cases h with
  | part hpart => exact Nat.lt_of_le_of_lt (scanBody _ _).bound (length_nestedPart hpart)
  | comment _ hcomment => exact length_afterComment hcomment
  | brace => simp
  | other => simp

theorem Delimiter.Turn.suffix {d : Delimiter} {t rest : Text} {read : Read}
    (h : d.Turn t read rest)
    (hcode : ∀ code : Text, code.length < t.length → (skipBraced false 0 code).val <:+ code) :
    rest <:+ t := by
  cases h with
  | escape => exact (List.drop_suffix _ _).trans (List.suffix_cons _ _)
  | @code source code _ _ hi =>
    have hlt := length_interpolation_braced hi
    have hskip := hcode code (by simp only [List.length_cons]; omega)
    exact (hskip.trans (suffix_interpolation_braced hi)).trans (List.suffix_cons _ _)
  | name _ _ hi => exact (suffix_interpolation_name hi).trans (List.suffix_cons _ _)
  | verbatim => exact List.suffix_cons _ _

theorem CodeTurn.suffix {w w' : Bool} {depth depth' : Nat} {t rest : Text}
    (h : CodeTurn w depth t w' depth' rest)
    (hbody : ∀ (d : Delimiter) (body : Text), body.length < t.length →
      (scanBody d body).result.2 <:+ body) : rest <:+ t := by
  cases h with
  | part hpart =>
    exact (hbody _ _ (length_nestedPart hpart)).trans
      (suffix_openPart (openPart_of_nestedPart hpart))
  | comment _ hcomment => exact suffix_afterComment hcomment
  | brace => exact List.suffix_cons _ _
  | other => exact List.suffix_cons _ _

@[simp] theorem Read.before_snd (read : Read) (result : StringPart × Text) :
    (read.before result).2 = result.2 := by
  cases read <;> rfl

mutual

theorem suffix_scanBody (d : Delimiter) (t : Text) : (scanBody d t).result.2 <:+ t := by
  rcases d.exit_or_turn t with ⟨rest, h⟩ | ⟨read, rest, h⟩
  · rw [h.result]
    cases h with
    | closed hclose => exact suffix_isPrefixOf? hclose
    | line => exact List.suffix_rfl
    | ended => exact List.suffix_rfl
  · have hlt := h.length_lt
    rw [h.result, Read.before_snd]
    apply (suffix_scanBody d rest).trans
    exact h.suffix fun code hcode => suffix_skipBraced false 0 code
termination_by t.length

theorem suffix_skipBraced (w : Bool) (depth : Nat) (t : Text) :
    (skipBraced w depth t).val <:+ t := by
  rcases codeExit_or_turn w depth t with ⟨rest, h⟩ | ⟨w', depth', rest, h⟩
  · rw [h.val]
    cases h with
    | brace => exact List.suffix_cons _ _
    | ended => exact List.suffix_rfl
  · have hlt := h.length_lt
    rw [h.val]
    apply (suffix_skipBraced w' depth' rest).trans
    exact h.suffix fun d body hbody => suffix_scanBody d body
termination_by t.length

end

theorem suffix_scanPart {t rest : Text} {part : StringPart} (h : scanPart? t = some (part, rest)) :
    rest <:+ t := by
  rw [scanPart?, Option.map_eq_some_iff] at h
  obtain ⟨⟨d, body⟩, hopen, hscan⟩ := h
  cases hscan
  exact (suffix_scanBody d body).trans (suffix_openPart hopen)

end Deadwood.Literal
