import Deadwood.Proofs.Literal.Scanning

/-!
Decoding reads every literal of the grammar as what it denotes.
-/
namespace Deadwood.Literal

/-- What a scan read and what it left, without the bound. -/
def Scan.result {n : Nat} (scan : Scan n) : StringPart × Text :=
  (⟨scan.first, scan.others⟩, scan.rest)

def prepended (t : Text) (result : StringPart × Text) : StringPart × Text :=
  (⟨t ++ result.1.first, result.1.others⟩, result.2)

def interpolated (result : StringPart × Text) : StringPart × Text :=
  (⟨[], result.1.segments⟩, result.2)

theorem result_scanBody_cons (d : Delimiter) (c : CodePoint) (rest : Text) :
    (scanBody d (c :: rest)).result =
      match d.close? (c :: rest) with
      | some r => (⟨[], []⟩, r)
      | none =>
        if d.endsBefore c then (⟨[], []⟩, c :: rest)
        else if c == '\\' && !d.raw then
          prepended (escape rest).1 (scanBody d (rest.drop (escape rest).2)).result
        else if c == '$' && !d.raw then
          match interpolation? rest with
          | some (.braced code) => interpolated (scanBody d (skipBraced false 0 code).val).result
          | some (.name after) => interpolated (scanBody d after).result
          | none => prepended [c] (scanBody d rest).result
        else prepended [c] (scanBody d rest).result := by
  rw [scanBody]
  split
  · next r hr => simp only [hr]; rfl
  · next hr =>
    simp only [hr]
    split
    · rfl
    · split
      · rfl
      · split
        · split
          · next code hi => simp only [hi]; rfl
          · next after hi => simp only [hi]; rfl
          · next hi => simp only [hi]; rfl
        · rfl

/-- Where a closing brace leads when `depth` more are open. -/
def afterBrace : Nat → Text → Text
  | 0, rest => rest
  | k + 1, rest => (skipBraced false k rest).val

theorem val_skipBraced_cons (w : Bool) (depth : Nat) (c : CodePoint) (rest : Text) :
    (skipBraced w depth (c :: rest)).val =
      match nestedPart? w (c :: rest) with
      | some (d, body) => (skipBraced false depth (scanBody d body).result.2).val
      | none =>
        match afterComment? (c :: rest) with
        | some left => (skipBraced false depth left).val
        | none =>
          if c == '}' then afterBrace depth rest
          else (skipBraced c.isWordChar (if c == '{' then depth + 1 else depth) rest).val := by
  cases depth
  all_goals
    rw [skipBraced]
    split
    · next d body hp => simp only [hp]; rfl
    · next hp =>
      simp only [hp]
      split
      · next left hq => simp only [hq]
      · next hq =>
        simp only [hq]
        split <;> rfl

/-! One lemma for each rule of the grammar. -/

theorem result_scanBody_close (d : Delimiter) (rest : Text) :
    (scanBody d (d.mark ++ rest)).result = (⟨[], []⟩, rest) := by
  have hclose : d.close? (d.mark ++ rest) = some rest :=
    List.isPrefixOf?_eq_some_iff_append_eq.mpr rfl
  obtain ⟨c, t, hmark⟩ : ∃ c t, d.mark ++ rest = c :: t := by
    unfold Delimiter.mark
    split <;> exact ⟨_, _, rfl⟩
  rw [hmark] at hclose ⊢
  rw [result_scanBody_cons, hclose]

theorem close?_eq_none {d : Delimiter} {c : CodePoint} (hd : d.quote.isQuote)
    (hc : c.isQuote = false) (source : Text) : d.close? (c :: source) = none := by
  apply isPrefixOf?_eq_none
  intro hmark
  have hquote : d.quote = c := by
    unfold Delimiter.mark at hmark
    split at hmark <;> exact (List.cons_prefix_cons.mp hmark).1
  rw [hquote, hc] at hd
  cases hd

theorem result_scanBody_verbatim {d : Delimiter} {c : CodePoint} {source : Text}
    (hc : d.Verbatim c source) :
    (scanBody d (c :: source)).result = prepended [c] (scanBody d source).result := by
  have hclose : d.close? (c :: source) = none := isPrefixOf?_eq_none hc.not_closing
  have hline : d.endsBefore c = false := by
    cases ht : d.triple <;> simp [Delimiter.endsBefore, ht, hc.same_line]
  rw [result_scanBody_cons, hclose]
  dsimp only
  rw [if_neg (by simp [hline])]
  cases hraw : d.raw with
  | true => simp
  | false =>
    rw [if_neg (by simp [hc.not_escape hraw])]
    split
    · next hd =>
      have hdollar : c = CodePoint.ofChar '$' := by simpa using hd
      rw [interpolation?_eq_none (hc.not_interpolation hraw hdollar)]
    · rfl

theorem result_scanBody_escape {d : Delimiter} {source after : Text} {c : CodePoint}
    (hd : d.quote.isQuote) (hraw : d.raw = false) (he : Escape source c after) :
    (scanBody d ('\\' :: source)).result = prepended [c] (scanBody d after).result := by
  obtain ⟨hdecoded, hafter⟩ := escape_of_escape he
  rw [result_scanBody_cons, close?_eq_none hd (by decide)]
  dsimp only
  rw [if_neg (by simp [Delimiter.endsBefore, CodePoint.isNewline]), if_pos (by simp [hraw]),
    hdecoded, hafter]

theorem result_scanBody_dollar {d : Delimiter} {source : Text} (hd : d.quote.isQuote)
    (hraw : d.raw = false) :
    (scanBody d ('$' :: source)).result =
      match interpolation? source with
      | some (.braced code) => interpolated (scanBody d (skipBraced false 0 code).val).result
      | some (.name after) => interpolated (scanBody d after).result
      | none => prepended ['$'] (scanBody d source).result := by
  rw [result_scanBody_cons, close?_eq_none hd (by decide)]
  dsimp only
  rw [if_neg (by simp [Delimiter.endsBefore, CodePoint.isNewline]), if_neg (by simp),
    if_pos (by simp [hraw])]

theorem val_skipBraced_comment {source after : Text} (w : Bool) (depth : Nat)
    (h : Comment source after) :
    (skipBraced w depth source).val = (skipBraced false depth after).val := by
  have hafter := afterComment?_of_comment h
  obtain ⟨t, rfl⟩ : ∃ t, source = CodePoint.ofChar '/' :: t := by cases h <;> exact ⟨_, rfl⟩
  have hnested : nestedPart? w (CodePoint.ofChar '/' :: t) = none := by
    cases t <;> rfl
  rw [val_skipBraced_cons, hnested, hafter]

theorem val_skipBraced_part {w : Bool} {d : Delimiter} {source body : Text} (depth : Nat)
    (h : nestedPart? w source = some (d, body)) :
    (skipBraced w depth source).val = (skipBraced false depth (scanBody d body).result.2).val := by
  cases source with
  | nil => cases h
  | cons c source => rw [val_skipBraced_cons, h]

theorem val_skipBraced_plain {w : Bool} {c : CodePoint} {source : Text} (depth : Nat)
    (h : PlainCode w c source) :
    (skipBraced w depth (c :: source)).val = (skipBraced c.isWordChar depth source).val := by
  rw [val_skipBraced_cons, nestedPart?_of_plain h, afterComment?_of_plain h]
  simp [h.not_brace]

theorem nestedPart?_brace {c : CodePoint} (w : Bool) (source : Text) (hc : c = '{' ∨ c = '}') :
    nestedPart? w (c :: source) = none := by
  rcases hc with rfl | rfl <;> cases source <;> rfl

theorem afterComment?_brace {c : CodePoint} (source : Text) (hc : c = '{' ∨ c = '}') :
    afterComment? (c :: source) = none := by
  rcases hc with rfl | rfl <;> cases source <;> rfl

theorem val_skipBraced_brace {c : CodePoint} (w : Bool) (depth : Nat) (source : Text)
    (hc : c = '{' ∨ c = '}') :
    (skipBraced w depth (c :: source)).val =
      if c == '}' then afterBrace depth source
      else (skipBraced c.isWordChar (if c == '{' then depth + 1 else depth) source).val := by
  rw [val_skipBraced_cons, nestedPart?_brace w source hc, afterComment?_brace source hc]

theorem Opens.isQuote {d : Delimiter} {source body : Text} (h : Opens d source body) :
    d.quote.isQuote := by
  cases h <;> assumption

mutual

theorem Body.result_scanBody : ∀ {d : Delimiter} {source rest : Text} {part : StringPart},
    d.quote.isQuote → Body d source part rest → (scanBody d source).result = (part, rest)
  | d, _, rest, _, _, .close => result_scanBody_close d rest
  | _, _, _, _, hd, .verbatim hc h => by
    rw [result_scanBody_verbatim hc, h.result_scanBody hd]
    rfl
  | _, _, _, _, hd, .escape hraw he h => by
    rw [result_scanBody_escape hd hraw he, h.result_scanBody hd]
    rfl
  | _, _, _, _, hd, .name hraw hc hword hnext h => by
    rw [result_scanBody_dollar hd hraw, interpolation?_name hc hword hnext]
    dsimp only
    rw [h.result_scanBody hd]
    rfl
  | _, _, _, _, hd, .code hraw hcode h => by
    -- the code of the interpolation ends at its own brace, since none is open before it
    have hskip := hcode.val_skipBraced 0
    rw [result_scanBody_dollar hd hraw]
    change interpolated (scanBody _ (skipBraced false 0 _).val).result = _
    rw [hskip, afterBrace, h.result_scanBody hd]
    rfl

theorem Code.val_skipBraced : ∀ {w : Bool} {source rest : Text}, Code w source rest →
    ∀ depth, (skipBraced w depth source).val = afterBrace depth rest
  | w, _, rest, .close, depth => by
    rw [val_skipBraced_brace w depth rest (.inr rfl)]
    rfl
  | _, _, _, .plain hc h, depth => by rw [val_skipBraced_plain depth hc, h.val_skipBraced]
  | _, _, _, @Code.braces w source _ _ hinner h, depth => by
    rw [val_skipBraced_brace w depth source (.inl rfl)]
    change (skipBraced false (depth + 1) source).val = _
    rw [hinner.val_skipBraced, afterBrace, h.val_skipBraced]
  | w, _, _, .comment hk h, depth => by rw [val_skipBraced_comment w depth hk, h.val_skipBraced]
  | _, _, _, .part hopen hw hd hbody h, depth => by
    rw [val_skipBraced_part depth (nestedPart?_of_opens hopen hw hd),
      hbody.result_scanBody hopen.isQuote, h.val_skipBraced]

end

/-- An opening quote before two more of its kind would be a triple one; a body in single quotes
starts with two only if it is empty and a quote follows the part. -/
theorem Body.head_of_two_quotes {q : CodePoint} {raw : Bool} {source rest : Text}
    {part : StringPart} (h : Body ⟨q, false, raw⟩ source part rest) (hq : q.isQuote)
    (htwo : [q, q] <+: source) : rest.head? = some q := by
  cases h with
  | close =>
    obtain ⟨t, ht⟩ := htwo
    have hrest : rest = q :: t := (List.cons.inj ht).2.symm
    rw [hrest, List.head?_cons]
  | verbatim hc _ =>
    have hhead := (List.cons_prefix_cons.mp htwo).1
    exact absurd ⟨_, by rw [hhead]; rfl⟩ hc.not_closing
  | escape | name | code =>
    rw [(List.cons_prefix_cons.mp htwo).1] at hq
    exact absurd hq (by decide)

theorem scanPart?_of_part {source rest : Text} {part : StringPart} (h : Part source part rest)
    (hrest : ∀ q ∈ rest.head?, q.isQuote = false) : scanPart? source = some (part, rest) := by
  cases h with
  | @mk d _ body _ _ hopen hbody =>
    have hsingle : d.triple = false → ¬ [d.quote, d.quote] <+: body := by
      intro htriple htwo
      obtain ⟨q, triple, raw⟩ := d
      obtain rfl : triple = false := htriple
      have hhead := hrest q (hbody.head_of_two_quotes hopen.isQuote htwo)
      rw [hopen.isQuote] at hhead
      cases hhead
    rw [scanPart?, openPart?_of_opens hopen hsingle]
    exact congrArg some (hbody.result_scanBody hopen.isQuote)

theorem isQuote_eq_false_of_isBlank {c : CodePoint} (h : c.isBlank) : c.isQuote = false := by
  cases hq : c.isQuote with
  | false => rfl
  | true =>
    simp only [CodePoint.isQuote, Bool.or_eq_true, beq_iff_eq] at hq
    rcases hq with rfl | rfl <;> exact absurd h (by decide)

theorem Trivia.head {t : Text} (h : Trivia t) : ∀ q ∈ t.head?, q.isQuote = false := by
  cases h with
  | nil => simp
  | blank hc _ => simpa using isQuote_eq_false_of_isBlank hc
  | comment hk _ => cases hk <;> simp <;> decide

theorem skipTrivia_eq_self {c : CodePoint} (t : Text) (hblank : c.isBlank = false)
    (hslash : c ≠ '/') : skipTrivia (c :: t) = c :: t := by
  have hcomment : afterComment? (c :: t) = none := by
    cases t with
    | nil => rfl
    | cons x t => simp [afterComment?, hslash]
  rw [skipTrivia, if_neg (by simp [hblank])]
  split
  · next r hr =>
    rw [hcomment] at hr
    cases hr
  · rfl

theorem skipTrivia_of_opens {d : Delimiter} {source body : Text} (h : Opens d source body) :
    skipTrivia source = source := by
  obtain ⟨m, q, t, rfl, hq, hm⟩ := h.head
  generalize Delimiter.raw _ = raw at hm
  cases hm with
  | none =>
    simp only [CodePoint.isQuote, Bool.or_eq_true, beq_iff_eq] at hq
    rcases hq with rfl | rfl <;> exact skipTrivia_eq_self t (by decide) (by decide)
  | lower => exact skipTrivia_eq_self _ (by decide) (by decide)
  | upper => exact skipTrivia_eq_self _ (by decide) (by decide)

theorem skipTrivia_of_part {source rest : Text} {part : StringPart} (h : Part source part rest) :
    skipTrivia source = source := by
  obtain ⟨hopen, _⟩ := h
  exact skipTrivia_of_opens hopen

theorem partsAfterTrivia_of_scanPart? {source rest : Text} {part : StringPart}
    (h : scanPart? source = some (part, rest)) :
    partsAfterTrivia source = part :: partsAfterTrivia (skipTrivia rest) := by
  rw [partsAfterTrivia]
  split
  · next hn =>
    rw [h] at hn
    cases hn
  · next hs =>
    rw [h] at hs
    cases hs
    rfl

theorem partsAfterTrivia_eq_nil {source : Text} (h : scanPart? source = none) :
    partsAfterTrivia source = [] := by
  rw [partsAfterTrivia]
  split
  · rfl
  · next hs =>
    rw [h] at hs
    cases hs

theorem partsAfterTrivia_nil : partsAfterTrivia [] = [] :=
  partsAfterTrivia_eq_nil rfl

theorem Adjacent.skipTrivia {parts : List StringPart} {source : Text}
    (h : Adjacent parts source) : Literal.skipTrivia source = source := by
  cases h with
  | last hpart _ => exact skipTrivia_of_part hpart
  | next hpart _ _ _ => exact skipTrivia_of_part hpart

theorem Adjacent.partsAfterTrivia {parts : List StringPart} {source : Text}
    (h : Adjacent parts source) : Literal.partsAfterTrivia source = parts := by
  induction h with
  | last hpart hrest =>
    rw [partsAfterTrivia_of_scanPart? (scanPart?_of_part hpart hrest.head),
      skipTrivia_of_trivia hrest, partsAfterTrivia_nil]
  | @next source gap more part parts hpart hgap hne hmore ih =>
    have hhead : ∀ q ∈ (gap ++ more).head?, q.isQuote = false := by
      obtain ⟨c, gap, rfl⟩ := List.exists_cons_of_ne_nil hne
      exact hgap.head
    rw [partsAfterTrivia_of_scanPart? (scanPart?_of_part hpart hhead), skipTrivia_append hgap,
      hmore.skipTrivia, ih]

theorem Written.decode {parts : List StringPart} {text : Text} (h : Written parts text) :
    Literal.decode text = parts := by
  unfold Literal.decode
  cases h with
  | none ht => rw [skipTrivia_of_trivia ht, partsAfterTrivia_nil]
  | some hlead h => rw [skipTrivia_append hlead, h.skipTrivia, h.partsAfterTrivia]

/-! Every list of parts has a written form. -/

theorem exists_hexDigit {v : Nat} (h : v < 16) : ∃ c, HexDigit c v := by
  by_cases hv : v < 10
  · exact ⟨⟨'0'.toNat + v, by have : '0'.toNat = 48 := rfl; omega⟩, .decimal hv rfl⟩
  · obtain ⟨u, rfl⟩ := Nat.exists_eq_add_of_le (Nat.le_of_not_lt hv)
    exact ⟨⟨'a'.toNat + u, by have : 'a'.toNat = 97 := rfl; omega⟩, .lower (by omega) rfl⟩

theorem exists_hexNumeral (n : Nat) : ∃ t, HexNumeral t n := by
  induction n using Nat.strongRecOn with
  | ind n ih =>
    by_cases hn : n < 16
    · obtain ⟨c, hc⟩ := exists_hexDigit hn
      exact ⟨[c], .digit hc⟩
    · obtain ⟨t, ht⟩ := ih (n / 16) (by omega)
      obtain ⟨c, hc⟩ := exists_hexDigit (Nat.mod_lt n (by decide : 0 < 16))
      have hsum := HexNumeral.snoc ht hc
      rw [Nat.div_add_mod] at hsum
      exact ⟨_, hsum⟩

theorem exists_body {d : Delimiter} (hraw : d.raw = false) (part : StringPart) (rest : Text) :
    ∃ source, Body d source part rest := by
  obtain ⟨first, others⟩ := part
  induction others generalizing first with
  | nil =>
    induction first with
    | nil => exact ⟨_, .close⟩
    | cons c first ih =>
      obtain ⟨source, h⟩ := ih
      obtain ⟨digits, hdigits⟩ := exists_hexNumeral c.val
      exact ⟨_, .escape hraw (.braced hdigits) h⟩
  | cons segment others ihOthers =>
    induction first with
    | nil =>
      obtain ⟨source, h⟩ := ihOthers segment
      exact ⟨_, .code hraw .close h⟩
    | cons c first ih =>
      obtain ⟨source, h⟩ := ih
      obtain ⟨digits, hdigits⟩ := exists_hexNumeral c.val
      exact ⟨_, .escape hraw (.braced hdigits) h⟩

theorem exists_adjacent (part : StringPart) (parts : List StringPart) :
    ∃ source, Adjacent (part :: parts) source := by
  have hpart : ∀ (part : StringPart) (rest : Text), ∃ source, Part source part rest := by
    intro part rest
    obtain ⟨body, hbody⟩ := @exists_body ⟨'"', false, false⟩ rfl part rest
    exact ⟨_, .mk (.single rfl .none) hbody⟩
  induction parts generalizing part with
  | nil =>
    obtain ⟨source, h⟩ := hpart part []
    exact ⟨source, .last h .nil⟩
  | cons next parts ih =>
    obtain ⟨more, hmore⟩ := ih next
    have hspace : Trivia [CodePoint.ofChar ' '] := .blank rfl .nil
    obtain ⟨source, h⟩ := hpart part ([CodePoint.ofChar ' '] ++ more)
    exact ⟨source, .next h hspace (by simp) hmore⟩

/-- Every list of parts can be written, and however it is written, decoding gives it back. -/
theorem decode_eq_of_written (parts : List StringPart) :
    (∃ text, Written parts text) ∧ ∀ text, Written parts text → decode text = parts := by
  refine ⟨?_, fun text h => h.decode⟩
  cases parts with
  | nil => exact ⟨[], .none .nil⟩
  | cons part parts =>
    obtain ⟨source, h⟩ := exists_adjacent part parts
    exact ⟨[] ++ source, .some .nil h⟩

theorem decode_raw_then_interpolated :
    let code : Text := ['b', '{', 'r', '\'', '}', '\'', '}', '}']
    let last : Text := ['$', 'c', '\\', 'u', '{', '4', '1', '}', '"']
    let second : Text := '"' :: 'a' :: '$' :: '{' :: (code ++ last)
    let gap : Text := [' ', '/', '*', '/', '*', '/']
    let text : Text := 'r' :: '\'' :: '\\' :: '\'' :: (gap ++ second)
    let parts : List StringPart := [⟨['\\'], []⟩, ⟨['a'], [[], ['A']]⟩]
    Written parts text ∧ decode text = parts := by
  intro code last second gap text parts
  have hraw : Part text ⟨['\\'], []⟩ (gap ++ second) :=
    .mk (.single rfl .lower)
      (.verbatim ⟨by decide, by decide, by decide, fun h => absurd h (by decide)⟩ .close)
  have hgap : Trivia gap := .blank rfl (.comment (@Comment.block ['/'] [] (by decide)) .nil)
  have hinner : Code false ('r' :: '\'' :: '}' :: '\'' :: '}' :: '}' :: last) ('}' :: last) :=
    .part (.single rfl .lower) (fun _ => rfl) (by decide)
      (.verbatim ⟨by decide, by decide, by decide, fun h => absurd h (by decide)⟩ .close) .close
  have hcode : Code false (code ++ last) last :=
    .plain ⟨by decide, by decide, by decide, by decide⟩ (.braces hinner .close)
  have hdigits : HexNumeral ['4', '1'] (CodePoint.ofChar 'A').val :=
    @HexNumeral.snoc ['4'] 4 '1' 1 (.digit (.decimal (by decide) rfl)) (.decimal (by decide) rfl)
  have hclose : Body ⟨'"', false, false⟩ ['"'] ⟨[], []⟩ [] := .close
  have hescape := Body.escape rfl (@Escape.braced ['4', '1'] ['"'] _ hdigits) hclose
  have hlast : Body ⟨'"', false, false⟩ last ⟨[], [['A']]⟩ [] :=
    @Body.name _ 'c' [] _ _ _ rfl rfl rfl (fun x hx => by cases hx; rfl) hescape
  have hsecond : Part second ⟨['a'], [[], ['A']]⟩ [] :=
    .mk (.single rfl .none)
      (.verbatim ⟨by decide, by decide, by decide, fun _ h => absurd h (by decide)⟩
        (.code rfl hcode hlast))
  have hwritten : Written parts text := .some .nil (.next hraw hgap (by decide) (.last hsecond .nil))
  exact ⟨hwritten, (decode_eq_of_written parts).2 text hwritten⟩

end Deadwood.Literal
