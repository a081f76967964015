import Deadwood.Literal.Position
import Deadwood.Proofs.Literal.Lookahead

/-!
A part that its own quotes close is read the same wherever it stands. Nothing before it counts, and
of what follows only a quote that would make its opening quotes triple ones.
-/
namespace Deadwood.Literal

namespace Delimiter

/-- The loop inside a part leaves at the closing quotes, and neither before a line break nor at the
end of the text. -/
inductive Closes (d : Delimiter) : Text → Prop
  | here {rest : Text} : d.Closes (d.mark ++ rest)
  | turn {t rest : Text} {read : Read} : d.Turn t read rest → d.Closes rest → d.Closes t

/-- Enough text to tell whether the part ends here, to end the digits of an escape and, after triple
quotes, to end a blank line. -/
structure Covers (d : Delimiter) (z : Text) : Prop where
  length_le : d.mark.length ≤ z.length
  stop : ∃ c ∈ z, c.stopsDigits
  solid : d.triple → ∃ c ∈ z, c.isSolid

variable {d : Delimiter} {t rest z y : Text} {read : Read}

theorem Covers.ne_nil (h : d.Covers z) : z ≠ [] := by
  obtain ⟨c, hc, _⟩ := h.stop
  exact List.ne_nil_of_mem hc

theorem Covers.append_left (h : d.Covers z) (e : Text) : d.Covers (e ++ z) := by
  refine ⟨?_, ?_, fun htriple => ?_⟩
  · have := h.length_le
    simp only [List.length_append]
    omega
  · obtain ⟨c, hc, hstop⟩ := h.stop
    exact ⟨c, List.mem_append_right e hc, hstop⟩
  · obtain ⟨c, hc, hsolid⟩ := h.solid htriple
    exact ⟨c, List.mem_append_right e hc, hsolid⟩

theorem isSolid_of_isQuote {c : CodePoint} (h : c.isQuote) : c.isSolid := by
  simp only [CodePoint.isQuote, Bool.or_eq_true, beq_iff_eq] at h
  rcases h with rfl | rfl <;> decide

theorem covers_mark (hd : d.quote.isQuote) (rest : Text) : d.Covers (d.mark ++ rest) := by
  have hquote : d.quote ∈ d.mark ++ rest := by
    apply List.mem_append_left
    unfold mark
    split <;> simp
  exact ⟨by simp, ⟨_, hquote, by simp [CodePoint.stopsDigits, hd]⟩,
    fun _ => ⟨_, hquote, isSolid_of_isQuote hd⟩⟩

theorem close?_mark_append (d : Delimiter) (rest : Text) : d.close? (d.mark ++ rest) = some rest :=
  List.isPrefixOf?_eq_some_iff_append_eq.mpr rfl

theorem Turn.inside (h : d.Turn t read rest) : ∃ c source, t = c :: source ∧ d.Inside c source := by
  cases h with
  | escape hin => exact ⟨_, _, rfl, hin⟩
  | code hin => exact ⟨_, _, rfl, hin⟩
  | name hin => exact ⟨_, _, rfl, hin⟩
  | verbatim hin => exact ⟨_, _, rfl, hin⟩

theorem Turn.unique {read' : Read} {rest' : Text} (h : d.Turn t read rest)
    (h' : d.Turn t read' rest') : rest = rest' := by
  cases h with
  | escape _ hraw =>
    cases h' with
    | escape => rfl
    | verbatim _ hplain => exact absurd rfl (hplain hraw).1
  | code _ hraw hi =>
    cases h' with
    | code _ _ hi' =>
      rw [hi] at hi'
      cases hi'
      rfl
    | name _ _ hi' =>
      rw [hi] at hi'
      cases hi'
    | verbatim _ hplain =>
      rw [(hplain hraw).2 rfl] at hi
      cases hi
  | name _ hraw hi =>
    cases h' with
    | code _ _ hi' =>
      rw [hi] at hi'
      cases hi'
    | name _ _ hi' =>
      rw [hi] at hi'
      cases hi'
      rfl
    | verbatim _ hplain =>
      rw [(hplain hraw).2 rfl] at hi
      cases hi
  | verbatim _ hplain =>
    cases h' with
    | escape _ hraw => exact absurd rfl (hplain hraw).1
    | code _ hraw hi =>
      rw [(hplain hraw).2 rfl] at hi
      cases hi
    | name _ hraw hi =>
      rw [(hplain hraw).2 rfl] at hi
      cases hi
    | verbatim => rfl

theorem Closes.of_turn (h : d.Closes t) (hturn : d.Turn t read rest) : d.Closes rest := by
  obtain ⟨c, source, ht, hin⟩ := hturn.inside
  cases h with
  | here =>
    have hclose := hin.not_closing
    rw [← ht, close?_mark_append] at hclose
    cases hclose
  | turn hturn' hrest =>
    rw [hturn.unique hturn']
    exact hrest

theorem Closes.inside (h : d.Closes t) (hclose : d.close? t = none) :
    ∃ c source, t = c :: source ∧ d.Inside c source := by
  cases h with
  | here =>
    rw [close?_mark_append] at hclose
    cases hclose
  | turn hturn _ => exact hturn.inside

end Delimiter

/-- Code with more text behind it ends at a brace of its own, and that text can be exchanged. -/
def EndsAtBrace (w : Bool) (depth : Nat) (code : Text) : Prop :=
  ∀ rest, rest ≠ [] → (skipBraced w depth code).val = rest →
    ∃ v, code = v ++ rest ∧ CodePoint.ofChar '}' ∈ v ∧
      ∀ rest', (skipBraced w depth (v ++ rest')).val = rest'

/-- Of what is left behind the inside of a part, `y` can be exchanged. -/
def Exchanges (d : Delimiter) (body x y : Text) : Prop :=
  ∃ u, body = u ++ (x ++ y) ∧ d.Covers (u ++ x) ∧
    ∀ y', (scanBody d (u ++ (x ++ y'))).result = ((scanBody d body).result.1, x ++ y') ∧
      (d.Closes body → d.Closes (u ++ (x ++ y')))

variable {d : Delimiter} {t rest z y : Text}

theorem Delimiter.Turn.exchange {read : Read} (h : d.Turn t read rest) (hrest : rest = z ++ y)
    (hz : d.Covers z)
    (hcode : ∀ code : Text, code.length < t.length → EndsAtBrace false 0 code) :
    ∃ e, t = e ++ (z ++ y) ∧ ∀ y', d.Turn (e ++ (z ++ y')) read (z ++ y') := by
  -- behind the first character of a turn stands at least the known text
  have hinside : ∀ {c : CodePoint} {e : Text}, d.Inside c (e ++ (z ++ y)) →
      ∀ y', d.Inside c (e ++ (z ++ y')) := by
    intro c e hin y'
    rw [← List.append_assoc] at hin ⊢
    exact hin.exchange (hz.append_left e).length_le y'
  cases h with
  | escape hin hraw =>
    obtain ⟨e, rfl, he⟩ := escape_exchange hz.stop hrest
    refine ⟨'\\' :: e, rfl, fun y' => ?_⟩
    obtain ⟨hsame, hdrop⟩ := he y'
    have hturn : d.Turn _ _ _ := .escape (hinside hin y') hraw
    rw [hsame, hdrop] at hturn
    exact hturn
  | @code source code hin hraw hi =>
    obtain rfl := interpolation?_braced hi
    have hshort : code.length < (CodePoint.ofChar '$' :: CodePoint.ofChar '{' :: code).length := by
      simp only [List.length_cons]
      omega
    obtain ⟨v, rfl, _, hskip⟩ := hcode code hshort (z ++ y) (by simp [hz.ne_nil]) hrest
    refine ⟨'$' :: '{' :: v, rfl, fun y' => ?_⟩
    have hturn : d.Turn _ _ (skipBraced false 0 (v ++ (z ++ y'))).val :=
      .code (@hinside _ ('{' :: v) hin y') hraw rfl
    rw [hskip] at hturn
    exact hturn
  | name hin hraw hi =>
    subst hrest
    obtain ⟨e, rfl, he⟩ := interpolation?_name_exchange hz.ne_nil hi
    exact ⟨'$' :: e, rfl, fun y' => .name (hinside hin y') hraw (he y')⟩
  | @verbatim c _ hin hplain =>
    subst hrest
    refine ⟨[c], rfl, fun y' => .verbatim (@hinside _ [] hin y') ?_⟩
    intro hraw
    obtain ⟨hslash, hdollar⟩ := hplain hraw
    exact ⟨hslash, fun hc => interpolation?_congr_none hz.ne_nil (hdollar hc) y'⟩

theorem isQuote_eq_false_of_isNewline {c : CodePoint} (h : c.isNewline) : c.isQuote = false := by
  simp only [CodePoint.isNewline, Bool.or_eq_true, beq_iff_eq] at h
  rcases h with rfl | rfl <;> decide

theorem Delimiter.Exit.exchanges {x : Text} (hexit : d.Exit t rest) (hrest : rest = x ++ y)
    (hd : d.quote.isQuote) (hx : x ≠ [] ∨ d.Closes t) : Exchanges d t x y := by
  unfold Exchanges
  rw [hexit.result]
  cases hexit with
  | closed hclose =>
    subst hrest
    refine ⟨d.mark, (List.append_eq_of_isPrefixOf?_eq_some hclose).symm, d.covers_mark hd x, fun y' => ?_⟩
    exact ⟨result_scanBody_close d _, fun _ => .here⟩
  | @line c source hclose hline =>
    have hopen : ¬ d.Closes (c :: source) := by
      intro hclosed
      obtain ⟨_, _, ht, hin⟩ := hclosed.inside hclose
      cases ht
      rw [hin.same_line] at hline
      cases hline
    obtain ⟨hsingle, hnewline⟩ : d.triple = false ∧ c.isNewline := by
      simpa [Delimiter.endsBefore] using hline
    cases x with
    | nil => exact absurd rfl (hx.resolve_right hopen)
    | cons a x =>
      cases hrest
      refine ⟨[], rfl, ⟨?_, ⟨c, List.mem_cons_self, ?_⟩, ?_⟩,
        fun y' => ⟨?_, fun h => absurd h hopen⟩⟩
      · simp [Delimiter.mark, hsingle]
      · simp [CodePoint.stopsDigits, hnewline]
      · simp [hsingle]
      · have hline' : d.Exit (c :: (x ++ y')) _ :=
          .line (close?_eq_none hd (isQuote_eq_false_of_isNewline hnewline) _) hline
        exact hline'.result
  | ended =>
    rw [eq_comm, List.append_eq_nil_iff] at hrest
    obtain ⟨_, _, ht, _⟩ :=
      (hx.resolve_left (not_not_intro hrest.1)).inside (isPrefixOf?_eq_none (by simp [d.mark_ne_nil]))
    cases ht

theorem not_prefix_of_brace {p : Text} (hz : CodePoint.ofChar '}' ∈ z)
    (hp : CodePoint.ofChar '}' ∉ p) (h : ¬ p <+: z ++ y) (y' : Text) : ¬ p <+: z ++ y' := by
  intro hprefix
  rcases List.prefix_or_prefix_of_prefix hprefix (List.prefix_append z y') with hpz | hzp
  · exact h (hpz.trans (List.prefix_append z y))
  · exact hp (hzp.subset hz)

theorem CodeTurn.exchange {w w' : Bool} {depth depth' : Nat}
    (h : CodeTurn w depth t w' depth' rest) (hrest : rest = z ++ y)
    (hz : CodePoint.ofChar '}' ∈ z)
    (hbody : ∀ (d : Delimiter) (body : Text), d.quote.isQuote → body.length < t.length →
      ∀ x y, x ≠ [] → (scanBody d body).result.2 = x ++ y → Exchanges d body x y) :
    ∃ e, t = e ++ (z ++ y) ∧ ∀ y', CodeTurn w depth (e ++ (z ++ y')) w' depth' (z ++ y') := by
  have hne : z ≠ [] := List.ne_nil_of_mem hz
  cases h with
  | @part _ _ body d hpart =>
    obtain ⟨hopens, hdouble⟩ := opens_of_openPart (openPart_of_nestedPart hpart)
    obtain ⟨u, hu, _, hexchange⟩ :=
      hbody d body hopens.isQuote (length_nestedPart hpart) z y hne hrest
    have hbrace : CodePoint.ofChar '}' ∈ u ++ z := List.mem_append_right u hz
    rw [hu, ← List.append_assoc] at hpart hdouble
    obtain ⟨o, rfl, ho⟩ := nestedPart?_exchange (List.ne_nil_of_mem hbrace)
      (fun _ => ⟨_, hbrace, by decide⟩) hpart
    refine ⟨o ++ u, by simp, fun y' => ?_⟩
    have hquote : CodePoint.ofChar '}' ∉ [d.quote, d.quote] := by
      intro hmem
      have hq : CodePoint.ofChar '}' = d.quote := by simpa using hmem
      have hquote := hopens.isQuote
      rw [← hq] at hquote
      exact absurd hquote (by decide)
    have hturn : CodeTurn w depth _ _ _ _ := .part (ho y' fun htriple =>
      not_prefix_of_brace hbrace hquote (hdouble htriple) y')
    rw [List.append_assoc u z y', (hexchange y').1] at hturn
    simpa using hturn
  | comment hpart hcomment =>
    subst hrest
    obtain ⟨e, rfl, he⟩ := afterComment?_exchange hne hcomment
    exact ⟨'/' :: e, rfl, fun y' => .comment (nestedPart?_slash w _) (he y')⟩
  | brace =>
    subst hrest
    exact ⟨['}'], rfl, fun y' => .brace⟩
  | @other _ c _ hpart hcomment hc =>
    subst hrest
    exact ⟨[c], rfl, fun y' => .other (nestedPart?_congr_none hne hpart y')
      (afterComment?_congr_none hne hcomment y') hc⟩

mutual

theorem scanBody_exchanges (d : Delimiter) (t x y : Text) (hd : d.quote.isQuote)
    (h : (scanBody d t).result.2 = x ++ y) (hx : x ≠ [] ∨ d.Closes t) : Exchanges d t x y := by
  rcases d.exit_or_turn t with ⟨rest, hexit⟩ | ⟨read, rest, hturn⟩
  · rw [hexit.result] at h
    exact hexit.exchanges h hd hx
  · have hlt := hturn.length_lt
    rw [hturn.result, Read.before_snd] at h
    obtain ⟨u, hu, hcovers, hexchange⟩ :=
      scanBody_exchanges d rest x y hd h (hx.imp_right fun hclosed => hclosed.of_turn hturn)
    rw [← List.append_assoc] at hu
    obtain ⟨e, ht, he⟩ := hturn.exchange hu hcovers fun code hcode =>
      skipBraced_endsAtBrace false 0 code
    refine ⟨e ++ u, by rw [ht]; simp, ?_, fun y' => ?_⟩
    · rw [List.append_assoc]
      exact hcovers.append_left e
    · have hturn' := he y'
      rw [List.append_assoc] at hturn'
      rw [List.append_assoc]
      refine ⟨?_, fun hclosed => .turn hturn' ((hexchange y').2 (hclosed.of_turn hturn))⟩
      rw [hturn'.result, (hexchange y').1, hturn.result]
      cases read <;> rfl
termination_by t.length

theorem skipBraced_endsAtBrace (w : Bool) (depth : Nat) (t : Text) : EndsAtBrace w depth t := by
  intro rest hne h
  rcases codeExit_or_turn w depth t with ⟨rest', hexit⟩ | ⟨w', depth', rest', hturn⟩
  · rw [hexit.val] at h
    subst h
    cases hexit with
    | brace => exact ⟨['}'], rfl, List.mem_cons_self, fun rest' => CodeExit.brace.val w⟩
    | ended => exact absurd rfl hne
  · have hlt := hturn.length_lt
    rw [hturn.val] at h
    obtain ⟨v, hv, hbrace, hskip⟩ := skipBraced_endsAtBrace w' depth' rest' rest hne h
    obtain ⟨e, ht, he⟩ := hturn.exchange hv hbrace fun d body hd hbody x y hx hleft =>
      scanBody_exchanges d body x y hd hleft (.inl hx)
    refine ⟨e ++ v, by rw [ht]; simp, List.mem_append_right e hbrace, fun rest'' => ?_⟩
    rw [List.append_assoc, (he rest'').val, hskip]
termination_by t.length

end

/-- The text starts with a part that its own quotes close. -/
def StartsClosed (t : Text) : Prop :=
  ∃ d body, openPart? t = some (d, body) ∧ d.Closes body

def ClosedAt (text : Text) (pos : Nat) : Prop :=
  StartsClosed (text.drop pos)

/-- Two quotes in a row are those of an empty part if no third follows. -/
theorem not_double_of_head {q : CodePoint} {u rest rest' : Text} (hu : u ≠ [])
    (h : ¬ [q, q] <+: u ++ rest) (hhead : rest'.head? = some q → rest.head? = some q) :
    ¬ [q, q] <+: u ++ rest' := by
  rintro ⟨more, hmore⟩
  cases u with
  | nil => exact hu rfl
  | cons a u =>
    cases u with
    | nil =>
      cases rest' with
      | nil => cases hmore
      | cons b rest' =>
        cases hmore
        obtain ⟨rest, rfl⟩ := List.head?_eq_some_iff.mp (hhead rfl)
        exact h ⟨rest, rfl⟩
    | cons b u =>
      cases hmore
      exact h ⟨u ++ rest, rfl⟩

theorem StartsClosed.exchange {t rest : Text} {part : StringPart} (hclosed : StartsClosed t)
    (h : scanPart? t = some (part, rest)) :
    ∃ u, t = u ++ rest ∧ ∀ rest', (∀ q ∈ rest'.head?, q.isQuote → rest.head? = some q) →
      scanPart? (u ++ rest') = some (part, rest') ∧ StartsClosed (u ++ rest') := by
  obtain ⟨d, body, hopen, hcloses⟩ := hclosed
  obtain ⟨hopens, hdouble⟩ := opens_of_openPart hopen
  have hresult : (scanBody d body).result = (part, rest) := by
    rw [scanPart?, hopen] at h
    exact Option.some.inj h
  obtain ⟨u, hbody, hcovers, hexchange⟩ :=
    scanBody_exchanges d body [] rest hopens.isQuote (by rw [hresult]; rfl) (.inr hcloses)
  rw [List.append_nil] at hcovers
  simp only [List.nil_append, hresult] at hbody hexchange
  subst hbody
  obtain ⟨o, rfl, ho⟩ := hopens.exchange hcovers.ne_nil hcovers.solid
  refine ⟨o ++ u, by simp, fun rest' hrest' => ?_⟩
  have hopen' : openPart? (o ++ (u ++ rest')) = some (d, u ++ rest') :=
    openPart?_of_opens (ho rest') fun htriple =>
      not_double_of_head hcovers.ne_nil (hdouble htriple) fun hq => hrest' _ hq hopens.isQuote
  rw [List.append_assoc, scanPart?, hopen']
  exact ⟨congrArg some (hexchange rest').1, d, u ++ rest', hopen', (hexchange rest').2 hcloses⟩

theorem scanPartAt_eq_some_iff {text : Text} {pos p : Nat} {part : StringPart} :
    scanPartAt text pos = .ok (some part, p) ↔
      ∃ rest, scanPart? (text.drop pos) = some (part, rest) ∧ p = text.length - rest.length := by
  unfold scanPartAt
  split
  · next hpos =>
    rw [List.drop_eq_nil_of_le hpos]
    simp [scanPart?, openPart?]
  · cases scanPart? (text.drop pos) with
    | none => simp
    | some found =>
      obtain ⟨part', rest⟩ := found
      simp
      grind

theorem decode_of_closed {u : Text} {part : StringPart} (h : scanPart? u = some (part, [])) :
    decode u = [part] := by
  have hopen : ∃ d body, openPart? u = some (d, body) := by
    cases hopen : openPart? u with
    | none => simp [scanPart?, hopen] at h
    | some opened => exact ⟨opened.1, opened.2, rfl⟩
  obtain ⟨d, body, hopen⟩ := hopen
  rw [decode, skipTrivia_of_opens (opens_of_openPart hopen).1, partsAfterTrivia_of_scanPart? h,
    skipTrivia, partsAfterTrivia_nil]

/-- A closed part is read the same whatever stands before it and, a quote apart, behind it, and is
closed there too. Its own text decodes to it alone, and code in which it stands goes on right behind
that text. -/
theorem closed_part_in_any_context (text : Text) (pos p : Nat) (part : StringPart)
    (h : scanPartAt text pos = .ok (some part, p)) (hclosed : ClosedAt text pos) :
    (∀ pre ext : Text, (∀ c ∈ ext.head?, c.isQuote = false) →
      scanPartAt (pre ++ text ++ ext) (pre.length + pos) = .ok (some part, pre.length + p) ∧
      ClosedAt (pre ++ text ++ ext) (pre.length + pos)) ∧
    decode ((text.take p).drop pos) = [part] ∧
    ∀ w depth d body, nestedPart? w (text.drop pos) = some (d, body) →
      (skipBraced w depth (text.drop pos)).val = (skipBraced false depth (text.drop p)).val := by
  obtain ⟨rest, hscan, hp⟩ := scanPartAt_eq_some_iff.mp h
  obtain ⟨u, hu, hexchange⟩ := hclosed.exchange hscan
  have hlength := congrArg List.length hu
  have hshort := length_scanPart hscan
  simp only [List.length_append, List.length_drop] at hlength hshort
  have hrest : text.drop p = rest := by
    have hend : p = pos + u.length := by omega
    rw [hend, ← List.drop_drop, hu, List.drop_left]
  refine ⟨fun pre ext hext => ?_, ?_, ?_⟩
  · have hdrop : (pre ++ text ++ ext).drop (pre.length + pos) = u ++ (rest ++ ext) := by
      rw [List.append_assoc, ← List.drop_drop, List.drop_left, List.drop_append_of_le_length
        (by omega), hu, List.append_assoc]
    have hhead : ∀ q ∈ (rest ++ ext).head?, q.isQuote → rest.head? = some q := by
      intro q hq hquote
      cases rest with
      | nil =>
        rw [hext q hq] at hquote
        cases hquote
      | cons c rest => exact hq
    obtain ⟨hsame, hclosed'⟩ := hexchange (rest ++ ext) hhead
    rw [← hdrop] at hsame hclosed'
    refine ⟨scanPartAt_eq_some_iff.mpr ⟨rest ++ ext, hsame, ?_⟩, hclosed'⟩
    simp only [List.length_append]
    omega
  · have hslice : (text.take p).drop pos = u := by
      have hend : p - pos = u.length := by omega
      rw [List.drop_take, hu, hend, List.take_left]
    have hown := (hexchange [] (by simp)).1
    rw [List.append_nil] at hown
    rw [hslice]
    exact decode_of_closed hown
  · intro w depth d' body' hnested
    have hopen' := openPart_of_nestedPart hnested
    rw [val_skipBraced_part depth hnested, hrest]
    have hresult : (scanBody d' body').result = (part, rest) := by
      rw [scanPart?, hopen'] at hscan
      exact Option.some.inj hscan
    rw [hresult]

/-- A word before a part whose last escape is cut off by the closing quote. -/
def cutEscape : Text := "b'\\u\x7b'"

theorem closedAt_cutEscape : ClosedAt cutEscape 1 := by
  refine ⟨⟨'\'', false, false⟩, _, rfl, ?_⟩
  apply Delimiter.Closes.turn (.escape ⟨by decide, by decide⟩ rfl)
  apply Delimiter.Closes.turn (.verbatim ⟨by decide, by decide⟩ (by decide))
  exact Delimiter.Closes.here

theorem closed_part_in_any_context_cutEscape :
    scanPartAt cutEscape 1 = .ok (some ⟨Text.ofString "u\x7b", []⟩, 6) ∧ ClosedAt cutEscape 1 ∧
    scanPartAt (Text.ofString "r" ++ cutEscape ++ Text.ofString "41\x7d") (1 + 1) =
      .ok (some ⟨Text.ofString "u\x7b", []⟩, 1 + 6) ∧
    decode ((cutEscape.take 6).drop 1) = [⟨Text.ofString "u\x7b", []⟩] ∧
    (skipBraced true 0 (cutEscape.drop 1)).val = (skipBraced false 0 (cutEscape.drop 6)).val := by
  have hscan : scanPartAt cutEscape 1 = .ok (some ⟨Text.ofString "u\x7b", []⟩, 6) :=
    scanPartAt_eq_some_iff.mpr ⟨[], by decide +kernel, rfl⟩
  have hext : ∀ c ∈ (Text.ofString "41\x7d").head?, c.isQuote = false := by
    intro c hc
    cases hc
    decide
  obtain ⟨hcontext, hown, hskip⟩ :=
    closed_part_in_any_context cutEscape 1 6 _ hscan closedAt_cutEscape
  exact ⟨hscan, closedAt_cutEscape, (hcontext (Text.ofString "r") _ hext).1, hown,
    hskip true 0 _ _ rfl⟩

end Deadwood.Literal
