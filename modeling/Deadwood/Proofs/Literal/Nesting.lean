import Deadwood.Literal.Position
import Deadwood.Proofs.Literal.Context

/-!
Comments that hold comments. Between the parts of a literal a block comment is skipped up to its
first end, so trivia without a comment inside another is skipped whole. A comment that holds another
is left before its own end, and what stands there hides the parts that follow.
-/
namespace Deadwood.Literal

variable {n : Nat} {c : CodePoint} {t rest : Text}

def blockStart : Text := ['/', '*']

/-- The inside of a block comment that may hold others, up to and with its end: the number of
comments inside it, its text, and what follows. -/
inductive Nested : Nat → Text → Text → Prop
  | close {rest : Text} : Nested 0 (blockEnd ++ rest) rest
  | comment {m n : Nat} {t after rest : Text} : Nested m t after → Nested n after rest →
      Nested (m + n + 1) (blockStart ++ t) rest
  | plain {n : Nat} {c : CodePoint} {t rest : Text} : ¬ blockEnd <+: c :: t →
      ¬ blockStart <+: c :: t → Nested n t rest → Nested n (c :: t) rest

/-- Blanks, line comments, and block comments that may hold others, with the number of comments
inside others. -/
inductive NestingTrivia : Nat → Text → Prop
  | nil : NestingTrivia 0 []
  | blank {n : Nat} {c : CodePoint} {t : Text} : c.isBlank → NestingTrivia n t →
      NestingTrivia n (c :: t)
  | line {n : Nat} {body rest : Text} : CodePoint.ofChar '\n' ∉ body → NestingTrivia n rest →
      NestingTrivia n ('/' :: '/' :: (body ++ CodePoint.ofChar '\n' :: rest))
  | block {m n : Nat} {t rest : Text} : Nested m t rest → NestingTrivia n rest →
      NestingTrivia (m + n) (blockStart ++ t)

/-- The text is empty or starts with a quote or with the mark of a raw part. -/
def OpensPart (t : Text) : Prop :=
  ∀ c ∈ t.head?, c.isQuote ∨ c = 'r' ∨ c = 'R'

/-! ### Comments that hold no others -/

theorem not_infix_cons {body : Text} (h : ¬ blockEnd <+: c :: body) (hbody : ¬ blockEnd <:+: body) :
    ¬ blockEnd <:+: c :: body := by
  rw [List.infix_cons_iff]
  exact not_or.mpr ⟨h, hbody⟩

theorem Nested.exists_body (h : Nested n t rest) (hn : n = 0) :
    ∃ body, t = body ++ blockEnd ++ rest ∧ ¬ blockEnd <:+: body := by
  induction h with
  | close => exact ⟨[], rfl, by decide⟩
  | comment => cases hn
  | @plain n c t rest hend _ _ ih =>
    obtain ⟨body, rfl, hbody⟩ := ih hn
    refine ⟨c :: body, rfl, not_infix_cons (fun hprefix => hend ?_) hbody⟩
    exact hprefix.trans ⟨blockEnd ++ rest, by simp⟩

theorem NestingTrivia.trivia (h : NestingTrivia n t) (hn : n = 0) : Trivia t := by
  induction h with
  | nil => exact .nil
  | blank hc _ ih => exact .blank hc (ih hn)
  | line hbody _ ih => exact .comment (.line hbody) (ih hn)
  | @block m n t rest hnested _ ih =>
    obtain ⟨body, rfl, hbody⟩ := hnested.exists_body (by omega)
    exact .comment (.block hbody) (ih (by omega))

/-! ### What is skipped -/

theorem exists_afterLine (h : afterLine t ≠ []) :
    ∃ body, t = body ++ CodePoint.ofChar '\n' :: afterLine t ∧ CodePoint.ofChar '\n' ∉ body := by
  induction t with
  | nil => exact absurd rfl h
  | cons c t ih =>
    by_cases hc : c = '\n'
    · subst hc
      exact ⟨[], by simp [afterLine], by simp⟩
    · rw [afterLine_cons_of_ne hc] at h ⊢
      obtain ⟨body, ht, hbody⟩ := ih h
      refine ⟨c :: body, by rw [List.cons_append, ← ht], ?_⟩
      rw [List.mem_cons, not_or]
      exact ⟨fun heq => hc heq.symm, hbody⟩

theorem exists_afterBlock (h : afterBlock t ≠ []) :
    ∃ body, t = body ++ blockEnd ++ afterBlock t ∧ ¬ blockEnd <:+: body := by
  fun_induction afterBlock t with
  | case1 => exact absurd rfl h
  | case2 c t hend =>
    simp only [Bool.and_eq_true, beq_iff_eq] at hend
    obtain ⟨rfl, hhead⟩ := hend
    obtain ⟨rest, rfl⟩ := List.head?_eq_some_iff.mp hhead
    exact ⟨[], rfl, by decide⟩
  | case3 c t hend ih =>
    obtain ⟨body, ht, hbody⟩ := ih h
    refine ⟨c :: body, by rw [List.cons_append, List.cons_append, ← ht], not_infix_cons ?_ hbody⟩
    rintro ⟨more, hmore⟩
    apply hend
    obtain ⟨rfl, rfl⟩ := List.cons.inj hmore
    rw [ht]
    simp

theorem comment_of_afterComment? {r : Text} (h : afterComment? t = some r) (hr : r ≠ []) :
    Comment t r := by
  unfold afterComment? at h
  split at h
  · next c d t =>
    split at h
    · next hline =>
      cases h
      simp only [Bool.and_eq_true, beq_iff_eq] at hline
      obtain ⟨rfl, rfl⟩ := hline
      obtain ⟨body, ht, hbody⟩ := exists_afterLine hr
      have hcomment := @Comment.line _ (afterLine t) hbody
      rwa [← ht] at hcomment
    · split at h
      · next hblock =>
        cases h
        simp only [Bool.and_eq_true, beq_iff_eq] at hblock
        obtain ⟨rfl, rfl⟩ := hblock
        obtain ⟨body, ht, hbody⟩ := exists_afterBlock hr
        have hcomment := @Comment.block _ (afterBlock t) hbody
        rwa [← ht] at hcomment
      · cases h
  · cases h

theorem Comment.exists_shorter {u s : Text} (h : Comment t (u ++ s)) :
    ∃ v, t = v ++ s ∧ Comment v u := by
  generalize hr : u ++ s = r at h
  cases h with
  | @line body _ hbody =>
    subst hr
    exact ⟨_, by simp, @Comment.line _ u hbody⟩
  | @block body _ hbody =>
    subst hr
    exact ⟨_, by simp, @Comment.block _ u hbody⟩

theorem exists_trivia_of_skipTrivia (t : Text) (h : skipTrivia t ≠ []) :
    ∃ u, t = u ++ skipTrivia t ∧ Trivia u := by
  fun_induction skipTrivia t with
  | case1 => exact absurd rfl h
  | case2 c rest hc ih =>
    obtain ⟨u, hrest, hu⟩ := ih h
    exact ⟨c :: u, by rw [List.cons_append, ← hrest], .blank hc hu⟩
  | case3 c rest _ r hr _ ih =>
    obtain ⟨u, hrest, hu⟩ := ih h
    have hne : r ≠ [] := by
      rintro rfl
      exact h (by rw [skipTrivia])
    have hcomment := comment_of_afterComment? hr hne
    rw [hrest] at hcomment
    obtain ⟨v, hv, hcomment⟩ := hcomment.exists_shorter
    exact ⟨v, hv, .comment hcomment hu⟩
  | case4 => exact ⟨[], rfl, .nil⟩

theorem skipTrivia_of_opensPart (h : OpensPart t) : skipTrivia t = t := by
  cases t with
  | nil => rw [skipTrivia]
  | cons c t =>
    have hc := h c rfl
    simp only [CodePoint.isQuote, Bool.or_eq_true, beq_iff_eq] at hc
    rcases hc with (rfl | rfl) | rfl | rfl <;>
      exact skipTrivia_eq_self t (by decide) (by decide)

theorem skipTriviaAt_zero (t : Text) : skipTriviaAt t 0 = t.length - (skipTrivia t).length := by
  unfold skipTriviaAt stopAt
  rw [List.drop_zero]
  split
  · omega
  · rfl

theorem skipTriviaAt_append (hrest : OpensPart rest) (ht : Trivia t) :
    skipTriviaAt (t ++ rest) 0 = t.length := by
  rw [skipTriviaAt_zero, skipTrivia_append ht, skipTrivia_of_opensPart hrest, List.length_append,
    Nat.add_sub_cancel]

theorem trivia_of_skipTriviaAt (hne : rest ≠ [])
    (h : skipTriviaAt (t ++ rest) 0 = t.length) : Trivia t := by
  have hlength := length_skipTrivia (t ++ rest)
  rw [skipTriviaAt_zero, List.length_append] at h
  rw [List.length_append] at hlength
  have hpos := List.length_pos_iff.mpr hne
  obtain ⟨u, hu, htrivia⟩ := exists_trivia_of_skipTrivia (t ++ rest)
    (List.length_pos_iff.mp (by omega))
  have hsame : (skipTrivia (t ++ rest)).length = rest.length := by omega
  obtain ⟨rfl, -⟩ := List.append_inj' hu hsame.symm
  exact htrivia

/-! ### Comments that hold others -/

theorem Nested.exists_append (h : Nested n t rest) : ∃ body, t = body ++ blockEnd ++ rest := by
  induction h with
  | close => exact ⟨[], rfl⟩
  | comment _ _ ih ih' =>
    obtain ⟨body, rfl⟩ := ih
    obtain ⟨body', rfl⟩ := ih'
    exact ⟨blockStart ++ body ++ blockEnd ++ body', by simp⟩
  | @plain n c _ _ _ _ _ ih =>
    obtain ⟨body, rfl⟩ := ih
    exact ⟨c :: body, rfl⟩

theorem suffix_afterBlock_append (body rest : Text) :
    rest <:+ afterBlock (body ++ blockEnd ++ rest) := by
  induction body with
  | nil => exact List.suffix_rfl
  | cons c body ih =>
    rw [List.cons_append, List.cons_append, afterBlock]
    split
    · next hend =>
      cases body with
      | nil => simp [blockEnd] at hend
      | cons d body => exact List.suffix_append (body ++ blockEnd) rest
    · exact ih

/-- The first end inside a comment that holds another is not its own. -/
theorem Nested.exists_left (h : Nested n t rest) (hn : n ≠ 0) :
    ∃ left, afterBlock t = left ++ blockEnd ++ rest := by
  induction h with
  | close => exact absurd rfl hn
  | @comment m n t after rest hinner houter _ _ =>
    obtain ⟨body, rfl⟩ := hinner.exists_append
    obtain ⟨body', rfl⟩ := houter.exists_append
    obtain ⟨left, hleft⟩ :=
      suffix_afterBlock_append (blockStart ++ body) (body' ++ blockEnd ++ rest)
    refine ⟨left ++ body', ?_⟩
    rw [List.append_assoc blockStart, List.append_assoc blockStart] at hleft
    rw [← hleft]
    simp
  | @plain n c t rest hend _ _ ih =>
    obtain ⟨left, hleft⟩ := ih hn
    refine ⟨left, ?_⟩
    rw [afterBlock, if_neg, hleft]
    intro hc
    simp only [Bool.and_eq_true, beq_iff_eq] at hc
    obtain ⟨rfl, hhead⟩ := hc
    obtain ⟨more, rfl⟩ := List.head?_eq_some_iff.mp hhead
    exact hend ⟨more, rfl⟩

theorem Nested.exists_first_end (h : Nested n t rest) (hn : n ≠ 0) :
    ∃ body left, ¬ blockEnd <:+: body ∧ t = body ++ blockEnd ++ (left ++ blockEnd ++ rest) := by
  obtain ⟨left, hleft⟩ := h.exists_left hn
  obtain ⟨body, ht, hbody⟩ := exists_afterBlock (t := t) (by rw [hleft]; simp [blockEnd])
  rw [hleft] at ht
  exact ⟨body, left, hbody, ht⟩

theorem NestingTrivia.exists_first_end (h : NestingTrivia n t) (hn : n ≠ 0) :
    ∃ lead body left after m, Trivia lead ∧ m ≠ 0 ∧
      Nested m (body ++ blockEnd ++ (left ++ blockEnd ++ after)) after ∧ ¬ blockEnd <:+: body ∧
      t = lead ++ (blockStart ++ (body ++ blockEnd ++ (left ++ blockEnd ++ after))) := by
  induction h with
  | nil => exact absurd rfl hn
  | blank hc _ ih =>
    obtain ⟨lead, body, left, after, m, hlead, hm, hnested, hbody, rfl⟩ := ih hn
    exact ⟨_ :: lead, body, left, after, m, .blank hc hlead, hm, hnested, hbody, rfl⟩
  | @line n text rest htext _ ih =>
    obtain ⟨lead, body, left, after, m, hlead, hm, hnested, hbody, rfl⟩ := ih hn
    exact ⟨_, body, left, after, m, .comment (.line htext) hlead, hm, hnested, hbody, by simp⟩
  | @block k n t rest hfirst _ ih =>
    by_cases hk : k = 0
    · obtain ⟨text, rfl, htext⟩ := hfirst.exists_body hk
      obtain ⟨lead, body, left, after, m, hlead, hm, hnested, hbody, rfl⟩ := ih (by omega)
      exact ⟨_, body, left, after, m, .comment (.block htext) hlead, hm, hnested, hbody,
        by simp [blockStart]⟩
    · obtain ⟨body, left, hbody, rfl⟩ := hfirst.exists_first_end hk
      exact ⟨[], body, left, rest, k, .nil, hk, hfirst, hbody, rfl⟩

/-! ### Parts around comments -/

variable {part : StringPart}

theorem decode_of_scanPart? (h : scanPart? t = some (part, rest)) :
    decode t = part :: decode rest := by
  have hopen : ∃ d body, openPart? t = some (d, body) := by
    cases hopen : openPart? t with
    | none => simp [scanPart?, hopen] at h
    | some opened => exact ⟨opened.1, opened.2, rfl⟩
  obtain ⟨d, body, hopen⟩ := hopen
  rw [decode, skipTrivia_of_opens (opens_of_openPart hopen).1, partsAfterTrivia_of_scanPart? h,
    decode]

theorem decode_append (ht : Trivia t) (rest : Text) : decode (t ++ rest) = decode rest := by
  rw [decode, skipTrivia_append ht, decode]

theorem decode_of_comment (h : Comment t rest) : decode t = decode rest := by
  rw [decode, skipTrivia_of_comment h, decode]

/-- A text that is one part, closed by its own quotes. -/
structure IsPart (t : Text) (part : StringPart) : Prop where
  closed : StartsClosed t
  whole : scanPart? t = some (part, [])

theorem IsPart.decode_append (h : IsPart t part) (hrest : ∀ q ∈ rest.head?, q.isQuote = false) :
    decode (t ++ rest) = part :: decode rest := by
  obtain ⟨u, hu, hexchange⟩ := h.closed.exchange h.whole
  rw [List.append_nil] at hu
  subst hu
  apply decode_of_scanPart?
  refine (hexchange rest fun q hq hquote => ?_).1
  rw [hrest q hq] at hquote
  cases hquote

theorem IsPart.decode_eq (h : IsPart t part) : decode t = [part] :=
  decode_of_closed h.whole

/-- Neither trivia nor a part starts with such a character. -/
structure IsForeign (c : CodePoint) : Prop where
  not_blank : c.isBlank = false
  not_slash : c ≠ '/'
  not_quote : c.isQuote = false
  not_mark : c ≠ 'r' ∧ c ≠ 'R'

theorem isForeign_star : IsForeign '*' :=
  ⟨by decide, by decide, by decide, by decide⟩

theorem decode_of_foreign (h : IsForeign c) (t : Text) : decode (c :: t) = [] := by
  have hopen : openPart? (c :: t) = none := by
    simp [openPart?, openQuotes?, h.not_mark, h.not_quote]
  have hscan : scanPart? (c :: t) = none := by rw [scanPart?, hopen, Option.map_none]
  rw [decode, skipTrivia_eq_self t h.not_blank h.not_slash, partsAfterTrivia_eq_nil hscan]

theorem IsPart.decode_first_end {x lead body left : Text} (hx : IsPart x part) (hlead : Trivia lead)
    (hbody : ¬ blockEnd <:+: body) :
    decode (x ++ (lead ++ (blockStart ++ (body ++ blockEnd ++ left)))) = part :: decode left := by
  have hcomment : Comment (blockStart ++ (body ++ blockEnd ++ left)) left := .block hbody
  have hhead : ∀ q ∈ (lead ++ (blockStart ++ (body ++ blockEnd ++ left))).head?,
      q.isQuote = false := by
    cases lead with
    | nil =>
      rintro _ ⟨rfl⟩
      decide
    | cons c lead => exact hlead.head
  rw [hx.decode_append hhead, Literal.decode_append hlead, decode_of_comment hcomment]

theorem decode_left_eq_nil {left : Text} (h : ∀ c ∈ left.head?, IsForeign c) (rest : Text) :
    decode (left ++ blockEnd ++ rest) = [] := by
  cases left with
  | nil => exact decode_of_foreign isForeign_star _
  | cons c left => exact decode_of_foreign (h c rfl) _

/-- Trivia in which no comment is inside another is skipped whole, and the parts around it are both
read; trivia with comments inside others is, before a part, skipped whole exactly if it is trivia
also when every block comment ends at its first end. The first comment that holds another is cut
there: reading goes on inside it, before its own end, and unless trivia or a part happens to stand
there, nothing more is read. -/
theorem trivia_skipped_unless_nested (n : Nat) (t : Text) (ht : NestingTrivia n t) :
    (n = 0 → Trivia t ∧ ∀ rest, OpensPart rest → skipTriviaAt (t ++ rest) 0 = t.length) ∧
    (∀ rest, OpensPart rest → rest ≠ [] →
      (skipTriviaAt (t ++ rest) 0 = t.length ↔ Trivia t)) ∧
    (∀ x y part other, IsPart x part → IsPart y other → t ≠ [] → Trivia t →
      decode (x ++ t ++ y) = [part, other]) ∧
    (n ≠ 0 → ∃ lead body left after m, Trivia lead ∧ m ≠ 0 ∧
      Nested m (body ++ blockEnd ++ (left ++ blockEnd ++ after)) after ∧ ¬ blockEnd <:+: body ∧
      t = lead ++ (blockStart ++ (body ++ blockEnd ++ (left ++ blockEnd ++ after))) ∧
      ∀ x y part, IsPart x part →
        decode (x ++ t ++ y) = part :: decode (left ++ blockEnd ++ (after ++ y)) ∧
        ((∀ c ∈ left.head?, IsForeign c) → decode (x ++ t ++ y) = [part])) := by
  refine ⟨fun hn => ⟨ht.trivia hn, fun rest hrest => skipTriviaAt_append hrest (ht.trivia hn)⟩,
    fun rest hrest hne => ⟨trivia_of_skipTriviaAt hne, skipTriviaAt_append hrest⟩, ?_, ?_⟩
  · intro x y part other hx hy hne htrivia
    have hhead : ∀ q ∈ (t ++ y).head?, q.isQuote = false := by
      obtain ⟨c, t, rfl⟩ := List.exists_cons_of_ne_nil hne
      exact htrivia.head
    rw [List.append_assoc, hx.decode_append hhead, decode_append htrivia, hy.decode_eq]
  · intro hn
    obtain ⟨lead, body, left, after, m, hlead, hm, hnested, hbody, rfl⟩ := ht.exists_first_end hn
    refine ⟨lead, body, left, after, m, hlead, hm, hnested, hbody, rfl, fun x y part hx => ?_⟩
    have hdecode := @IsPart.decode_first_end _ x lead body (left ++ blockEnd ++ (after ++ y)) hx
      hlead hbody
    simp only [List.append_assoc] at hdecode ⊢
    refine ⟨hdecode, fun hforeign => ?_⟩
    rw [hdecode, ← List.append_assoc, decode_left_eq_nil hforeign]

def quotedLetter : Text := ['\'', 'a', '\'']

theorem isPart_quotedLetter : IsPart quotedLetter ⟨['a'], []⟩ where
  closed := ⟨⟨'\'', false, false⟩, _, rfl,
    .turn (.verbatim ⟨by decide, by decide⟩ (by decide)) .here⟩
  whole := by decide +kernel

def emptyInside : Text := ['/', '*', '/', '*', '*', '/', 'c', '*', '/']

theorem nestingTrivia_emptyInside : NestingTrivia 1 emptyInside := by
  have hletter : Nested 0 ['c', '*', '/'] [] := .plain (by decide) (by decide) .close
  exact .block (.comment .close hletter) .nil

theorem trivia_skipped_unless_nested_emptyInside :
    let flat : Text := [' ', '/', '*', '/', 'c', '*', '/', '\n']
    NestingTrivia 0 flat ∧ NestingTrivia 1 emptyInside ∧ IsPart quotedLetter ⟨['a'], []⟩ ∧
    skipTriviaAt (flat ++ quotedLetter) 0 = 8 ∧
    decode (quotedLetter ++ flat ++ quotedLetter) = [⟨['a'], []⟩, ⟨['a'], []⟩] ∧
    ∃ lead body left after m, Trivia lead ∧ m ≠ 0 ∧
      Nested m (body ++ blockEnd ++ (left ++ blockEnd ++ after)) after ∧ ¬ blockEnd <:+: body ∧
      emptyInside = lead ++ (blockStart ++ (body ++ blockEnd ++ (left ++ blockEnd ++ after))) ∧
      decode (quotedLetter ++ emptyInside ++ quotedLetter) =
        ⟨['a'], []⟩ :: decode (left ++ blockEnd ++ (after ++ quotedLetter)) := by
  intro flat
  have hflat : NestingTrivia 0 flat := by
    have hinside : Nested 0 ['/', 'c', '*', '/', '\n'] ['\n'] :=
      .plain (by decide) (by decide) (.plain (by decide) (by decide) .close)
    exact .blank (by decide) (.block hinside (.blank (by decide) .nil))
  obtain ⟨hskip, _, hboth, _⟩ := trivia_skipped_unless_nested 0 flat hflat
  obtain ⟨_, _, _, hleft⟩ := trivia_skipped_unless_nested 1 emptyInside nestingTrivia_emptyInside
  obtain ⟨lead, body, left, after, m, hlead, hm, hnested, hbody, htext, hdecode⟩ :=
    hleft (by decide)
  exact ⟨hflat, nestingTrivia_emptyInside, isPart_quotedLetter,
    (hskip rfl).2 quotedLetter (by rintro _ ⟨rfl⟩; decide),
    hboth _ _ _ _ isPart_quotedLetter isPart_quotedLetter (by decide) (hskip rfl).1,
    lead, body, left, after, m, hlead, hm, hnested, hbody, htext,
    (hdecode _ _ _ isPart_quotedLetter).1⟩

/-- The part behind a comment that holds another is lost. -/
theorem exists_part_lost_behind_comment :
    (¬ ∀ n t rest, NestingTrivia n t → OpensPart rest → skipTriviaAt (t ++ rest) 0 = t.length) ∧
    ¬ ∀ n t x y part other, NestingTrivia n t → t ≠ [] → IsPart x part → IsPart y other →
      decode (x ++ t ++ y) = [part, other] := by
  constructor
  · intro hall
    have hskip := hall 1 emptyInside quotedLetter nestingTrivia_emptyInside
      (by rintro _ ⟨rfl⟩; decide)
    exact absurd hskip (by decide +kernel)
  · intro hall
    have hdecode := hall 1 emptyInside quotedLetter quotedLetter _ _ nestingTrivia_emptyInside
      (by decide) isPart_quotedLetter isPart_quotedLetter
    exact absurd hdecode (by decide +kernel)

end Deadwood.Literal
