import Deadwood.Proofs.Literal.Turns

/-!
How far the scanner looks ahead. Each piece of it decides on the text up to the next quote, line
break or brace, so what stands behind one of these can be exchanged. Below, `z` is the text that is
known to be there, and `y` is what is exchanged for `y'`.
-/
namespace Deadwood

/-- No digits of an escape go past this character. -/
def CodePoint.stopsDigits (c : CodePoint) : Bool :=
  c.isQuote || c.isNewline

/-- Not a character of a blank line. -/
def CodePoint.isSolid (c : CodePoint) : Bool :=
  c != ' ' && c != '\t' && !c.isNewline

namespace Literal

variable {z : Text}

theorem isPrefixOf?_append_of_le {p : Text} (h : p.length ≤ z.length) (y : Text) :
    p.isPrefixOf? (z ++ y) = (p.isPrefixOf? z).map (· ++ y) := by
  induction p generalizing z with
  | nil => rfl
  | cons a p ih =>
    cases z with
    | nil => simp at h
    | cons b z =>
      change (if a == b then p.isPrefixOf? (z ++ y) else none) =
        Option.map (· ++ y) (if a == b then p.isPrefixOf? z else none)
      split
      · exact ih (Nat.le_of_succ_le_succ h)
      · rfl

theorem head?_append_congr (hz : z ≠ []) (y y' : Text) : (z ++ y).head? = (z ++ y').head? := by
  cases z with
  | nil => exact absurd rfl hz
  | cons c z => rfl

theorem Delimiter.Inside.exchange {d : Delimiter} {c : CodePoint} {y : Text}
    (h : d.Inside c (z ++ y)) (hz : d.mark.length ≤ z.length) (y' : Text) :
    d.Inside c (z ++ y') := by
  have hmark : d.mark.length ≤ (c :: z).length := by simp only [List.length_cons]; omega
  refine ⟨?_, h.same_line⟩
  have hclose := h.not_closing
  unfold Delimiter.close? at hclose ⊢
  rw [← List.cons_append, isPrefixOf?_append_of_le hmark, Option.map_eq_none_iff] at hclose ⊢
  exact hclose

/-! Escapes. -/

theorem hexValue?_of_stopsDigits {c : CodePoint} (h : c.stopsDigits) : c.hexValue? = none := by
  simp only [CodePoint.stopsDigits, CodePoint.isQuote, CodePoint.isNewline, Bool.or_eq_true,
    beq_iff_eq] at h
  rcases h with (rfl | rfl) | rfl | rfl <;> decide

theorem hexNumber?_eq_none {digits : Text} (h : ∃ c ∈ digits, c.hexValue? = none) :
    Text.hexNumber? digits = none := by
  have hnone : ∀ t : Text,
      t.foldl (fun n c => n.bind fun n => c.hexValue?.map (16 * n + ·)) (none : Option Nat) = none := by
    intro t
    induction t with
    | nil => rfl
    | cons c t ih => exact ih
  obtain ⟨c, hc, hvalue⟩ := h
  obtain ⟨before, after, rfl⟩ := List.append_of_mem hc
  unfold Text.hexNumber?
  rw [if_neg (by simp), List.foldl_append, List.foldl_cons]
  simp only [hvalue, Option.map_none, Option.bind_fun_none]
  exact hnone after

theorem fixedHex?_congr (hz : ∃ c ∈ z, c.stopsDigits) (width : Nat) (y y' : Text) :
    fixedHex? width (z ++ y) = fixedHex? width (z ++ y') := by
  obtain ⟨c, hc, hstop⟩ := hz
  unfold fixedHex?
  by_cases hw : width ≤ z.length
  · rw [List.take_append_of_le_length hw, List.take_append_of_le_length hw]
  · -- all of the known text would have to be digits
    have hnone : ∀ t, Text.hexNumber? ((z ++ t).take width) = none := by
      intro t
      apply hexNumber?_eq_none
      refine ⟨c, ?_, hexValue?_of_stopsDigits hstop⟩
      rw [List.take_append, List.take_of_length_le (by omega)]
      exact List.mem_append_left _ hc
    simp only [hnone, Option.bind_none, ite_self]

theorem bracedHex?_congr (hz : ∃ c ∈ z, c.stopsDigits) (y y' : Text) :
    bracedHex? (z ++ y) = bracedHex? (z ++ y') := by
  obtain ⟨c, hc, hstop⟩ := hz
  by_cases hbrace : CodePoint.ofChar '}' ∈ z
  · obtain ⟨before, after, rfl, hbefore⟩ := List.eq_append_cons_of_mem hbrace
    have hdigits : ∀ t, (before ++ CodePoint.ofChar '}' :: after ++ t).takeWhile
        (fun c : CodePoint => c != '}') = before := by
      intro t
      rw [List.append_assoc, List.takeWhile_append_of_pos]
      · simp
      · intro x hx
        simp only [bne_iff_ne, ne_eq]
        rintro rfl
        exact hbefore hx
    unfold bracedHex?
    simp only [hdigits]
    rw [if_pos (by simp), if_pos (by simp)]
  · have hnone : ∀ t, bracedHex? (z ++ t) = none := by
      intro t
      have hdigits : (z ++ t).takeWhile (fun c : CodePoint => c != '}') =
          z ++ t.takeWhile (fun c : CodePoint => c != '}') := by
        apply List.takeWhile_append_of_pos
        intro x hx
        simp only [bne_iff_ne, ne_eq]
        rintro rfl
        exact hbrace hx
      have hnumber := hexNumber?_eq_none
        ⟨c, List.mem_append_left (t.takeWhile fun c : CodePoint => c != '}') hc,
          hexValue?_of_stopsDigits hstop⟩
      simp [bracedHex?, hdigits, hnumber]
    rw [hnone, hnone]

theorem escape_congr (c : CodePoint) (hz : ∃ s ∈ z, s.stopsDigits) (y y' : Text) :
    escape (c :: (z ++ y)) = escape (c :: (z ++ y')) := by
  obtain ⟨s, hs, hstop⟩ := hz
  have hhead := head?_append_congr (List.ne_nil_of_mem hs) y y'
  rw [escape, escape, hhead, fixedHex?_congr ⟨s, hs, hstop⟩ 2 y y',
    fixedHex?_congr ⟨s, hs, hstop⟩ 4 y y']
  cases z with
  | nil => cases hs
  | cons b z =>
    by_cases hb : b = '{'
    · -- a brace stops no digits, so what stops them stands behind it
      have hz : ∃ s ∈ z, s.stopsDigits := by
        rcases List.mem_cons.mp hs with rfl | hs
        · rw [hb] at hstop
          exact absurd hstop (by decide)
        · exact ⟨s, hs, hstop⟩
      simp only [List.cons_append, List.drop_succ_cons, List.drop_zero, bracedHex?_congr hz y y']
    · simp [hb]

theorem one_le_escape (c : CodePoint) (t : Text) : 1 ≤ (escape (c :: t)).2 := by
  rw [escape]
  repeat' split
  all_goals simp

theorem escape_exchange {source y : Text} (hz : ∃ c ∈ z, c.stopsDigits)
    (h : source.drop (escape source).2 = z ++ y) :
    ∃ e, source = e ++ (z ++ y) ∧ ∀ y', escape (e ++ (z ++ y')) = escape source ∧
      (e ++ (z ++ y')).drop (escape source).2 = z ++ y' := by
  obtain ⟨s, hs, hstop⟩ := hz
  cases source with
  | nil =>
    rw [List.drop_nil, eq_comm, List.append_eq_nil_iff] at h
    exact absurd h.1 (List.ne_nil_of_mem hs)
  | cons c source =>
    obtain ⟨n, hn⟩ := Nat.exists_eq_add_of_le' (one_le_escape c source)
    rw [hn, List.drop_succ_cons] at h
    have hlong : n ≤ source.length := by
      have hlength := congrArg List.length h
      have hpos := List.length_pos_of_mem hs
      simp only [List.length_drop, List.length_append] at hlength
      omega
    refine ⟨c :: source.take n, by rw [List.cons_append, ← h, List.take_append_drop], ?_⟩
    intro y'
    rw [hn, List.cons_append, List.drop_succ_cons]
    refine ⟨?_, List.drop_left' (by simp [hlong])⟩
    -- what the escape takes and what ends its digits are both known
    have hknown : ∃ x ∈ source.take n ++ z, x.stopsDigits :=
      ⟨s, List.mem_append_right _ hs, hstop⟩
    have hsource : source = source.take n ++ z ++ y := by
      rw [List.append_assoc, ← h, List.take_append_drop]
    rw [← List.append_assoc, escape_congr c hknown y' y, ← hsource]

/-! Interpolations and comments. -/

theorem interpolation?_congr_none {y : Text} (hz : z ≠ []) (h : interpolation? (z ++ y) = none)
    (y' : Text) : interpolation? (z ++ y') = none := by
  cases z with
  | nil => exact absurd rfl hz
  | cons c z =>
    simp only [List.cons_append, interpolation?] at h ⊢
    split at h
    · cases h
    · next hbrace =>
      rw [if_neg hbrace]
      split at h
      · cases h
      · next hstart => rw [if_neg hstart]

theorem interpolation?_braced {source code : Text}
    (h : interpolation? source = some (.braced code)) : source = CodePoint.ofChar '{' :: code := by
  unfold interpolation? at h
  split at h
  · cases h
  · split at h
    · next hbrace =>
      cases h
      rw [eq_of_beq hbrace]
    · split at h <;> cases h

theorem interpolation?_name_exchange {source y : Text} (hz : z ≠ [])
    (h : interpolation? source = some (.name (z ++ y))) :
    ∃ e, source = e ++ (z ++ y) ∧ ∀ y', interpolation? (e ++ (z ++ y')) = some (.name (z ++ y')) := by
  unfold interpolation? at h
  split at h
  · cases h
  · next c t =>
    split at h
    · cases h
    · next hbrace =>
      split at h
      · next hstart =>
        have hrest : t.dropWhile CodePoint.isNameChar = z ++ y := by simpa using h
        have hnext : ∀ x ∈ (z ++ y).head?, x.isNameChar = false := by
          intro x hx
          have hstop := List.head?_dropWhile_not CodePoint.isNameChar t
          rw [hrest, hx] at hstop
          simpa using hstop
        refine ⟨c :: t.takeWhile CodePoint.isNameChar, ?_, ?_⟩
        · rw [List.cons_append, ← hrest, List.takeWhile_append_dropWhile]
        · intro y'
          refine interpolation?_name hstart (List.all_takeWhile) ?_
          rw [head?_append_congr hz y' y]
          exact hnext
      · cases h

theorem afterLine_exchange {t y : Text} (hz : z ≠ []) (h : afterLine t = z ++ y) :
    ∃ e, t = e ++ (z ++ y) ∧ ∀ y', afterLine (e ++ (z ++ y')) = z ++ y' := by
  induction t with
  | nil => simp [afterLine, hz] at h
  | cons c t ih =>
    by_cases hc : c = '\n'
    · subst hc
      have ht : t = z ++ y := by simpa [afterLine] using h
      refine ⟨['\n'], by simp [ht], ?_⟩
      intro y'
      simp [afterLine]
    · rw [afterLine_cons_of_ne hc] at h
      obtain ⟨e, ht, he⟩ := ih h
      refine ⟨c :: e, by rw [ht, List.cons_append], ?_⟩
      intro y'
      rw [List.cons_append, afterLine_cons_of_ne hc, he]

theorem afterBlock_exchange {t y : Text} (hz : z ≠ []) (h : afterBlock t = z ++ y) :
    ∃ e, t = e ++ (z ++ y) ∧ ∀ y', afterBlock (e ++ (z ++ y')) = z ++ y' := by
  induction t with
  | nil => simp [afterBlock, hz] at h
  | cons c t ih =>
    rw [afterBlock] at h
    split at h
    · next hend =>
      have hslash : t.head? = some (CodePoint.ofChar '/') := by simp_all
      obtain ⟨s, rfl⟩ := List.head?_eq_some_iff.mp hslash
      have hs : s = z ++ y := by simpa using h
      refine ⟨[c, '/'], by simp [hs], ?_⟩
      intro y'
      have hc : c = '*' := by simp_all
      simp [afterBlock, hc]
    · next hend =>
      obtain ⟨e, ht, he⟩ := ih h
      refine ⟨c :: e, by rw [ht, List.cons_append], ?_⟩
      intro y'
      rw [List.cons_append, afterBlock, if_neg, he]
      -- the known text is not empty, so the character behind a star is the same
      rw [ht, ← List.append_assoc, head?_append_congr (by simp [hz]) y y'] at hend
      rw [← List.append_assoc]
      exact hend

theorem afterComment?_exchange {t y : Text} (hz : z ≠ []) (h : afterComment? t = some (z ++ y)) :
    ∃ e, t = CodePoint.ofChar '/' :: (e ++ (z ++ y)) ∧
      ∀ y', afterComment? (CodePoint.ofChar '/' :: (e ++ (z ++ y'))) = some (z ++ y') := by
  unfold afterComment? at h
  split at h
  · next a b t =>
    split at h
    · next hline =>
      simp only [Bool.and_eq_true, beq_iff_eq] at hline
      obtain ⟨rfl, rfl⟩ := hline
      obtain ⟨e, rfl, he⟩ := afterLine_exchange hz (Option.some.inj h)
      refine ⟨'/' :: e, rfl, ?_⟩
      intro y'
      simp [afterComment?, he]
    · split at h
      · next hblock =>
        simp only [Bool.and_eq_true, beq_iff_eq] at hblock
        obtain ⟨rfl, rfl⟩ := hblock
        obtain ⟨e, rfl, he⟩ := afterBlock_exchange hz (Option.some.inj h)
        refine ⟨'*' :: e, rfl, ?_⟩
        intro y'
        simp [afterComment?, he]
      · cases h
  · cases h

theorem afterComment?_congr_none {c : CodePoint} {y : Text} (hz : z ≠ [])
    (h : afterComment? (c :: (z ++ y)) = none) (y' : Text) :
    afterComment? (c :: (z ++ y')) = none := by
  cases z with
  | nil => exact absurd rfl hz
  | cons b z =>
    simp only [List.cons_append, afterComment?] at h ⊢
    split at h
    · cases h
    · next hline =>
      rw [if_neg hline]
      split at h
      · cases h
      · next hblock => rw [if_neg hblock]

/-! The start of a part. -/

theorem opens_of_openQuotes {raw : Bool} {m t body : Text} {d : Delimiter} (hm : RawMark raw m)
    (h : openQuotes? raw t = some (d, body)) :
    Opens d (m ++ t) body ∧ d.raw = raw ∧ (d.triple = false → ¬ [d.quote, d.quote] <+: body) := by
  unfold openQuotes? at h
  split at h
  · cases h
  · next q rest =>
    split at h
    · next hq =>
      split at h
      · next more hmore =>
        obtain rfl := List.append_eq_of_isPrefixOf?_eq_some hmore
        cases h
        refine ⟨?_, rfl, by simp⟩
        by_cases hblank : ∃ s, BlankLine more s
        · obtain ⟨s, hs⟩ := hblank
          rw [dropBlankLine_of_blankLine hs]
          exact .tripleLine hq hm hs
        · have hself : ∀ s, ¬ BlankLine more s := fun s hs => hblank ⟨s, hs⟩
          rw [dropBlankLine_eq_self hself]
          exact .triple hq hm hself
      · next hmore =>
        cases h
        refine ⟨.single hq hm, rfl, ?_⟩
        rintro - ⟨more, rfl⟩
        rw [List.isPrefixOf?_eq_some_iff_append_eq.mpr rfl] at hmore
        cases hmore
    · cases h

theorem opens_of_openPart {t body : Text} {d : Delimiter} (h : openPart? t = some (d, body)) :
    Opens d t body ∧ (d.triple = false → ¬ [d.quote, d.quote] <+: body) := by
  unfold openPart? at h
  split at h
  · cases h
  · next c rest =>
    split at h
    · next hr =>
      have hm : RawMark true [c] := by
        simp only [Bool.or_eq_true, beq_iff_eq] at hr
        rcases hr with rfl | rfl
        · exact .lower
        · exact .upper
      obtain ⟨hopens, _, hdouble⟩ := opens_of_openQuotes hm h
      exact ⟨hopens, hdouble⟩
    · obtain ⟨hopens, _, hdouble⟩ := opens_of_openQuotes .none h
      exact ⟨hopens, hdouble⟩

theorem BlankLine.exchange {t y : Text} (hz : z ≠ []) (h : BlankLine t (z ++ y)) :
    ∃ b, t = b ++ (z ++ y) ∧ ∀ y', BlankLine (b ++ (z ++ y')) (z ++ y') := by
  generalize hs : z ++ y = s at h
  induction h with
  | lineFeed =>
    subst hs
    exact ⟨['\n'], rfl, fun y' => .lineFeed⟩
  | returnFeed =>
    subst hs
    exact ⟨['\r', '\n'], rfl, fun y' => .returnFeed⟩
  | carriageReturn hhead =>
    subst hs
    refine ⟨['\r'], rfl, fun y' => .carriageReturn ?_⟩
    change (z ++ y').head? ≠ _
    rw [head?_append_congr hz y' y]
    exact hhead
  | @space c t s hc _ ih =>
    obtain ⟨b, rfl, hb⟩ := ih hs
    exact ⟨c :: b, rfl, fun y' => .space hc (hb y')⟩

theorem BlankLine.of_append {y' s : Text} (hz : ∃ c ∈ z, c.isSolid) (h : BlankLine (z ++ y') s)
    (y : Text) : ∃ s', BlankLine (z ++ y) s' := by
  generalize ht : z ++ y' = t at h
  induction h generalizing z with
  | lineFeed =>
    cases z with
    | nil => simp at hz
    | cons a z =>
      cases ht
      exact ⟨_, .lineFeed⟩
  | returnFeed =>
    cases z with
    | nil => simp at hz
    | cons a z =>
      obtain ⟨rfl, htail⟩ := List.cons.inj ht
      cases z with
      | nil => simp [CodePoint.isSolid, CodePoint.isNewline] at hz
      | cons b z =>
        cases htail
        exact ⟨_, .returnFeed⟩
  | carriageReturn hhead =>
    cases z with
    | nil => simp at hz
    | cons a z =>
      obtain ⟨rfl, htail⟩ := List.cons.inj ht
      cases z with
      | nil => simp [CodePoint.isSolid, CodePoint.isNewline] at hz
      | cons b z =>
        cases htail
        exact ⟨_, .carriageReturn hhead⟩
  | space hc _ ih =>
    cases z with
    | nil => simp at hz
    | cons a z =>
      obtain ⟨rfl, htail⟩ := List.cons.inj ht
      have hsolid : ∃ x ∈ z, x.isSolid := by
        obtain ⟨x, hx, hsolid⟩ := hz
        rcases List.mem_cons.mp hx with rfl | hx
        · rcases hc with rfl | rfl <;> exact absurd hsolid (by decide)
        · exact ⟨x, hx, hsolid⟩
      obtain ⟨s', hs'⟩ := ih hsolid htail
      exact ⟨s', .space hc hs'⟩

theorem Opens.exchange {d : Delimiter} {t y : Text} (hz : z ≠ [])
    (hsolid : d.triple → ∃ c ∈ z, c.isSolid) (h : Opens d t (z ++ y)) :
    ∃ o, t = o ++ (z ++ y) ∧ ∀ y', Opens d (o ++ (z ++ y')) (z ++ y') := by
  generalize hbody : z ++ y = body at h
  cases h with
  | @single q raw m _ hq hm =>
    refine ⟨m ++ [q], by simp, fun y' => ?_⟩
    have hopens : Opens _ (m ++ q :: (z ++ y')) (z ++ y') := .single hq hm
    simpa using hopens
  | @triple q raw m _ hq hm hblank =>
    refine ⟨m ++ [q, q, q], by simp, fun y' => ?_⟩
    have hopens : Opens ⟨q, true, raw⟩ (m ++ q :: q :: q :: (z ++ y')) (z ++ y') := by
      refine .triple hq hm ?_
      intro s hs
      obtain ⟨s', hs'⟩ := hs.of_append (hsolid rfl) y
      rw [hbody] at hs'
      exact hblank s' hs'
    simpa using hopens
  | @tripleLine q raw m t _ hq hm hline =>
    subst hbody
    obtain ⟨b, rfl, hb⟩ := hline.exchange hz
    refine ⟨m ++ [q, q, q] ++ b, by simp, fun y' => ?_⟩
    have hopens : Opens _ (m ++ q :: q :: q :: (b ++ (z ++ y'))) (z ++ y') :=
      .tripleLine hq hm (hb y')
    simpa using hopens

theorem isSome_openPart {t : Text} {w : Bool}
    (h : t.head?.any CodePoint.isQuote || startsRaw w t) : (openPart? t).isSome := by
  have hquotes : ∀ (raw : Bool) (q : CodePoint) (rest : Text), q.isQuote →
      (openQuotes? raw (q :: rest)).isSome := by
    intro raw q rest hq
    rw [openQuotes?, if_pos hq]
    split <;> rfl
  rw [Bool.or_eq_true] at h
  cases t with
  | nil => simp [startsRaw] at h
  | cons c t =>
    rw [openPart?]
    rcases h with hq | hraw
    · have hc : c.isQuote := by simpa using hq
      have hr : ¬ (c == CodePoint.ofChar 'r' || c == CodePoint.ofChar 'R') := by
        simp only [Bool.or_eq_true, beq_iff_eq]
        rintro (rfl | rfl) <;> exact absurd hc (by decide)
      rw [if_neg hr]
      exact hquotes false c t hc
    · cases t with
      | nil => simp [startsRaw] at hraw
      | cons q t =>
        simp only [startsRaw, Bool.and_eq_true] at hraw
        rw [if_pos hraw.1.1]
        exact hquotes true q t hraw.1.2

theorem nestedPart?_eq_none_iff {w : Bool} {t : Text} :
    nestedPart? w t = none ↔ (t.head?.any CodePoint.isQuote || startsRaw w t) = false := by
  unfold nestedPart?
  split
  · next h =>
    have hsome := isSome_openPart h
    simp only [h, Bool.true_eq_false, iff_false]
    intro hnone
    rw [hnone] at hsome
    cases hsome
  · next h => simpa using h

theorem nestedPart?_congr_none {w : Bool} {c : CodePoint} {y : Text} (hz : z ≠ [])
    (h : nestedPart? w (c :: (z ++ y)) = none) (y' : Text) :
    nestedPart? w (c :: (z ++ y')) = none := by
  rw [nestedPart?_eq_none_iff] at h ⊢
  cases z with
  | nil => exact absurd rfl hz
  | cons b z => exact h

theorem nestedPart?_slash (w : Bool) (t : Text) :
    nestedPart? w (CodePoint.ofChar '/' :: t) = none := by
  cases t <;> rfl

theorem not_afterWord_of_nestedPart {w : Bool} {t body : Text} {d : Delimiter}
    (h : nestedPart? w t = some (d, body)) (hraw : d.raw) : w = false := by
  have hopens := (opens_of_openPart (openPart_of_nestedPart h)).1
  have hstarts : t.head?.any CodePoint.isQuote || startsRaw w t := by
    cases hstarts : t.head?.any CodePoint.isQuote || startsRaw w t with
    | true => rfl
    | false =>
      rw [nestedPart?_eq_none_iff.mpr hstarts] at h
      cases h
  obtain ⟨m, q, rest, rfl, _, hm⟩ := hopens.head
  rw [hraw] at hm
  cases w with
  | false => rfl
  | true => cases hm <;> simp [startsRaw] at hstarts <;> exact absurd hstarts (by decide)

theorem nestedPart?_exchange {w : Bool} {d : Delimiter} {t y : Text} (hz : z ≠ [])
    (hsolid : d.triple → ∃ c ∈ z, c.isSolid) (h : nestedPart? w t = some (d, z ++ y)) :
    ∃ o, t = o ++ (z ++ y) ∧ ∀ y', (d.triple = false → ¬ [d.quote, d.quote] <+: z ++ y') →
      nestedPart? w (o ++ (z ++ y')) = some (d, z ++ y') := by
  obtain ⟨hopens, _⟩ := opens_of_openPart (openPart_of_nestedPart h)
  obtain ⟨o, ht, ho⟩ := hopens.exchange hz hsolid
  exact ⟨o, ht, fun y' hdouble =>
    nestedPart?_of_opens (ho y') (not_afterWord_of_nestedPart h) hdouble⟩

end Literal

end Deadwood
