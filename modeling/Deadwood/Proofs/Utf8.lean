import Deadwood.Text.Malformed
import Mathlib.Data.List.TakeWhile

/-!
UTF-8 in both directions. The readers leave whole what was written without surrogates, whatever
bytes follow it, and of any other bytes they keep the same code points, which were all written
there.
-/
namespace Deadwood.Utf8

variable {lead b : UInt8} {bytes rest taken : Bytes} {p : CodePoint} {n : Nat}

/-! ### Well-formed sequences -/

/-- A byte after the second one, and most second bytes. -/
def Tail (b : UInt8) : Prop :=
  0x80 ≤ b.toNat ∧ b.toNat < 0xC0

/-- The well-formed sequences with the numbers that they write. The second byte is limited where the
number would fit into fewer bytes, be a surrogate, or be past the last code point. -/
inductive Sequence : Bytes → Nat → Prop
  | one {a : UInt8} {n : Nat} : a.toNat < 0x80 → n = a.toNat → Sequence [a] n
  | two {a b : UInt8} {n : Nat} : 0xC2 ≤ a.toNat → a.toNat < 0xE0 → Tail b →
      n = (a.toNat - 0xC0) * 0x40 + (b.toNat - 0x80) → Sequence [a, b] n
  | three {a b c : UInt8} {n : Nat} : 0xE0 ≤ a.toNat → a.toNat < 0xF0 → Tail b → Tail c →
      (a.toNat = 0xE0 → 0xA0 ≤ b.toNat) → (a.toNat = 0xED → b.toNat < 0xA0) →
      n = ((a.toNat - 0xE0) * 0x40 + (b.toNat - 0x80)) * 0x40 + (c.toNat - 0x80) →
      Sequence [a, b, c] n
  | four {a b c d : UInt8} {n : Nat} : 0xF0 ≤ a.toNat → a.toNat < 0xF5 → Tail b → Tail c → Tail d →
      (a.toNat = 0xF0 → 0x90 ≤ b.toNat) → (a.toNat = 0xF4 → b.toNat < 0x90) →
      n = (((a.toNat - 0xF0) * 0x40 + (b.toNat - 0x80)) * 0x40 + (c.toNat - 0x80)) * 0x40 +
        (d.toNat - 0x80) →
      Sequence [a, b, c, d] n

theorem isSurrogate_iff : p.isSurrogate ↔ 0xD800 ≤ p.val ∧ p.val < 0xE000 := by
  simp only [CodePoint.isSurrogate, Bool.and_eq_true, decide_eq_true_eq]
  omega

theorem Sequence.bounds (h : Sequence bytes n) : n < 0x110000 ∧ ¬ (0xD800 ≤ n ∧ n < 0xE000) := by
  cases h with
  | one => omega
  | two _ _ hb => unfold Tail at hb; omega
  | three _ _ hb hc => unfold Tail at hb hc; omega
  | four _ _ hb hc hd => unfold Tail at hb hc hd; omega

theorem Sequence.encodePoint_eq (h : Sequence bytes p.val) : encodePoint p = bytes := by
  unfold encodePoint
  generalize p.val = n at h
  cases h with
  | one ha hn => rw [if_pos (by omega), hn, Nat.toUInt8, UInt8.ofNat_toNat]
  | two ha ha' hb hn =>
    unfold Tail at hb
    dsimp only
    rw [if_neg (by omega), if_pos (by omega)]
    simp only [List.cons.injEq, ← UInt8.toNat_inj, Nat.toUInt8, UInt8.toNat_ofNat', and_true]
    omega
  | three ha ha' hb hc hE0 hED hn =>
    unfold Tail at hb hc
    dsimp only
    rw [if_neg (by omega), if_neg (by omega), if_pos (by omega)]
    simp only [List.cons.injEq, ← UInt8.toNat_inj, Nat.toUInt8, UInt8.toNat_ofNat', and_true]
    omega
  | four ha ha' hb hc hd hF0 hF4 hn =>
    unfold Tail at hb hc hd
    dsimp only
    rw [if_neg (by omega), if_neg (by omega), if_neg (by omega)]
    simp only [List.cons.injEq, ← UInt8.toNat_inj, Nat.toUInt8, UInt8.toNat_ofNat', and_true]
    omega

theorem sequence_encodePoint (h : p.isSurrogate = false) : Sequence (encodePoint p) p.val := by
  have hp := p.isLt
  rw [← Bool.not_eq_true, isSurrogate_iff] at h
  unfold encodePoint
  generalize p.val = n at h hp
  have hbyte : ∀ m, m < 0x100 → m.toUInt8.toNat = m := fun m hm => UInt8.toNat_ofNat_of_lt' hm
  have htail : ∀ m, (0x80 + m % 0x40).toUInt8.toNat = 0x80 + m % 0x40 :=
    fun m => hbyte _ (by omega)
  have hall : ∀ m, Tail (0x80 + m % 0x40).toUInt8 := fun m => by rw [Tail, htail]; omega
  dsimp only
  split
  · exact .one (by rw [hbyte] <;> omega) (by rw [hbyte]; omega)
  split
  · apply Sequence.two
    · rw [hbyte] <;> omega
    · rw [hbyte] <;> omega
    · exact hall n
    · rw [hbyte, htail] <;> omega
  split
  · apply Sequence.three
    · rw [hbyte] <;> omega
    · rw [hbyte] <;> omega
    · exact hall _
    · exact hall n
    · rw [hbyte, htail] <;> omega
    · rw [hbyte, htail] <;> omega
    · rw [hbyte, htail, htail] <;> omega
  · apply Sequence.four
    · rw [hbyte] <;> omega
    · rw [hbyte] <;> omega
    · exact hall _
    · exact hall _
    · exact hall n
    · rw [hbyte, htail] <;> omega
    · rw [hbyte, htail] <;> omega
    · rw [hbyte, htail, htail, htail] <;> omega

/-! ### The first piece -/

theorem tailLength?_eq_some_iff : tailLength? lead = some n ↔
    (n = 0 ∧ lead.toNat < 0x80) ∨ (n = 1 ∧ 0xC2 ≤ lead.toNat ∧ lead.toNat < 0xE0) ∨
      (n = 2 ∧ 0xE0 ≤ lead.toNat ∧ lead.toNat < 0xF0) ∨
      (n = 3 ∧ 0xF0 ≤ lead.toNat ∧ lead.toNat < 0xF5) := by
  simp only [tailLength?, UInt8.lt_iff_toNat_lt, UInt8.reduceToNat]
  split
  · rw [Option.some.injEq]; omega
  split
  · simp only [reduceCtorEq, false_iff]; omega
  split
  · rw [Option.some.injEq]; omega
  split
  · rw [Option.some.injEq]; omega
  split
  · rw [Option.some.injEq]; omega
  · simp only [reduceCtorEq, false_iff]; omega

theorem isTail_iff : isTail b ↔ Tail b := by
  simp only [isTail, Tail, UInt8.le_iff_toNat_le, UInt8.reduceToNat, Bool.and_eq_true,
    decide_eq_true_eq]
  omega

theorem mayFollow_iff : mayFollow lead b ↔
    Tail b ∧ (lead.toNat = 0xE0 → 0xA0 ≤ b.toNat) ∧ (lead.toNat = 0xED → b.toNat < 0xA0) ∧
      (lead.toNat = 0xF0 → 0x90 ≤ b.toNat) ∧ (lead.toNat = 0xF4 → b.toNat < 0x90) := by
  rw [← isTail_iff]
  simp only [mayFollow, isTail, ← UInt8.toNat_inj, beq_iff_eq, UInt8.le_iff_toNat_le,
    UInt8.reduceToNat]
  split
  · simp only [Bool.and_eq_true, decide_eq_true_eq]; omega
  split
  · simp only [Bool.and_eq_true, decide_eq_true_eq]; omega
  split
  · simp only [Bool.and_eq_true, decide_eq_true_eq]; omega
  split
  · simp only [Bool.and_eq_true, decide_eq_true_eq]; omega
  · simp only [Bool.and_eq_true, decide_eq_true_eq]; omega

theorem tail_append (hb : mayFollow lead b) (htaken : ∀ y ∈ taken, isTail y) (rest : Bytes) :
    tail lead (taken.length + 1) (b :: (taken ++ rest)) = b :: taken := by
  rw [tail, if_pos (by rw [hb]; rfl), Nat.add_sub_cancel, List.take_left,
    List.takeWhile_eq_self_iff.mpr htaken]

theorem exists_of_length_tail (h : (tail lead (n + 1) rest).length = n + 1) :
    ∃ b taken after, rest = b :: (taken ++ after) ∧ taken.length = n ∧ mayFollow lead b ∧
      ∀ y ∈ taken, isTail y := by
  cases rest with
  | nil => cases h
  | cons b rest =>
    rw [tail] at h
    split at h
    · next hb =>
      simp only [Nat.add_sub_cancel, List.length_cons, Nat.add_right_cancel_iff] at h
      have hprefix := List.takeWhile_prefix (l := rest.take n) isTail
      have hall : (rest.take n).takeWhile isTail = rest.take n :=
        hprefix.eq_of_length_le (by rw [h]; exact List.length_take_le n rest)
      refine ⟨b, rest.take n, rest.drop n, by rw [List.take_append_drop], by rw [← hall, h], ?_,
        List.takeWhile_eq_self_iff.mp hall⟩
      exact (Bool.and_eq_true_iff.mp hb).2
    · cases h

/-- A lead byte with all the tail bytes that it asks for. -/
structure Complete (lead : UInt8) (taken : Bytes) : Prop where
  length : tailLength? lead = some taken.length
  first : ∀ b ∈ taken.head?, mayFollow lead b
  others : ∀ b ∈ taken.tail, isTail b

def bitsOf (lead : UInt8) (taken : Bytes) : Nat :=
  taken.foldl (fun v b => v * 0x40 + b.toNat % 0x40) (leadBits lead taken.length)

theorem firstPiece_of_complete (h : Complete lead taken) (rest : Bytes) :
    firstPiece lead (taken ++ rest) = (.scalar (.ofNat (bitsOf lead taken)), taken.length) := by
  have htail : tail lead taken.length (taken ++ rest) = taken := by
    cases taken with
    | nil => cases rest <;> rfl
    | cons b taken => exact tail_append (h.first b rfl) h.others rest
  unfold firstPiece
  rw [h.length]
  dsimp only
  rewrite [htail, if_pos (beq_self_eq_true _)]
  rfl

theorem complete_of_firstPiece (h : firstPiece lead rest = (.scalar p, n)) :
    ∃ taken after, rest = taken ++ after ∧ taken.length = n ∧ Complete lead taken := by
  unfold firstPiece at h
  cases hlead : tailLength? lead with
  | none => rw [hlead] at h; cases h
  | some k =>
    rw [hlead] at h
    dsimp only at h
    split at h
    · next hlength =>
      cases h
      cases n with
      | zero =>
        exact ⟨[], rest, rfl, rfl, hlead, by simp, by simp⟩
      | succ n =>
        obtain ⟨b, taken, after, rfl, rfl, hb, htaken⟩ :=
          exists_of_length_tail (beq_iff_eq.mp hlength)
        refine ⟨b :: taken, after, rfl, rfl, hlead, ?_, htaken⟩
        rintro _ ⟨rfl⟩
        exact hb
    · cases h

theorem Complete.sequence (h : Complete lead taken) :
    Sequence (lead :: taken) (bitsOf lead taken) := by
  obtain ⟨hlength, hfirst, hothers⟩ := h
  obtain ⟨hn, hlt⟩ | ⟨hn, hge, hlt⟩ | ⟨hn, hge, hlt⟩ | ⟨hn, hge, hlt⟩ :=
    tailLength?_eq_some_iff.mp hlength
  · match taken, hn with
    | [], _ => exact .one hlt rfl
  · match taken, hn with
    | [b], _ =>
      obtain ⟨hb, -⟩ := mayFollow_iff.mp (hfirst b rfl)
      refine .two hge hlt hb ?_
      unfold Tail at hb
      simp only [bitsOf, List.foldl_cons, List.foldl_nil, List.length_cons, List.length_nil,
        leadBits]
      omega
  · match taken, hn with
    | [b, c], _ =>
      obtain ⟨hb, hE0, hED, -⟩ := mayFollow_iff.mp (hfirst b rfl)
      have hc := isTail_iff.mp (hothers c (by simp))
      refine .three hge hlt hb hc hE0 hED ?_
      unfold Tail at hb hc
      simp only [bitsOf, List.foldl_cons, List.foldl_nil, List.length_cons, List.length_nil,
        leadBits]
      omega
  · match taken, hn with
    | [b, c, d], _ =>
      obtain ⟨hb, -, -, hF0, hF4⟩ := mayFollow_iff.mp (hfirst b rfl)
      have hc := isTail_iff.mp (hothers c (by simp))
      have hd := isTail_iff.mp (hothers d (by simp))
      refine .four hge hlt hb hc hd hF0 hF4 ?_
      unfold Tail at hb hc hd
      simp only [bitsOf, List.foldl_cons, List.foldl_nil, List.length_cons, List.length_nil,
        leadBits]
      omega

theorem Sequence.complete (h : Sequence (lead :: taken) n) : Complete lead taken := by
  cases h with
  | one hlt => exact ⟨tailLength?_eq_some_iff.mpr (.inl ⟨rfl, hlt⟩), by simp, by simp⟩
  | two hge hlt hb =>
    refine ⟨tailLength?_eq_some_iff.mpr (.inr (.inl ⟨rfl, hge, hlt⟩)), ?_, by simp⟩
    rintro _ ⟨rfl⟩
    exact mayFollow_iff.mpr ⟨hb, by omega, by omega, by omega, by omega⟩
  | three hge hlt hb hc hE0 hED =>
    refine ⟨tailLength?_eq_some_iff.mpr (.inr (.inr (.inl ⟨rfl, hge, hlt⟩))), ?_,
      by simpa using isTail_iff.mpr hc⟩
    rintro _ ⟨rfl⟩
    exact mayFollow_iff.mpr ⟨hb, hE0, hED, by omega, by omega⟩
  | four hge hlt hb hc hd hF0 hF4 =>
    refine ⟨tailLength?_eq_some_iff.mpr (.inr (.inr (.inr ⟨rfl, hge, hlt⟩))), ?_,
      by simpa using ⟨isTail_iff.mpr hc, isTail_iff.mpr hd⟩⟩
    rintro _ ⟨rfl⟩
    exact mayFollow_iff.mpr ⟨hb, by omega, by omega, hF0, hF4⟩

theorem Sequence.unique {m : Nat} (h : Sequence bytes m) (h' : Sequence bytes n) : m = n := by
  cases h <;> cases h' <;> omega

theorem ofNat_val (p : CodePoint) : CodePoint.ofNat p.val = p :=
  Fin.ext (Nat.mod_eq_of_lt p.isLt)

theorem firstPiece_of_sequence (h : Sequence (lead :: taken) p.val) (rest : Bytes) :
    firstPiece lead (taken ++ rest) = (.scalar p, taken.length) := by
  have hcomplete := h.complete
  rw [firstPiece_of_complete hcomplete, hcomplete.sequence.unique h, ofNat_val]

theorem sequence_of_firstPiece (h : firstPiece lead rest = (.scalar p, n)) :
    ∃ taken after, rest = taken ++ after ∧ taken.length = n ∧ Sequence (lead :: taken) p.val := by
  obtain ⟨taken, after, rfl, rfl, hcomplete⟩ := complete_of_firstPiece h
  refine ⟨taken, after, rfl, rfl, ?_⟩
  rw [firstPiece_of_complete hcomplete] at h
  cases h
  have hval : (CodePoint.ofNat (bitsOf lead taken)).val = bitsOf lead taken :=
    Nat.mod_eq_of_lt hcomplete.sequence.bounds.1
  rw [hval]
  exact hcomplete.sequence

/-! ### All pieces -/

theorem piecesFrom_append (taken rest : Bytes) :
    piecesFrom taken.length (taken ++ rest) = pieces rest := by
  induction taken with
  | nil => rfl
  | cons b taken ih => exact ih

theorem pieces_of_sequence (h : Sequence bytes p.val) (rest : Bytes) :
    pieces (bytes ++ rest) = .scalar p :: pieces rest := by
  obtain ⟨lead, taken, rfl⟩ : ∃ lead taken, bytes = lead :: taken := by
    cases h <;> exact ⟨_, _, rfl⟩
  rw [List.cons_append, pieces, piecesFrom, firstPiece_of_sequence h]
  exact congrArg _ (piecesFrom_append taken rest)

variable {s : Text}

theorem pieces_encode_append (hs : ∀ p ∈ s, p.isSurrogate = false) (rest : Bytes) :
    pieces (encode s ++ rest) = s.map .scalar ++ pieces rest := by
  induction s with
  | nil => rfl
  | cons p s ih =>
    rw [List.forall_mem_cons] at hs
    rewrite [encode, List.flatMap_cons, List.append_assoc,
      pieces_of_sequence (sequence_encodePoint hs.1),
      ← encode, ih hs.2]
    rfl

/-- Bytes cut into pieces: well-formed sequences, and other bytes that are no code point. -/
inductive CutInto : Bytes → List Piece → Prop
  | nil : CutInto [] []
  | scalar {bytes rest : Bytes} {p : CodePoint} {ps : List Piece} : Sequence bytes p.val →
      CutInto rest ps → CutInto (bytes ++ rest) (.scalar p :: ps)
  | malformed {bytes rest : Bytes} {ps : List Piece} : CutInto rest ps →
      CutInto (bytes ++ rest) (.malformed :: ps)

theorem cutInto_piecesFrom (skip : Nat) (bytes : Bytes) :
    CutInto (bytes.drop skip) (piecesFrom skip bytes) := by
  fun_induction piecesFrom skip bytes with
  | case1 skip =>
    rw [List.drop_nil]
    exact .nil
  | case2 b rest k ih => exact ih
  | case3 b rest piece n hpiece ih =>
    cases piece with
    | scalar p =>
      obtain ⟨taken, after, rfl, rfl, hsequence⟩ := sequence_of_firstPiece hpiece
      rw [List.drop_left] at ih
      exact .scalar hsequence ih
    | malformed =>
      have hcut : CutInto (b :: rest.take n ++ rest.drop n) (.malformed :: piecesFrom n rest) :=
        .malformed ih
      rwa [List.cons_append, List.take_append_drop] at hcut

theorem cutInto_pieces (bytes : Bytes) : CutInto bytes (pieces bytes) :=
  cutInto_piecesFrom 0 bytes

def Piece.scalar? : Piece → Option CodePoint
  | .scalar p => some p
  | .malformed => none

theorem decodeSkipping_eq (bytes : Bytes) :
    decodeSkipping bytes = (pieces bytes).filterMap Piece.scalar? := rfl

variable {ps : List Piece}

theorem CutInto.isSurrogate_eq_false (h : CutInto bytes ps) :
    ∀ p ∈ ps.filterMap Piece.scalar?, p.isSurrogate = false := by
  induction h with
  | nil => exact fun p hp => absurd hp List.not_mem_nil
  | scalar hsequence _ ih =>
    refine List.forall_mem_cons.mpr ⟨?_, ih⟩
    rw [← Bool.not_eq_true, isSurrogate_iff]
    exact hsequence.bounds.2
  | malformed _ ih => exact ih

theorem CutInto.encode_sublist (h : CutInto bytes ps) :
    (encode (ps.filterMap Piece.scalar?)).Sublist bytes := by
  induction h with
  | nil => exact List.Sublist.slnil
  | scalar hsequence _ ih =>
    rw [← hsequence.encodePoint_eq]
    exact (List.Sublist.refl _).append ih
  | malformed _ ih => exact ih.trans (List.sublist_append_right _ _)

/-! ### The strict reader -/

/-- The bytes write a text without surrogates. -/
def WellFormed (bytes : Bytes) : Prop :=
  ∃ s : Text, (∀ p ∈ s, p.isSurrogate = false) ∧ encode s = bytes

theorem decode?_eq (bytes : Bytes) : decode? bytes = (pieces bytes).mapM Piece.scalar? := rfl

theorem mapM_scalar?_cons (p : CodePoint) (ps : List Piece) :
    (Piece.scalar p :: ps).mapM Piece.scalar? = (ps.mapM Piece.scalar?).map (p :: ·) := by
  rw [List.mapM_cons]
  cases ps.mapM Piece.scalar? <;> rfl

theorem mapM_scalar?_eq_some_iff {s : Text} :
    ps.mapM Piece.scalar? = some s ↔ ps = s.map Piece.scalar := by
  induction ps generalizing s with
  | nil => cases s <;> simp
  | cons piece ps ih =>
    cases piece with
    | malformed => cases s <;> simp [Piece.scalar?]
    | scalar p =>
      rw [mapM_scalar?_cons, Option.map_eq_some_iff]
      cases s with
      | nil => simp
      | cons q s =>
        simp only [ih, List.cons.injEq, List.map_cons, Piece.scalar.injEq]
        exact ⟨fun ⟨_, hps, hp, hs⟩ => ⟨hp, hs ▸ hps⟩, fun ⟨hp, hps⟩ => ⟨s, hps, hp, rfl⟩⟩

theorem isSome_mapM_scalar?_iff : (ps.mapM Piece.scalar?).isSome ↔ Piece.malformed ∉ ps := by
  induction ps with
  | nil => simp
  | cons piece ps ih =>
    cases piece with
    | malformed => simp [Piece.scalar?]
    | scalar p =>
      rw [mapM_scalar?_cons, Option.isSome_map, ih]
      simp

theorem filterMap_scalar? (s : Text) : (s.map Piece.scalar).filterMap Piece.scalar? = s := by
  rw [List.filterMap_map]
  exact List.filterMap_some

theorem CutInto.encode_eq {s : Text} (h : CutInto bytes (s.map Piece.scalar)) :
    encode s = bytes := by
  induction s generalizing bytes with
  | nil =>
    cases h
    rfl
  | cons p s ih =>
    cases h with
    | scalar hsequence hrest =>
      rw [← ih hrest, ← hsequence.encodePoint_eq]
      rfl

theorem decode?_eq_some_iff {s : Text} :
    decode? bytes = some s ↔ (∀ p ∈ s, p.isSurrogate = false) ∧ encode s = bytes := by
  rw [decode?_eq, mapM_scalar?_eq_some_iff]
  constructor
  · intro h
    have hcut := cutInto_pieces bytes
    rw [h] at hcut
    exact ⟨filterMap_scalar? s ▸ hcut.isSurrogate_eq_false, hcut.encode_eq⟩
  · rintro ⟨hs, rfl⟩
    simpa [pieces, piecesFrom] using pieces_encode_append hs []

theorem isSome_decode?_iff : (decode? bytes).isSome ↔ WellFormed bytes := by
  rw [Option.isSome_iff_exists]
  exact exists_congr fun s => decode?_eq_some_iff

theorem isSome_malformedFrom? (place skip : Nat) (bytes : Bytes) :
    (malformedFrom? place skip bytes).isSome ↔ Piece.malformed ∈ piecesFrom skip bytes := by
  induction bytes generalizing place skip with
  | nil => simp [malformedFrom?, piecesFrom]
  | cons b rest ih =>
    cases skip with
    | succ k => exact ih (place + 1) k
    | zero =>
      rw [malformedFrom?, piecesFrom]
      rcases firstPiece b rest with ⟨p | _, n⟩
      · simpa using ih (place + 1) n
      · simp

theorem isSome_malformed?_iff : (malformed? bytes).isSome ↔ ¬ WellFormed bytes := by
  rw [malformed?, isSome_malformedFrom?, ← isSome_decode?_iff, decode?_eq,
    isSome_mapM_scalar?_iff, Classical.not_not, pieces]

/-! ### The two readers -/

/-- The mark that one reader puts where the other leaves something out. -/
def replacement : CodePoint := '\uFFFD'

theorem filter_decodeSkipping (bytes : Bytes) :
    (decodeSkipping bytes).filter (· != replacement) =
      (decodeReplacing bytes).filter (· != replacement) := by
  unfold decodeSkipping decodeReplacing
  induction pieces bytes with
  | nil => rfl
  | cons piece ps ih =>
    cases piece with
    | scalar p => simp only [List.filterMap_cons, List.map_cons, List.filter_cons, ih]
    | malformed =>
      rewrite [List.filterMap_cons, List.map_cons, List.filter_cons, ih]
      rfl

theorem decodeSkipping_encode_append (hs : ∀ p ∈ s, p.isSurrogate = false) (rest : Bytes) :
    decodeSkipping (encode s ++ rest) = s ++ decodeSkipping rest := by
  rw [decodeSkipping_eq, pieces_encode_append hs, List.filterMap_append, filterMap_scalar?,
    ← decodeSkipping_eq]

theorem decodeReplacing_encode_append (hs : ∀ p ∈ s, p.isSurrogate = false) (rest : Bytes) :
    decodeReplacing (encode s ++ rest) = s ++ decodeReplacing rest := by
  unfold decodeReplacing
  rw [pieces_encode_append hs, List.map_append, List.map_map]
  exact congrArg (· ++ _) (List.map_id s)

/-- On any bytes the two readers differ by replacement marks only, and what is read without them was
written there, in this order. Text without surrogates comes back from the bytes that write it, and
bytes that follow are read as they are alone. -/
theorem decoders_agree (bytes : Bytes) :
    (∀ s : Text, (∀ p ∈ s, p.isSurrogate = false) → bytes = encode s →
      decodeSkipping bytes = s ∧ decodeReplacing bytes = s) ∧
    (decodeSkipping bytes).filter (· != replacement) =
      (decodeReplacing bytes).filter (· != replacement) ∧
    (∀ p ∈ decodeSkipping bytes, p.isSurrogate = false) ∧
    (encode (decodeSkipping bytes)).Sublist bytes ∧
    ∀ s : Text, (∀ p ∈ s, p.isSurrogate = false) →
      decodeSkipping (encode s ++ bytes) = s ++ decodeSkipping bytes ∧
      decodeReplacing (encode s ++ bytes) = s ++ decodeReplacing bytes := by
  refine ⟨?_, filter_decodeSkipping bytes, (cutInto_pieces bytes).isSurrogate_eq_false,
    (cutInto_pieces bytes).encode_sublist, ?_⟩
  · rintro s hs rfl
    have hskipping := decodeSkipping_encode_append hs []
    have hreplacing := decodeReplacing_encode_append hs []
    rw [List.append_nil] at hskipping hreplacing
    exact ⟨hskipping.trans (List.append_nil s), hreplacing.trans (List.append_nil s)⟩
  · exact fun s hs =>
      ⟨decodeSkipping_encode_append hs bytes, decodeReplacing_encode_append hs bytes⟩

theorem decoders_agree_brokenOff :
    let bytes : Bytes := [0xE2, 0x82, 0x61, 0xED, 0xA0, 0xBD, 0xF4, 0x90, 0x80, 0x80]
    let s : Text := ['é', '€', '😀']
    (∀ p ∈ s, p.isSurrogate = false) ∧
    decodeSkipping (encode s ++ bytes) = s ++ Text.ofString "a" ∧
    decodeReplacing (encode s ++ bytes) =
      s ++ replacement :: 'a' :: List.replicate 7 replacement := by
  intro bytes s
  have hall : s.all (fun p => !p.isSurrogate) := by decide
  have hs : ∀ p ∈ s, p.isSurrogate = false := by simpa using hall
  obtain ⟨hskipping, hreplacing⟩ := (decoders_agree bytes).2.2.2.2 s hs
  have hbytes : decodeSkipping bytes = Text.ofString "a" := by decide
  have hbytes' : decodeReplacing bytes = replacement :: 'a' :: List.replicate 7 replacement := by
    decide
  rw [hbytes] at hskipping
  rw [hbytes'] at hreplacing
  exact ⟨hs, hskipping, hreplacing⟩

end Deadwood.Utf8
