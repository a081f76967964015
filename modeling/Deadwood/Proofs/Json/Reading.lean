import Deadwood.Proofs.Json.Scalars

/-!
A reader of JSON texts. Main statement: what the grammar derives is read, so a text denotes one
document at most.
-/
namespace Deadwood.Json

def skipSpaces (t : Text) : Text :=
  t.dropWhile isSpace

def readWord? (word : Text) (d : Document) (t : Text) : Option (Document × Text) :=
  if word.isPrefixOf t then some (d, t.drop word.length) else none

section

variable {α : Type} (readValue : Text → Option (Document × Text))

def readElement? (t : Text) : Option (Document × Text) :=
  (readValue (skipSpaces t)).map fun (d, t) => (d, skipSpaces t)

def expect? (c : CodePoint) : Text → Option Text
  | [] => none
  | x :: t => if x == c then some t else none

def readMember? (t : Text) : Option ((Text × Document) × Text) :=
  (expect? '"' (skipSpaces t)).bind fun t =>
    (readString? t).bind fun (name, t) =>
      (expect? ':' (skipSpaces t)).bind fun t =>
        (readElement? readValue t).map fun (d, t) => ((name, d), t)

def readList? (close : CodePoint) (readItem : Text → Option (α × Text)) :
    Nat → Text → Option (List α × Text)
  | 0, _ => none
  | fuel + 1, t =>
    (readItem t).bind fun (a, t) =>
      match t with
      | [] => none
      | c :: t =>
        if c == close then some ([a], t)
        else if c == ',' then (readList? close readItem fuel t).map fun (as, t) => (a :: as, t)
        else none

def readBlock? (close : CodePoint) (readItem : Text → Option (α × Text)) (t : Text) :
    Option (List α × Text) :=
  match expect? close (skipSpaces t) with
  | some t => some ([], t)
  | none => readList? close readItem t.length t

end

def readValue? : Nat → Text → Option (Document × Text)
  | 0, _ => none
  | _, [] => none
  | fuel + 1, c :: t =>
    if c == '"' then (readString? t).map fun (s, t) => (.string s, t)
    else if c == '[' then
      (readBlock? ']' (readElement? (readValue? fuel)) t).map fun (ds, t) => (.array ds, t)
    else if c == '{' then
      (readBlock? '}' (readMember? (readValue? fuel)) t).map fun (ms, t) => (.object ms, t)
    else if c == 'n' then readWord? "null" .null (c :: t)
    else if c == 't' then readWord? "true" (.bool true) (c :: t)
    else if c == 'f' then readWord? "false" (.bool false) (c :: t)
    else readNumber? (c :: t)

def read? (t : Text) : Option Document :=
  match readElement? (readValue? t.length) t with
  | some (d, []) => some d
  | _ => none

/-! ### Spaces and what follows a value -/

theorem skipSpaces_append {t : Text} (h : Spaces t) (rest : Text) :
    skipSpaces (t ++ rest) = skipSpaces rest :=
  List.dropWhile_append_of_pos h

theorem skipSpaces_cons {c : CodePoint} (h : isSpace c = false) (t : Text) :
    skipSpaces (c :: t) = c :: t :=
  List.dropWhile_cons_of_neg (by simp [h])

@[simp] theorem expect?_self (c : CodePoint) (t : Text) : expect? c (c :: t) = some t := by
  simp [expect?]

/-- What follows an element: the end, or what ends it in an array or an object. -/
def EndsElement (rest : Text) : Prop :=
  ∀ c ∈ rest.head?, c = ',' ∨ c = ']' ∨ c = '}'

def EndsValue (rest : Text) : Prop :=
  ∀ c ∈ rest.head?, isSpace c ∨ c = ',' ∨ c = ']' ∨ c = '}'

theorem EndsElement.skipSpaces_eq {rest : Text} (h : EndsElement rest) :
    skipSpaces rest = rest := by
  cases rest with
  | nil => rfl
  | cons c rest =>
    apply skipSpaces_cons
    rcases h c rfl with rfl | rfl | rfl <;> rfl

theorem EndsElement.endsValue_append {spaces rest : Text} (hrest : EndsElement rest)
    (hspaces : Spaces spaces) : EndsValue (spaces ++ rest) := by
  intro c hc
  cases spaces with
  | nil => exact .inr (hrest c hc)
  | cons x spaces =>
    obtain rfl : x = c := by simpa using hc
    exact .inl (hspaces x (by simp))

theorem EndsValue.endsNumber {rest : Text} (h : EndsValue rest) : EndsNumber rest := by
  intro c hc
  rcases h c hc with hspace | rfl | rfl | rfl
  · simp only [isSpace, Bool.or_eq_true, beq_iff_eq] at hspace
    rcases hspace with ((rfl | rfl) | rfl) | rfl <;> decide
  · decide
  · decide
  · decide

theorem Value.head {t : Text} {d : Document} (h : Value t d) :
    ∃ c rest, t = c :: rest ∧ isSpace c = false ∧ c ≠ ']' ∧ c ≠ '}' := by
  cases h with
  | wordNull => exact ⟨_, _, rfl, by decide⟩
  | wordTrue => exact ⟨_, _, rfl, by decide⟩
  | wordFalse => exact ⟨_, _, rfl, by decide⟩
  | string _ => exact ⟨_, _, rfl, by decide⟩
  | emptyArray _ => exact ⟨_, _, rfl, by decide⟩
  | array _ => exact ⟨_, _, rfl, by decide⟩
  | emptyObject _ => exact ⟨_, _, rfl, by decide⟩
  | object _ => exact ⟨_, _, rfl, by decide⟩
  | number hn =>
    obtain ⟨c, rest, rfl, hc | rfl⟩ := hn.head
    · have hne : ∀ a : Char, (CodePoint.ofChar a).isDigit = false → c ≠ CodePoint.ofChar a :=
        fun a ha => not_isDigit_ofChar ha hc
      refine ⟨c, rest, rfl, ?_, hne _ (by decide), hne _ (by decide)⟩
      simp [isSpace, hne ' ' (by decide), hne '\t' (by decide), hne '\n' (by decide),
        hne '\r' (by decide)]
    · exact ⟨_, _, rfl, by decide⟩

theorem Element.expect?_none {t : Text} {d : Document} (h : Element t d) (rest : Text) :
    expect? ']' (skipSpaces (t ++ rest)) = none := by
  cases h with
  | @mk before t after d hbefore hvalue _ =>
    obtain ⟨c, more, rfl, hspace, hne, -⟩ := hvalue.head
    rw [List.append_assoc, skipSpaces_append hbefore, List.cons_append, List.cons_append,
      skipSpaces_cons hspace]
    simp [expect?, hne]

theorem Elements.expect?_none {t : Text} {ds : List Document} (h : Elements t ds) (rest : Text) :
    expect? ']' (skipSpaces (t ++ rest)) = none := by
  cases h with
  | last he => exact he.expect?_none rest
  | next he _ =>
    rw [List.append_assoc]
    exact he.expect?_none _

theorem Member.expect?_none {t : Text} {m : Text × Document} (h : Member t m) (rest : Text) :
    expect? '}' (skipSpaces (t ++ rest)) = none := by
  cases h with
  | mk hbefore _ _ _ =>
    rewrite [List.append_assoc, skipSpaces_append hbefore, List.cons_append,
      skipSpaces_cons (by rfl)]
    rfl

theorem Members.expect?_none {t : Text} {ms : List (Text × Document)} (h : Members t ms)
    (rest : Text) : expect? '}' (skipSpaces (t ++ rest)) = none := by
  cases h with
  | last he => exact he.expect?_none rest
  | next he _ =>
    rw [List.append_assoc]
    exact he.expect?_none _

theorem readBlock?_empty {α : Type} (close : CodePoint) (readItem : Text → Option (α × Text))
    {t : Text} (h : Spaces t) (hclose : isSpace close = false) (rest : Text) :
    readBlock? close readItem (t ++ close :: rest) = some ([], rest) := by
  simp [readBlock?, skipSpaces_append h, skipSpaces_cons hclose]

theorem readBlock?_of_readList? {α : Type} {close : CodePoint}
    {readItem : Text → Option (α × Text)} {t rest : Text} {as : List α}
    (hnone : expect? close (skipSpaces t) = none)
    (hlist : readList? close readItem t.length t = some (as, rest)) :
    readBlock? close readItem t = some (as, rest) := by
  rw [readBlock?, hnone]
  exact hlist

theorem readList?_last {α : Type} {close : CodePoint} {readItem : Text → Option (α × Text)}
    {t rest : Text} {a : α} {n : Nat} (hn : 0 < n) (h : readItem t = some (a, close :: rest)) :
    readList? close readItem n t = some ([a], rest) := by
  obtain ⟨n, rfl⟩ := Nat.exists_eq_add_one.mpr hn
  simp [readList?, h]

theorem readList?_next {α : Type} {close : CodePoint} {readItem : Text → Option (α × Text)}
    {t more rest : Text} {a : α} {as : List α} {n : Nat} (hclose : close ≠ ',') (hn : 0 < n)
    (h : readItem t = some (a, CodePoint.ofChar ',' :: more))
    (hmore : readList? close readItem (n - 1) more = some (as, rest)) :
    readList? close readItem n t = some (a :: as, rest) := by
  obtain ⟨n, rfl⟩ := Nat.exists_eq_add_one.mpr hn
  rw [Nat.add_sub_cancel] at hmore
  simp [readList?, h, hclose.symm, hmore]

/-! By induction on the derivation: an element is no shorter than the value in it, so lengths alone
would not do. The fuel only has to reach the length of the text. -/

mutual

theorem Value.readValue?_append {t : Text} {d : Document} (h : Value t d) (fuel : Nat)
    (hfuel : t.length ≤ fuel) {rest : Text} (hrest : EndsValue rest) :
    readValue? fuel (t ++ rest) = some (d, rest) := by
  obtain ⟨fuel, rfl⟩ : ∃ n, fuel = n + 1 := by
    obtain ⟨c, more, rfl, -⟩ := h.head
    exact Nat.exists_eq_add_one.mpr (Nat.lt_of_lt_of_le (Nat.succ_pos _) hfuel)
  cases h with
  | wordNull => rfl
  | wordTrue => rfl
  | wordFalse => rfl
  | number hn =>
    have hread := hn.readNumber?_append hrest.endsNumber
    obtain ⟨c, more, rfl, hc⟩ := hn.head
    have hne : ∀ a : Char, (CodePoint.ofChar a).isDigit = false → a ≠ '-' →
        c ≠ CodePoint.ofChar a := by
      intro a ha hminus
      rcases hc with hc | rfl
      · exact not_isDigit_ofChar ha hc
      · simpa using hminus.symm
    rw [← hread]
    simp [readValue?, hne '"' (by decide) (by decide), hne '[' (by decide) (by decide),
      hne '{' (by decide) (by decide), hne 'n' (by decide) (by decide),
      hne 't' (by decide) (by decide), hne 'f' (by decide) (by decide)]
  | string hs =>
    simp [readValue?, hs.readString?_append]
  | emptyArray ht =>
    have hread := readBlock?_empty ']' (readElement? (readValue? fuel)) ht rfl rest
    simp [readValue?, hread]
  | @array t ds hds =>
    simp only [List.length_cons, List.length_append, List.length_nil] at hfuel
    have hread := readBlock?_of_readList? (hds.expect?_none (CodePoint.ofChar ']' :: rest))
      (hds.readList?_append fuel (by omega) rest (by simp))
    simp [readValue?, hread]
  | emptyObject ht =>
    have hread := readBlock?_empty '}' (readMember? (readValue? fuel)) ht rfl rest
    simp [readValue?, hread]
  | @object t ms hms =>
    simp only [List.length_cons, List.length_append, List.length_nil] at hfuel
    have hread := readBlock?_of_readList? (hms.expect?_none (CodePoint.ofChar '}' :: rest))
      (hms.readList?_append fuel (by omega) rest (by simp))
    simp [readValue?, hread]

theorem Element.readElement?_append {t : Text} {d : Document} (h : Element t d) (fuel : Nat)
    (hfuel : t.length ≤ fuel) {rest : Text} (hrest : EndsElement rest) :
    readElement? (readValue? fuel) (t ++ rest) = some (d, rest) := by
  cases h with
  | @mk before t after d hbefore hvalue hafter =>
    simp only [List.length_append] at hfuel
    have hread := hvalue.readValue?_append fuel (by omega)
      (hrest.endsValue_append hafter)
    obtain ⟨c, more, rfl, hspace, -⟩ := hvalue.head
    have hskip : skipSpaces (before ++ (c :: more ++ after) ++ rest) =
        c :: more ++ (after ++ rest) := by
      rw [List.append_assoc, skipSpaces_append hbefore, List.append_assoc, List.cons_append,
        skipSpaces_cons hspace]
    simp only [readElement?, hskip, hread, Option.map_some, skipSpaces_append hafter,
      hrest.skipSpaces_eq]

theorem Elements.readList?_append {t : Text} {ds : List Document} (h : Elements t ds) (fuel : Nat)
    (hfuel : t.length ≤ fuel) (rest : Text) {n : Nat} (hn : t.length < n) :
    readList? ']' (readElement? (readValue? fuel)) n (t ++ CodePoint.ofChar ']' :: rest) =
      some (ds, rest) := by
  cases h with
  | last he =>
    apply readList?_last (by omega)
    exact he.readElement?_append fuel hfuel (by simp [EndsElement])
  | next he hmore =>
    simp only [List.length_append, List.length_cons] at hfuel hn
    rw [List.append_assoc]
    apply readList?_next (by decide) (by omega)
    · exact he.readElement?_append fuel (by omega) (by simp [EndsElement])
    · exact hmore.readList?_append fuel (by omega) rest (by omega)

theorem Member.readMember?_append {t : Text} {m : Text × Document} (h : Member t m) (fuel : Nat)
    (hfuel : t.length ≤ fuel) {rest : Text} (hrest : EndsElement rest) :
    readMember? (readValue? fuel) (t ++ rest) = some (m, rest) := by
  cases h with
  | @mk before t name after value d hbefore hname hafter he =>
    simp only [List.length_append, List.length_cons] at hfuel
    have hread := he.readElement?_append fuel (by omega) hrest
    have hquote : skipSpaces (before ++ CodePoint.ofChar '"' :: (t ++ CodePoint.ofChar '"' ::
        (after ++ CodePoint.ofChar ':' :: value)) ++ rest) =
        CodePoint.ofChar '"' :: (t ++ CodePoint.ofChar '"' ::
          (after ++ CodePoint.ofChar ':' :: (value ++ rest))) := by
      rw [List.append_assoc, skipSpaces_append hbefore, List.cons_append, skipSpaces_cons (by rfl)]
      simp
    have hcolon : skipSpaces (after ++ CodePoint.ofChar ':' :: (value ++ rest)) =
        CodePoint.ofChar ':' :: (value ++ rest) := by
      rw [skipSpaces_append hafter, skipSpaces_cons (by rfl)]
    simp only [readMember?, hquote, expect?_self, Option.bind_some, hname.readString?_append,
      hcolon, hread, Option.map_some]

theorem Members.readList?_append {t : Text} {ms : List (Text × Document)} (h : Members t ms)
    (fuel : Nat) (hfuel : t.length ≤ fuel) (rest : Text) {n : Nat} (hn : t.length < n) :
    readList? '}' (readMember? (readValue? fuel)) n (t ++ CodePoint.ofChar '}' :: rest) =
      some (ms, rest) := by
  cases h with
  | last hm =>
    apply readList?_last (by omega)
    exact hm.readMember?_append fuel hfuel (by simp [EndsElement])
  | next hm hmore =>
    simp only [List.length_append, List.length_cons] at hfuel hn
    rw [List.append_assoc]
    apply readList?_next (by decide) (by omega)
    · exact hm.readMember?_append fuel (by omega) (by simp [EndsElement])
    · exact hmore.readList?_append fuel (by omega) rest (by omega)

end

/-- What a text denotes by the grammar is what is read from it. -/
theorem Element.read?_eq {t : Text} {d : Document} (h : Element t d) : read? t = some d := by
  have hread : readElement? (readValue? t.length) (t ++ []) = some (d, []) :=
    h.readElement?_append t.length (Nat.le_refl _) (by simp [EndsElement])
  rw [List.append_nil] at hread
  rw [read?, hread]

theorem Element.unique {t : Text} {d d' : Document} (h : Element t d) (h' : Element t d') :
    d = d' := by
  have heq := h.read?_eq
  rw [h'.read?_eq] at heq
  exact (Option.some.inj heq).symm

end Deadwood.Json
