import Deadwood.Report.Json
import Deadwood.Proofs.Json.Reading
import Deadwood.Proofs.Path.Normal

/-!
Written documents. Every value is written as a text that denotes it by the grammar. Main statement:
the text of a report denotes the report's document and nothing else, and no other report has it.
-/
namespace Deadwood

namespace Json

mutual

def document : Json → Document
  | string value => .string value
  | number value => .integer value
  | array items => .array (documents items)
  | object members => .object (memberDocuments members)

def documents : List Json → List Document
  | [] => []
  | item :: items => document item :: documents items

def memberDocuments : List (Text × Json) → List (Text × Document)
  | [] => []
  | (name, value) :: members => (name, document value) :: memberDocuments members

end

/-! ### Numbers -/

theorem digitChar_val {v : Nat} (hv : v < 10) :
    (CodePoint.ofChar (Nat.digitChar v)).val = '0'.toNat + v := by
  have hall : ∀ v < 10, (CodePoint.ofChar (Nat.digitChar v)).val = '0'.toNat + v := by decide
  exact hall v hv

theorem ofNat_of_lt {n : Nat} (h : n < 10) :
    Text.ofNat n = [CodePoint.ofChar (Nat.digitChar n)] := by
  rewrite [Text.ofNat, Nat.toDigits_of_lt_base h]
  rfl

theorem ofNat_of_le {n : Nat} (h : 10 ≤ n) :
    Text.ofNat n = Text.ofNat (n / 10) ++ [CodePoint.ofChar (Nat.digitChar (n % 10))] := by
  rewrite [Text.ofNat, Nat.toDigits_eq_if (by decide), if_neg (by omega), List.map_append]
  rfl

theorem numeral_ofNat (n : Nat) : Numeral (Text.ofNat n) n := by
  induction n using Nat.strongRecOn with
  | ind n ih =>
    rcases Nat.lt_or_ge n 10 with hn | hn
    · rw [ofNat_of_lt hn]
      exact .digit hn (digitChar_val hn)
    · have hmod : n % 10 < 10 := Nat.mod_lt n (by decide)
      have hsnoc := (ih (n / 10) (by omega)).snoc hmod (digitChar_val hmod)
      rw [Nat.div_add_mod] at hsnoc
      rwa [ofNat_of_le hn]

theorem whole_ofNat (n : Nat) : Whole (Text.ofNat n) := by
  refine ⟨(numeral_ofNat n).ne_nil, ?_⟩
  induction n using Nat.strongRecOn with
  | ind n ih =>
    intro hhead
    rcases Nat.lt_or_ge n 10 with hn | hn
    · rw [ofNat_of_lt hn] at hhead ⊢
      simpa using hhead
    · exfalso
      rw [ofNat_of_le hn, List.head?_append_of_ne_nil _ (numeral_ofNat _).ne_nil] at hhead
      have hzero := (numeral_ofNat (n / 10)).numeral_eq
      rw [ih (n / 10) (by omega) hhead] at hzero
      have : n / 10 = 0 := hzero.symm
      omega

theorem number_ofInt (n : Int) : Number (Text.ofInt n) (.integer n) := by
  cases n with
  | ofNat n => exact .integer .absent (whole_ofNat n) (numeral_ofNat n)
  | negSucc n => exact .integer .minus (whole_ofNat (n + 1)) (numeral_ofNat (n + 1))

/-! ### Strings -/

theorem codeUnit_of_control {c : CodePoint} (h : c.val < 0x20) :
    CodeUnit (Text.ofString "\\u" ++ Text.hexDigits 4 c.val) c := by
  have hall : ∀ n < 0x20, (Text.hexDigits 4 n).length = 4 ∧
      Text.hexNumber? (Text.hexDigits 4 n) = some n := by decide
  obtain ⟨hlength, hnumber⟩ := hall c.val h
  exact .mk hlength (hexNumeral_of_hexNumber? hnumber)

theorem Characters.escapeChar_append (c : CodePoint) {t s : Text} (h : Characters t s) :
    Characters (escapeChar c ++ t) (c :: s) := by
  have hletter : ∀ l x : CodePoint, (l, x) ∈ letterEscapes → c = x →
      Characters ('\\' :: l :: t) (c :: s) := by
    intro l x hmem hc
    exact .letter (hc ▸ hmem) h
  unfold escapeChar
  split
  · next hc => exact hletter '"' '"' (by decide) (by simpa using hc)
  split
  · next hc => exact hletter '\\' '\\' (by decide) (by simpa using hc)
  split
  · next hc => exact hletter 'n' '\n' (by decide) (by simpa using hc)
  split
  · next hc => exact hletter 'r' '\r' (by decide) (by simpa using hc)
  split
  · next hc => exact hletter 't' '\t' (by decide) (by simpa using hc)
  split
  · next hc => exact hletter 'b' '\x08' (by decide) (Fin.ext (beq_iff_eq.mp hc))
  split
  · next hc => exact hletter 'f' '\x0C' (by decide) (Fin.ext (beq_iff_eq.mp hc))
  split
  · next hc =>
    apply Characters.unit (codeUnit_of_control hc) _ h
    intro hhigh
    simp only [isHigh, Bool.and_eq_true, decide_eq_true_eq] at hhigh
    omega
  · next hquote hslash _ _ _ _ _ hc =>
    exact .plain (by omega) (by simpa using hquote) (by simpa using hslash) h

theorem characters_flatMap_escapeChar (t : Text) : Characters (t.flatMap escapeChar) t := by
  induction t with
  | nil => exact .nil
  | cons c t ih => exact ih.escapeChar_append c

theorem value_writeString (t : Text) : Value (writeString t) (.string t) :=
  .string (characters_flatMap_escapeChar t)

/-! ### Blocks -/

theorem spaces_nil : Spaces [] := by
  simp [Spaces]

theorem spaces_newLine (level : Nat) : Spaces (newLine level) := by
  intro c hc
  rcases List.mem_cons.mp hc with rfl | hc
  · rfl
  · rewrite [List.eq_of_mem_replicate hc]
    rfl

def lines (level : Nat) (texts : List Text) : Text :=
  Text.join "," (texts.map (newLine (level + 1) ++ ·)) ++ newLine level

theorem block_eq {level : Nat} {opening closing : CodePoint} {texts : List Text}
    (h : texts ≠ []) :
    block level opening closing texts = opening :: (lines level texts ++ [closing]) := by
  simp [block, lines, h]

theorem lines_singleton (level : Nat) (t : Text) :
    lines level [t] = newLine (level + 1) ++ (t ++ newLine level) := by
  simp [lines, Text.join]

theorem lines_cons_cons (level : Nat) (t t' : Text) (texts : List Text) :
    lines level (t :: t' :: texts) =
      newLine (level + 1) ++ (t ++ []) ++ CodePoint.ofChar ',' :: lines level (t' :: texts) := by
  have hjoin := Text.join_cons_cons ',' (newLine (level + 1) ++ t) (newLine (level + 1) ++ t')
    (texts.map (newLine (level + 1) ++ ·))
  have hcomma : Text.ofString "," = [CodePoint.ofChar ','] := rfl
  simp only [lines, List.map_cons, hcomma, hjoin]
  simp

theorem element_line {t : Text} {d : Document} (h : Value t d) (level : Nat) :
    Element (lines level [t]) d := by
  rw [lines_singleton]
  exact .mk (spaces_newLine _) h (spaces_newLine _)

theorem writeItems_ne_nil {items : List Json} (h : items ≠ []) (level : Nat) :
    writeItems level items ≠ [] := by
  cases items with
  | nil => exact absurd rfl h
  | cons => simp [writeItems]

theorem writeMembers_ne_nil {members : List (Text × Json)} (h : members ≠ []) (level : Nat) :
    writeMembers level members ≠ [] := by
  cases members with
  | nil => exact absurd rfl h
  | cons => simp [writeMembers]

theorem member_line {name t : Text} {d : Document} {before after : Text} (hbefore : Spaces before)
    (h : Value t d) (hafter : Spaces after) :
    Member (before ++ (writeString name ++ ": " ++ t ++ after)) (name, d) := by
  have hspace : Spaces [CodePoint.ofChar ' '] := by
    intro c hc
    rewrite [List.mem_singleton.mp hc]
    rfl
  have hmember := Member.mk hbefore (characters_flatMap_escapeChar name) spaces_nil
    (.mk hspace h hafter)
  have hcolon : Text.ofString ": " = [CodePoint.ofChar ':', CodePoint.ofChar ' '] := rfl
  have hquote : Text.ofString "\"" = [CodePoint.ofChar '"'] := rfl
  simpa [writeString, hcolon, hquote] using hmember

mutual

theorem value_write (level : Nat) : ∀ j : Json, Value (j.write level) j.document
  | string value => value_writeString value
  | number value => .number (number_ofInt value)
  | array items => by
    by_cases hne : items = []
    · subst hne
      exact Value.emptyArray spaces_nil
    · rw [write, block_eq (writeItems_ne_nil hne _)]
      exact .array (elements_writeItems level items hne)
  | object members => by
    by_cases hne : members = []
    · subst hne
      exact Value.emptyObject spaces_nil
    · rw [write, block_eq (writeMembers_ne_nil hne _)]
      exact .object (members_writeMembers level members hne)

theorem elements_writeItems (level : Nat) : ∀ items : List Json, items ≠ [] →
    Elements (lines level (writeItems (level + 1) items)) (documents items)
  | [], hne => absurd rfl hne
  | [item], _ => by
    have hvalue := value_write (level + 1) item
    exact .last (element_line hvalue level)
  | item :: item' :: items, _ => by
    have hvalue := value_write (level + 1) item
    have hmore := elements_writeItems level (item' :: items) (by simp)
    simp only [writeItems, lines_cons_cons] at hmore ⊢
    exact .next (.mk (spaces_newLine _) hvalue spaces_nil) hmore

theorem members_writeMembers (level : Nat) : ∀ members : List (Text × Json), members ≠ [] →
    Members (lines level (writeMembers (level + 1) members)) (memberDocuments members)
  | [], hne => absurd rfl hne
  | [(name, value)], _ => by
    have hvalue := value_write (level + 1) value
    simp only [writeMembers, lines_singleton]
    exact .last (member_line (spaces_newLine _) hvalue (spaces_newLine _))
  | (name, value) :: (name', value') :: members, _ => by
    have hvalue := value_write (level + 1) value
    have hmore := members_writeMembers level ((name', value') :: members) (by simp)
    simp only [writeMembers, lines_cons_cons] at hmore ⊢
    exact .next (member_line (spaces_newLine _) hvalue spaces_nil) hmore

end

theorem element_write (level : Nat) (j : Json) : Element (j.write level) j.document := by
  simpa using Element.mk spaces_nil (value_write level j) spaces_nil

/-! ### What a document tells about its report -/

theorem documents_eq_map (items : List Json) : documents items = items.map document := by
  induction items with
  | nil => rfl
  | cons item items ih => simp [documents, ih]

theorem eq_of_documents_map {α : Type} {f : α → Json}
    (hf : ∀ a b, (f a).document = (f b).document → a = b) {l l' : List α}
    (h : documents (l.map f) = documents (l'.map f)) : l = l' := by
  rw [documents_eq_map, documents_eq_map, List.map_map, List.map_map] at h
  exact (List.map_inj_right hf).mp h

end Json

theorem SymbolFinding.document_inj (a b : SymbolFinding)
    (h : a.toJson.document = b.toJson.document) : a = b := by
  cases a
  cases b
  simpa [toJson, Json.document, Json.memberDocuments] using h

theorem PackageFinding.document_inj (a b : PackageFinding)
    (h : a.toJson.document = b.toJson.document) : a = b := by
  cases a
  cases b
  simpa [toJson, Json.document, Json.memberDocuments] using h

theorem AssetFinding.document_inj (a b : AssetFinding)
    (h : a.toJson.document = b.toJson.document) : a = b := by
  cases a
  cases b
  simpa [toJson, Json.document, Json.memberDocuments] using h

namespace Report

theorem document_inj (r r' : Report) (h : r.toJson.document = r'.toJson.document) : r = r' := by
  simp only [toJson, Json.document, Json.memberDocuments, Json.Document.object.injEq,
    List.cons.injEq, Prod.mk.injEq, Json.Document.array.injEq, true_and, and_true] at h
  obtain ⟨hclasses, hmethods, hpackages, hassets⟩ := h
  cases r
  cases r'
  congr 1
  · exact Json.eq_of_documents_map SymbolFinding.document_inj hclasses
  · exact Json.eq_of_documents_map SymbolFinding.document_inj hmethods
  · exact Json.eq_of_documents_map PackageFinding.document_inj hpackages
  · exact Json.eq_of_documents_map AssetFinding.document_inj hassets

/-- The text of a report denotes its document and nothing else, reading it gives the document back,
and no other report has that text. -/
theorem jsonText_lossless (r : Report) :
    (∀ d, Json.Element r.jsonText d ↔ d = r.toJson.document) ∧
      Json.read? r.jsonText = some r.toJson.document ∧
      ∀ r' : Report, r'.jsonText = r.jsonText ↔ r' = r := by
  have hwritten : ∀ r : Report, Json.Element r.jsonText r.toJson.document :=
    fun r => Json.element_write 0 r.toJson
  refine ⟨fun d => ?_, (hwritten r).read?_eq, fun r' => ?_⟩
  · exact ⟨fun h => h.unique (hwritten r), fun h => h ▸ hwritten r⟩
  · refine ⟨fun h => ?_, fun h => h ▸ rfl⟩
    apply document_inj
    exact Json.Element.unique (h ▸ hwritten r') (hwritten r)

end Report

end Deadwood
