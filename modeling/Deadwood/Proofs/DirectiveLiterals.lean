import Deadwood.Proofs.Assets
import Deadwood.Proofs.Import

/-!
The literal that a directive brings forward, seen from both sides that read it. As a string literal of
the file it offers the directive's URI like any other text; and it is the literal of the directive's
first URI node, unless a string literal stands before that node.
-/
namespace Deadwood

/-! On bytes that write a text the readers agree. -/

namespace Utf8

variable {source : Bytes} {t : Text}

theorem pieces_of_decode? (h : decode? source = some t) : pieces source = t.map .scalar := by
  unfold decode? at h
  generalize pieces source = ps at h ⊢
  induction ps generalizing t with
  | nil =>
    cases h
    rfl
  | cons piece ps ih =>
    cases piece with
    | malformed => cases h
    | scalar c =>
      rw [List.mapM_cons, Option.bind_eq_bind, Option.bind_some, Option.bind_eq_bind,
        Option.bind_eq_some_iff] at h
      obtain ⟨rest, hrest, h⟩ := h
      cases h
      rw [ih hrest, List.map_cons]

theorem decodeSkipping_of_decode? (h : decode? source = some t) : decodeSkipping source = t := by
  rw [decodeSkipping, pieces_of_decode? h, List.filterMap_map]
  exact List.filterMap_some

theorem decodeReplacing_of_decode? (h : decode? source = some t) : decodeReplacing source = t := by
  rw [decodeReplacing, pieces_of_decode? h, List.map_map]
  exact List.map_id t

end Utf8

theorem Literal.mem_fragments_of_value? {parts : List StringPart} {v : Text}
    (h : value? parts = some v) : v ∈ fragments parts := by
  rw [value?_eq] at h
  split at h
  · cases h
  · next hsimple =>
    cases h
    rw [Bool.or_eq_true, not_or] at hsimple
    obtain ⟨hne, hsimple⟩ := hsimple
    have hall : parts.filter (fun part => !part.isInterpolated) = parts := by
      rw [List.filter_eq_self]
      simpa using hsimple
    rw [mem_fragments]
    match parts, hne, hall with
    | [], hne, _ => exact absurd rfl hne
    | [part], _, _ => exact .inl ⟨part, List.mem_cons_self, by simp [StringPart.segments]⟩
    | first :: second :: more, _, hall => exact .inr ⟨by simp, by rw [joined, hall]⟩

namespace Node

theorem mem_preorder_of_primaryLiteral? {n literal : Node} (h : n.primaryLiteral? = some literal) :
    literal ∈ n.preorder := by
  rw [primaryLiteral?, traverse_eq_preorder] at h
  obtain ⟨m, hm, hleading⟩ := List.exists_of_findSome?_eq_some h
  apply mem_preorder_trans n hm
  unfold leadingLiteral? at hleading
  split at hleading
  · cases hleading
    cases hfind : m.children.find? (·.label == "string_literal") with
    | none => exact mem_preorder_self m
    | some child => exact mem_preorder_of_child (List.mem_of_find?_eq_some hfind)
  · split at hleading
    · cases hleading
      exact mem_preorder_self _
    · cases hleading

/-- The directive brings a string literal forward whose bytes write a text. -/
def HasReadableLiteral (source : Bytes) (n : Node) : Prop :=
  ∃ literal text, n.primaryLiteral? = some literal ∧ literal.label = "string_literal" ∧
    Utf8.decode? (literal.bytes source) = some text

theorem directiveUri_mem_literals {source : Bytes} {root n : Node} {offset : Nat} {uri : Text}
    (hn : n ∈ root.preorder) (hliteral : n.HasReadableLiteral source)
    (huri : n.directiveUri? source = some (offset, uri)) : uri ∈ root.literalFragments source := by
  obtain ⟨literal, text, hprimary, hlabel, htext⟩ := hliteral
  have hvalue : Literal.value? (literal.literalParts source) = some uri := by
    rw [directiveUri?, hprimary, Option.bind_some, Option.map_eq_some_iff] at huri
    obtain ⟨value, hvalue, hentry⟩ := huri
    cases hentry
    rwa [Utf8.decodeSkipping_of_decode? htext, ← Utf8.decodeReplacing_of_decode? htext] at hvalue
  rw [mem_literalFragments]
  refine ⟨literal, mem_preorder_trans root hn (mem_preorder_of_primaryLiteral? hprimary), hlabel, ?_⟩
  exact Literal.mem_fragments.mp (Literal.mem_fragments_of_value? hvalue)

theorem uris_among_literals :
    (∀ text v, Literal.value? (Literal.decode text) = some v →
      v ∈ Literal.fragments (Literal.decode text)) ∧
    ∀ (source : Bytes) (file : Text) (excluded : List Text) (root : Node),
      (∀ n ∈ root.preorder, n.role? = some .directive → n.HasReadableLiteral source →
        ∀ offset uri, n.directiveUri? source = some (offset, uri) →
          uri ∈ (root.analyze source file excluded).literals) ∧
      ((∀ n ∈ root.preorder, n.role? = some .directive → n.HasReadableLiteral source) →
        ∀ uri ∈ root.uris source, uri ∈ (root.analyze source file excluded).literals) := by
  refine ⟨fun text v h => Literal.mem_fragments_of_value? h, fun source file excluded root => ?_⟩
  rw [analyze_eq]
  refine ⟨fun n hn _ hliteral offset uri huri => directiveUri_mem_literals hn hliteral huri, ?_⟩
  intro hall uri huri
  obtain ⟨before, n, after, offset, hroot, hrole, huri, _⟩ := mem_uris.mp huri
  have hn : n ∈ root.preorder := by simp [hroot]
  exact directiveUri_mem_literals hn (hall n hn hrole) huri

def splitImport : Node where
  label := "library_import"
  span := ⟨0, 20⟩
  children := [{ label := "string_literal", span := ⟨0, 20⟩ }]

def splitUri : Bytes := Utf8.encode "'package:' r\"a/é.d\""

theorem uris_among_literals_split :
    splitImport.HasReadableLiteral splitUri ∧
    splitImport.directiveUri? splitUri = some (0, Text.ofString "package:a/é.d") ∧
    Text.ofString "package:a/é.d" ∈ (splitImport.analyze splitUri [] []).literals ∧
    ∀ uri ∈ splitImport.uris splitUri, uri ∈ (splitImport.analyze splitUri [] []).literals := by
  have hliteral : splitImport.HasReadableLiteral splitUri := by
    refine ⟨{ label := "string_literal", span := ⟨0, 20⟩ }, _, ?_, rfl,
      show _ = some (Text.ofString "'package:' r\"a/é.d\"") by decide +kernel⟩
    rw [primaryLiteral?, traverse_eq_preorder]
    rfl
  have huri : splitImport.directiveUri? splitUri = some (0, Text.ofString "package:a/é.d") := by
    decide +kernel
  obtain ⟨hdirective, hall⟩ := uris_among_literals.2 splitUri [] [] splitImport
  refine ⟨hliteral, huri, hdirective _ (mem_preorder_self _) rfl hliteral 0 _ huri, hall ?_⟩
  intro n hn hrole
  have hnodes : splitImport.preorder =
      [splitImport, { label := "string_literal", span := ⟨0, 20⟩ }] := rfl
  rw [hnodes, List.mem_cons, List.mem_singleton] at hn
  rcases hn with rfl | rfl
  · exact hliteral
  · cases hrole

/-! Which literal a directive brings forward. -/

def firstUri? (n : Node) : Option Node :=
  n.preorder.find? (·.label == "uri")

/-- The first string literal that the walk meets before any URI. -/
def precedingLiteral? (n : Node) : Option Node :=
  (n.preorder.takeWhile (·.label != "uri")).find? (·.label == "string_literal")

/-- The literal of a URI: the first one that hangs from it, or else the URI itself. -/
def ownLiteral (u : Node) : Node :=
  (u.children.find? (·.label == "string_literal")).getD u

def uriValue? (source : Bytes) (literal : Node) : Option Text :=
  Literal.value? (Literal.decode (Utf8.decodeSkipping (literal.bytes source)))

theorem findSome?_leadingLiteral? {nodes : List Node} {u : Node}
    (h : nodes.find? (·.label == "uri") = some u) :
    nodes.findSome? leadingLiteral? =
      some (((nodes.takeWhile (·.label != "uri")).find? (·.label == "string_literal")).getD
        u.ownLiteral) := by
  induction nodes with
  | nil => cases h
  | cons n nodes ih =>
    by_cases huri : n.label = "uri"
    · have hn : n = u := by simpa [huri] using h
      subst hn
      simp [leadingLiteral?, ownLiteral, huri]
    · rw [List.find?_cons_of_neg (by simpa using huri)] at h
      by_cases hstring : n.label = "string_literal"
      · simp [leadingLiteral?, hstring]
      · rw [List.findSome?_cons, List.takeWhile_cons_of_pos (by simpa using huri),
          List.find?_cons_of_neg (by simpa using hstring), ← ih h]
        simp [leadingLiteral?, huri, hstring]

theorem primaryLiteral?_of_firstUri? {n u : Node} (h : n.firstUri? = some u) :
    n.primaryLiteral? = some (n.precedingLiteral?.getD u.ownLiteral) := by
  rw [primaryLiteral?, traverse_eq_preorder]
  exact findSome?_leadingLiteral? h

theorem directiveUri?_eq_some_iff {source : Bytes} {n : Node} {offset : Nat} {uri : Text} :
    n.directiveUri? source = some (offset, uri) ↔ ∃ literal, n.primaryLiteral? = some literal ∧
      literal.span.start = offset ∧ literal.uriValue? source = some uri := by
  simp only [directiveUri?, Option.bind_eq_some_iff, Option.map_eq_some_iff, Prod.mk.injEq]
  constructor
  · rintro ⟨literal, hprimary, value, hvalue, hoffset, rfl⟩
    exact ⟨literal, hprimary, hoffset, hvalue⟩
  · rintro ⟨literal, hprimary, hoffset, hvalue⟩
    exact ⟨literal, hprimary, uri, hvalue, hoffset, rfl⟩

/-- A directive of the file has this URI as its own. -/
def OwnUri (source : Bytes) (root : Node) (uri : Text) : Prop :=
  ∃ n ∈ root.preorder, n.role? = some .directive ∧
    ∃ u, n.firstUri? = some u ∧ u.ownLiteral.uriValue? source = some uri

/-- A directive in which no URI is marked as such has this literal for one. -/
def UnmarkedUri (source : Bytes) (root : Node) (uri : Text) : Prop :=
  ∃ n ∈ root.preorder, n.role? = some .directive ∧ n.firstUri? = none ∧
    ∃ offset, n.directiveUri? source = some (offset, uri)

/-- No directive has a string literal before its first URI. -/
def UrisLead (root : Node) : Prop :=
  ∀ n ∈ root.preorder, n.role? = some .directive → n.firstUri?.isSome → n.precedingLiteral? = none

/-- The literals of directives that start at one offset cover the same bytes. -/
def LiteralsAgree (root : Node) : Prop :=
  ∀ n ∈ root.preorder, ∀ m ∈ root.preorder, n.role? = some .directive → m.role? = some .directive →
    ∀ literal other, n.primaryLiteral? = some literal → m.primaryLiteral? = some other →
      literal.span.start = other.span.start → literal.span = other.span

theorem UrisLead.primaryLiteral? {root n u : Node} (h : root.UrisLead) (hn : n ∈ root.preorder)
    (hrole : n.role? = some .directive) (hu : n.firstUri? = some u) :
    n.primaryLiteral? = some u.ownLiteral := by
  rw [primaryLiteral?_of_firstUri? hu, h n hn hrole (by simp [hu]), Option.getD_none]

theorem UrisLead.own_or_unmarked {source : Bytes} {root : Node} {uri : Text} (h : root.UrisLead)
    (huri : uri ∈ root.uris source) : root.OwnUri source uri ∨ root.UnmarkedUri source uri := by
  obtain ⟨before, n, after, offset, hroot, hrole, hdirective, _⟩ := mem_uris.mp huri
  have hn : n ∈ root.preorder := by simp [hroot]
  cases hu : n.firstUri? with
  | none => exact .inr ⟨n, hn, hrole, hu, offset, hdirective⟩
  | some u =>
    obtain ⟨literal, hprimary, _, hvalue⟩ := directiveUri?_eq_some_iff.mp hdirective
    rw [h.primaryLiteral? hn hrole hu] at hprimary
    cases hprimary
    exact .inl ⟨n, hn, hrole, u, hu, hvalue⟩

theorem UrisLead.own_recorded {source : Bytes} {root : Node} {uri : Text} (h : root.UrisLead)
    (hagree : root.LiteralsAgree) (huri : root.OwnUri source uri) : uri ∈ root.uris source := by
  obtain ⟨n, hn, hrole, u, hu, hvalue⟩ := huri
  rw [mem_uris]
  refine (recordsUri_iff_of_agree ?_).mpr ⟨n, hn, hrole, _, directiveUri?_eq_some_iff.mpr
    ⟨u.ownLiteral, h.primaryLiteral? hn hrole hu, rfl, hvalue⟩⟩
  intro n hn m hm hnrole hmrole offset uri other hnuri hmuri
  obtain ⟨l, hl, rfl, hlvalue⟩ := directiveUri?_eq_some_iff.mp hnuri
  obtain ⟨k, hk, hstart, hkvalue⟩ := directiveUri?_eq_some_iff.mp hmuri
  have hspan := hagree n hn m hm hnrole hmrole l k hl hk hstart.symm
  unfold uriValue? bytes at hlvalue hkvalue
  rw [hspan, hkvalue] at hlvalue
  exact (Option.some.inj hlvalue).symm

/-- The literal of a directive is the one of its first URI, unless a string literal precedes that.
Where none does, a file has the URIs and packages of its directives and no others. -/
theorem recorded_uris_are_own_uris (source : Bytes) (root : Node) :
    (∀ n ∈ root.preorder, n.role? = some .directive → ∀ u, n.firstUri? = some u →
      n.primaryLiteral? = some (n.precedingLiteral?.getD u.ownLiteral)) ∧
    (root.UrisLead →
      (∀ uri ∈ root.uris source, root.OwnUri source uri ∨ root.UnmarkedUri source uri) ∧
      (∀ name ∈ root.packages source, ∃ uri, packageName? uri = some name ∧
        (root.OwnUri source uri ∨ root.UnmarkedUri source uri)) ∧
      (root.LiteralsAgree → ∀ uri, root.OwnUri source uri → uri ∈ root.uris source ∧
        ∀ name, name ≠ [] → packageName? uri = some name → name ∈ root.packages source)) := by
  refine ⟨fun n _ _ u hu => primaryLiteral?_of_firstUri? hu, fun hlead =>
    ⟨fun uri huri => hlead.own_or_unmarked huri, fun name hname => ?_, fun hagree uri huri => ?_⟩⟩
  · obtain ⟨_, uri, huri, hpackage⟩ := mem_packages.mp hname
    exact ⟨uri, hpackage, hlead.own_or_unmarked huri⟩
  · have hrecorded := hlead.own_recorded hagree huri
    exact ⟨hrecorded, fun name hne hpackage => mem_packages.mpr ⟨hne, uri, hrecorded, hpackage⟩⟩

def uriNode (start stop : Nat) : Node where
  label := "uri"
  span := ⟨start, stop⟩
  children := [{ label := "string_literal", span := ⟨start, stop⟩ }]

def conditionalImport : Node where
  label := "library_import"
  span := ⟨0, 17⟩
  children := [uriNode 0 13, uriNode 14 17]

def conditionalUris : Bytes := Utf8.encode "'package:a/a' 'b'"

theorem recorded_uris_are_own_uris_conditional :
    conditionalImport.UrisLead ∧ conditionalImport.LiteralsAgree ∧
    conditionalImport.OwnUri conditionalUris (Text.ofString "package:a/a") ∧
    conditionalImport.primaryLiteral? = some (uriNode 0 13).ownLiteral ∧
    Text.ofString "a" ∈ conditionalImport.packages conditionalUris := by
  have hnodes : conditionalImport.preorder =
      [conditionalImport, uriNode 0 13, (uriNode 0 13).ownLiteral, uriNode 14 17,
        (uriNode 14 17).ownLiteral] := rfl
  have honly : ∀ n ∈ conditionalImport.preorder, n.role? = some .directive → n = conditionalImport := by
    rw [hnodes]
    simp [role?, labelRole?, uriNode, ownLiteral, isLeaf]
  have hlead : conditionalImport.UrisLead := by
    intro n hn hrole _
    rw [honly n hn hrole]
    rfl
  have hagree : conditionalImport.LiteralsAgree := by
    intro n hn m hm hnrole hmrole literal other hliteral hother _
    rw [honly n hn hnrole] at hliteral
    rw [honly m hm hmrole, hliteral] at hother
    cases hother
    rfl
  have hown : conditionalImport.OwnUri conditionalUris (Text.ofString "package:a/a") :=
    ⟨conditionalImport, mem_preorder_self _, rfl, uriNode 0 13, rfl, by decide +kernel⟩
  obtain ⟨hlaw, hrecorded⟩ := recorded_uris_are_own_uris conditionalUris conditionalImport
  refine ⟨hlead, hagree, hown, hlaw _ (mem_preorder_self _) rfl (uriNode 0 13) rfl, ?_⟩
  exact ((hrecorded hlead).2.2 hagree _ hown).2 _ (by decide) (by decide)

def annotatedExport : Node where
  label := "library_export"
  span := ⟨0, 34⟩
  children := [
    { label := "annotation"
      span := ⟨0, 7⟩
      children := [{ label := "string_literal", span := ⟨3, 6⟩ }] },
    uriNode 15 33]

def annotatedSource : Bytes := Utf8.encode "@A('x') export 'package:b/b.dart';"

/-- The argument of an annotation takes the place of the URI. -/
theorem exists_displaced_uri :
    ¬ ∀ (source : Bytes) (root n u : Node) (uri : Text), n ∈ root.preorder →
      n.role? = some .directive → n.firstUri? = some u → u.ownLiteral.uriValue? source = some uri →
        n.primaryLiteral? = some u.ownLiteral ∧ uri ∈ root.uris source := by
  intro h
  have hmem := h annotatedSource annotatedExport annotatedExport (uriNode 15 33)
    (Text.ofString "package:b/b.dart") (mem_preorder_self _) rfl rfl (by decide +kernel)
  have habsent : Text.ofString "package:b/b.dart" ∉ annotatedExport.uris annotatedSource := by
    decide +kernel
  exact habsent hmem.2

end Node

end Deadwood
