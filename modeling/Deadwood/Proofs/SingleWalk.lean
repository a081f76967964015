import Deadwood.Proofs.Assets
import Deadwood.Proofs.Import
import Deadwood.Proofs.Tree.Addresses

/-!
The analysis of a file against a reading of its tree that knows no stack, no callbacks and no state:
the nodes in the order of their addresses, and for each table what a single node contributes to it.
-/
namespace Deadwood

namespace Node

/-- The walk meets every node once and in order, and the tables that it fills are those that the nodes
contribute to one by one. Only the URIs are not: of those at one offset the last stays. -/
theorem analyze_reads_preorder (source : Bytes) (file : Text) (excluded : List Text)
    (root : Node) :
    (root.traverse = root.preorder ∧
      root.addresses.Pairwise (List.Lex (· < ·)) ∧
      (∀ address, address ∈ root.addresses ↔ (root.at? address).isSome) ∧
      root.traverse.map some = root.addresses.map (root.at? ·)) ∧
    (∃ declared : Node → Option Declaration,
      (∀ n d, declared n = some d ↔ n.Declares source file excluded d) ∧
      (root.analyze source file excluded).declarations = root.preorder.filterMap declared) ∧
    (∀ name, (root.analyze source file excluded).census.count name =
      if isIdentifier name then
        ((root.places.countP fun p => p.isToken && p.node.text source == name : Nat) : Int)
      else 0) ∧
    (∀ text, text ∈ (root.analyze source file excluded).literals ↔
      ∃ n ∈ root.preorder, n.label = "string_literal" ∧
        text ∈ Literal.fragments (n.literalParts source)) ∧
    (∀ name, name ∈ (root.analyze source file excluded).packages ↔
      name ≠ [] ∧ ∃ uri, root.RecordsUri source uri ∧ packageName? uri = some name) ∧
    ((∀ n ∈ root.preorder, ∀ m ∈ root.preorder, n.role? = some .directive →
        m.role? = some .directive → ∀ offset uri other,
          n.directiveUri? source = some (offset, uri) →
          m.directiveUri? source = some (offset, other) → uri = other) →
      ∀ name, name ∈ (root.analyze source file excluded).packages ↔
        name ≠ [] ∧ ∃ n ∈ root.preorder, n.role? = some .directive ∧
          ∃ offset uri, n.directiveUri? source = some (offset, uri) ∧
            packageName? uri = some name) ∧
    ∀ (extractor : Extractor) (extractors : List Extractor), extractors.count extractor = 1 →
      extractor.get (Extractor.collect source file excluded extractors root) =
        extractor.get (Extractor.collect source file excluded [extractor] root) := by
  have hpackages : ∀ name, name ∈ (root.analyze source file excluded).packages ↔
      name ≠ [] ∧ ∃ uri, root.RecordsUri source uri ∧ packageName? uri = some name := by
    intro name
    rw [analyze_eq]
    simp [mem_packages, mem_uris]
  refine ⟨⟨root.traverse_eq_preorder, root.pairwise_addresses, fun _ => mem_addresses, ?_⟩,
    ⟨recorded? source file excluded, fun _ _ => recorded?_eq_some_iff, ?_⟩, ?_, ?_, hpackages,
    ?_, ?_⟩
  · rw [root.traverse_eq_preorder, root.map_at?_addresses]
  · rw [analyze_eq]
    exact declarations_eq_filterMap_preorder source file excluded root
  · intro name
    rw [analyze_eq]
    exact count_census source root name
  · intro text
    rw [analyze_eq]
    simp only [mem_literalFragments, Literal.mem_fragments]
  · intro hagree name
    rw [hpackages]
    simp only [recordsUri_iff_of_agree hagree]
    grind
  · intro extractor extractors hcount
    rw [Extractor.get_collect_of_count hcount,
      Extractor.get_collect_of_count List.count_singleton_self]

def wrappedImport : Node where
  label := "import_or_export"
  span := ⟨0, 16⟩
  children := [
    { label := "library_import"
      span := ⟨0, 16⟩
      children := [{ label := "string_literal", span := ⟨0, 16⟩ }] }]

def httpLiteral : Bytes := Utf8.encode "'package:http/h'"

theorem analyze_reads_preorder_wrapped :
    (∀ n ∈ wrappedImport.preorder, n.role? = some .directive →
      n.directiveUri? httpLiteral = some (0, Text.ofString "package:http/h")) ∧
    Text.ofString "http" ∈ (wrappedImport.analyze httpLiteral [] []).packages ∧
    Extractor.imports.get (Extractor.collect httpLiteral [] [] Extractor.all wrappedImport) =
      Extractor.imports.get (Extractor.collect httpLiteral [] [] [.imports] wrappedImport) := by
  have huri : ∀ n ∈ wrappedImport.preorder, n.role? = some .directive →
      n.directiveUri? httpLiteral = some (0, Text.ofString "package:http/h") := by
    have hdirectives : (wrappedImport.preorder.all fun n => n.role? != some .directive ||
        n.directiveUri? httpLiteral == some (0, Text.ofString "package:http/h")) = true := by
      decide +kernel
    intro n hn hrole
    simpa [hrole] using List.all_eq_true.mp hdirectives n hn
  obtain ⟨_, _, _, _, _, hpackages, halone⟩ := analyze_reads_preorder httpLiteral [] [] wrappedImport
  refine ⟨huri, ?_, halone .imports Extractor.all rfl⟩
  refine (hpackages ?_ _).mpr ⟨by decide, wrappedImport, by simp [preorder_eq], rfl, 0, _,
    huri _ (by simp [preorder_eq]) rfl, by decide⟩
  intro n hn m hm hnrole hmrole offset uri other hnuri hmuri
  rw [huri n hn hnrole] at hnuri
  rw [huri m hm hmrole] at hmuri
  cases hnuri
  cases hmuri
  rfl

def importUpTo (stop : Nat) : Node where
  label := "library_import"
  span := ⟨0, stop⟩
  children := [{ label := "string_literal", span := ⟨0, stop⟩ }]

/-- Two imports whose literals start at one offset; the second also covers an adjacent part. -/
def overlappingImports : Node where
  label := "program"
  span := ⟨0, 15⟩
  children := [importUpTo 11, importUpTo 15]

def adjacentParts : Bytes := Utf8.encode "'package:a' 'b'"

/-- A directive whose offset a later one takes loses its package. -/
theorem exists_directive_without_package :
    ¬ ∀ (source : Bytes) (file : Text) (excluded : List Text) (root : Node) (name : Text),
      name ∈ (root.analyze source file excluded).packages ↔
        name ≠ [] ∧ ∃ n ∈ root.preorder, n.role? = some .directive ∧
          ∃ offset uri, n.directiveUri? source = some (offset, uri) ∧
            packageName? uri = some name := by
  intro h
  have huri : (importUpTo 11).directiveUri? adjacentParts = some (0, Text.ofString "package:a") := by
    decide +kernel
  have hmem := (h adjacentParts [] [] overlappingImports (Text.ofString "a")).mpr
    ⟨by decide, importUpTo 11, by simp [preorder, preorderAll, overlappingImports, importUpTo], rfl,
      0, _, huri, by decide⟩
  have habsent : Text.ofString "a" ∉ (overlappingImports.analyze adjacentParts [] []).packages := by
    decide +kernel
  exact habsent hmem

end Node

end Deadwood
