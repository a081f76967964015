import Deadwood.Index
import Deadwood.Usage
import Deadwood.Proofs.Extraction
import Mathlib.Data.List.Induction

/-!
The tables of a project, seen from the places of its syntax trees: the declarations are read off the
places that name one, and a count is a number of places.
-/
namespace Deadwood

/-- A file's syntax tree with all that its analysis depends on. -/
structure SourceTree where
  file : Text
  source : Bytes
  root : Node
  excluded : List Text

def SourceTree.analysis (t : SourceTree) : FileAnalysis :=
  t.root.analyze t.source t.file t.excluded

theorem SourceTree.analysis_eq (t : SourceTree) :
    t.analysis =
      { file := t.file
        declarations := t.root.declarations t.source t.file t.excluded
        census := t.root.census t.source
        packages := Text.addAll [] (t.root.packages t.source)
        literals := t.root.literalFragments t.source } :=
  t.root.analyze_eq t.source t.file t.excluded

structure Site where
  tree : SourceTree
  place : Place

namespace Site

def isToken (s : Site) : Bool :=
  s.place.isToken

def text (s : Site) : Text :=
  s.place.node.text s.tree.source

def declaration? (s : Site) : Option Declaration :=
  s.place.declaration? s.tree.source s.tree.file s.tree.excluded

def spells (s : Site) (name : Text) : Bool :=
  s.isToken && s.text == name

/-- The name of a recorded declaration of the kind stands here. -/
def names (s : Site) (kind : Declaration.Kind) (name : Text) : Bool :=
  s.declaration?.any fun d => d.kind == kind && d.name == name

theorem names_iff {s : Site} {kind : Declaration.Kind} {name : Text} :
    s.names kind name ↔ ∃ d, s.declaration? = some d ∧ d.kind = kind ∧ d.name = name := by
  simp [names, Option.any_eq_true]

end Site

def SourceTree.sites (t : SourceTree) : List Site :=
  t.root.places.map (⟨t, ·⟩)

def sites (trees : List SourceTree) : List Site :=
  trees.flatMap SourceTree.sites

theorem mem_sites {trees : List SourceTree} {s : Site} (h : s ∈ sites trees) :
    s.tree ∈ trees ∧ s.place ∈ s.tree.root.places := by
  obtain ⟨t, ht, hs⟩ := List.mem_flatMap.mp h
  obtain ⟨p, hp, rfl⟩ := List.mem_map.mp hs
  exact ⟨ht, hp⟩

theorem sites_concat (trees : List SourceTree) (t : SourceTree) :
    sites (trees ++ [t]) = sites trees ++ t.sites := by
  unfold sites
  rw [List.flatMap_append, List.flatMap_singleton]

theorem SourceTree.declarations_analysis (t : SourceTree) :
    t.analysis.declarations = t.sites.filterMap Site.declaration? := by
  unfold sites
  rw [List.filterMap_map, analysis_eq]
  exact t.root.declarations_eq_filterMap_places t.source t.file t.excluded

theorem SourceTree.count_analysis (t : SourceTree) (name : Text) :
    t.analysis.census.count name =
      if isIdentifier name then
        ((t.sites.countP (·.spells name) : Nat) : Int)
      else 0 := by
  unfold sites
  rw [List.countP_map, analysis_eq]
  exact t.root.count_census t.source name

namespace Index

def ofTrees (trees : List SourceTree) : Index :=
  ofResults (trees.map fun t => some t.analysis)

theorem ofTrees_concat (trees : List SourceTree) (t : SourceTree) :
    ofTrees (trees ++ [t]) = (ofTrees trees).merge t.analysis := by
  unfold ofTrees ofResults
  rw [List.map_append, List.foldl_append]
  rfl

theorem declarations_ofTrees (trees : List SourceTree) :
    (ofTrees trees).declarations = (sites trees).filterMap Site.declaration? := by
  induction trees using List.reverseRecOn with
  | nil => rfl
  | append_singleton trees t ih =>
    rw [ofTrees_concat, sites_concat, List.filterMap_append, ← ih, ← SourceTree.declarations_analysis]
    rfl

theorem declaredCount_ofTrees (trees : List SourceTree) (kind : Declaration.Kind) (name : Text) :
    (ofTrees trees).declaredCount kind name =
      (sites trees).countP (·.names kind name) := by
  unfold declaredCount
  rw [declarations_ofTrees, List.countP_filterMap]
  congr 1
  funext s
  unfold Site.names
  cases s.declaration? <;> rfl

/-- The count of an identifier is how many tokens have its text; nothing else is counted. -/
theorem count_ofTrees (trees : List SourceTree) (name : Text) :
    (ofTrees trees).census.count name =
      if isIdentifier name then
        (((sites trees).countP (·.spells name) : Nat) : Int)
      else 0 := by
  induction trees using List.reverseRecOn with
  | nil =>
    rw [show (ofTrees []).census = {} from rfl, Census.count_empty]
    split <;> rfl
  | append_singleton trees t ih =>
    have hmerge : (ofTrees (trees ++ [t])).census = (ofTrees trees).census.merge t.analysis.census := by
      rw [ofTrees_concat]
      rfl
    rw [hmerge, Census.count_merge, ih, SourceTree.count_analysis, sites_concat,
      List.countP_append]
    split
    · rw [Int.natCast_add]
    · rfl

end Index

end Deadwood
