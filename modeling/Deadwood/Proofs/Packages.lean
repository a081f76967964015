import Deadwood.Manifest.Basic
import Deadwood.Proofs.Assets
import Deadwood.Proofs.Import
import Deadwood.Proofs.Order

/-!
When a declared package counts as used: a URI of the project names it, alone or as the first part of a
path. The unused ones are listed by name, and a manifest declares no name twice.
-/
namespace Deadwood

namespace Manifest

theorem map_name_declaredPackages (m : Manifest) :
    m.declaredPackages.map (·.name) =
      (packageNames m.dependencies ++ packageNames m.devDependencies).eraseDups := by
  simp [declaredPackages, Function.comp_def]

theorem nodup_name_declaredPackages (m : Manifest) :
    (m.declaredPackages.map (·.name)).Nodup := by
  rw [map_name_declaredPackages]
  exact nodup_eraseDups _

end Manifest

namespace Index

variable {trees : List SourceTree} {declared : List DeclaredPackage}

/-- A recorded URI of the project is that of the package, or leads into it. -/
def Imported (trees : List SourceTree) (name : Text) : Prop :=
  ∃ t ∈ trees, ∃ uri ∈ t.root.uris t.source,
    uri = packageScheme ++ name ∨ packageScheme ++ name ++ [CodePoint.ofChar '/'] <+: uri

/-- No URI can name the package, or none does. -/
def Unimported (trees : List SourceTree) (name : Text) : Prop :=
  name = [] ∨ CodePoint.ofChar '/' ∈ name ∨ ¬ Imported trees name

theorem mem_packages_ofTrees {name : Text} :
    name ∈ (ofTrees trees).packages ↔
      name ≠ [] ∧ CodePoint.ofChar '/' ∉ name ∧ Imported trees name := by
  rw [ofTrees_eq_mergeAll, packages_mergeAll, Text.mem_foldl_addAll]
  simp only [List.not_mem_nil, false_or, List.mem_map, exists_exists_and_eq_and,
    SourceTree.analysis_eq, Text.mem_addAll, Node.mem_packages, packageName?_eq_some_iff, Imported]
  grind

theorem unimported_iff {name : Text} :
    Unimported trees name ↔ name ∉ (ofTrees trees).packages := by
  rw [mem_packages_ofTrees]
  unfold Unimported
  grind

instance decidableUnimported (trees : List SourceTree) (name : Text) :
    Decidable (Unimported trees name) :=
  decidable_of_iff _ unimported_iff.symm

def unimportedFindings (trees : List SourceTree) (declared : List DeclaredPackage) :
    List PackageFinding :=
  (declared.filter fun package => Unimported trees package.name).map fun package =>
    ⟨package.name, package.line⟩

theorem unusedPackages_ofTrees (trees : List SourceTree) (declared : List DeclaredPackage) :
    (ofTrees trees).unusedPackages declared =
      (unimportedFindings trees declared).mergeSort fun a b => Text.le a.name b.name := by
  unfold unusedPackages unimportedFindings
  congr 2
  apply List.filter_congr
  intro package _
  simp [unimported_iff]

theorem pairwise_unusedPackages (index : Index) (declared : List DeclaredPackage) :
    (index.unusedPackages declared).Pairwise fun a b =>
      a.name = b.name ∨ Text.Before a.name b.name := by
  have hsorted : (index.unusedPackages declared).Pairwise fun a b => Text.le a.name b.name := by
    apply List.pairwise_mergeSort
    · exact fun _ _ _ => Text.le_trans
    · exact fun a b => Text.le_total a.name b.name
  exact hsorted.imp Text.le_iff.mp

theorem pairwise_before_unusedPackages (index : Index)
    (h : (declared.map (·.name)).Nodup) :
    (index.unusedPackages declared).Pairwise fun a b => Text.Before a.name b.name := by
  have hnames : ((index.unusedPackages declared).map (·.name)).Nodup := by
    have hperm : (index.unusedPackages declared).Perm _ := List.mergeSort_perm _ _
    rw [(hperm.map _).nodup_iff, List.map_map]
    exact h.sublist (List.filter_sublist.map _)
  rw [List.Nodup, List.pairwise_map] at hnames
  refine ((pairwise_unusedPackages index declared).and hnames).imp ?_
  rintro a b ⟨heq | hbefore, hne⟩
  · exact absurd heq hne
  · exact hbefore

/-- The unused packages are the declared ones that no recorded URI names, by name, and those of one
name in the order of their declaration. -/
theorem unusedPackages_exact (trees : List SourceTree) (declared : List DeclaredPackage) :
    ((ofTrees trees).unusedPackages declared).Pairwise
      (fun a b => a.name = b.name ∨ Text.Before a.name b.name) ∧
    (∀ name, ((ofTrees trees).unusedPackages declared).filter (·.name = name) =
      (unimportedFindings trees declared).filter (·.name = name)) ∧
    ((ofTrees trees).unusedPackages declared).Perm (unimportedFindings trees declared) ∧
    ∀ manifest : Manifest,
      ((ofTrees trees).unusedPackages manifest.declaredPackages).Pairwise
        fun a b => Text.Before a.name b.name := by
  refine ⟨pairwise_unusedPackages _ declared, ?_, ?_, ?_⟩
  · intro name
    rw [unusedPackages_ofTrees]
    apply filter_mergeSort
    · exact fun _ _ _ => Text.le_trans
    · exact fun a b => Text.le_total a.name b.name
    · intro a b ha hb
      simp only [decide_eq_true_eq] at ha hb
      exact Text.le_iff.mpr (.inl (ha.trans hb.symm))
  · rw [unusedPackages_ofTrees]
    exact List.mergeSort_perm _ _
  · exact fun manifest =>
      pairwise_before_unusedPackages _ manifest.nodup_name_declaredPackages

end Index

end Deadwood
