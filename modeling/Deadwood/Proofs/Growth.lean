import Deadwood.Proofs.Order
import Deadwood.Proofs.Unused

/-!
Adding a file to a project. Each of its declarations brings an occurrence of its own, and the tables
of packages and literals only grow, so nothing that was there before becomes unused.
-/
namespace Deadwood

namespace Index

variable {trees : List SourceTree} {t : SourceTree}

theorem countP_names_le_countP_spells (ht : t.root.NamesAreTokens) (kind : Declaration.Kind)
    (name : Text) : t.sites.countP (·.names kind name) ≤ t.sites.countP (·.spells name) := by
  have htrees : NamesAreTokens [t] := by
    intro u hu
    rw [List.mem_singleton.mp hu]
    exact ht
  apply List.countP_mono_left
  intro s hs h
  have hsites : s ∈ sites [t] := List.mem_flatMap.mpr ⟨t, List.mem_singleton_self t, hs⟩
  exact Site.spells_of_names htrees hsites h

theorem isUnused_of_isUnused_merge (ht : t.root.NamesAreTokens) {d : Declaration}
    (h : ((ofTrees trees).merge t.analysis).isUnused d) : (ofTrees trees).isUnused d := by
  by_cases hname : isIdentifier d.name
  · rw [← ofTrees_concat, isUnused_iff, count_of_isIdentifier _ hname, declaredCount_ofTrees,
      sites_concat, List.countP_append, List.countP_append] at h
    rw [isUnused_iff, count_of_isIdentifier _ hname, declaredCount_ofTrees]
    -- both sides grow, the occurrences by at least as much as the declarations
    have hfile := countP_names_le_countP_spells ht d.kind d.name
    omega
  · exact isUnused_of_not_isIdentifier trees hname

theorem mem_packages_merge (index : Index) (analysis : FileAnalysis) {name : Text}
    (h : name ∈ index.packages) : name ∈ (index.merge analysis).packages :=
  Text.mem_addAll.mpr (.inl h)

theorem mentions_merge (index : Index) (analysis : FileAnalysis) {asset : Text}
    (h : index.mentions asset) : (index.merge analysis).mentions asset := by
  obtain ⟨literal, hliteral, hneedle⟩ := List.any_eq_true.mp h
  exact List.any_eq_true.mpr ⟨literal, Text.mem_addAll.mpr (.inl hliteral), hneedle⟩

theorem unusedPackages_merge_sublist (index : Index) (analysis : FileAnalysis)
    (declared : List DeclaredPackage) :
    List.Sublist ((index.merge analysis).unusedPackages declared)
      (index.unusedPackages declared) := by
  apply sublist_mergeSort_mergeSort
  · exact fun a b c hab hbc => Text.le_trans hab hbc
  · exact fun a b => Text.le_total a.name b.name
  · apply List.Sublist.map
    apply List.monotone_filter_right
    intro package h
    rw [Bool.not_eq_true', ← Bool.not_eq_true, List.contains_iff_mem] at h ⊢
    exact fun hmem => h (mem_packages_merge index analysis hmem)

theorem unusedAssets_merge_sublist (index : Index) (analysis : FileAnalysis)
    (declared : List Text) :
    List.Sublist ((index.merge analysis).unusedAssets declared) (index.unusedAssets declared) := by
  apply List.Sublist.map
  apply List.monotone_filter_right
  intro asset h
  rw [Bool.not_eq_true', ← Bool.not_eq_true] at h ⊢
  exact fun hmentions => h (mentions_merge index analysis hmentions)

theorem mem_unusedSymbols_merge (ht : t.root.NamesAreTokens) {cwd root : Text}
    {kind : Declaration.Kind} {old new : List SymbolFinding}
    (hold : (ofTrees trees).unusedSymbols cwd root kind = .ok old)
    (hnew : ((ofTrees trees).merge t.analysis).unusedSymbols cwd root kind = .ok new)
    {finding : SymbolFinding} (hmem : finding ∈ new) :
    finding ∈ old ∨ ∃ d ∈ t.analysis.declarations, d.kind = kind ∧
      symbolFinding cwd root d = .ok finding := by
  obtain ⟨d, hd, hkind, hunused, hfinding⟩ := (mem_unusedSymbols hnew).mp hmem
  rcases List.mem_append.mp hd with hd | hd
  · left
    exact (mem_unusedSymbols hold).mpr
      ⟨d, hd, hkind, isUnused_of_isUnused_merge ht hunused, hfinding⟩
  · right
    exact ⟨d, hd, hkind, hfinding⟩

theorem file_mem_of_mem_declarations {d : Declaration} (h : d ∈ (ofTrees trees).declarations) :
    ∃ u ∈ trees, d.file = u.file := by
  rw [declarations_ofTrees] at h
  obtain ⟨s, hs, hd⟩ := List.mem_filterMap.mp h
  obtain ⟨htree, hplace⟩ := mem_sites hs
  obtain ⟨_, _, _, _, _, hrecorded⟩ := Place.declaration?_cases hplace hd
  obtain ⟨_, _, _, hfields, _⟩ := Node.recorded?_cases hrecorded
  refine ⟨s.tree, htree, ?_⟩
  rw [hfields]

theorem exists_report (hfiles : ∀ u ∈ trees, u.file ≠ []) (cwd root : Text)
    (packages : List DeclaredPackage) (assets : List Text) :
    ∃ r, (ofTrees trees).report cwd root packages assets = .ok r := by
  apply exists_report_of_files
  intro d hd
  obtain ⟨u, hu, hfile⟩ := file_mem_of_mem_declarations hd
  rw [hfile]
  exact hfiles u hu

/-- Adding a file creates no finding about what was there before. -/
theorem merge_creates_no_old_finding (trees : List SourceTree) (t : SourceTree)
    (ht : t.root.NamesAreTokens) :
    (∀ d ∈ (ofTrees trees).declarations,
      ((ofTrees trees).merge t.analysis).isUnused d → (ofTrees trees).isUnused d) ∧
    (∀ declared, List.Sublist (((ofTrees trees).merge t.analysis).unusedPackages declared)
      ((ofTrees trees).unusedPackages declared)) ∧
    (∀ declared, List.Sublist (((ofTrees trees).merge t.analysis).unusedAssets declared)
      ((ofTrees trees).unusedAssets declared)) ∧
    (∀ cwd root packages assets old new,
      (ofTrees trees).report cwd root packages assets = .ok old →
      ((ofTrees trees).merge t.analysis).report cwd root packages assets = .ok new →
      (∀ finding ∈ new.classes, finding ∈ old.classes ∨ ∃ d ∈ t.analysis.declarations,
        d.kind = .classType ∧ symbolFinding cwd root d = .ok finding) ∧
      (∀ finding ∈ new.methods, finding ∈ old.methods ∨ ∃ d ∈ t.analysis.declarations,
        d.kind = .method ∧ symbolFinding cwd root d = .ok finding) ∧
      (∀ finding ∈ new.packages, finding ∈ old.packages) ∧
      (∀ finding ∈ new.assets, finding ∈ old.assets)) ∧
    ((∀ u ∈ trees ++ [t], u.file ≠ []) → ∀ cwd root packages assets,
      (∃ old, (ofTrees trees).report cwd root packages assets = .ok old) ∧
      ∃ new, ((ofTrees trees).merge t.analysis).report cwd root packages assets = .ok new) := by
  refine ⟨?_, ?_, ?_, ?_, ?_⟩
  · exact fun d _ h => isUnused_of_isUnused_merge ht h
  · exact fun declared => unusedPackages_merge_sublist _ _ declared
  · exact fun declared => unusedAssets_merge_sublist _ _ declared
  · intro cwd root packages assets old new hold hnew
    obtain ⟨hclasses, hmethods, hpackages, hassets⟩ := report_eq_ok_iff.mp hold
    obtain ⟨hclasses', hmethods', hpackages', hassets'⟩ := report_eq_ok_iff.mp hnew
    refine ⟨?_, ?_, ?_, ?_⟩
    · exact fun finding h => mem_unusedSymbols_merge ht hclasses hclasses' h
    · exact fun finding h => mem_unusedSymbols_merge ht hmethods hmethods' h
    · rw [hpackages, hpackages']
      exact fun finding h => (unusedPackages_merge_sublist _ _ packages).mem h
    · rw [hassets, hassets']
      exact fun finding h => (unusedAssets_merge_sublist _ _ assets).mem h
  · intro hfiles cwd root packages assets
    refine ⟨exists_report (fun u hu => hfiles u (List.mem_append_left _ hu)) .., ?_⟩
    rw [← ofTrees_concat]
    exact exists_report hfiles ..

theorem merge_creates_no_old_finding_shared :
    (declaredAndCalled "function_signature" [102]).root.NamesAreTokens ∧
      ∃ old new,
        (ofTrees [declaredAndCalled "class_definition" [102]]).report [] (Text.ofString "/p")
          [⟨Text.ofString "http", 3⟩] [Text.ofString "logo.png"] = .ok old ∧
        ((ofTrees [declaredAndCalled "class_definition" [102]]).merge
          (declaredAndCalled "function_signature" [102]).analysis).report [] (Text.ofString "/p")
          [⟨Text.ofString "http", 3⟩] [Text.ofString "logo.png"] = .ok new ∧
        (∀ finding ∈ new.packages, finding ∈ old.packages) ∧
        ∀ finding ∈ new.assets, finding ∈ old.assets := by
  have ht := namesAreTokens_declaredAndCalled "function_signature" [102]
  have hfiles : ∀ u ∈ [declaredAndCalled "class_definition" [102]] ++
      [declaredAndCalled "function_signature" [102]], u.file ≠ [] := by
    intro u hu
    simp only [List.cons_append, List.nil_append, List.mem_cons, List.not_mem_nil, or_false] at hu
    rcases hu with rfl | rfl <;> exact List.cons_ne_nil _ _
  have hgrown := merge_creates_no_old_finding [declaredAndCalled "class_definition" [102]]
    (declaredAndCalled "function_signature" [102]) ht
  obtain ⟨⟨old, hold⟩, new, hnew⟩ := hgrown.2.2.2.2 hfiles [] (Text.ofString "/p")
    [⟨Text.ofString "http", 3⟩] [Text.ofString "logo.png"]
  have hfindings := hgrown.2.2.2.1 _ _ _ _ old new hold hnew
  exact ⟨ht, old, new, hold, hnew, hfindings.2.2⟩

end Index

end Deadwood
