import Deadwood.Proofs.FailSoft

/-!
Methods that are called from elsewhere are not recorded at all, which also changes how often a name is
declared. It changes nothing for other names or for classes: leaving more names out takes the findings
about methods of these names away and does nothing else.
-/
namespace Deadwood

/-- All but the methods of the given names. -/
def Declaration.isKept (names : List Text) (d : Declaration) : Bool :=
  !(d.kind == .method && names.contains d.name)

theorem Declaration.isKept_iff {names : List Text} {d : Declaration} :
    d.isKept names ↔ (d.kind = .method → d.name ∉ names) := by
  simp [isKept, imp_iff_not_or]

def Report.withoutMethods (names : List Text) (r : Report) : Report :=
  { r with methods := r.methods.filter fun finding => !names.contains finding.name }

def FileAnalysis.withoutMethods (names : List Text) (analysis : FileAnalysis) : FileAnalysis :=
  { analysis with declarations := analysis.declarations.filter (·.isKept names) }

section Extraction

variable {old new names : List Text} {source : Bytes} {file : Text}

theorem Node.recorded?_eq_filter (h : ∀ name, name ∈ new ↔ name ∈ old ∨ name ∈ names) (n : Node) :
    n.recorded? source file new = (n.recorded? source file old).filter (·.isKept names) := by
  ext d
  simp only [Option.filter_eq_some_iff, recorded?_eq_some_iff, Declaration.isKept_iff, Declares, h]
  grind

theorem Node.analyze_eq_withoutMethods (h : ∀ name, name ∈ new ↔ name ∈ old ∨ name ∈ names)
    (root : Node) :
    root.analyze source file new = (root.analyze source file old).withoutMethods names := by
  rw [analyze_eq, analyze_eq]
  simp only [FileAnalysis.withoutMethods, declarations_eq_filterMap_preorder,
    List.filter_filterMap, ← recorded?_eq_filter h]

end Extraction

namespace Index

variable {names : List Text}

def withoutMethods (names : List Text) (index : Index) : Index :=
  { index with declarations := index.declarations.filter (·.isKept names) }

theorem ofResults_withoutMethods (names : List Text) (results : List (Option FileAnalysis)) :
    ofResults (results.map (Option.map (·.withoutMethods names))) =
      (ofResults results).withoutMethods names := by
  unfold ofResults
  rw [List.foldl_map]
  change List.foldl _ (withoutMethods names {}) results = _
  apply List.foldl_hom (withoutMethods names)
  intro index result
  cases result with
  | none => rfl
  | some analysis =>
    simp [step, merge, withoutMethods, FileAnalysis.withoutMethods]

theorem declaredCount_withoutMethods (index : Index) {d : Declaration} (h : d.isKept names) :
    (index.withoutMethods names).declaredCount d.kind d.name = index.declaredCount d.kind d.name := by
  unfold declaredCount withoutMethods
  rw [List.countP_filter]
  apply List.countP_congr
  intro e _
  simp only [Declaration.isKept_iff, Bool.and_eq_true, beq_iff_eq] at h ⊢
  constructor
  · exact fun he => he.1
  · rintro ⟨hkind, hname⟩
    exact ⟨⟨hkind, hname⟩, by rwa [hkind, hname]⟩

theorem isUnused_withoutMethods (index : Index) {d : Declaration} (h : d.isKept names) :
    (index.withoutMethods names).isUnused d = index.isUnused d := by
  unfold isUnused
  rw [declaredCount_withoutMethods index h]
  rfl

theorem filter_unused_withoutMethods (index : Index) (kind : Declaration.Kind) :
    ((index.withoutMethods names).declarations.filter fun d =>
        d.kind == kind && (index.withoutMethods names).isUnused d) =
      (index.declarations.filter fun d => d.kind == kind && index.isUnused d).filter
        (·.isKept names) := by
  rw [List.filter_filter]
  change List.filter _ (index.declarations.filter _) = _
  rw [List.filter_filter]
  apply List.filter_congr
  intro d _
  by_cases hkept : d.isKept names
  · simp [hkept, isUnused_withoutMethods index hkept]
  · simp [hkept]

variable {index : Index} {cwd root : Text} {findings : List SymbolFinding}

theorem unusedSymbols_withoutMethods_class (names : List Text)
    (h : index.unusedSymbols cwd root .classType = .ok findings) :
    (index.withoutMethods names).unusedSymbols cwd root .classType = .ok findings := by
  unfold unusedSymbols
  rw [filter_unused_withoutMethods, List.filter_eq_self.mpr ?_]
  · exact h
  · intro d hd
    have hkind := (List.mem_filter.mp hd).2
    simp only [Bool.and_eq_true, beq_iff_eq] at hkind
    simp [Declaration.isKept, hkind.1]

theorem unusedSymbols_withoutMethods_method (names : List Text)
    (h : index.unusedSymbols cwd root .method = .ok findings) :
    (index.withoutMethods names).unusedSymbols cwd root .method =
      .ok (findings.filter fun finding => !names.contains finding.name) := by
  unfold unusedSymbols
  rw [filter_unused_withoutMethods]
  apply mapM_filter_eq_ok h
  intro d hd finding hfinding
  have hkind := (List.mem_filter.mp hd).2
  simp only [Bool.and_eq_true, beq_iff_eq] at hkind
  simp [Declaration.isKept, hkind.1, name_of_symbolFinding hfinding]

theorem report_withoutMethods {packages : List DeclaredPackage} {assets : List Text} {r : Report}
    (h : index.report cwd root packages assets = .ok r) :
    (index.withoutMethods names).report cwd root packages assets =
      .ok (r.withoutMethods names) := by
  obtain ⟨hclasses, hmethods, hpackages, hassets⟩ := report_eq_ok_iff.mp h
  exact report_eq_ok_iff.mpr ⟨unusedSymbols_withoutMethods_class names hclasses,
    unusedSymbols_withoutMethods_method names hmethods, hpackages, hassets⟩

end Index

def SourceTree.excluding (excluded : List Text) (t : SourceTree) : SourceTree :=
  { t with excluded }

namespace Index

variable {old new names : List Text}

theorem ofTrees_excluding (h : ∀ name, name ∈ new ↔ name ∈ old ∨ name ∈ names)
    (trees : List SourceTree) :
    ofTrees (trees.map (·.excluding new)) =
      (ofTrees (trees.map (·.excluding old))).withoutMethods names := by
  unfold ofTrees
  rw [← ofResults_withoutMethods, List.map_map, List.map_map, List.map_map]
  congr 2
  funext t
  exact congrArg some (Node.analyze_eq_withoutMethods h t.root)

theorem name_not_mem_excluded {trees : List SourceTree} {excluded : List Text}
    (htrees : ∀ t ∈ trees, t.excluded = excluded) {cwd root : Text} {findings : List SymbolFinding}
    (h : (ofTrees trees).unusedSymbols cwd root .method = .ok findings) :
    ∀ finding ∈ findings, finding.name ∉ excluded := by
  have hself : trees.map (·.excluding excluded) = trees := by
    refine (List.map_congr_left fun t ht => ?_).trans (List.map_id trees)
    cases htrees t ht
    rfl
  -- leaving the names out once more changes nothing
  have hagain : ofTrees trees = (ofTrees trees).withoutMethods excluded := by
    conv_rhs => rw [← hself]
    conv_lhs => rw [← hself]
    exact ofTrees_excluding (fun _ => or_self_iff.symm) trees
  have hfiltered := unusedSymbols_withoutMethods_method excluded h
  rw [← hagain, h] at hfiltered
  have hall := List.filter_eq_self.mp (Except.ok.inj hfiltered).symm
  intro finding hmem
  simpa using hall finding hmem

end Index

namespace Project

def Outcome.withoutMethods (names : List Text) (outcome : Outcome) : Outcome :=
  { outcome with report := outcome.report.withoutMethods names }

variable {old new names : List Text} {p : Parsers} {d : Disk} {cwd path : Text} {options : Options}

theorem analyzeFile_withoutMethods (h : ∀ name, name ∈ new ↔ name ∈ old ∨ name ∈ names)
    (p : Parsers) (d : Disk) (file : Text) :
    analyzeFile p d new file = (analyzeFile p d old file).map (·.withoutMethods names) := by
  unfold analyzeFile
  rw [Option.map_map]
  congr 1
  funext source
  exact Node.analyze_eq_withoutMethods h _

theorem buildIndex_withoutMethods (h : ∀ name, name ∈ new ↔ name ∈ old ∨ name ∈ names)
    (p : Parsers) (d : Disk) (files : List Text) (workers : Option Int) :
    buildIndex p d files new workers =
      (buildIndex p d files old workers).map (Index.withoutMethods names) := by
  have hresults : files.map (analyzeFile p d new) =
      (files.map (analyzeFile p d old)).map (Option.map (·.withoutMethods names)) := by
    rw [List.map_map]
    exact List.map_congr_left fun file _ => analyzeFile_withoutMethods h p d file
  unfold buildIndex
  rw [mapFiles_eq, mapFiles_eq]
  split
  · rfl
  · simp only [Except.map, hresults, Index.ofResults_withoutMethods]

theorem exists_report_of_buildIndex {index : Index}
    (h : buildIndex p d (sources d cwd path options) (frameworkCallbacks ++ options.extraCallbacks)
      options.workers = .ok index) (packages : List DeclaredPackage) (assets : List Text) :
    ∃ r, index.report cwd (Path.absolute cwd path) packages assets = .ok r := by
  by_cases hworkers : TooFewWorkers (sources d cwd path options) options.workers
  · rw [buildIndex_of_tooFewWorkers p d _ hworkers] at h
    cases h
  · rw [buildIndex_of_not_tooFewWorkers p d _ hworkers] at h
    cases h
    rw [report_map_analyzeFile]
    exact Index.exists_report (fun u hu => file_ne_nil_of_mem_trees hu) _ _ _ _

theorem conclude_withoutMethods {index : Index}
    (h : ∀ packages assets, ∃ r,
      index.report cwd (Path.absolute cwd path) packages assets = .ok r) :
    conclude p d cwd path options (index.withoutMethods names) =
      (conclude p d cwd path options index).map (Outcome.withoutMethods names) := by
  simp only [conclude]
  cases Manifest.declared p.yaml d cwd (Path.absolute cwd path) options.manifestName with
  | error e => rfl
  | ok declared =>
    obtain ⟨r, hr⟩ := h declared.packages declared.assets
    simp only [Except.mapError, bind, Except.bind, hr, Index.report_withoutMethods hr]
    rfl

theorem mem_callbacks_iff {extra more : List Text} (h : extra ⊆ more) (name : Text) :
    name ∈ frameworkCallbacks ++ more ↔ name ∈ frameworkCallbacks ++ extra ∨ name ∈ more := by
  have hname := @h name
  simp only [List.mem_append]
  grind

theorem analyze_withoutMethods {extra more : List Text} (h : extra ⊆ more) (p : Parsers) (d : Disk)
    (cwd path : Text) (options : Options) :
    analyze p d cwd path { options with extraCallbacks := more } =
      (analyze p d cwd path { options with extraCallbacks := extra }).map
        (Outcome.withoutMethods more) := by
  cases hcode : hasCode d (Path.absolute cwd path) options with
  | false =>
    have hcode' : ∀ callbacks, hasCode d (Path.absolute cwd path)
        { options with extraCallbacks := callbacks } = false := fun _ => hcode
    rw [analyze_of_not_hasCode p (hcode' more), analyze_of_not_hasCode p (hcode' extra)]
    rfl
  | true =>
    have hcode' : ∀ callbacks, hasCode d (Path.absolute cwd path)
        { options with extraCallbacks := callbacks } = true := fun _ => hcode
    have hsources : sources d cwd path { options with extraCallbacks := more } =
        sources d cwd path { options with extraCallbacks := extra } := rfl
    rw [analyze_of_hasCode p (hcode' more), analyze_of_hasCode p (hcode' extra), hsources,
      buildIndex_withoutMethods (mem_callbacks_iff h)]
    cases hbuild : buildIndex p d (sources d cwd path { options with extraCallbacks := extra })
        (frameworkCallbacks ++ extra) options.workers with
    | error e => rfl
    | ok index => exact conclude_withoutMethods (exists_report_of_buildIndex hbuild)

theorem name_not_mem_callbacks {outcome : Outcome} (h : analyze p d cwd path options = .ok outcome) :
    ∀ finding ∈ outcome.report.methods,
      finding.name ∉ frameworkCallbacks ∧ finding.name ∉ options.extraCallbacks := by
  cases hcode : hasCode d (Path.absolute cwd path) options with
  | false => simp [report_eq_empty h hcode]
  | true =>
    have htrees : ∀ u ∈ trees p d cwd path options,
        u.excluded = frameworkCallbacks ++ options.extraCallbacks := by
      intro u hu
      obtain ⟨file, _, hfile⟩ := List.mem_filterMap.mp hu
      obtain ⟨source, _, rfl⟩ := Option.map_eq_some_iff.mp hfile
      rfl
    intro finding hfinding
    have hname := Index.name_not_mem_excluded htrees (symbols_of_analyze h hcode).2 finding hfinding
    rwa [List.mem_append, not_or] at hname

/-- The index of a project whose methods of these names, too, are called from elsewhere. -/
def indexOf (trees : List SourceTree) (callbacks : List Text) : Index :=
  Index.ofTrees (trees.map (·.excluding (frameworkCallbacks ++ callbacks)))

/-- More callbacks hide the methods of their names and nothing else: not a class of such a name, and
no finding that counts the declarations of another name. -/
theorem callbacks_only_hide_methods (extra more : List Text) (h : extra ⊆ more) :
    (∀ (trees : List SourceTree) cwd root packages assets,
      ((∀ u ∈ trees, u.file ≠ []) →
        ∃ r, (indexOf trees extra).report cwd root packages assets = .ok r) ∧
      ∀ r, (indexOf trees extra).report cwd root packages assets = .ok r →
        (indexOf trees more).report cwd root packages assets = .ok (r.withoutMethods more) ∧
        ∀ finding ∈ r.methods, finding.name ∉ frameworkCallbacks ∧ finding.name ∉ extra) ∧
    ∀ p d cwd path (options : Options),
      analyze p d cwd path { options with extraCallbacks := more } =
        (analyze p d cwd path { options with extraCallbacks := extra }).map
          (Outcome.withoutMethods more) ∧
      ∀ outcome, analyze p d cwd path { options with extraCallbacks := extra } = .ok outcome →
        ∀ finding ∈ outcome.report.methods,
          finding.name ∉ frameworkCallbacks ∧ finding.name ∉ extra := by
  constructor
  · intro trees cwd root packages assets
    unfold indexOf
    constructor
    · intro hfiles
      apply Index.exists_report
      simpa [SourceTree.excluding] using hfiles
    · intro r hr
      rw [Index.ofTrees_excluding (mem_callbacks_iff h)]
      refine ⟨Index.report_withoutMethods hr, ?_⟩
      intro finding hfinding
      have hexcluded : ∀ u ∈ trees.map (·.excluding (frameworkCallbacks ++ extra)),
          u.excluded = frameworkCallbacks ++ extra := by
        simp [SourceTree.excluding]
      have hname := Index.name_not_mem_excluded hexcluded (Index.report_eq_ok_iff.mp hr).2.1
        finding hfinding
      rwa [List.mem_append, not_or] at hname
  · intro p d cwd path options
    exact ⟨analyze_withoutMethods h p d cwd path options, fun _ => name_not_mem_callbacks⟩

/-- The class `_$f` and the function `_$f`. -/
def dollarPair : List SourceTree :=
  [Index.declaredAndCalled "class_definition" [95, 36, 102],
    Index.declaredAndCalled "function_signature" [95, 36, 102]]

theorem callbacks_only_hide_methods_dollar :
    [] ⊆ [Text.ofString "_$f"] ∧
    ∃ r, (indexOf dollarPair []).report [] (Text.ofString "/p") [] [] = .ok r ∧
      (∃ finding ∈ r.classes, finding.name = Text.ofString "_$f") ∧
      (∃ finding ∈ r.methods, finding.name = Text.ofString "_$f") ∧
      (indexOf dollarPair [Text.ofString "_$f"]).report [] (Text.ofString "/p") [] [] =
        .ok (r.withoutMethods [Text.ofString "_$f"]) := by
  have hsubset : [] ⊆ [Text.ofString "_$f"] := List.nil_subset _
  have hhiding := (callbacks_only_hide_methods _ _ hsubset).1 dollarPair [] "/p" [] []
  obtain ⟨r, hr⟩ := hhiding.1 (by decide)
  obtain ⟨hclasses, hmethods, _⟩ := Index.report_eq_ok_iff.mp hr
  have hname : ¬ isIdentifier (Text.ofString "_$f") := by decide
  have hunused : ∀ kind, (indexOf dollarPair []).isUnused
      ⟨kind, Text.ofString "_$f", Text.ofString "/p/lib/a.dart", 1⟩ :=
    fun _ => Index.isUnused_of_not_isIdentifier _ hname
  have hdeclared : ∀ kind, ⟨kind, Text.ofString "_$f", Text.ofString "/p/lib/a.dart", 1⟩ ∈
      (indexOf dollarPair []).declarations := by
    intro kind
    unfold indexOf
    rw [Index.declarations_ofTrees]
    cases kind <;> decide
  exact ⟨hsubset, r, hr, Index.exists_name_of_isUnused hclasses (hdeclared _) (hunused _),
    Index.exists_name_of_isUnused hmethods (hdeclared _) (hunused _), (hhiding.2 r hr).1⟩

end Project

end Deadwood
