import Deadwood.Project
import Deadwood.Proofs.Assets
import Deadwood.Proofs.Growth
import Deadwood.Proofs.Manifest.Loading
import Deadwood.Proofs.Pool

/-!
When the analysis of a project gives a report. Missing code, files that cannot be read and a manifest
that is absent or makes no sense are all passed over. What remains is many files to be shared among no
workers, and what keeps the packages and the assets of the project from being known. The findings
about symbols do not depend on the manifest at all.
-/
namespace Deadwood

namespace Project

variable {p : Parsers} {d d' : Disk} {cwd path : Text} {options options' : Options}

/-- Many files are to be shared among fewer than one worker. -/
def TooFewWorkers (files : List Text) (workers : Option Int) : Prop :=
  parallelThreshold ≤ files.length ∧ ∃ n, workers = some n ∧ n < 1

theorem tooFewWorkers_iff {files : List Text} {workers : Option Int} :
    (isParallel files workers && workers.any (· < 1)) = true ↔ TooFewWorkers files workers := by
  unfold isParallel TooFewWorkers
  cases workers with
  | none => simp
  | some n =>
    simp only [Bool.and_eq_true, decide_eq_true_eq, bne_iff_ne, ne_eq, Option.some.injEq,
      Option.any_some, exists_eq_left']
    omega

theorem one_le_workerCount {files : List Text} {workers : Option Int}
    (hparallel : isParallel files workers = true) (hworkers : workers.any (· < 1) = false) :
    1 ≤ workerCount files workers := by
  have hlength : 10 ≤ files.length := of_decide_eq_true (Bool.and_elim_left hparallel)
  unfold workerCount
  cases workers with
  | none =>
    simp only [defaultWorkers, Option.elim_none]
    omega
  | some n =>
    simp only [Option.any_some, decide_eq_false_iff_not] at hworkers
    simp only [Option.elim_some]
    omega

theorem mapFiles_eq {α : Type} (files : List Text) (analyze : Text → α) (workers : Option Int) :
    mapFiles files analyze workers =
      if isParallel files workers && workers.any (· < 1) then .error .workers
      else .ok (files.map analyze) := by
  unfold mapFiles
  cases hparallel : isParallel files workers with
  | false => rfl
  | true =>
    cases hworkers : workers.any (· < 1) with
    | true => rfl
    | false =>
      rw [Pool.complete_eq_map analyze (one_le_workerCount hparallel hworkers)]
      rfl

def sourceTrees (p : Parsers) (d : Disk) (files excluded : List Text) : List SourceTree :=
  files.filterMap fun file =>
    ((d.read? file).bind Text.ofFile?).map fun source =>
      ⟨file, Utf8.encode source, p.dart source, excluded⟩

def trees (p : Parsers) (d : Disk) (cwd path : Text) (options : Options) : List SourceTree :=
  sourceTrees p d (sources d cwd path options) (frameworkCallbacks ++ options.extraCallbacks)

theorem readable_map_analyzeFile (p : Parsers) (d : Disk) (files excluded : List Text) :
    Index.readable (files.map (analyzeFile p d excluded)) =
      (sourceTrees p d files excluded).map SourceTree.analysis := by
  unfold Index.readable sourceTrees
  rw [List.filterMap_map, List.map_filterMap]
  congr 1
  funext file
  rw [Option.map_map]
  rfl

theorem report_map_analyzeFile (p : Parsers) (d : Disk) (files excluded : List Text)
    (cwd root : Text) (packages : List DeclaredPackage) (assets : List Text) :
    (Index.ofResults (files.map (analyzeFile p d excluded))).report cwd root packages assets =
      (Index.ofTrees (sourceTrees p d files excluded)).report cwd root packages assets := by
  rw [Index.ofResults_eq, Index.ofTrees_eq_mergeAll, readable_map_analyzeFile]
  -- no finding looks at how many files were skipped
  rfl

theorem ne_nil_of_mem_sources {file : Text} (h : file ∈ sources d cwd path options) : file ≠ [] := by
  obtain ⟨_, hfile, _⟩ := Disk.mem_sourceFiles_iff.mp h
  exact FileTree.ne_nil_of_mem_sourceFiles hfile

theorem file_ne_nil_of_mem_trees {u : SourceTree} (h : u ∈ trees p d cwd path options) :
    u.file ≠ [] := by
  obtain ⟨file, hfile, hu⟩ := List.mem_filterMap.mp h
  obtain ⟨source, _, rfl⟩ := Option.map_eq_some_iff.mp hu
  exact ne_nil_of_mem_sources hfile

/-- What the report is asked for: the packages and assets of the manifest, if there is one. -/
def reportOf (p : Parsers) (d : Disk) (cwd path : Text) (options : Options)
    (manifest : Option Manifest) : Except Path.Error Report :=
  (Index.ofTrees (trees p d cwd path options)).report cwd (Path.absolute cwd path)
    (manifest.getD {}).declaredPackages
    ((manifest.getD {}).declaredAssets d.tree cwd (Path.absolute cwd path))

theorem exists_reportOf (p : Parsers) (d : Disk) (cwd path : Text) (options : Options)
    (manifest : Option Manifest) : ∃ report, reportOf p d cwd path options manifest = .ok report :=
  Index.exists_report (fun _ h => file_ne_nil_of_mem_trees h) _ _ _ _

theorem buildIndex_of_tooFewWorkers (p : Parsers) (d : Disk) {files : List Text}
    (excluded : List Text) {workers : Option Int} (h : TooFewWorkers files workers) :
    buildIndex p d files excluded workers = .error .workers := by
  unfold buildIndex
  rw [mapFiles_eq, if_pos (tooFewWorkers_iff.mpr h)]
  rfl

theorem buildIndex_of_not_tooFewWorkers (p : Parsers) (d : Disk) {files : List Text}
    (excluded : List Text) {workers : Option Int} (h : ¬ TooFewWorkers files workers) :
    buildIndex p d files excluded workers =
      .ok (Index.ofResults (files.map (analyzeFile p d excluded))) := by
  unfold buildIndex
  rw [mapFiles_eq, if_neg (tooFewWorkers_iff.not.mpr h)]
  rfl

theorem analyze_of_not_hasCode (p : Parsers)
    (h : hasCode d (Path.absolute cwd path) options = false) :
    analyze p d cwd path options =
      .ok ⟨{}, [.noSourceDirectory options.codeDir (Path.absolute cwd path)]⟩ := by
  simp only [analyze, h, Bool.not_false, if_true]

theorem analyze_of_hasCode (p : Parsers)
    (h : hasCode d (Path.absolute cwd path) options = true) :
    analyze p d cwd path options =
      (buildIndex p d (sources d cwd path options) (frameworkCallbacks ++ options.extraCallbacks)
        options.workers).bind (conclude p d cwd path options) := by
  simp only [analyze, h, Bool.not_true, Bool.false_eq_true, if_false]
  rfl

/-! ### The course of an analysis -/

def manifest? (p : Parsers) (d : Disk) (cwd path : Text) (options : Options) : Option Manifest :=
  Manifest.manifest? p.yaml d (Path.absolute cwd path) options.manifestName

/-- What keeps a project with code from getting a report. -/
inductive Obstacle (p : Parsers) (d : Disk) (cwd path : Text) (options : Options) : Error → Prop
  | workers : TooFewWorkers (sources d cwd path options) options.workers →
      Obstacle p d cwd path options .workers
  | manifest {e : Manifest.Error} :
      Manifest.Obstacle p.yaml d cwd (Path.absolute cwd path) options.manifestName e →
      Obstacle p d cwd path options (.manifest e)

inductive Run (p : Parsers) (d : Disk) (cwd path : Text) (options : Options) :
    Except Error Outcome → Prop
  | noCode (notices : List Notice) (hcode : hasCode d (Path.absolute cwd path) options = false) :
      Run p d cwd path options (.ok ⟨{}, notices⟩)
  | stopped {e : Error} (hcode : hasCode d (Path.absolute cwd path) options = true)
      (hobstacle : Obstacle p d cwd path options e) : Run p d cwd path options (.error e)
  | reported {report : Report} (notices : List Notice)
      (hcode : hasCode d (Path.absolute cwd path) options = true)
      (hclear : ∀ e, ¬ Obstacle p d cwd path options e)
      (hreport : reportOf p d cwd path options (manifest? p d cwd path options) = .ok report) :
      Run p d cwd path options (.ok ⟨report, notices⟩)

theorem run_analyze (p : Parsers) (d : Disk) (cwd path : Text) (options : Options) :
    Run p d cwd path options (analyze p d cwd path options) := by
  cases hcode : hasCode d (Path.absolute cwd path) options with
  | false =>
    rw [analyze_of_not_hasCode p hcode]
    exact .noCode _ hcode
  | true =>
    rw [analyze_of_hasCode p hcode]
    by_cases hworkers : TooFewWorkers (sources d cwd path options) options.workers
    · rw [buildIndex_of_tooFewWorkers p d _ hworkers]
      exact .stopped hcode (.workers hworkers)
    · rw [buildIndex_of_not_tooFewWorkers p d _ hworkers]
      simp only [Except.bind, conclude]
      rcases Manifest.declared_cases p.yaml d cwd (Path.absolute cwd path) options.manifestName with
        ⟨e, hobstacle, hdeclared⟩ | ⟨hclear, notices, hdeclared⟩
      · rw [hdeclared]
        exact .stopped hcode (.manifest hobstacle)
      · obtain ⟨report, hreport⟩ :=
          exists_reportOf p d cwd path options (manifest? p d cwd path options)
        have hindex := hreport
        unfold reportOf trees manifest? at hindex
        rw [← report_map_analyzeFile] at hindex
        rw [hdeclared]
        simp only [Except.mapError, bind, Except.bind, hindex]
        refine .reported _ hcode ?_ hreport
        rintro e (htoo | hobstacle)
        · exact hworkers htoo
        · exact hclear _ hobstacle

theorem exists_analyze_iff :
    (∃ outcome, analyze p d cwd path options = .ok outcome) ↔
      (hasCode d (Path.absolute cwd path) options = true →
        ∀ e, ¬ Obstacle p d cwd path options e) := by
  have hrun := run_analyze p d cwd path options
  generalize analyze p d cwd path options = result at hrun
  cases hrun with
  | noCode notices hcode => simp [hcode]
  | stopped hcode hobstacle =>
    simp only [reduceCtorEq, exists_false, hcode, true_imp_iff, false_iff]
    exact fun hclear => hclear _ hobstacle
  | reported notices hcode hclear => simpa using fun _ => hclear

theorem error_of_analyze {e : Error} (h : analyze p d cwd path options = .error e) :
    hasCode d (Path.absolute cwd path) options = true ∧ Obstacle p d cwd path options e := by
  have hrun := run_analyze p d cwd path options
  rw [h] at hrun
  cases hrun with
  | stopped hcode hobstacle => exact ⟨hcode, hobstacle⟩

theorem report_eq_empty {outcome : Outcome} (h : analyze p d cwd path options = .ok outcome)
    (hcode : hasCode d (Path.absolute cwd path) options = false) : outcome.report = {} := by
  rw [analyze_of_not_hasCode p hcode] at h
  cases h
  rfl

theorem reportOf_of_analyze {outcome : Outcome} (h : analyze p d cwd path options = .ok outcome)
    (hcode : hasCode d (Path.absolute cwd path) options = true) :
    reportOf p d cwd path options (manifest? p d cwd path options) = .ok outcome.report := by
  have hrun := run_analyze p d cwd path options
  rw [h] at hrun
  cases hrun with
  | noCode notices hcode' => cases hcode.symm.trans hcode'
  | reported notices _ _ hreport => exact hreport

theorem findings_without_manifest {outcome : Outcome}
    (h : analyze p d cwd path options = .ok outcome)
    (hnone : manifest? p d cwd path options = none) :
    outcome.report.packages = [] ∧ outcome.report.assets = [] := by
  cases hcode : hasCode d (Path.absolute cwd path) options with
  | false => simp [report_eq_empty h hcode]
  | true =>
    have hreport := reportOf_of_analyze h hcode
    rw [hnone] at hreport
    obtain ⟨_, _, hpackages, hassets⟩ := Index.report_eq_ok_iff.mp hreport
    rw [hpackages, hassets]
    exact ⟨by simp [Manifest.declaredPackages, Manifest.packageNames, Index.unusedPackages],
      by simp [Manifest.declaredAssets, Index.unusedAssets]⟩

/-- Two projects with the same code: the same files, of the same content, and the same callbacks. -/
structure SameCode (cwd path : Text) (d : Disk) (options : Options) (d' : Disk)
    (options' : Options) : Prop where
  hasCode : hasCode d (Path.absolute cwd path) options = hasCode d' (Path.absolute cwd path) options'
  sources : sources d cwd path options = sources d' cwd path options'
  content : ∀ file ∈ Project.sources d cwd path options, d.read? file = d'.read? file
  callbacks : options.extraCallbacks = options'.extraCallbacks

theorem SameCode.trees_eq (h : SameCode cwd path d options d' options') (p : Parsers) :
    trees p d cwd path options = trees p d' cwd path options' := by
  unfold trees sourceTrees
  rw [← h.sources, ← h.callbacks]
  apply List.filterMap_congr
  intro file hfile
  rw [h.content file hfile]

theorem symbols_of_analyze {outcome : Outcome} (h : analyze p d cwd path options = .ok outcome)
    (hcode : hasCode d (Path.absolute cwd path) options = true) :
    (Index.ofTrees (trees p d cwd path options)).unusedSymbols cwd (Path.absolute cwd path)
        .classType = .ok outcome.report.classes ∧
      (Index.ofTrees (trees p d cwd path options)).unusedSymbols cwd (Path.absolute cwd path)
        .method = .ok outcome.report.methods := by
  obtain ⟨hclasses, hmethods, _⟩ := Index.report_eq_ok_iff.mp (reportOf_of_analyze h hcode)
  exact ⟨hclasses, hmethods⟩

theorem SameCode.symbols_eq (hsame : SameCode cwd path d options d' options')
    {outcome outcome' : Outcome} (h : analyze p d cwd path options = .ok outcome)
    (h' : analyze p d' cwd path options' = .ok outcome') :
    outcome.report.classes = outcome'.report.classes ∧
      outcome.report.methods = outcome'.report.methods := by
  cases hcode : Project.hasCode d (Path.absolute cwd path) options with
  | false =>
    rw [report_eq_empty h hcode, report_eq_empty h' (hsame.hasCode.symm.trans hcode)]
    exact ⟨rfl, rfl⟩
  | true =>
    obtain ⟨hclasses, hmethods⟩ := symbols_of_analyze h hcode
    obtain ⟨hclasses', hmethods'⟩ := symbols_of_analyze h' (hsame.hasCode.symm.trans hcode)
    rw [hsame.trees_eq, hclasses'] at hclasses
    rw [hsame.trees_eq, hmethods'] at hmethods
    exact ⟨(Except.ok.inj hclasses).symm, (Except.ok.inj hmethods).symm⟩

/-- A project gets a report unless something is in the way that is named here. Everything else that
can be wrong only leaves findings out, and the manifest has no say in those about symbols. -/
theorem analyze_fail_soft (p : Parsers) (d : Disk) (cwd path : Text) (options : Options) :
    ((∃ outcome, analyze p d cwd path options = .ok outcome) ↔
      (hasCode d (Path.absolute cwd path) options = true →
        ∀ e, ¬ Obstacle p d cwd path options e)) ∧
    (∀ e, analyze p d cwd path options = .error e →
      hasCode d (Path.absolute cwd path) options = true ∧ Obstacle p d cwd path options e) ∧
    (∀ root name,
      (∀ e, Manifest.load p.yaml d root name = .error e ↔ Manifest.Unloadable p.yaml d root name e) ∧
      ((∃ loaded, Manifest.load p.yaml d root name = .ok loaded) ↔
        ∀ e, ¬ Manifest.Unloadable p.yaml d root name e) ∧
      ∀ loaded, Manifest.load p.yaml d root name = .ok loaded →
        loaded.manifest = (Manifest.source? d root name).bind fun text =>
          (Manifest.parse p.yaml text).toOption) ∧
    ∀ outcome, analyze p d cwd path options = .ok outcome →
      (hasCode d (Path.absolute cwd path) options = false → outcome.report = {}) ∧
      (∀ loaded, Manifest.load p.yaml d (Path.absolute cwd path) options.manifestName = .ok loaded →
        loaded.manifest = none → outcome.report.packages = [] ∧ outcome.report.assets = []) ∧
      ∀ d' options' outcome', SameCode cwd path d options d' options' →
        analyze p d' cwd path options' = .ok outcome' →
        outcome.report.classes = outcome'.report.classes ∧
          outcome.report.methods = outcome'.report.methods := by
  refine ⟨exists_analyze_iff, fun e => error_of_analyze, ?_, ?_⟩
  · intro root name
    exact ⟨fun e => Manifest.load_eq_error_iff, Manifest.exists_load_iff,
      fun _ => Manifest.manifest_of_load⟩
  · intro outcome h
    refine ⟨report_eq_empty h, ?_, fun d' options' outcome' hsame => hsame.symbols_eq h⟩
    intro loaded hload hnone
    exact findings_without_manifest h ((Manifest.manifest_of_load hload).symm.trans hnone)

/-! ### A project of one class -/

def oneClassProject (manifest : Text) : Disk :=
  .unguarded
    { tree := .dir [("lib", .dir [("a.dart", .file (Utf8.encode "class A {}\n"))]),
        ("pubspec.yaml", .file (Utf8.encode manifest))]
      wellFormed := (FileTree.isWellFormed_iff _).mp rfl }

theorem hasCode_oneClassProject (manifest : Text) :
    hasCode (oneClassProject manifest) (Path.absolute "/" "/") {} = true :=
  rfl

theorem sources_oneClassProject (manifest : Text) :
    sources (oneClassProject manifest) "/" "/" {} = [Text.ofString "/lib/a.dart"] := by
  simp only [sources, Disk.sourceFiles, FileTree.sourceFiles, Text.sort_eq_insertionSort]
  rfl

theorem source?_oneClassProject (manifest : Text) :
    Manifest.source? (oneClassProject manifest) (Path.absolute "/" "/") "pubspec.yaml" =
      Text.ofFile? (Utf8.encode manifest) :=
  rfl

theorem sameCode_oneClassProject (manifest manifest' : Text) :
    SameCode "/" "/" (oneClassProject manifest) {} (oneClassProject manifest') {} where
  hasCode := by rw [hasCode_oneClassProject, hasCode_oneClassProject]
  sources := by rw [sources_oneClassProject, sources_oneClassProject]
  content := by
    intro file hfile
    rw [sources_oneClassProject, List.mem_singleton] at hfile
    subst file
    rfl
  callbacks := rfl

theorem not_tooFewWorkers_none (files : List Text) : ¬ TooFewWorkers files none := by
  rintro ⟨_, n, hn, _⟩
  cases hn

/-- A manifest that is passed over, or in which all names can be written out. -/
def isHarmless : Except Manifest.Error Manifest → Bool
  | .ok m => (m.dependencies ++ m.devDependencies).all (·.1.isWritable)
  | .error e => e.isForgiven

theorem not_obstacle_of_harmless {v : Volume} {manifest : Text}
    (hsource : Manifest.source? (.unguarded v) (Path.absolute cwd path) options.manifestName =
      some manifest)
    (hharmless : isHarmless (Manifest.parse p.yaml manifest)) (hworkers : options.workers = none)
    (e : Error) : ¬ Obstacle p (.unguarded v) cwd path options e := by
  rintro (htoo | hunloadable | ⟨hm, entry, hentry, hlong⟩ | ⟨_, _, _, _, _, _, hrefused⟩)
  · rw [hworkers] at htoo
    exact not_tooFewWorkers_none _ htoo
  · obtain ⟨hparse, hforgiven⟩ :=
      (Manifest.unloadable_iff_of_source? (Disk.refusal?_unguarded _ _ _) hsource).mp hunloadable
    rw [hparse, isHarmless, hforgiven] at hharmless
    cases hharmless
  · rw [Manifest.manifest?, hsource, Option.bind_some] at hm
    cases hparse : Manifest.parse p.yaml manifest with
    | error e =>
      rw [hparse] at hm
      cases hm
    | ok m =>
      rw [hparse] at hm hharmless
      cases hm
      have hwritable := List.all_eq_true.mp hharmless entry hentry
      rw [hlong] at hwritable
      cases hwritable
  · rw [Disk.refusal?_unguarded] at hrefused
    cases hrefused

def unclosedList : Text := "dependencies: [\n"

def closedList : Text := "dependencies: []\n"

theorem analyze_fail_soft_unclosed :
    SameCode "/" "/" (oneClassProject unclosedList) {} (oneClassProject closedList) {} ∧
    ∃ outcome outcome',
      analyze .standard (oneClassProject unclosedList) "/" "/" {} = .ok outcome ∧
      analyze .standard (oneClassProject closedList) "/" "/" {} = .ok outcome' ∧
      outcome.report.packages = [] ∧ outcome.report.assets = [] ∧
      outcome.report.classes = outcome'.report.classes ∧
      outcome.report.methods = outcome'.report.methods := by
  have hsame := sameCode_oneClassProject unclosedList closedList
  obtain ⟨hread, hharmless, hparse⟩ : Text.ofFile? (Utf8.encode unclosedList) = some unclosedList ∧
      isHarmless (Manifest.parse Parsers.standard.yaml unclosedList) ∧
      (Manifest.parse Parsers.standard.yaml unclosedList).toOption.isNone := by
    decide +kernel
  obtain ⟨hread', hharmless'⟩ : Text.ofFile? (Utf8.encode closedList) = some closedList ∧
      isHarmless (Manifest.parse Parsers.standard.yaml closedList) := by
    decide +kernel
  have hclear : ∀ e, ¬ Obstacle .standard (oneClassProject unclosedList) "/" "/" {} e :=
    not_obstacle_of_harmless ((source?_oneClassProject _).trans hread) hharmless rfl
  have hclear' : ∀ e, ¬ Obstacle .standard (oneClassProject closedList) "/" "/" {} e :=
    not_obstacle_of_harmless ((source?_oneClassProject _).trans hread') hharmless' rfl
  obtain ⟨hexists, _, hload, hfindings⟩ :=
    analyze_fail_soft .standard (oneClassProject unclosedList) "/" "/" {}
  obtain ⟨hexists', _⟩ := analyze_fail_soft .standard (oneClassProject closedList) "/" "/" {}
  obtain ⟨outcome, houtcome⟩ := hexists.mpr fun _ => hclear
  obtain ⟨outcome', houtcome'⟩ := hexists'.mpr fun _ => hclear'
  obtain ⟨_, hloads, hmanifest⟩ := hload (Path.absolute "/" "/") "pubspec.yaml"
  obtain ⟨loaded, hloaded⟩ := hloads.mpr fun e he => hclear _ (.manifest (.manifest he))
  have hnone : loaded.manifest = none := by
    rw [hmanifest loaded hloaded, source?_oneClassProject, hread, Option.bind_some]
    exact Option.isNone_iff_eq_none.mp hparse
  obtain ⟨_, hempty, hsymbols⟩ := hfindings outcome houtcome
  obtain ⟨hpackages, hassets⟩ := hempty loaded hloaded hnone
  obtain ⟨hclasses, hmethods⟩ := hsymbols _ _ outcome' hsame houtcome'
  exact ⟨hsame, outcome, outcome', houtcome, houtcome', hpackages, hassets, hclasses, hmethods⟩

def thirteenthMonth : Text := "name: app\npublished: 2023-13-45\n"

/-- One date of the manifest ends the whole analysis, on a disk that turns nothing down. -/
theorem exists_aborted_analysis :
    ¬ ∀ (v : Volume) cwd path options,
      ∃ outcome, analyze .standard (.unguarded v) cwd path options = .ok outcome := by
  intro hall
  obtain ⟨hread, hnone, hharmful⟩ :
      Text.ofFile? (Utf8.encode thirteenthMonth) = some thirteenthMonth ∧
      (Manifest.parse Parsers.standard.yaml thirteenthMonth).toOption.isNone ∧
      isHarmless (Manifest.parse Parsers.standard.yaml thirteenthMonth) = false := by
    decide +kernel
  have hsource := (source?_oneClassProject _).trans hread
  have hanalyze := hall (oneClassProject thirteenthMonth).toVolume "/" "/" {}
  have hclear := exists_analyze_iff.mp hanalyze (hasCode_oneClassProject _)
  cases hparse : Manifest.parse Parsers.standard.yaml thirteenthMonth with
  | ok m =>
    rw [hparse] at hnone
    cases hnone
  | error e =>
    rw [hparse] at hharmful
    exact hclear _ (.manifest (.manifest
      ((Manifest.unloadable_iff_of_source? (Disk.refusal?_unguarded _ _ _) hsource).mpr
        ⟨hparse, hharmful⟩)))

end Project

end Deadwood
