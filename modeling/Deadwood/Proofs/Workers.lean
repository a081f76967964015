import Deadwood.Proofs.FailSoft
import Deadwood.Report.Json

/-!
How many workers share the files, and in which order they take and finish them, shows neither in the
index nor in what is made of it.
-/
namespace Deadwood

namespace Project

variable {p : Parsers} {d : Disk} {files excluded : List Text} {workers : Option Int}

/-- The results that the files can come to: one after the other, or by a complete run of a pool. -/
inductive Analysed (p : Parsers) (d : Disk) (files excluded : List Text) (workers : Option Int) :
    List (Option FileAnalysis) → Prop
  | inTurn (hturn : isParallel files workers = false) :
      Analysed p d files excluded workers (files.map (analyzeFile p d excluded))
  | pooled (hparallel : isParallel files workers = true) (count : Nat) (actions : List Pool.Action)
      (pool : Pool Text (Option FileAnalysis))
      (hrun : (Pool.start count files).run (analyzeFile p d excluded) actions = some pool)
      (hdone : pool.isDone) :
      Analysed p d files excluded workers pool.results

theorem Analysed.eq_map {results : List (Option FileAnalysis)}
    (h : Analysed p d files excluded workers results) :
    results = files.map (analyzeFile p d excluded) := by
  cases h with
  | inTurn => rfl
  | pooled hparallel count actions pool hrun hdone =>
    exact ((Pool.sound_start _ count files).run hrun).results_eq hdone

theorem exists_analysed (p : Parsers) (d : Disk) (files excluded : List Text) (workers : Option Int) :
    ∃ results, Analysed p d files excluded workers results := by
  cases hparallel : isParallel files workers with
  | false => exact ⟨_, .inTurn hparallel⟩
  | true =>
    obtain ⟨actions, hrun, hdone⟩ := Pool.exists_complete_run (analyzeFile p d excluded)
      (Pool.workers_start_ne_nil (Nat.le_refl 1) files)
    exact ⟨_, .pooled hparallel 1 actions _ hrun hdone⟩

theorem not_tooFewWorkers_of_pos (hworkers : ∀ n, workers = some n → 1 ≤ n) (files : List Text) :
    ¬ TooFewWorkers files workers := by
  rintro ⟨_, n, hn, hlt⟩
  have hpos := hworkers n hn
  omega

theorem one_le_of_some_one : ∀ n, some (1 : Int) = some n → 1 ≤ n := by
  rintro n ⟨rfl⟩
  exact Int.le_refl 1

theorem buildIndex_one (p : Parsers) (d : Disk) (files excluded : List Text) :
    buildIndex p d files excluded (some 1) =
      .ok (Index.ofResults (files.map (analyzeFile p d excluded))) :=
  buildIndex_of_not_tooFewWorkers p d _ (not_tooFewWorkers_of_pos one_le_of_some_one files)

variable {cwd path : Text} {options : Options}

theorem analyze_of_analysed (hworkers : ∀ n, workers = some n → 1 ≤ n)
    (hcode : hasCode d (Path.absolute cwd path) options = true)
    {results : List (Option FileAnalysis)}
    (h : Analysed p d (sources d cwd path options) (frameworkCallbacks ++ options.extraCallbacks)
      workers results) :
    analyze p d cwd path { options with workers := workers } =
      conclude p d cwd path options (Index.ofResults results) := by
  have hcode' : hasCode d (Path.absolute cwd path) { options with workers := workers } = true := hcode
  rw [analyze_of_hasCode p hcode',
    buildIndex_of_not_tooFewWorkers p d _ (not_tooFewWorkers_of_pos hworkers _), h.eq_map]
  rfl

theorem analyze_eq_of_pos (hworkers : ∀ n, workers = some n → 1 ≤ n) (p : Parsers) (d : Disk)
    (cwd path : Text) (options : Options) :
    analyze p d cwd path { options with workers := workers } =
      analyze p d cwd path { options with workers := some 1 } := by
  cases hcode : hasCode d (Path.absolute cwd path) options with
  | false =>
    have hcode' : ∀ n, hasCode d (Path.absolute cwd path) { options with workers := n } = false :=
      fun _ => hcode
    rw [analyze_of_not_hasCode p (hcode' workers), analyze_of_not_hasCode p (hcode' (some 1))]
  | true =>
    obtain ⟨results, h⟩ := exists_analysed p d (sources d cwd path options)
      (frameworkCallbacks ++ options.extraCallbacks) workers
    obtain ⟨results', h'⟩ := exists_analysed p d (sources d cwd path options)
      (frameworkCallbacks ++ options.extraCallbacks) (some 1)
    rw [analyze_of_analysed hworkers hcode h, analyze_of_analysed one_le_of_some_one hcode h',
      h.eq_map, h'.eq_map]

/-- Whether the files are taken one after the other or shared, by however many workers and in
whichever order, there is one index, one report and one text. -/
theorem workers_do_not_matter (workers : Option Int) (hworkers : ∀ n, workers = some n → 1 ≤ n)
    (p : Parsers) (d : Disk) :
    (∀ files excluded,
      (∃ results, Analysed p d files excluded workers results) ∧
      (∀ results, Analysed p d files excluded workers results →
        buildIndex p d files excluded (some 1) = .ok (Index.ofResults results)) ∧
      buildIndex p d files excluded workers = buildIndex p d files excluded (some 1) ∧
      ∀ count actions pool, 1 ≤ count →
        (Pool.start count files).run (analyzeFile p d excluded) actions = some pool →
        (pool.isDone ↔ actions.length = 2 * files.length) ∧
        ∃ rest pool', pool.run (analyzeFile p d excluded) rest = some pool' ∧ pool'.isDone) ∧
    ∀ cwd path (options : Options),
      analyze p d cwd path { options with workers := workers } =
        analyze p d cwd path { options with workers := some 1 } ∧
      (hasCode d (Path.absolute cwd path) options = true →
        ∀ results, Analysed p d (sources d cwd path options)
            (frameworkCallbacks ++ options.extraCallbacks) workers results →
          conclude p d cwd path options (Index.ofResults results) =
            analyze p d cwd path { options with workers := some 1 } ∧
          (conclude p d cwd path options (Index.ofResults results)).map (·.report.jsonText) =
            (analyze p d cwd path { options with workers := some 1 }).map (·.report.jsonText)) := by
  constructor
  · intro files excluded
    refine ⟨exists_analysed p d files excluded workers, ?_, ?_, ?_⟩
    · intro results h
      rw [buildIndex_one, h.eq_map]
    · rw [buildIndex_one,
        buildIndex_of_not_tooFewWorkers p d _ (not_tooFewWorkers_of_pos hworkers files)]
    · intro count actions pool hcount hrun
      constructor
      · have hwork := Pool.work_of_run hrun
        rw [Pool.work_start] at hwork
        rw [Pool.isDone_iff_work_eq_zero]
        omega
      · have hpool := Pool.workers_ne_nil_of_run (Pool.workers_start_ne_nil hcount files) hrun
        obtain ⟨rest, hrest, hdone⟩ := Pool.exists_complete_run (analyzeFile p d excluded) hpool
        exact ⟨rest, _, hrest, hdone⟩
  · intro cwd path options
    refine ⟨analyze_eq_of_pos hworkers p d cwd path options, ?_⟩
    intro hcode results h
    have heq : conclude p d cwd path options (Index.ofResults results) =
        analyze p d cwd path { options with workers := some 1 } := by
      rw [← analyze_of_analysed hworkers hcode h, analyze_eq_of_pos hworkers]
    exact ⟨heq, by rw [heq]⟩

def tenNames : List Text :=
  ["a", "b", "c", "d", "e", "f", "g", "h", "i", "j"]

def tenFiles : List Text :=
  tenNames.map fun name => "/" ++ name

def tenClasses : Disk :=
  .unguarded
    { tree := .dir (tenNames.map fun name => (name, .file (Utf8.encode "class A {}\n")))
      wellFormed := (FileTree.isWellFormed_iff _).mp rfl }

/-- The first file is taken first and finished last, the others are taken from the end. -/
def outOfTurn : List Pool.Action :=
  .take 0 0 :: ((List.range 9).reverse.flatMap fun i => [.take 1 i, .finish 1]) ++ [.finish 0]

theorem workers_do_not_matter_outOfTurn :
    (∀ n, some (2 : Int) = some n → 1 ≤ n) ∧
    isParallel tenFiles (some 2) = true ∧
    ∃ pool,
      (Pool.start 2 tenFiles).run (analyzeFile .standard tenClasses frameworkCallbacks) outOfTurn =
        some pool ∧
      pool.isDone ∧
      buildIndex .standard tenClasses tenFiles frameworkCallbacks (some 1) =
        .ok (Index.ofResults pool.results) := by
  have hworkers : ∀ n, some (2 : Int) = some n → 1 ≤ n := by
    rintro n ⟨rfl⟩
    decide
  have hrun : ∃ pool, (Pool.start 2 tenFiles).run (analyzeFile .standard tenClasses frameworkCallbacks)
      outOfTurn = some pool := ⟨_, rfl⟩
  obtain ⟨pool, hrun⟩ := hrun
  obtain ⟨_, hsame, _, hpool⟩ :=
    (workers_do_not_matter _ hworkers .standard tenClasses).1 tenFiles frameworkCallbacks
  have hdone := (hpool 2 outOfTurn pool (by decide) hrun).1.mpr rfl
  exact ⟨hworkers, rfl, pool, hrun, hdone, hsame _ (.pooled rfl 2 outOfTurn pool hrun hdone)⟩

end Project

end Deadwood
