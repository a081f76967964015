import Deadwood.Proofs.Census
import Deadwood.Proofs.Findings
import Mathlib.Algebra.BigOperators.Group.List.Basic
import Mathlib.Algebra.Ring.Int.Defs
import Mathlib.Data.List.Induction
import Mathlib.Data.List.Nodup
import Mathlib.Data.List.Perm.Basic

/-!
The results of the files reduced to one index. Each table of the index is said in terms of the
readable files alone, without their order; so a project's files may come in any order, and all that
an unreadable one changes is how many were skipped.
-/
namespace Deadwood

namespace Text

variable {α : Type} {f : α → List Text}

theorem mem_foldl_addAll {l : List α} {known : List Text} {t : Text} :
    t ∈ l.foldl (fun known a => addAll known (f a)) known ↔ t ∈ known ∨ ∃ a ∈ l, t ∈ f a := by
  induction l generalizing known with
  | nil => simp
  | cons a l ih => simp [ih, or_assoc]

theorem nodup_addAll {known : List Text} (h : known.Nodup) (new : List Text) :
    (addAll known new).Nodup := by
  unfold addAll
  induction new generalizing known with
  | nil => exact h
  | cons t new ih => exact ih (List.Nodup.insert h)

theorem nodup_foldl_addAll {l : List α} {known : List Text} (h : known.Nodup) :
    (l.foldl (fun known a => addAll known (f a)) known).Nodup := by
  induction l generalizing known with
  | nil => exact h
  | cons a l ih => exact ih (nodup_addAll h (f a))

theorem foldl_addAll_perm {l l' : List α} (h : l.Perm l') :
    (l.foldl (fun known a => addAll known (f a)) []).Perm
      (l'.foldl (fun known a => addAll known (f a)) []) := by
  rw [List.perm_ext_iff_of_nodup (nodup_foldl_addAll .nil) (nodup_foldl_addAll .nil)]
  intro t
  simp only [mem_foldl_addAll, h.mem_iff]

end Text

theorem exists_mapM_eq_ok_of_perm {ε α β : Type} {f : α → Except ε β} {l l' : List α} {r : List β}
    (h : l.Perm l') (hr : l.mapM f = .ok r) : ∃ r', l'.mapM f = .ok r' ∧ r.Perm r' := by
  obtain ⟨r', hr', hperm⟩ := List.perm_comp_forall₂ h.symm (mapM_eq_ok_iff.mp hr)
  exact ⟨r', mapM_eq_ok_iff.mpr hr', hperm.symm⟩

/-- The same findings, those about symbols in any order. -/
structure Report.SameFindings (r s : Report) : Prop where
  classes : r.classes.Perm s.classes
  methods : r.methods.Perm s.methods
  packages : r.packages = s.packages
  assets : r.assets = s.assets

namespace Index

variable {results results' : List (Option FileAnalysis)}

def mergeAll (analyses : List FileAnalysis) : Index :=
  analyses.foldl merge {}

theorem declarations_mergeAll (analyses : List FileAnalysis) :
    (mergeAll analyses).declarations = analyses.flatMap FileAnalysis.declarations := by
  rw [List.flatMap_eq_foldl]
  exact (List.foldl_hom declarations fun _ _ => rfl).symm

theorem packages_mergeAll (analyses : List FileAnalysis) :
    (mergeAll analyses).packages =
      analyses.foldl (fun known a => Text.addAll known a.packages) [] :=
  (List.foldl_hom packages fun _ _ => rfl).symm

theorem literals_mergeAll (analyses : List FileAnalysis) :
    (mergeAll analyses).literals =
      analyses.foldl (fun known a => Text.addAll known a.literals) [] :=
  (List.foldl_hom literals fun _ _ => rfl).symm

theorem count_mergeAll (analyses : List FileAnalysis) (l : Text) :
    (mergeAll analyses).census.count l =
      (analyses.map fun analysis => analysis.census.count l).sum := by
  induction analyses using List.reverseRecOn with
  | nil => rfl
  | append_singleton analyses analysis ih =>
    unfold mergeAll at ih ⊢
    rw [List.foldl_append, List.map_append, List.sum_append, ← ih, List.map_singleton,
      List.sum_singleton]
    exact Census.count_merge _ _ l

theorem analyzed_mergeAll (analyses : List FileAnalysis) :
    (mergeAll analyses).analyzed = analyses.length := by
  induction analyses using List.reverseRecOn with
  | nil => rfl
  | append_singleton analyses analysis ih =>
    unfold mergeAll at ih ⊢
    rw [List.foldl_append, List.length_append, ← ih]
    rfl

def readable (results : List (Option FileAnalysis)) : List FileAnalysis :=
  results.filterMap id

theorem mem_readable {analysis : FileAnalysis} :
    analysis ∈ readable results ↔ some analysis ∈ results := by
  simp [readable]

theorem ofResults_eq (results : List (Option FileAnalysis)) :
    ofResults results =
      { mergeAll (readable results) with skipped := results.countP Option.isNone } := by
  induction results using List.reverseRecOn with
  | nil => rfl
  | append_singleton results result ih =>
    unfold ofResults mergeAll readable at ih ⊢
    rw [List.foldl_append, ih, List.filterMap_append, List.foldl_append, List.countP_append]
    cases result <;> rfl

theorem analyzed_ofResults (results : List (Option FileAnalysis)) :
    (ofResults results).analyzed = (readable results).length := by
  rw [ofResults_eq]
  exact analyzed_mergeAll _

theorem length_readable_add_countP (results : List (Option FileAnalysis)) :
    (readable results).length + results.countP Option.isNone = results.length := by
  induction results with
  | nil => rfl
  | cons result results ih =>
    unfold readable at ih ⊢
    cases result with
    | none =>
      rw [List.filterMap_cons_none rfl, List.countP_cons_of_pos rfl, List.length_cons]
      omega
    | some analysis =>
      rw [List.filterMap_cons_some (f := id) rfl, List.countP_cons_of_neg (by simp),
        List.length_cons, List.length_cons]
      omega

theorem ofResults_filter_isSome (results : List (Option FileAnalysis)) :
    ofResults (results.filter Option.isSome) = { ofResults results with skipped := 0 } := by
  have hreadable : readable (results.filter Option.isSome) = readable results := by
    unfold readable
    rw [List.filterMap_filter]
    congr 1
    funext result
    cases result <;> rfl
  have hskipped : (results.filter Option.isSome).countP Option.isNone = 0 := by
    rw [List.countP_eq_zero]
    intro result hresult
    simpa [Option.isSome_iff_ne_none] using (List.mem_filter.mp hresult).2
  rw [ofResults_eq, ofResults_eq, hreadable, hskipped]

/-- Two indices that differ at most in the order of their tables. -/
structure Agrees (i j : Index) : Prop where
  declarations : i.declarations.Perm j.declarations
  count : ∀ lexeme, i.census.count lexeme = j.census.count lexeme
  packages : i.packages.Perm j.packages
  literals : i.literals.Perm j.literals

theorem agrees_mergeAll {as bs : List FileAnalysis} (h : as.Perm bs) :
    Agrees (mergeAll as) (mergeAll bs) where
  declarations := by
    rw [declarations_mergeAll, declarations_mergeAll]
    exact h.flatMap_right _
  count lexeme := by
    rw [count_mergeAll, count_mergeAll]
    exact (h.map _).sum_eq
  packages := by
    rw [packages_mergeAll, packages_mergeAll]
    exact Text.foldl_addAll_perm h
  literals := by
    rw [literals_mergeAll, literals_mergeAll]
    exact Text.foldl_addAll_perm h

namespace Agrees

variable {i j : Index}

theorem isUnused_eq (h : Agrees i j) (d : Declaration) : i.isUnused d = j.isUnused d := by
  unfold isUnused declaredCount
  rw [h.count, h.declarations.countP_eq]

theorem unusedPackages_eq (h : Agrees i j) (declared : List DeclaredPackage) :
    i.unusedPackages declared = j.unusedPackages declared := by
  unfold unusedPackages
  simp only [h.packages.contains_eq]

theorem unusedAssets_eq (h : Agrees i j) (declared : List Text) :
    i.unusedAssets declared = j.unusedAssets declared := by
  unfold unusedAssets mentions
  simp only [h.literals.any_eq]

theorem symm (h : Agrees i j) : Agrees j i where
  declarations := h.declarations.symm
  count lexeme := (h.count lexeme).symm
  packages := h.packages.symm
  literals := h.literals.symm

theorem unusedSymbols (h : Agrees i j) {cwd root : Text} {kind : Declaration.Kind}
    {findings : List SymbolFinding} (hi : i.unusedSymbols cwd root kind = .ok findings) :
    ∃ findings', j.unusedSymbols cwd root kind = .ok findings' ∧ findings.Perm findings' := by
  apply exists_mapM_eq_ok_of_perm _ hi
  simp only [h.isUnused_eq]
  exact h.declarations.filter _

theorem report (h : Agrees i j) {cwd root : Text} {packages : List DeclaredPackage}
    {assets : List Text} {r : Report} (hr : i.report cwd root packages assets = .ok r) :
    ∃ s, j.report cwd root packages assets = .ok s ∧ r.SameFindings s := by
  obtain ⟨hclasses, hmethods, hpackages, hassets⟩ := report_eq_ok_iff.mp hr
  obtain ⟨classes, hclasses', hclassesPerm⟩ := h.unusedSymbols hclasses
  obtain ⟨methods, hmethods', hmethodsPerm⟩ := h.unusedSymbols hmethods
  refine ⟨⟨classes, methods, j.unusedPackages packages, j.unusedAssets assets⟩, ?_, ?_⟩
  · exact report_eq_ok_iff.mpr ⟨hclasses', hmethods', rfl, rfl⟩
  · exact ⟨hclassesPerm, hmethodsPerm, hpackages.trans (h.unusedPackages_eq packages),
      hassets.trans (h.unusedAssets_eq assets)⟩

theorem report_cases (h : Agrees i j) (cwd root : Text) (packages : List DeclaredPackage)
    (assets : List Text) :
    (∃ r s, i.report cwd root packages assets = .ok r ∧ j.report cwd root packages assets = .ok s ∧
      r.SameFindings s) ∨
    ∃ e, i.report cwd root packages assets = .error e ∧
      j.report cwd root packages assets = .error e := by
  cases hi : i.report cwd root packages assets with
  | ok r =>
    obtain ⟨s, hs, hsame⟩ := h.report hi
    exact .inl ⟨r, s, rfl, hs, hsame⟩
  | error e =>
    right
    cases hj : j.report cwd root packages assets with
    | ok s =>
      obtain ⟨r, hr, _⟩ := h.symm.report hj
      rw [hi] at hr
      cases hr
    | error e' =>
      -- there is one way to fail
      cases e
      cases e'
      exact ⟨.empty, rfl, rfl⟩

end Agrees

/-- The index and the report of a project depend on its readable files and not on their order. -/
theorem ofResults_order_irrelevant (results results' : List (Option FileAnalysis))
    (h : results.Perm results') :
    Agrees (ofResults results) (ofResults results') ∧
    (ofResults results).analyzed = (ofResults results').analyzed ∧
    (ofResults results).skipped = (ofResults results').skipped ∧
    (ofResults results).analyzed + (ofResults results).skipped = results.length ∧
    (∀ lexeme, (ofResults results).census.count lexeme =
      ((results.filterMap id).map fun analysis => analysis.census.count lexeme).sum) ∧
    ofResults (results.filter Option.isSome) = { ofResults results with skipped := 0 } ∧
    ∀ cwd root packages assets,
      ((∃ r s, (ofResults results).report cwd root packages assets = .ok r ∧
          (ofResults results').report cwd root packages assets = .ok s ∧ r.SameFindings s) ∨
        ∃ e, (ofResults results).report cwd root packages assets = .error e ∧
          (ofResults results').report cwd root packages assets = .error e) ∧
      ((∀ analysis, some analysis ∈ results → ∀ d ∈ analysis.declarations, d.file ≠ []) →
        ∃ r, (ofResults results).report cwd root packages assets = .ok r) := by
  have hreadable : (readable results).Perm (readable results') := h.filterMap id
  have hagrees : Agrees (ofResults results) (ofResults results') := by
    have hmerge := agrees_mergeAll hreadable
    rw [ofResults_eq, ofResults_eq]
    exact ⟨hmerge.declarations, hmerge.count, hmerge.packages, hmerge.literals⟩
  refine ⟨hagrees, ?_, ?_, ?_, ?_, ofResults_filter_isSome results, ?_⟩
  · rw [analyzed_ofResults, analyzed_ofResults, hreadable.length_eq]
  · rw [ofResults_eq, ofResults_eq]
    exact h.countP_eq _
  · rw [analyzed_ofResults, ← length_readable_add_countP results, ofResults_eq]
  · intro lexeme
    rw [ofResults_eq]
    exact count_mergeAll _ lexeme
  · intro cwd root packages assets
    refine ⟨hagrees.report_cases cwd root packages assets, ?_⟩
    intro hfiles
    apply exists_report_of_files
    rw [ofResults_eq]
    change ∀ d ∈ (mergeAll (readable results)).declarations, d.file ≠ []
    rw [declarations_mergeAll]
    intro d hd
    obtain ⟨analysis, hanalysis, hd⟩ := List.mem_flatMap.mp hd
    exact hfiles analysis (mem_readable.mp hanalysis) d hd

def oneClass (file : String) : FileAnalysis where
  file := file
  declarations := [⟨.classType, "A", file, 1⟩]
  census := ⟨[("A", 1)], List.nodup_singleton _⟩

def twoClasses : List (Option FileAnalysis) :=
  [some (oneClass "a"), none, some (oneClass "b")]

theorem mem_twoClasses {analysis : FileAnalysis} (h : some analysis ∈ twoClasses) :
    analysis = oneClass "a" ∨ analysis = oneClass "b" := by
  simpa [twoClasses] using h

theorem ofResults_order_irrelevant_reversed :
    twoClasses.Perm twoClasses.reverse ∧
      (ofResults twoClasses).census.count "A" = 2 ∧
      ∃ r s, (ofResults twoClasses).report [] "/" [] [] = .ok r ∧
        (ofResults twoClasses.reverse).report [] "/" [] [] = .ok s ∧ r.SameFindings s := by
  have hperm : twoClasses.Perm twoClasses.reverse := (List.reverse_perm _).symm
  obtain ⟨_, _, _, _, hsum, _, hreport⟩ := ofResults_order_irrelevant _ _ hperm
  refine ⟨hperm, hsum _, ?_⟩
  obtain ⟨hsame, hexists⟩ := hreport [] "/" [] []
  obtain ⟨r, hr⟩ := hexists (by
    intro analysis h
    rcases mem_twoClasses h with rfl | rfl <;> decide)
  rcases hsame with hsame | ⟨e, he, _⟩
  · exact hsame
  · rw [hr] at he
    cases he

end Index

end Deadwood
