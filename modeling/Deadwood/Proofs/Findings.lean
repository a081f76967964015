import Deadwood.Usage
import Mathlib.Data.List.Forall2

/-!
The findings about symbols, one for each unused declaration and in the order of the declarations.
They exist as soon as every declaration has a file.
-/
namespace Deadwood

section Results

variable {ε α β : Type} {f : α → Except ε β}

theorem mapM_eq_ok_iff {l : List α} {r : List β} :
    l.mapM f = .ok r ↔ List.Forall₂ (fun a b => f a = .ok b) l r := by
  induction l generalizing r with
  | nil =>
    rw [List.mapM_nil, List.forall₂_nil_left_iff]
    constructor
    · rintro ⟨⟩
      rfl
    · rintro rfl
      rfl
  | cons a l ih =>
    rw [List.mapM_cons, List.forall₂_cons_left_iff]
    cases ha : f a with
    | error e =>
      constructor
      · rintro ⟨⟩
      · rintro ⟨b, s, hb, _⟩
        cases hb
    | ok b =>
      cases hl : l.mapM f with
      | error e =>
        constructor
        · rintro ⟨⟩
        · rintro ⟨_, s, _, hs, _⟩
          rw [← ih, hl] at hs
          cases hs
      | ok s =>
        constructor
        · rintro ⟨⟩
          exact ⟨b, s, rfl, ih.mp hl, rfl⟩
        · rintro ⟨b', s', hb, hs, rfl⟩
          rw [← ih, hl] at hs
          cases hb
          cases hs
          rfl

theorem exists_mapM_eq_ok {l : List α} (h : ∀ a ∈ l, ∃ b, f a = .ok b) :
    ∃ r, l.mapM f = .ok r := by
  induction l with
  | nil => exact ⟨[], rfl⟩
  | cons a l ih =>
    obtain ⟨b, hb⟩ := h a (.head l)
    obtain ⟨r, hr⟩ := ih fun a' ha' => h a' (.tail a ha')
    exact ⟨b :: r, mapM_eq_ok_iff.mpr (.cons hb (mapM_eq_ok_iff.mp hr))⟩

theorem mem_of_mapM_eq_ok {l : List α} {r : List β} (h : l.mapM f = .ok r) {b : β} :
    b ∈ r ↔ ∃ a ∈ l, f a = .ok b := by
  have hr := mapM_eq_ok_iff.mp h
  clear h
  induction hr with
  | nil => simp
  | @cons a c l r ha _ ih =>
    rw [List.mem_cons, List.exists_mem_cons_iff, ha, Except.ok.injEq, @eq_comm _ b c]
    exact or_congr_right ih

theorem mapM_filter_eq_ok {p : α → Bool} {q : β → Bool} {l : List α} {r : List β}
    (h : l.mapM f = .ok r) (hpq : ∀ a ∈ l, ∀ b, f a = .ok b → p a = q b) :
    (l.filter p).mapM f = .ok (r.filter q) := by
  rw [mapM_eq_ok_iff] at h ⊢
  induction h with
  | nil => exact .nil
  | @cons a b l r hb _ ih =>
    have hrest := ih fun a' ha' => hpq a' (.tail a ha')
    have hab : p a = q b := hpq a (.head l) b hb
    rw [List.filter_cons, List.filter_cons, ← hab]
    cases p a with
    | false => exact hrest
    | true => exact .cons hb hrest

end Results

namespace Index

variable {index : Index} {cwd root : Text} {kind : Declaration.Kind}
  {findings : List SymbolFinding}

theorem isUnused_iff {d : Declaration} :
    index.isUnused d ↔ index.census.count d.name ≤ index.declaredCount d.kind d.name := by
  simp [isUnused]

theorem declaredCount_pos {d : Declaration} (hd : d ∈ index.declarations) :
    0 < index.declaredCount d.kind d.name :=
  List.countP_pos_iff.mpr ⟨d, hd, by simp⟩

theorem name_of_symbolFinding {d : Declaration} {finding : SymbolFinding}
    (h : symbolFinding cwd root d = .ok finding) : finding.name = d.name := by
  unfold symbolFinding at h
  cases hfile : Path.relative cwd d.file root with
  | error e =>
    rw [hfile] at h
    cases h
  | ok file =>
    rw [hfile] at h
    cases h
    rfl

theorem exists_symbolFinding {d : Declaration} (h : d.file ≠ []) :
    ∃ finding, symbolFinding cwd root d = .ok finding := by
  have hfile : d.file.isEmpty = false := by simpa using h
  unfold symbolFinding Path.relative
  rw [hfile]
  exact ⟨_, rfl⟩

theorem exists_unusedSymbols (cwd root : Text) (kind : Declaration.Kind)
    (h : ∀ d ∈ index.declarations, d.file ≠ []) :
    ∃ findings, index.unusedSymbols cwd root kind = .ok findings := by
  apply exists_mapM_eq_ok
  intro d hd
  exact exists_symbolFinding (h d (List.mem_filter.mp hd).1)

theorem mem_unusedSymbols (h : index.unusedSymbols cwd root kind = .ok findings)
    {finding : SymbolFinding} :
    finding ∈ findings ↔ ∃ d ∈ index.declarations, d.kind = kind ∧ index.isUnused d ∧
      symbolFinding cwd root d = .ok finding := by
  rw [mem_of_mapM_eq_ok h]
  simp only [List.mem_filter, Bool.and_eq_true, beq_iff_eq, and_assoc]

theorem map_name_unusedSymbols (h : index.unusedSymbols cwd root kind = .ok findings) :
    findings.map (·.name) =
      (index.declarations.filter fun d => d.kind == kind && index.isUnused d).map (·.name) := by
  have hpairs := mapM_eq_ok_iff.mp h
  clear h
  generalize index.declarations.filter (fun d => d.kind == kind && index.isUnused d) = unused
    at hpairs ⊢
  induction hpairs with
  | nil => rfl
  | cons hd _ ih => rw [List.map_cons, List.map_cons, ih, name_of_symbolFinding hd]

theorem countP_name_unusedSymbols (h : index.unusedSymbols cwd root kind = .ok findings)
    (name : Text) :
    findings.countP (·.name == name) =
      if index.census.count name ≤ index.declaredCount kind name
        then index.declaredCount kind name else 0 := by
  have hcount : findings.countP (·.name == name) =
      index.declarations.countP fun d => d.name == name && (d.kind == kind && index.isUnused d) := by
    have hname := congrArg (List.countP (· == name)) (map_name_unusedSymbols h)
    rw [List.countP_map, List.countP_map, List.countP_filter] at hname
    exact hname
  rw [hcount]
  split
  · next hle =>
    apply List.countP_congr
    intro d _
    simp only [Bool.and_eq_true, beq_iff_eq]
    constructor
    · rintro ⟨hn, hk, _⟩
      exact ⟨hk, hn⟩
    · rintro ⟨rfl, rfl⟩
      exact ⟨rfl, rfl, isUnused_iff.mpr hle⟩
  · next hlt =>
    rw [List.countP_eq_zero]
    intro d _
    simp only [Bool.and_eq_true, beq_iff_eq]
    rintro ⟨rfl, rfl, hunused⟩
    exact hlt (isUnused_iff.mp hunused)

theorem name_ne_of_count_gt (h : index.unusedSymbols cwd root kind = .ok findings)
    {name : Text} (hgt : (index.declaredCount kind name : Int) < index.census.count name) :
    ∀ finding ∈ findings, finding.name ≠ name := by
  have hcount := countP_name_unusedSymbols h name
  rw [if_neg (Int.not_le.mpr hgt), List.countP_eq_zero] at hcount
  intro finding hmem
  simpa using hcount finding hmem

theorem exists_name_of_isUnused {d : Declaration}
    (h : index.unusedSymbols cwd root d.kind = .ok findings) (hd : d ∈ index.declarations)
    (hunused : index.isUnused d) :
    ∃ finding ∈ findings, finding.name = d.name := by
  have hcount := countP_name_unusedSymbols h d.name
  rw [if_pos (isUnused_iff.mp hunused)] at hcount
  have hpos : 0 < findings.countP (·.name == d.name) := by
    rw [hcount]
    exact declaredCount_pos hd
  obtain ⟨finding, hmem, hname⟩ := List.countP_pos_iff.mp hpos
  exact ⟨finding, hmem, by simpa using hname⟩

theorem report_eq_ok_iff {packages : List DeclaredPackage} {assets : List Text} {r : Report} :
    index.report cwd root packages assets = .ok r ↔
      index.unusedSymbols cwd root .classType = .ok r.classes ∧
      index.unusedSymbols cwd root .method = .ok r.methods ∧
      r.packages = index.unusedPackages packages ∧ r.assets = index.unusedAssets assets := by
  unfold report
  cases index.unusedSymbols cwd root .classType with
  | error e =>
    constructor
    · rintro ⟨⟩
    · rintro ⟨⟨⟩, _⟩
  | ok classes =>
    cases index.unusedSymbols cwd root .method with
    | error e =>
      constructor
      · rintro ⟨⟩
      · rintro ⟨_, ⟨⟩, _⟩
    | ok methods =>
      constructor
      · rintro ⟨⟩
        exact ⟨rfl, rfl, rfl, rfl⟩
      · rintro ⟨hclasses, hmethods, hpackages, hassets⟩
        cases r
        cases hclasses
        cases hmethods
        cases hpackages
        cases hassets
        rfl

theorem exists_report_of_files (cwd root : Text) (packages : List DeclaredPackage)
    (assets : List Text) (h : ∀ d ∈ index.declarations, d.file ≠ []) :
    ∃ r, index.report cwd root packages assets = .ok r := by
  obtain ⟨classes, hclasses⟩ := exists_unusedSymbols cwd root .classType h
  obtain ⟨methods, hmethods⟩ := exists_unusedSymbols cwd root .method h
  exact ⟨⟨classes, methods, _, _⟩, report_eq_ok_iff.mpr ⟨hclasses, hmethods, rfl, rfl⟩⟩

end Index

end Deadwood
