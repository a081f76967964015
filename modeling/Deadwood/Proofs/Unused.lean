import Deadwood.Proofs.Findings
import Deadwood.Proofs.Index

/-!
When a declaration is reported. Where names are tokens, the sites that name a declaration are among
those that spell its name, so counting them decides whether every occurrence is a declaration. Only
identifiers are counted: any other name passes for unused.
-/
namespace Deadwood

def NamesAreTokens (trees : List SourceTree) : Prop :=
  ∀ t ∈ trees, t.root.NamesAreTokens

namespace Site

variable {trees : List SourceTree} {s : Site}

theorem text_of_declaration? {d : Declaration} (hs : s ∈ sites trees)
    (h : s.declaration? = some d) : s.text = d.name :=
  (Place.name_of_declaration? (mem_sites hs).2 h).symm

theorem spells_of_names (htrees : NamesAreTokens trees) (hs : s ∈ sites trees)
    {kind : Declaration.Kind} {name : Text} (h : s.names kind name) : s.spells name := by
  obtain ⟨d, hd, _, rfl⟩ := names_iff.mp h
  obtain ⟨htree, hplace⟩ := mem_sites hs
  have htoken : s.isToken := Place.isToken_of_declaration? (htrees s.tree htree) hplace hd
  simp [spells, htoken, text_of_declaration? hs hd]

/-- A site names one declaration, so two kinds do not share it. -/
theorem not_names_of_names {name : Text} (h : s.names .classType name) :
    ¬ s.names .method name := by
  intro h'
  obtain ⟨c, hc, hclass, _⟩ := names_iff.mp h
  obtain ⟨m, hm, hmethod, _⟩ := names_iff.mp h'
  rw [hc, Option.some.injEq] at hm
  subst hm
  rw [hclass] at hmethod
  cases hmethod

end Site

section Counting

variable {α : Type} {p q r : α → Bool} {l : List α}

private theorem countP_add_countP_le (hp : ∀ a ∈ l, p a → r a) (hq : ∀ a ∈ l, q a → r a)
    (hpq : ∀ a ∈ l, p a → ¬ q a) : l.countP p + l.countP q ≤ l.countP r := by
  induction l with
  | nil => exact Nat.le_refl 0
  | cons a l ih =>
    have hl := ih (fun b hb => hp b (.tail a hb)) (fun b hb => hq b (.tail a hb))
      (fun b hb => hpq b (.tail a hb))
    rw [List.countP_cons, List.countP_cons, List.countP_cons]
    by_cases hpa : p a
    · rw [if_pos hpa, if_neg (hpq a (.head l) hpa), if_pos (hp a (.head l) hpa)]
      omega
    · rw [if_neg hpa]
      by_cases hqa : q a
      · rw [if_pos hqa, if_pos (hq a (.head l) hqa)]
        omega
      · rw [if_neg hqa]
        omega

private theorem countP_le_countP_iff (hqr : ∀ a ∈ l, q a → r a) :
    l.countP r ≤ l.countP q ↔ ∀ a ∈ l, r a → q a := by
  constructor
  · intro hle a ha hr
    by_contra hq
    -- the elements with `r` but not `q` come on top of those with `q`
    have hadd : l.countP q + l.countP (fun b => r b && !q b) ≤ l.countP r :=
      countP_add_countP_le hqr (fun b _ hb => by simp at hb; exact hb.1)
        (fun b _ hb => by simp [hb])
    have hpos : 0 < l.countP fun b => r b && !q b :=
      List.countP_pos_iff.mpr ⟨a, ha, by simp [hr, hq]⟩
    omega
  · exact fun h => List.countP_mono_left h

end Counting

namespace Index

variable {trees : List SourceTree}

theorem count_of_isIdentifier (trees : List SourceTree) {name : Text} (h : isIdentifier name) :
    (ofTrees trees).census.count name = ((sites trees).countP (·.spells name) : Nat) := by
  rw [count_ofTrees, if_pos h]

theorem declaredCount_add_le_count (htrees : NamesAreTokens trees) {name : Text}
    (hname : isIdentifier name) :
    (((ofTrees trees).declaredCount .classType name + (ofTrees trees).declaredCount .method name :
      Nat) : Int) ≤ (ofTrees trees).census.count name := by
  rw [count_of_isIdentifier trees hname, declaredCount_ofTrees, declaredCount_ofTrees,
    Int.ofNat_le]
  apply countP_add_countP_le
  · exact fun s hs h => Site.spells_of_names htrees hs h
  · exact fun s hs h => Site.spells_of_names htrees hs h
  · exact fun s _ h => Site.not_names_of_names h

theorem declaredCount_le_count (htrees : NamesAreTokens trees) (kind : Declaration.Kind)
    {name : Text} (hname : isIdentifier name) :
    ((ofTrees trees).declaredCount kind name : Int) ≤ (ofTrees trees).census.count name := by
  have hadd := declaredCount_add_le_count htrees hname
  cases kind <;> omega

theorem isUnused_iff_count_eq (htrees : NamesAreTokens trees) {d : Declaration}
    (hname : isIdentifier d.name) :
    (ofTrees trees).isUnused d ↔
      (ofTrees trees).census.count d.name = (ofTrees trees).declaredCount d.kind d.name := by
  have hle := declaredCount_le_count htrees d.kind hname
  rw [isUnused_iff]
  omega

theorem isUnused_iff_names (htrees : NamesAreTokens trees) {d : Declaration}
    (hname : isIdentifier d.name) :
    (ofTrees trees).isUnused d ↔
      ∀ s ∈ sites trees, s.spells d.name → s.names d.kind d.name := by
  rw [isUnused_iff, count_of_isIdentifier trees hname, declaredCount_ofTrees, Int.ofNat_le]
  exact countP_le_countP_iff fun s hs h => Site.spells_of_names htrees hs h

theorem isUnused_of_not_isIdentifier (trees : List SourceTree) {d : Declaration}
    (hname : ¬ isIdentifier d.name) : (ofTrees trees).isUnused d := by
  rw [isUnused_iff, count_ofTrees, if_neg hname]
  exact Int.natCast_nonneg _

theorem names_iff_recorded {d : Declaration} {s : Site} (hs : s ∈ sites trees)
    (htext : s.text = d.name) :
    s.names d.kind d.name ↔
      ∃ e ∈ (ofTrees trees).declarations, s.declaration? = some e ∧ e.kind = d.kind := by
  rw [Site.names_iff]
  constructor
  · rintro ⟨e, he, hkind, _⟩
    refine ⟨e, ?_, he, hkind⟩
    rw [declarations_ofTrees]
    exact List.mem_filterMap.mpr ⟨s, hs, he⟩
  · rintro ⟨e, _, he, hkind⟩
    exact ⟨e, he, hkind, (Site.text_of_declaration? hs he).symm.trans htext⟩

theorem isUnused_iff_tokens (htrees : NamesAreTokens trees) {d : Declaration}
    (hname : isIdentifier d.name) :
    (ofTrees trees).isUnused d ↔ ∀ s ∈ sites trees, s.isToken → s.text = d.name →
      ∃ e ∈ (ofTrees trees).declarations, s.declaration? = some e ∧ e.kind = d.kind := by
  rw [isUnused_iff_names htrees hname]
  refine forall₂_congr fun s hs => ?_
  simp only [Site.spells, Bool.and_eq_true, beq_iff_eq, and_imp]
  refine forall₂_congr fun _ htext => ?_
  exact names_iff_recorded hs htext

/-- A class and a method of one name: each is an occurrence that the other does not declare. -/
theorem count_gt_of_shared (htrees : NamesAreTokens trees) {c m : Declaration}
    (hc : c ∈ (ofTrees trees).declarations) (hm : m ∈ (ofTrees trees).declarations)
    (hclass : c.kind = .classType) (hmethod : m.kind = .method) (hshared : c.name = m.name)
    (hname : isIdentifier c.name) (kind : Declaration.Kind) :
    ((ofTrees trees).declaredCount kind c.name : Int) < (ofTrees trees).census.count c.name := by
  have hadd := declaredCount_add_le_count htrees hname
  have hcpos := declaredCount_pos hc
  have hmpos := declaredCount_pos hm
  rw [hclass] at hcpos
  rw [hmethod, ← hshared] at hmpos
  cases kind <;> omega

/-- Over a whole project, the unused declarations are exactly those whose every occurrence is the
name of a declaration of their kind, and the findings are exactly theirs. -/
theorem isUnused_exact (trees : List SourceTree) (htrees : NamesAreTokens trees) :
    (∀ name, isIdentifier name →
      (((ofTrees trees).declaredCount .classType name +
        (ofTrees trees).declaredCount .method name : Nat) : Int) ≤
        (ofTrees trees).census.count name) ∧
    (∀ d ∈ (ofTrees trees).declarations, isIdentifier d.name →
      ((ofTrees trees).isUnused d ↔
        (ofTrees trees).census.count d.name = (ofTrees trees).declaredCount d.kind d.name) ∧
      ((ofTrees trees).isUnused d ↔ ∀ s ∈ sites trees, s.isToken → s.text = d.name →
        ∃ e ∈ (ofTrees trees).declarations, s.declaration? = some e ∧ e.kind = d.kind)) ∧
    (∀ cwd root kind findings, (ofTrees trees).unusedSymbols cwd root kind = .ok findings →
      (∀ finding, finding ∈ findings ↔ ∃ d ∈ (ofTrees trees).declarations, d.kind = kind ∧
        (ofTrees trees).isUnused d ∧ symbolFinding cwd root d = .ok finding) ∧
      ∀ name, findings.countP (·.name == name) = 0 ∨
        findings.countP (·.name == name) = (ofTrees trees).declaredCount kind name) ∧
    (∀ c ∈ (ofTrees trees).declarations, ∀ m ∈ (ofTrees trees).declarations,
      c.kind = .classType → m.kind = .method → c.name = m.name → isIdentifier c.name →
      ¬ (ofTrees trees).isUnused c ∧ ¬ (ofTrees trees).isUnused m ∧
      ∀ cwd root kind findings, (ofTrees trees).unusedSymbols cwd root kind = .ok findings →
        ∀ finding ∈ findings, finding.name ≠ c.name) := by
  refine ⟨?_, ?_, ?_, ?_⟩
  · exact fun name hname => declaredCount_add_le_count htrees hname
  · exact fun d _ hname => ⟨isUnused_iff_count_eq htrees hname, isUnused_iff_tokens htrees hname⟩
  · intro cwd root kind findings h
    refine ⟨fun finding => mem_unusedSymbols h, fun name => ?_⟩
    rw [countP_name_unusedSymbols h name]
    split
    · exact .inr rfl
    · exact .inl rfl
  · intro c hc m hm hclass hmethod hshared hname
    -- the two names are two tokens, and each kind declares only one of them
    have hgt := count_gt_of_shared htrees hc hm hclass hmethod hshared hname
    refine ⟨?_, ?_, ?_⟩
    · rw [isUnused_iff]
      exact Int.not_le.mpr (hgt c.kind)
    · rw [isUnused_iff, ← hshared]
      exact Int.not_le.mpr (hgt m.kind)
    · exact fun cwd root kind findings h => name_ne_of_count_gt h (hgt kind)

def declaredAndCalled (label : String) (name : Bytes) : SourceTree where
  file := Text.ofString "/p/lib/a.dart"
  source := name ++ name
  root := {
    label := "program"
    span := ⟨0, 2 * name.length⟩
    children := [
      { label := label
        span := ⟨0, name.length⟩
        children := [{ label := "identifier", span := ⟨0, name.length⟩, field := some "name" }] },
      { label := "identifier", span := ⟨name.length, 2 * name.length⟩ }] }
  excluded := []

theorem namesAreTokens_declaredAndCalled (label : String) (name : Bytes) :
    (declaredAndCalled label name).root.NamesAreTokens := by
  simp [Node.NamesAreTokens, declaredAndCalled, Node.preorder, Node.preorderAll, Node.role?,
    Node.labelRole?, Node.nameNode?, Node.child?, Node.isLeaf]

def classAndFunction : List SourceTree :=
  [declaredAndCalled "class_definition" [102], declaredAndCalled "function_signature" [102]]

theorem isUnused_exact_shared :
    NamesAreTokens classAndFunction ∧
      ∃ c ∈ (ofTrees classAndFunction).declarations, ∃ m ∈ (ofTrees classAndFunction).declarations,
        c.kind = .classType ∧ m.kind = .method ∧ c.name = m.name ∧
        ¬ (ofTrees classAndFunction).isUnused c ∧ ¬ (ofTrees classAndFunction).isUnused m := by
  have htrees : NamesAreTokens classAndFunction := by
    intro t ht
    simp only [classAndFunction, List.mem_cons, List.not_mem_nil, or_false] at ht
    rcases ht with rfl | rfl <;> exact namesAreTokens_declaredAndCalled _ _
  have hc : ⟨.classType, Text.ofString "f", Text.ofString "/p/lib/a.dart", 1⟩ ∈
      (ofTrees classAndFunction).declarations := by
    rw [declarations_ofTrees]
    decide
  have hm : ⟨.method, Text.ofString "f", Text.ofString "/p/lib/a.dart", 1⟩ ∈
      (ofTrees classAndFunction).declarations := by
    rw [declarations_ofTrees]
    decide
  have h := (isUnused_exact _ htrees).2.2.2 _ hc _ hm rfl rfl rfl (by decide)
  exact ⟨htrees, _, hc, _, hm, rfl, rfl, rfl, h.1, h.2.1⟩

/-- A token of the project has the name of the declaration without naming one of its kind. -/
def Used (trees : List SourceTree) (d : Declaration) : Prop :=
  ∃ s ∈ sites trees, s.isToken ∧ s.text = d.name ∧ ∀ e, s.declaration? = some e → e.kind ≠ d.kind

theorem not_isUnused_of_used (htrees : NamesAreTokens trees) {d : Declaration}
    (hused : Used trees d) (hname : isIdentifier d.name) : ¬ (ofTrees trees).isUnused d := by
  obtain ⟨s, hs, htoken, htext, hother⟩ := hused
  rw [isUnused_iff_tokens htrees hname]
  intro h
  obtain ⟨e, _, he, hkind⟩ := h s hs htoken htext
  exact hother e he hkind

/-- A used declaration stays out of the report exactly if its name is an identifier. -/
theorem used_unreported_iff (trees : List SourceTree) (htrees : NamesAreTokens trees)
    (d : Declaration) (hd : d ∈ (ofTrees trees).declarations) (hused : Used trees d) :
    ((ofTrees trees).isUnused d ↔ ¬ isIdentifier d.name) ∧
      ∀ cwd root findings, (ofTrees trees).unusedSymbols cwd root d.kind = .ok findings →
        ((∀ finding ∈ findings, finding.name ≠ d.name) ↔ isIdentifier d.name) := by
  have hiff : (ofTrees trees).isUnused d ↔ ¬ isIdentifier d.name := by
    constructor
    · exact fun hunused hname => not_isUnused_of_used htrees hused hname hunused
    · exact fun hname => isUnused_of_not_isIdentifier trees hname
  refine ⟨hiff, ?_⟩
  intro cwd root findings h
  constructor
  · intro habsent
    by_contra hname
    obtain ⟨finding, hmem, heq⟩ := exists_name_of_isUnused h hd (hiff.mpr hname)
    exact habsent finding hmem heq
  · intro hname
    have hgt := mt hiff.mp (not_not.mpr hname)
    rw [isUnused_iff] at hgt
    exact name_ne_of_count_gt h (Int.not_le.mp hgt)

def dollarProject : List SourceTree :=
  [declaredAndCalled "function_signature" [95, 36, 102]]

theorem namesAreTokens_dollarProject : NamesAreTokens dollarProject := by
  intro t ht
  rw [List.mem_singleton.mp ht]
  exact namesAreTokens_declaredAndCalled _ _

/-- The function `_$f`, whose name the census passes over. -/
def dollarFunction : Declaration :=
  ⟨.method, Text.ofString "_$f", Text.ofString "/p/lib/a.dart", 1⟩

theorem mem_declarations_dollarFunction :
    dollarFunction ∈ (ofTrees dollarProject).declarations := by
  rw [declarations_ofTrees]
  decide

theorem used_dollarFunction : Used dollarProject dollarFunction := by
  have hsite : ∃ s ∈ sites dollarProject,
      (s.spells dollarFunction.name && s.declaration?.isNone) = true := by
    rw [← List.any_eq_true]
    decide
  obtain ⟨s, hs, h⟩ := hsite
  simp only [Site.spells, Bool.and_eq_true, beq_iff_eq, Option.isNone_iff_eq_none] at h
  refine ⟨s, hs, h.1.1, h.1.2, ?_⟩
  intro e he
  rw [h.2] at he
  cases he

theorem used_unreported_iff_dollar :
    NamesAreTokens dollarProject ∧
      dollarFunction ∈ (ofTrees dollarProject).declarations ∧
      Used dollarProject dollarFunction ∧
      (ofTrees dollarProject).isUnused dollarFunction := by
  have htrees := namesAreTokens_dollarProject
  have hd := mem_declarations_dollarFunction
  have hused := used_dollarFunction
  exact ⟨htrees, hd, hused, (used_unreported_iff _ htrees _ hd hused).1.mpr (by decide)⟩

/-- Being used does not keep every name out of the report. -/
theorem exists_used_reported :
    ¬ ∀ trees, NamesAreTokens trees → ∀ d ∈ (ofTrees trees).declarations, Used trees d →
      ∀ cwd root findings, (ofTrees trees).unusedSymbols cwd root d.kind = .ok findings →
        ∀ finding ∈ findings, finding.name ≠ d.name := by
  intro h
  have hfiles : ∀ d ∈ (ofTrees dollarProject).declarations, d.file ≠ [] := by
    rw [declarations_ofTrees]
    decide
  obtain ⟨findings, hfindings⟩ := exists_unusedSymbols [] [] dollarFunction.kind hfiles
  have hd := mem_declarations_dollarFunction
  have hunused := isUnused_of_not_isIdentifier dollarProject (d := dollarFunction) (by decide)
  obtain ⟨finding, hmem, hname⟩ := exists_name_of_isUnused hfindings hd hunused
  exact h _ namesAreTokens_dollarProject _ hd used_dollarFunction _ _ _ hfindings finding hmem
    hname

end Index

end Deadwood
