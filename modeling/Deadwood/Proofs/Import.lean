import Deadwood.Import
import Deadwood.Proofs.Census
import Mathlib.Data.List.Basic
import Mathlib.Data.List.Induction

/-!
Which URIs of a file are kept, and which packages they name. Of the directive nodes whose literals
start at one offset the last one counts.
-/
namespace Deadwood

section Splits

variable {α : Type} {l : List α} {a : α} {P : α → List α → Prop}

private theorem exists_split_concat :
    (∃ before b after, l ++ [a] = before ++ b :: after ∧ P b after) ↔
      P a [] ∨ ∃ before b after, l = before ++ b :: after ∧ P b (after ++ [a]) := by
  constructor
  · rintro ⟨before, b, after, h, hP⟩
    rcases List.eq_nil_or_concat after with rfl | ⟨after, x, rfl⟩
    · obtain ⟨rfl, hb⟩ := List.append_inj' h rfl
      cases hb
      exact .inl hP
    · rw [List.concat_eq_append] at hP
      rw [List.concat_eq_append, ← List.cons_append, ← List.append_assoc] at h
      obtain ⟨rfl, hx⟩ := List.append_inj' h rfl
      cases hx
      exact .inr ⟨before, b, after, rfl, hP⟩
  · rintro (hP | ⟨before, b, after, rfl, hP⟩)
    · exact ⟨l, a, [], rfl, hP⟩
    · exact ⟨before, b, after ++ [a], by simp, hP⟩

theorem exists_last {p : α → Prop} (h : ∃ b ∈ l, p b) :
    ∃ before b after, l = before ++ b :: after ∧ p b ∧ ∀ later ∈ after, ¬ p later := by
  induction l using List.reverseRecOn with
  | nil => simp at h
  | append_singleton l a ih =>
    rw [exists_split_concat]
    by_cases ha : p a
    · exact .inl ⟨ha, by simp⟩
    · right
      obtain ⟨before, b, after, hl, hb, hafter⟩ := ih (by simpa [ha, or_and_right, exists_or] using h)
      exact ⟨before, b, after, hl, hb, by simpa [or_imp, forall_and, ha] using hafter⟩

end Splits

namespace UriTable

theorem mem_record {table : UriTable} {entry new : Nat × Text} :
    entry ∈ table.record new ↔ entry = new ∨ entry ∈ table ∧ entry.1 ≠ new.1 := by
  simp [record]

theorem mem_foldl_record {α : Type} {f : α → Option (Nat × Text)} {l : List α}
    {entry : Nat × Text} :
    entry ∈ (l.filterMap f).foldl record [] ↔
      ∃ before a after, l = before ++ a :: after ∧ f a = some entry ∧
        ∀ later ∈ after, ∀ other, f later = some other → other.1 ≠ entry.1 := by
  induction l using List.reverseRecOn with
  | nil => simp
  | append_singleton l a ih =>
    rw [exists_split_concat, List.filterMap_append, List.foldl_append]
    cases ha : f a with
    | none =>
      simp only [List.filterMap_cons_none ha, List.filterMap_nil, List.foldl_nil, ih, reduceCtorEq,
        false_and, false_or, List.forall_mem_append, List.forall_mem_singleton, ha, false_implies,
        implies_true, and_true]
    | some new =>
      simp only [List.filterMap_cons_some ha, List.filterMap_nil, List.foldl_cons, List.foldl_nil,
        mem_record, ih, Option.some.injEq, List.not_mem_nil, false_implies, implies_true, and_true,
        List.forall_mem_append, List.forall_mem_singleton, ha, forall_eq']
      grind

theorem nodup_offsets_record {table : UriTable} (h : (table.map (·.1)).Nodup) (entry : Nat × Text) :
    ((table.record entry).map (·.1)).Nodup := by
  rw [record, List.map_cons, List.nodup_cons]
  refine ⟨?_, h.sublist (List.filter_sublist.map _)⟩
  simp

theorem nodup_offsets_foldl_record (entries : List (Nat × Text)) {table : UriTable}
    (h : (table.map (·.1)).Nodup) : ((entries.foldl record table).map (·.1)).Nodup := by
  induction entries generalizing table with
  | nil => exact h
  | cons entry entries ih => exact ih (nodup_offsets_record h entry)

/-- Each offset of an entry stays in the table, whichever entry holds it in the end. -/
theorem mem_offsets_foldl_record (entries : List (Nat × Text)) (table : UriTable) {offset : Nat} :
    offset ∈ (entries.foldl record table).map (·.1) ↔
      offset ∈ table.map (·.1) ∨ offset ∈ entries.map (·.1) := by
  induction entries generalizing table with
  | nil => simp
  | cons entry entries ih =>
    have hrecord : offset ∈ (table.record entry).map (·.1) ↔
        offset ∈ table.map (·.1) ∨ offset = entry.1 := by
      simp only [List.mem_map, mem_record]
      grind
    rw [List.foldl_cons, ih, hrecord, List.map_cons, List.mem_cons, or_assoc]

theorem pairwise_inOrder {table : UriTable} (h : (table.map (·.1)).Nodup) :
    table.inOrder.Pairwise fun a b => a.1 < b.1 := by
  have hperm : table.inOrder.Perm table := List.mergeSort_perm _ _
  have hsorted : table.inOrder.Pairwise fun a b => decide (a.1 ≤ b.1) = true := by
    apply List.pairwise_mergeSort
    · intro a b c hab hbc
      simp only [decide_eq_true_eq] at hab hbc ⊢
      omega
    · intro a b
      simp only [Bool.or_eq_true, decide_eq_true_eq]
      omega
  have hdistinct : table.inOrder.Pairwise fun a b => a.1 ≠ b.1 :=
    List.pairwise_map.mp ((hperm.map _).nodup_iff.mpr h)
  refine (hsorted.and hdistinct).imp ?_
  rintro a b ⟨hle, hne⟩
  rw [decide_eq_true_eq] at hle
  omega

theorem mem_uris {table : UriTable} {uri : Text} :
    uri ∈ table.uris ↔ ∃ offset, (offset, uri) ∈ table := by
  unfold uris inOrder
  rw [List.mem_map]
  simp only [(List.mergeSort_perm _ _).mem_iff, Prod.exists, exists_eq_right]

end UriTable

theorem takeWhile_ne_eq_iff {c : CodePoint} {t name : Text} :
    t.takeWhile (· != c) = name ↔ c ∉ name ∧ (t = name ∨ name ++ [c] <+: t) := by
  induction t generalizing name with
  | nil => cases name <;> simp
  | cons a t ih =>
    cases name with
    | nil =>
      by_cases ha : a = c
      · simp [ha]
      · simp [ha, Ne.symm ha]
    | cons b name =>
      simp only [List.takeWhile_cons, List.cons_append, List.cons_prefix_cons, List.cons.injEq,
        List.mem_cons, bne_iff_ne]
      grind

theorem packageName?_eq_some_iff {uri name : Text} :
    packageName? uri = some name ↔ CodePoint.ofChar '/' ∉ name ∧
      (uri = packageScheme ++ name ∨ packageScheme ++ name ++ [CodePoint.ofChar '/'] <+: uri) := by
  unfold packageName?
  rw [Option.map_eq_some_iff]
  simp only [List.isPrefixOf?_eq_some_iff_append_eq, takeWhile_ne_eq_iff]
  constructor
  · rintro ⟨rest, rfl, hslash, rfl | hprefix⟩
    · exact ⟨hslash, .inl rfl⟩
    · refine ⟨hslash, .inr ?_⟩
      rw [List.append_assoc]
      exact (List.prefix_append_right_inj _).mpr hprefix
  · rintro ⟨hslash, rfl | ⟨tail, rfl⟩⟩
    · exact ⟨name, rfl, hslash, .inl rfl⟩
    · exact ⟨name ++ [CodePoint.ofChar '/'] ++ tail, by simp, hslash,
        .inr (List.prefix_append _ _)⟩

namespace Node

/-- Some directive has the URI, and no directive after it has one at the same offset. -/
def RecordsUri (source : Bytes) (root : Node) (uri : Text) : Prop :=
  ∃ before n after offset, root.preorder = before ++ n :: after ∧
    n.role? = some .directive ∧ n.directiveUri? source = some (offset, uri) ∧
    ∀ later ∈ after, later.role? = some .directive →
      ∀ other, later.directiveUri? source = some other → other.1 ≠ offset

theorem uriTable_eq_foldl_preorder (source : Bytes) (root : Node) :
    root.uriTable source = (root.preorder.filterMap fun n =>
      if n.role? = some .directive then n.directiveUri? source else none).foldl
        UriTable.record [] := by
  have hnodes : root.walk.map Visit.node = root.preorder := root.traverse_eq_preorder
  unfold uriTable
  rw [withRole_eq_filter, List.filterMap_filter, ← hnodes, List.filterMap_map]
  simp

theorem pairwise_uriTable (source : Bytes) (root : Node) :
    (root.uriTable source).inOrder.Pairwise fun a b => a.1 < b.1 :=
  UriTable.pairwise_inOrder (UriTable.nodup_offsets_foldl_record _ List.nodup_nil)

theorem mem_offsets_uriTable {source : Bytes} {root : Node} {offset : Nat} :
    offset ∈ (root.uriTable source).inOrder.map (·.1) ↔
      ∃ n ∈ root.preorder, n.role? = some .directive ∧
        ∃ uri, n.directiveUri? source = some (offset, uri) := by
  have hperm : (root.uriTable source).inOrder.Perm (root.uriTable source) := List.mergeSort_perm _ _
  rw [(hperm.map _).mem_iff, uriTable_eq_foldl_preorder, UriTable.mem_offsets_foldl_record]
  simp only [List.map_nil, List.not_mem_nil, false_or, List.mem_map, List.mem_filterMap,
    Option.ite_none_right_eq_some, Prod.exists, exists_and_right, exists_eq_right]
  grind

theorem mem_uris {source : Bytes} {root : Node} {uri : Text} :
    uri ∈ root.uris source ↔ root.RecordsUri source uri := by
  unfold uris RecordsUri
  rw [UriTable.mem_uris, uriTable_eq_foldl_preorder]
  simp only [UriTable.mem_foldl_record, Option.ite_none_right_eq_some]
  grind

theorem recordsUri_iff_of_agree {source : Bytes} {root : Node}
    (hagree : ∀ n ∈ root.preorder, ∀ m ∈ root.preorder, n.role? = some .directive →
      m.role? = some .directive → ∀ offset uri other, n.directiveUri? source = some (offset, uri) →
        m.directiveUri? source = some (offset, other) → uri = other) {uri : Text} :
    root.RecordsUri source uri ↔ ∃ n ∈ root.preorder, n.role? = some .directive ∧
      ∃ offset, n.directiveUri? source = some (offset, uri) := by
  constructor
  · rintro ⟨before, n, after, offset, hroot, hrole, huri, _⟩
    exact ⟨n, by simp [hroot], hrole, offset, huri⟩
  · rintro ⟨n, hn, hrole, offset, huri⟩
    obtain ⟨before, m, after, hroot, ⟨hmrole, other, hmuri⟩, hlast⟩ := exists_last
      (p := fun m => m.role? = some .directive ∧
        ∃ other, m.directiveUri? source = some (offset, other)) ⟨n, hn, hrole, uri, huri⟩
    have hm : m ∈ root.preorder := by simp [hroot]
    cases hagree n hn m hm hrole hmrole offset uri other huri hmuri
    refine ⟨before, m, after, offset, hroot, hmrole, hmuri, ?_⟩
    rintro later hlater hlrole ⟨_, text⟩ hluri rfl
    exact hlast later hlater ⟨hlrole, text, hluri⟩

theorem mem_packages {source : Bytes} {root : Node} {name : Text} :
    name ∈ root.packages source ↔
      name ≠ [] ∧ ∃ uri ∈ root.uris source, packageName? uri = some name := by
  simp only [packages, packageNames, List.mem_filterMap, Option.filter_eq_some_iff]
  grind

end Node

end Deadwood
