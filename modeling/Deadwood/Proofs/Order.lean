import Deadwood.Text.Basic
import Mathlib.Data.List.Basic
import Mathlib.Data.List.Induction
import Mathlib.Data.List.Lex
import Mathlib.Data.List.Pairwise
import Mathlib.Data.List.Sort
import Mathlib.Order.Fin.Basic

/-!
Texts are compared by their code points, which is a total order. Sorting keeps sublists, and the order
of what compares equal.
-/
namespace Deadwood

namespace Text

/-- The order of texts without ties: by the first code point in which they differ. -/
def Before (s t : Text) : Prop :=
  List.Lex (fun a b : CodePoint => a.val < b.val) s t

theorem before_iff_lt {s t : Text} : Before s t ↔ s < t := Iff.rfl

theorem le_iff {s t : Text} : le s t ↔ s = t ∨ Before s t := by
  unfold Before
  induction s generalizing t with
  | nil => cases t <;> simp [le]
  | cons a s ih =>
    cases t with
    | nil => simp [le]
    | cons b t =>
      simp only [le, Bool.or_eq_true, decide_eq_true_eq, Bool.and_eq_true, beq_iff_eq, ih,
        List.cons.injEq, List.cons_lex_cons_iff]
      grind

theorem le_iff_le {s t : Text} : le s t ↔ s ≤ t := by
  rw [le_iff, before_iff_lt, le_iff_eq_or_lt]

theorem le_total (s t : Text) : le s t || le t s := by
  simpa only [Bool.or_eq_true, le_iff_le] using total_of (· ≤ ·) s t

theorem le_trans {s t u : Text} (hst : le s t) (htu : le t u) : le s u :=
  le_iff_le.mpr ((le_iff_le.mp hst).trans (le_iff_le.mp htu))

theorem le_antisymm {s t : Text} (hst : le s t) (hts : le t s) : s = t :=
  (le_iff_le.mp hst).antisymm (le_iff_le.mp hts)

theorem mem_sort {t : Text} {l : List Text} : t ∈ sort l ↔ t ∈ l :=
  (List.mergeSort_perm l le).mem_iff

theorem pairwise_sort (l : List Text) : (sort l).Pairwise fun a b => le a b := by
  apply List.pairwise_mergeSort
  · exact fun _ _ _ => le_trans
  · exact le_total

/-- Unlike a merge sort, insertion is structural, so a concrete list can be sorted by evaluation. -/
theorem sort_eq_insertionSort (l : List Text) : sort l = l.insertionSort fun a b => le a b := by
  have : Std.Total fun a b : Text => (le a b : Prop) := ⟨fun a b => by simpa using le_total a b⟩
  have : IsTrans Text fun a b => le a b := ⟨fun _ _ _ => le_trans⟩
  have hperm : (sort l).Perm (l.insertionSort fun a b => le a b) :=
    (List.mergeSort_perm l le).trans (List.perm_insertionSort _ l).symm
  refine hperm.eq_of_pairwise ?_ (pairwise_sort l) (List.pairwise_insertionSort _ l)
  exact fun _ _ _ _ => le_antisymm

theorem pairwise_before_sort {l : List Text} (h : l.Nodup) : (sort l).Pairwise Before := by
  have hsorted := pairwise_sort l
  have hnodup : (sort l).Nodup := (List.mergeSort_perm l le).nodup_iff.mpr h
  refine (hsorted.and hnodup).imp ?_
  rintro a b ⟨hle, hne⟩
  exact (le_iff.mp hle).resolve_left hne

theorem eq_of_pairwise_before {l l' : List Text} (h : l.Pairwise Before) (h' : l'.Pairwise Before)
    (hmem : ∀ t, t ∈ l ↔ t ∈ l') : l = l' := by
  have hne : ∀ {s t : Text}, Before s t → s ≠ t := fun hbefore => ne_of_lt (before_iff_lt.mp hbefore)
  have hperm : l.Perm l' := (List.perm_ext_iff_of_nodup (h.imp hne) (h'.imp hne)).mpr hmem
  refine hperm.eq_of_pairwise ?_ (h.imp fun hst => le_iff.mpr (.inr hst))
    (h'.imp fun hst => le_iff.mpr (.inr hst))
  exact fun _ _ _ _ => le_antisymm

end Text

section Sorting

variable {α : Type} {le : α → α → Bool}

private theorem filter_append_eq {p : α → Bool} {l₁ l₂ : List α} (h₁ : ∀ b ∈ l₁, !p b)
    (h₂ : ∀ b ∈ l₂, p b) :
    (l₁ ++ l₂).filter (fun b => !p b) = l₁ ∧ (l₁ ++ l₂).filter p = l₂ := by
  have hnone₁ : l₁.filter p = [] := by
    rw [List.filter_eq_nil_iff]
    intro b hb
    simpa using h₁ b hb
  have hnone₂ : l₂.filter (fun b => !p b) = [] := by
    rw [List.filter_eq_nil_iff]
    intro b hb
    simpa using h₂ b hb
  rw [List.filter_append, List.filter_append, hnone₁, hnone₂, List.filter_eq_self.mpr h₁,
    List.filter_eq_self.mpr h₂, List.append_nil, List.nil_append]
  exact ⟨rfl, rfl⟩

/-- Where a new first element lands in the sorted list: after all that come strictly before it. -/
private theorem mergeSort_cons_split (trans : ∀ a b c, le a b → le b c → le a c)
    (total : ∀ a b, le a b || le b a) (a : α) (l : List α) :
    (a :: l).mergeSort le = (l.mergeSort le).filter (fun b => !le a b) ++
      a :: (l.mergeSort le).filter (le a) := by
  obtain ⟨l₁, l₂, hcons, hl, h₁⟩ := List.mergeSort_cons trans total a l
  have hsorted := List.pairwise_mergeSort trans total (a :: l)
  rw [hcons, List.pairwise_append] at hsorted
  have h₂ : ∀ b ∈ l₂, le a b := fun b hb => List.rel_of_pairwise_cons hsorted.2.1 hb
  obtain ⟨hbefore, hafter⟩ := filter_append_eq h₁ h₂
  rw [hcons, hl, hbefore, hafter]

theorem sublist_mergeSort_mergeSort (trans : ∀ a b c, le a b → le b c → le a c)
    (total : ∀ a b, le a b || le b a) {l l' : List α} (h : List.Sublist l l') :
    List.Sublist (l.mergeSort le) (l'.mergeSort le) := by
  induction h with
  | slnil => exact List.Sublist.refl _
  | @cons l l' a _ ih =>
    obtain ⟨l₁, l₂, hcons, hl, _⟩ := List.mergeSort_cons trans total a l'
    rw [hl] at ih
    rw [hcons]
    exact ih.middle a
  | @cons_cons l l' a _ ih =>
    -- `a` cuts both sorted lists by the same comparison, and filtering keeps the sublist
    rw [mergeSort_cons_split trans total, mergeSort_cons_split trans total]
    exact (ih.filter _).append ((ih.filter _).cons_cons a)

theorem filter_mergeSort (trans : ∀ a b c, le a b → le b c → le a c)
    (total : ∀ a b, le a b || le b a) {p : α → Bool} (hp : ∀ a b, p a → p b → le a b)
    (l : List α) : (l.mergeSort le).filter p = l.filter p := by
  have hties : (l.filter p).Pairwise fun a b => le a b := by
    rw [List.pairwise_filter]
    exact List.pairwise_of_forall hp
  have hsub := (List.sublist_mergeSort trans total hties List.filter_sublist).filter p
  simp only [List.filter_filter, Bool.and_self] at hsub
  symm
  apply hsub.eq_of_length
  exact ((List.mergeSort_perm l le).filter p).length_eq.symm

end Sorting

section FirstOccurrences

variable {α : Type} [BEq α] [LawfulBEq α]

theorem nodup_eraseDups : ∀ l : List α, l.eraseDups.Nodup
  | [] => by simp
  | a :: l => by
    rw [List.eraseDups_cons, List.nodup_cons, List.mem_eraseDups]
    exact ⟨by simp, nodup_eraseDups _⟩
termination_by l => l.length
decreasing_by exact Nat.lt_succ_of_le (List.length_filter_le _ _)

theorem eraseDups_concat_of_mem {l : List α} {a : α} (h : a ∈ l) :
    (l ++ [a]).eraseDups = l.eraseDups := by
  rw [List.eraseDups_append]
  simp [List.removeAll, h]

theorem eraseDups_concat_of_notMem {l : List α} {a : α} (h : a ∉ l) :
    (l ++ [a]).eraseDups = l.eraseDups ++ [a] := by
  rw [List.eraseDups_append]
  simp [List.removeAll, h, List.eraseDups_cons]

theorem pairwise_idxOf_eraseDups_filter (p : α → Bool) (l : List α) :
    (l.filter p).eraseDups.Pairwise fun a b => l.idxOf a < l.idxOf b := by
  induction l using List.reverseRecOn with
  | nil => exact .nil
  | append_singleton l x ih =>
    have hold : (l.filter p).eraseDups.Pairwise fun a b =>
        (l ++ [x]).idxOf a < (l ++ [x]).idxOf b := by
      refine ih.imp_of_mem fun {a b} ha hb hab => ?_
      rw [List.mem_eraseDups, List.mem_filter] at ha hb
      rwa [List.idxOf_append_of_mem ha.1, List.idxOf_append_of_mem hb.1]
    cases hx : p x with
    | false => rwa [List.filter_append, List.filter_singleton, hx, Bool.cond_false, List.append_nil]
    | true =>
      rw [List.filter_append, List.filter_singleton, hx, Bool.cond_true]
      by_cases hseen : x ∈ l.filter p
      · rwa [eraseDups_concat_of_mem hseen]
      · have hnew : x ∉ l := fun hmem => hseen (List.mem_filter.mpr ⟨hmem, hx⟩)
        rw [eraseDups_concat_of_notMem hseen, List.pairwise_append]
        refine ⟨hold, List.pairwise_singleton _ _, fun a ha b hb => ?_⟩
        rw [List.mem_eraseDups, List.mem_filter] at ha
        rw [List.mem_singleton.mp hb, List.idxOf_append_of_mem ha.1,
          List.idxOf_append_of_notMem hnew, List.idxOf_cons_self]
        exact Nat.lt_add_right _ (List.idxOf_lt_length_iff.mpr ha.1)

end FirstOccurrences

end Deadwood
