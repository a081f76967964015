import Deadwood.Literal.Basic
import Mathlib.Data.List.Induction

/-!
The fragments of a literal are its segments and, if it has several parts, those without
interpolations joined.
-/
namespace Deadwood

namespace StringPart

/-- What a segment comes to: itself, and once more as a run of its own. -/
def doubled (segment : Text) : List Text :=
  if segment.isEmpty then [segment] else [segment, segment]

/-- Between two segments of a part there is an interpolation, so no run is longer than a segment. -/
theorem flush_foldl_add (segments : List Text) :
    (segments.foldl Gathered.add {}).flush = ⟨segments.flatMap doubled, []⟩ := by
  induction segments using List.reverseRecOn with
  | nil => rfl
  | append_singleton segments segment ih =>
    rw [List.foldl_append, List.foldl_cons, List.foldl_nil, Gathered.add, ih, List.flatMap_append,
      List.flatMap_singleton, Gathered.flush, doubled]
    cases segment with
    | nil => rfl
    | cons c segment => simp

theorem gather_eq_flatMap (segments : List Text) : gather segments = segments.flatMap doubled := by
  rw [gather, flush_foldl_add]

theorem mem_gather {segments : List Text} {text : Text} :
    text ∈ gather segments ↔ text ∈ segments := by
  rw [gather_eq_flatMap, List.mem_flatMap]
  constructor
  · rintro ⟨segment, hsegment, htext⟩
    unfold doubled at htext
    split at htext <;> simp_all
  · intro h
    refine ⟨text, h, ?_⟩
    unfold doubled
    split <;> simp

theorem mem_fragments {part : StringPart} {text : Text} :
    text ∈ part.fragments ↔ text ∈ part.segments := by
  unfold fragments
  split
  · exact mem_gather
  · next hsimple =>
    have hothers : part.others = [] := by simpa [isInterpolated] using hsimple
    simp [segments, hothers]

end StringPart

namespace Literal

def joined (parts : List StringPart) : Text :=
  (parts.filter fun part => !part.isInterpolated).flatMap StringPart.first

/-- What a literal contributes to a path: a segment of one of its parts or, if there are several, the
simple ones joined. -/
def Offers (parts : List StringPart) (text : Text) : Prop :=
  (∃ part ∈ parts, text ∈ part.segments) ∨ 1 < parts.length ∧ text = joined parts

theorem value?_eq_some {part : StringPart} {text : Text} :
    part.value? = some text ↔ part.isInterpolated = false ∧ part.first = text := by
  unfold StringPart.value?
  split <;> simp_all

theorem value?_eq (parts : List StringPart) :
    value? parts = if parts.isEmpty || parts.any StringPart.isInterpolated then none
      else some (parts.flatMap StringPart.first) := by
  have hvalues : parts.mapM StringPart.value? =
      if parts.any StringPart.isInterpolated then none else some (parts.map StringPart.first) := by
    induction parts with
    | nil => rfl
    | cons part parts ih =>
      rw [List.mapM_cons, ih, StringPart.value?, List.any_cons]
      cases part.isInterpolated with
      | true => rfl
      | false => cases parts.any StringPart.isInterpolated <;> rfl
  rw [value?, hvalues]
  cases parts.isEmpty <;> cases parts.any StringPart.isInterpolated <;> simp [List.flatMap]

theorem filterMap_value? (parts : List StringPart) :
    parts.filterMap StringPart.value? =
      (parts.filter fun part => !part.isInterpolated).map StringPart.first := by
  induction parts with
  | nil => rfl
  | cons part parts ih =>
    cases hpart : part.isInterpolated with
    | true => simp [StringPart.value?, hpart, ih]
    | false => simp [StringPart.value?, hpart, ih]

theorem flatten_filterMap_value? (parts : List StringPart) :
    (parts.filterMap StringPart.value?).flatten = joined parts := by
  rw [filterMap_value?, joined, List.flatMap]

theorem mem_jointFragments {parts : List StringPart} {text : Text} :
    text ∈ jointFragments parts ↔
      1 < parts.length ∧
        ((∃ part ∈ parts, part.isInterpolated = false ∧ part.first = text) ∨ text = joined parts) := by
  unfold jointFragments
  split
  · next hlength =>
    simp only [List.mem_append, List.mem_filterMap, value?_eq_some, List.mem_singleton,
      flatten_filterMap_value?, hlength, true_and]
  · next hlength => simp [hlength]

theorem mem_fragments {parts : List StringPart} {text : Text} :
    text ∈ fragments parts ↔ Offers parts text := by
  unfold fragments Offers
  simp only [List.mem_append, mem_jointFragments, List.mem_flatMap, StringPart.mem_fragments]
  constructor
  · rintro (⟨hlength, ⟨part, hpart, _, rfl⟩ | htext⟩ | hsegment)
    · exact .inl ⟨part, hpart, List.mem_cons_self⟩
    · exact .inr ⟨hlength, htext⟩
    · exact .inl hsegment
  · rintro (hsegment | ⟨hlength, htext⟩)
    · exact .inr hsegment
    · exact .inl ⟨hlength, .inr htext⟩

end Literal

end Deadwood
