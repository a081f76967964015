import Deadwood.Proofs.Assets
import Mathlib.Data.List.Infix

/-!
When the program runs, each interpolation leaves a hole in the value of a literal. A run of static
text between two holes lies in one fragment, unless it joins an interpolated part to a neighbour:
such a run is only found if it happens to occur in one segment or in the simple parts joined.
-/
namespace Deadwood

namespace Literal

/-- A segment of a literal, and whether the part that it belongs to is interpolated. -/
structure Segment where
  text : Text
  interpolated : Bool
  deriving DecidableEq

/-- What the value of a literal is made of when the program runs. -/
inductive Piece where
  | static (segment : Segment)
  | hole
  deriving DecidableEq

def partLayout (part : StringPart) : List Piece :=
  .static ⟨part.first, part.isInterpolated⟩ ::
    part.others.flatMap fun text => [.hole, .static ⟨text, part.isInterpolated⟩]

/-- Adjacent parts follow each other without a hole. -/
def layout (parts : List StringPart) : List Piece :=
  parts.flatMap partLayout

def runText (run : List Segment) : Text :=
  run.flatMap Segment.text

/-- A run of segments without a hole that no segment of the literal could be added to. -/
inductive MaximalRun (parts : List StringPart) : List Segment → Prop
  | mk {before after : List Piece} {run : List Segment} :
      layout parts = before ++ run.map .static ++ after → run ≠ [] →
      (∀ piece ∈ before.getLast?, piece = .hole) → (∀ piece ∈ after.head?, piece = .hole) →
      MaximalRun parts run

/-- The run joins text of an interpolated part to text of another part. -/
def Crosses (run : List Segment) : Prop :=
  ∃ before segment after, run = before ++ segment :: after ∧ segment.interpolated ∧
    segment.text ≠ [] ∧ runText (before ++ after) ≠ []

variable {parts : List StringPart} {run : List Segment}

theorem MaximalRun.isInfix (h : MaximalRun parts run) : run.map .static <:+: layout parts := by
  obtain ⟨hlayout, _, _, _⟩ := h
  exact ⟨_, _, hlayout.symm⟩

theorem MaximalRun.ne_nil (h : MaximalRun parts run) : run ≠ [] := by
  obtain ⟨_, hne, _, _⟩ := h
  exact hne

theorem exists_part_of_mem_layout {segment : Segment} (h : .static segment ∈ layout parts) :
    ∃ part ∈ parts, segment.text ∈ part.segments := by
  obtain ⟨part, hpart, h⟩ := List.mem_flatMap.mp h
  refine ⟨part, hpart, ?_⟩
  simp only [partLayout, List.mem_cons, List.mem_flatMap, Piece.static.injEq, reduceCtorEq,
    List.not_mem_nil, or_false, false_or] at h
  rcases h with rfl | ⟨text, htext, rfl⟩
  · exact List.mem_cons_self
  · exact List.mem_cons_of_mem _ htext

theorem MaximalRun.exists_part (h : MaximalRun parts run) {segment : Segment}
    (hsegment : segment ∈ run) : ∃ part ∈ parts, segment.text ∈ part.segments :=
  exists_part_of_mem_layout (h.isInfix.mem (List.mem_map_of_mem hsegment))

/-- What a piece contributes to the simple parts joined. -/
def Piece.simpleText : Piece → Text
  | .static ⟨text, false⟩ => text
  | _ => []

theorem flatMap_simpleText_partLayout (part : StringPart) :
    (partLayout part).flatMap Piece.simpleText =
      if part.isInterpolated then [] else part.first := by
  unfold partLayout
  split
  · next h => simp [h, Piece.simpleText, List.flatMap_assoc]
  · next h =>
    have hothers : part.others = [] := by simpa [StringPart.isInterpolated] using h
    simp [h, hothers, Piece.simpleText]

theorem flatMap_simpleText_layout (parts : List StringPart) :
    (layout parts).flatMap Piece.simpleText = joined parts := by
  induction parts with
  | nil => rfl
  | cons part parts ih =>
    unfold layout joined at ih ⊢
    rw [List.flatMap_cons, List.flatMap_append, ih, flatMap_simpleText_partLayout]
    cases hpart : part.isInterpolated with
    | true => simp [hpart]
    | false => simp [hpart]

theorem MaximalRun.isInfix_joined (h : MaximalRun parts run)
    (hempty : ∀ segment ∈ run, segment.interpolated → segment.text = []) :
    runText run <:+: joined parts := by
  have htext : (run.map Piece.static).flatMap Piece.simpleText = runText run := by
    unfold runText
    rw [List.flatMap_map]
    apply List.flatMap_congr
    intro segment hsegment
    obtain ⟨text, interpolated⟩ := segment
    cases interpolated with
    | false => rfl
    | true => exact (hempty _ hsegment rfl).symm
  rw [← htext, ← flatMap_simpleText_layout]
  exact h.isInfix.flatMap _

theorem exists_fragment_of_isInfix_joined {text : Text} (hparts : parts ≠ [])
    (h : text <:+: joined parts) : ∃ fragment ∈ fragments parts, text <:+: fragment := by
  by_cases hlength : 1 < parts.length
  · exact ⟨joined parts, mem_fragments.mpr (.inr ⟨hlength, rfl⟩), h⟩
  · obtain ⟨part, rfl⟩ : ∃ part, parts = [part] := by
      rw [← List.length_eq_one_iff]
      have := List.length_pos_iff.mpr hparts
      omega
    have hfirst : joined [part] <:+: part.first := by
      unfold joined
      cases hpart : part.isInterpolated <;> simp [hpart]
    have hsegment : part.first ∈ part.segments := List.mem_cons_self
    exact ⟨part.first, mem_fragments.mpr (.inl ⟨part, List.mem_cons_self, hsegment⟩),
      h.trans hfirst⟩

theorem exists_fragment_of_not_crosses (h : MaximalRun parts run) (hcross : ¬ Crosses run) :
    ∃ fragment ∈ fragments parts, runText run <:+: fragment := by
  by_cases hempty : ∀ segment ∈ run, segment.interpolated → segment.text = []
  · obtain ⟨segment, hsegment⟩ := List.exists_mem_of_ne_nil _ h.ne_nil
    obtain ⟨part, hpart, _⟩ := h.exists_part hsegment
    exact exists_fragment_of_isInfix_joined (List.ne_nil_of_mem hpart) (h.isInfix_joined hempty)
  · -- the text of one interpolated segment is all that the run has
    push Not at hempty
    obtain ⟨segment, hsegment, hinterpolated, htext⟩ := hempty
    obtain ⟨before, after, rfl⟩ := List.append_of_mem hsegment
    have hrest : runText (before ++ after) = [] := by
      by_contra hrest
      exact hcross ⟨before, segment, after, rfl, hinterpolated, htext, hrest⟩
    have hrun : runText (before ++ segment :: after) = segment.text := by
      unfold runText at hrest ⊢
      rw [List.flatMap_append, List.append_eq_nil_iff] at hrest
      rw [List.flatMap_append, List.flatMap_cons, hrest.1, hrest.2, List.append_nil,
        List.nil_append]
    obtain ⟨part, hpart, hsegments⟩ := h.exists_part hsegment
    exact ⟨segment.text, mem_fragments.mpr (.inl ⟨part, hpart, hsegments⟩),
      hrun ▸ List.infix_rfl⟩

theorem exists_fragment_iff {text : Text} :
    (∃ fragment ∈ fragments parts, text <:+: fragment) ↔
      (∃ part ∈ parts, ∃ segment ∈ part.segments, text <:+: segment) ∨
        1 < parts.length ∧ text <:+: joined parts := by
  simp only [mem_fragments, Offers]
  constructor
  · rintro ⟨fragment, ⟨part, hpart, hsegment⟩ | ⟨hlength, rfl⟩, h⟩
    · exact .inl ⟨part, hpart, fragment, hsegment, h⟩
    · exact .inr ⟨hlength, h⟩
  · rintro (⟨part, hpart, segment, hsegment, h⟩ | ⟨hlength, h⟩)
    · exact ⟨segment, .inl ⟨part, hpart, hsegment⟩, h⟩
    · exact ⟨joined parts, .inr ⟨hlength, rfl⟩, h⟩

/-- A static run that joins no interpolated part to a neighbour lies in a fragment, so an asset that
it names is not reported. Any other run is found exactly if one segment or the simple parts joined
hold it. -/
theorem uncrossed_run_kept (parts : List StringPart) (run : List Segment)
    (h : MaximalRun parts run) :
    ((∃ fragment ∈ fragments parts, runText run <:+: fragment) ↔
      (∃ part ∈ parts, ∃ segment ∈ part.segments, runText run <:+: segment) ∨
        1 < parts.length ∧ runText run <:+: joined parts) ∧
    (¬ Crosses run →
      (∃ fragment ∈ fragments parts, runText run <:+: fragment) ∧
      ∀ trees, ∀ t ∈ trees, ∀ n ∈ t.root.preorder, n.label = "string_literal" →
        n.literalParts t.source = parts →
        ∀ asset base, Path.IsBaseName asset base → base <:+: runText run →
          ∀ declared, ⟨asset⟩ ∉ (Index.ofTrees trees).unusedAssets declared) := by
  refine ⟨exists_fragment_iff, ?_⟩
  intro hcross
  obtain ⟨fragment, hfragment, hkept⟩ := exists_fragment_of_not_crosses h hcross
  refine ⟨⟨fragment, hfragment, hkept⟩, ?_⟩
  intro trees t ht n hn hlabel hparts asset base hbase hinfix declared
  have hoffers : Offers (n.literalParts t.source) fragment := by
    rw [hparts]
    exact mem_fragments.mp hfragment
  rw [Index.mem_unusedAssets, not_and, not_not, Index.mentions_ofTrees_iff]
  intro _
  exact ⟨t, ht, n, hn, hlabel, fragment, hoffers, base, .name hbase, hinfix.trans hkept⟩

def literalTree (literal : Text) : SourceTree where
  file := "/p/lib/a.dart"
  source := Utf8.encode literal
  root := { label := "string_literal", span := ⟨0, (Utf8.encode literal).length⟩ }
  excluded := []

theorem mem_preorder_literalTree (literal : Text) :
    (literalTree literal).root ∈ (literalTree literal).root.preorder := by
  rw [Node.preorder_eq]
  exact List.mem_cons_self

def logoAsset : Text := "assets/logo.png"

theorem isBaseName_logoAsset : Path.IsBaseName logoAsset "logo.png" :=
  Path.isBaseName_iff.mpr (by decide)

theorem uncrossed_run_kept_adjacent :
    let t := literalTree "'lo' 'go.png'"
    let run : List Segment := [⟨"lo", false⟩, ⟨"go.png", false⟩]
    MaximalRun (t.root.literalParts t.source) run ∧ ¬ Crosses run ∧
      ⟨logoAsset⟩ ∉ (Index.ofTrees [t]).unusedAssets [logoAsset] := by
  intro t run
  have hparts : t.root.literalParts t.source = [⟨"lo", []⟩, ⟨"go.png", []⟩] := by decide +kernel
  have hrun : MaximalRun (t.root.literalParts t.source) run := by
    rw [hparts]
    exact @MaximalRun.mk _ [] [] run rfl (List.cons_ne_nil _ _) (by simp) (by simp)
  have hcross : ¬ Crosses run := by
    rintro ⟨before, segment, after, hrun, hinterpolated, _⟩
    have hmem : segment ∈ run := by simp [hrun]
    simp only [run, List.mem_cons, List.not_mem_nil, or_false] at hmem
    rcases hmem with rfl | rfl <;> cases hinterpolated
  obtain ⟨_, hkept⟩ := uncrossed_run_kept _ run hrun
  refine ⟨hrun, hcross, ?_⟩
  exact (hkept hcross).2 [t] t List.mem_cons_self t.root (mem_preorder_literalTree _) rfl rfl
    logoAsset "logo.png" isBaseName_logoAsset (Text.contains_iff_isInfix.mp (by decide)) _

/-- A run can be lost, and with it an asset that it names: `$d` leaves a hole before `/lo`, and
nothing joins that to the next part. -/
theorem exists_lost_run :
    (¬ ∀ parts run, MaximalRun parts run →
      ∃ fragment ∈ fragments parts, runText run <:+: fragment) ∧
    ¬ ∀ trees, ∀ t ∈ trees, ∀ n ∈ t.root.preorder, n.label = "string_literal" →
      ∀ run, MaximalRun (n.literalParts t.source) run →
        ∀ asset base, Path.IsBaseName asset base → base <:+: runText run →
          ∀ declared, ⟨asset⟩ ∉ (Index.ofTrees trees).unusedAssets declared := by
  let t := literalTree "'$d/lo' 'go.png'"
  let parts : List StringPart := [⟨[], ["/lo"]⟩, ⟨"go.png", []⟩]
  let run : List Segment := [⟨"/lo", true⟩, ⟨"go.png", false⟩]
  have hparts : t.root.literalParts t.source = parts := by decide +kernel
  have hrun : MaximalRun parts run :=
    @MaximalRun.mk _ [.static ⟨[], true⟩, .hole] [] run rfl (List.cons_ne_nil _ _) (by simp)
      (by simp)
  refine ⟨?_, ?_⟩
  · intro h
    obtain ⟨fragment, hfragment, hinfix⟩ := h parts run hrun
    have hlost : ∀ fragment ∈ fragments parts, Text.contains (runText run) fragment = false := by
      decide
    rw [← Text.contains_iff_isInfix, hlost fragment hfragment] at hinfix
    cases hinfix
  · intro h
    have hreported : ⟨logoAsset⟩ ∈ (Index.ofTrees [t]).unusedAssets [logoAsset] :=
      Index.mem_unusedAssets.mpr ⟨List.mem_cons_self, by decide +kernel⟩
    exact h [t] t List.mem_cons_self t.root (mem_preorder_literalTree _) rfl run (hparts ▸ hrun)
      logoAsset "logo.png" isBaseName_logoAsset (Text.contains_iff_isInfix.mp (by decide)) _ hreported

end Literal

end Deadwood
