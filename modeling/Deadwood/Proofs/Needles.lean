import Deadwood.Proofs.Assets

/-!
Of the texts that count as a mention of an asset one occurs in all the others: the stem of its file name
if that is long enough, and the file name if not. It alone decides whether the asset is used, so the
directory of an asset and the looking for its whole path are of no consequence.
-/
namespace Deadwood

namespace Path

def stem (p : Text) : Text :=
  (splitExtension (baseName p)).1

theorem isStem_stem (p : Text) : IsStem (baseName p) (stem p) :=
  isStem_splitExtension (baseName p)

theorem IsBaseName.isSuffix {p base : Text} (h : IsBaseName p base) : base <:+ p := by
  obtain ⟨_, dir, rfl, _⟩ := h
  exact List.suffix_append dir base

theorem IsStem.isPrefix {name stem : Text} (h : IsStem name stem) : stem <+: name := by
  cases h with
  | cut _ _ => exact List.prefix_append _ _
  | dotless _ => exact List.prefix_rfl
  | hidden _ _ => exact List.prefix_rfl

end Path

/-- The text that is looked for in the end. -/
def leastNeedle (asset : Text) : Text :=
  if 4 ≤ (Path.stem asset).length then Path.stem asset else Path.baseName asset

theorem needle_leastNeedle (asset : Text) : Needle asset (leastNeedle asset) := by
  unfold leastNeedle
  split
  · next hlong =>
    exact .stem (Path.isBaseName_baseName asset) (Path.isStem_stem asset) hlong
  · exact .name (Path.isBaseName_baseName asset)

theorem leastNeedle_isInfix_baseName (asset : Text) : leastNeedle asset <:+: Path.baseName asset := by
  unfold leastNeedle
  split
  · exact (Path.isStem_stem asset).isPrefix.isInfix
  · exact List.infix_rfl

theorem Needle.leastNeedle_isInfix {asset needle : Text} (h : Needle asset needle) :
    leastNeedle asset <:+: needle := by
  have hname := leastNeedle_isInfix_baseName asset
  cases h with
  | path => exact hname.trans (Path.isBaseName_baseName asset).isSuffix.isInfix
  | name hbase =>
    rw [Path.isBaseName_iff.mp hbase]
    exact hname
  | stem hbase hstem hlong =>
    rw [Path.isBaseName_iff] at hbase
    subst hbase
    have hneedle : needle = Path.stem asset := Path.isStem_iff.mp hstem
    subst hneedle
    rewrite [leastNeedle, if_pos (Nat.succ_le_of_lt hlong)]
    exact List.infix_rfl

theorem exists_needle_iff {asset text : Text} :
    (∃ needle, Needle asset needle ∧ needle <:+: text) ↔ leastNeedle asset <:+: text := by
  constructor
  · rintro ⟨needle, hneedle, htext⟩
    exact hneedle.leastNeedle_isInfix.trans htext
  · exact fun h => ⟨leastNeedle asset, needle_leastNeedle asset, h⟩

/-- A text holds the least needle if it holds the file name or a long stem; the path is not asked for. -/
theorem leastNeedle_isInfix_iff {asset text : Text} :
    leastNeedle asset <:+: text ↔ Path.baseName asset <:+: text ∨
      4 ≤ (Path.stem asset).length ∧ Path.stem asset <:+: text := by
  constructor
  · unfold leastNeedle
    split
    · next hlong => exact fun h => .inr ⟨hlong, h⟩
    · exact .inl
  · rintro (hname | ⟨hlong, hstem⟩)
    · exact (leastNeedle_isInfix_baseName asset).trans hname
    · rwa [leastNeedle, if_pos hlong]

theorem leastNeedle_congr {asset other : Text}
    (h : Path.baseName other = Path.baseName asset ∨
      4 ≤ (Path.stem asset).length ∧ Path.stem other = Path.stem asset) :
    leastNeedle other = leastNeedle asset := by
  rcases h with hname | ⟨hlong, hstem⟩
  · unfold leastNeedle Path.stem
    rw [hname]
  · rw [leastNeedle, leastNeedle, hstem, if_pos hlong, if_pos hlong]

namespace Index

theorem mentions_iff_leastNeedle (index : Index) (asset : Text) :
    index.mentions asset ↔ ∃ literal ∈ index.literals, leastNeedle asset <:+: literal := by
  unfold mentions
  simp only [List.any_eq_true, mem_assetNeedles, Text.contains_iff_isInfix, exists_needle_iff]

/-- Whether an asset counts as used is decided by its stem or its file name alone. -/
theorem mentions_by_one_needle (index : Index) (asset : Text) :
    (Path.IsBaseName asset (Path.baseName asset) ∧
      Path.IsStem (Path.baseName asset) (Path.stem asset)) ∧
    (index.mentions asset ↔ ∃ literal ∈ index.literals,
      (if 4 ≤ (Path.stem asset).length then Path.stem asset else Path.baseName asset) <:+: literal) ∧
    (index.mentions asset ↔ ∃ literal ∈ index.literals, Path.baseName asset <:+: literal ∨
      4 ≤ (Path.stem asset).length ∧ Path.stem asset <:+: literal) ∧
    (∀ other, Path.baseName other = Path.baseName asset →
      index.mentions other = index.mentions asset) ∧
    (∀ other, 4 ≤ (Path.stem asset).length → Path.stem other = Path.stem asset →
      index.mentions other = index.mentions asset) ∧
    ∀ larger : Index, index.literals ⊆ larger.literals → index.mentions asset →
      larger.mentions asset := by
  have hsame : ∀ other, leastNeedle other = leastNeedle asset →
      index.mentions other = index.mentions asset := by
    intro other hother
    rw [Bool.eq_iff_iff, mentions_iff_leastNeedle, mentions_iff_leastNeedle, hother]
  have hmentions := mentions_iff_leastNeedle index asset
  refine ⟨⟨Path.isBaseName_baseName asset, Path.isStem_stem asset⟩, hmentions, ?_, ?_, ?_, ?_⟩
  · simpa only [leastNeedle_isInfix_iff] using hmentions
  · exact fun other hname => hsame other (leastNeedle_congr (.inl hname))
  · exact fun other hlong hstem => hsame other (leastNeedle_congr (.inr ⟨hlong, hstem⟩))
  · intro larger hsubset h
    obtain ⟨literal, hliteral, hneedle⟩ := hmentions.mp h
    exact (mentions_iff_leastNeedle larger asset).mpr ⟨literal, hsubset hliteral, hneedle⟩

def ofLiterals (literals : List Text) : Index where
  literals := literals

def pngLogo : Text := "img/logo.png"

def jpgLogo : Text := "old.d/logo.jpg"

theorem mentions_by_one_needle_stem :
    Path.stem pngLogo = Text.ofString "logo" ∧ Path.stem jpgLogo = Path.stem pngLogo ∧
      (ofLiterals ["the logo"]).mentions pngLogo ∧ (ofLiterals ["x", "the logo"]).mentions jpgLogo := by
  have hstem : Path.stem pngLogo = Text.ofString "logo" := by decide
  have hother : Path.stem jpgLogo = Path.stem pngLogo := by decide
  obtain ⟨_, hneedle, _, _, hshared, _⟩ := mentions_by_one_needle (ofLiterals ["the logo"]) pngLogo
  obtain ⟨_, _, _, _, _, hgrowth⟩ := mentions_by_one_needle (ofLiterals ["the logo"]) jpgLogo
  have hlong : 4 ≤ (Path.stem pngLogo).length := by
    rw [hstem]
    decide
  have hpng : (ofLiterals ["the logo"]).mentions pngLogo := by
    rw [hneedle, if_pos hlong, hstem]
    exact ⟨Text.ofString "the logo", List.mem_cons_self, Text.ofString "the ", [], by decide⟩
  refine ⟨hstem, hother, hpng, hgrowth _ (List.subset_cons_self _ _) ?_⟩
  rw [hshared jpgLogo hlong hother]
  exact hpng

end Index

end Deadwood
