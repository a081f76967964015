import Deadwood.Proofs.Index
import Deadwood.Proofs.Literal.Fragments
import Deadwood.Proofs.Path
import Deadwood.Proofs.Reduction

/-!
When an asset counts as used: a string literal of the project, decoded from the bytes that its node
covers, offers a text in which the asset's path, its file name or a long enough stem occurs.
-/
namespace Deadwood

theorem Text.contains_iff_isInfix {needle t : Text} : Text.contains needle t ↔ needle <:+: t := by
  induction t with
  | nil => simp [Text.contains]
  | cons c t ih =>
    unfold Text.contains
    rw [Bool.or_eq_true, ih, List.isPrefixOf_iff_prefix, List.infix_cons_iff]

/-- A text that counts as a mention of the asset wherever it occurs. -/
inductive Needle (asset : Text) : Text → Prop
  | path : Needle asset asset
  | name {base : Text} : Path.IsBaseName asset base → Needle asset base
  | stem {base stem : Text} : Path.IsBaseName asset base → Path.IsStem base stem →
      3 < stem.length → Needle asset stem

theorem mem_assetNeedles {asset needle : Text} :
    needle ∈ assetNeedles asset ↔ Needle asset needle := by
  unfold assetNeedles minStemLength
  constructor
  · intro h
    rcases List.mem_append.mp h with h | h
    · simp only [List.mem_cons, List.not_mem_nil, or_false] at h
      rcases h with rfl | rfl
      · exact .path
      · exact .name (Path.isBaseName_baseName asset)
    · split at h
      · next hlength =>
        rw [List.mem_singleton.mp h]
        exact .stem (Path.isBaseName_baseName asset) (Path.isStem_splitExtension _) hlength
      · cases h
  · intro h
    cases h with
    | path => simp
    | name hbase =>
      rw [Path.isBaseName_iff.mp hbase]
      simp
    | stem hbase hstem hlength =>
      rw [Path.isBaseName_iff] at hbase
      subst hbase
      rw [Path.isStem_iff] at hstem
      subst hstem
      exact List.mem_append_right _ (by simp [Nat.succ_le_iff.mpr hlength])

namespace Node

/-- The parts of the literal that a node covers; bytes that write no text are replaced. -/
def literalParts (source : Bytes) (n : Node) : List StringPart :=
  Literal.decode (Utf8.decodeReplacing (n.bytes source))

theorem role?_eq_string {n : Node} : n.role? = some .string ↔ n.label = "string_literal" := by
  rw [role?_eq_some_iff (by decide)]
  unfold labelRole?
  split <;> simp_all

theorem mem_literalFragments {source : Bytes} {root : Node} {text : Text} :
    text ∈ root.literalFragments source ↔
      ∃ n ∈ root.preorder, n.label = "string_literal" ∧
        Literal.Offers (n.literalParts source) text := by
  have hnodes : root.walk.map Visit.node = root.preorder := root.traverse_eq_preorder
  unfold literalFragments
  rw [Text.mem_foldl_addAll, withRole_eq_filter, ← hnodes]
  simp only [List.not_mem_nil, false_or, List.mem_filter, beq_iff_eq, role?_eq_string,
    Literal.mem_fragments, List.mem_map, exists_exists_and_eq_and, and_assoc]
  rfl

end Node

namespace Index

theorem ofTrees_eq_mergeAll (trees : List SourceTree) :
    ofTrees trees = mergeAll (trees.map SourceTree.analysis) := by
  unfold ofTrees ofResults mergeAll
  rw [List.foldl_map, List.foldl_map]
  rfl

theorem mem_literals_ofTrees {trees : List SourceTree} {text : Text} :
    text ∈ (ofTrees trees).literals ↔
      ∃ t ∈ trees, ∃ n ∈ t.root.preorder, n.label = "string_literal" ∧
        Literal.Offers (n.literalParts t.source) text := by
  rw [ofTrees_eq_mergeAll, literals_mergeAll, Text.mem_foldl_addAll]
  simp only [List.not_mem_nil, false_or, List.mem_map, exists_exists_and_eq_and]
  refine exists_congr fun t => and_congr_right fun _ => ?_
  rw [SourceTree.analysis_eq]
  exact Node.mem_literalFragments

/-- A string literal of the project offers a text that holds a mention of the asset. -/
def Mentioned (trees : List SourceTree) (asset : Text) : Prop :=
  ∃ t ∈ trees, ∃ n ∈ t.root.preorder, n.label = "string_literal" ∧
    ∃ text, Literal.Offers (n.literalParts t.source) text ∧
      ∃ needle, Needle asset needle ∧ needle <:+: text

theorem mentions_ofTrees_iff {trees : List SourceTree} {asset : Text} :
    (ofTrees trees).mentions asset ↔ Mentioned trees asset := by
  unfold mentions Mentioned
  simp only [List.any_eq_true, mem_assetNeedles, Text.contains_iff_isInfix]
  constructor
  · rintro ⟨text, htext, hneedle⟩
    obtain ⟨t, ht, n, hn, hlabel, hoffers⟩ := mem_literals_ofTrees.mp htext
    exact ⟨t, ht, n, hn, hlabel, text, hoffers, hneedle⟩
  · rintro ⟨t, ht, n, hn, hlabel, text, hoffers, hneedle⟩
    exact ⟨text, mem_literals_ofTrees.mpr ⟨t, ht, n, hn, hlabel, hoffers⟩, hneedle⟩

instance decidableMentioned (trees : List SourceTree) (asset : Text) :
    Decidable (Mentioned trees asset) :=
  decidable_of_iff _ mentions_ofTrees_iff

theorem mem_unusedAssets {index : Index} {declared : List Text} {asset : Text} :
    ⟨asset⟩ ∈ index.unusedAssets declared ↔ asset ∈ declared ∧ ¬ index.mentions asset := by
  simp [unusedAssets]

/-- The unused assets are the declared ones that no string literal of the project mentions. -/
theorem unusedAssets_exact (trees : List SourceTree) (declared : List Text) :
    (ofTrees trees).unusedAssets declared =
      (declared.filter fun asset => ¬ Mentioned trees asset).map AssetFinding.mk := by
  unfold unusedAssets
  congr 1
  apply List.filter_congr
  intro asset _
  simp [← mentions_ofTrees_iff]

end Index

end Deadwood
