import Deadwood.Manifest.Assets
import Deadwood.Proofs.FileTree.Contents
import Deadwood.Proofs.Literal.Scanning
import Deadwood.Proofs.Order
import Deadwood.Proofs.Path.Relative

/-!
Which asset files a manifest declares. An entry that ends in a separator stands for the files of a
directory, any other for itself, and both only for what is there; of all these paths the first
occurrences are kept, without fonts and without files of environment variables.
-/
namespace Deadwood.Manifest

open Deadwood.Path (slash backslash)

/-! ### Files of environment variables -/

abbrev newline : CodePoint := '\n'

/-- `.env` alone, with something after another dot, or with something before it. -/
def IsDotenv (name : Text) : Prop :=
  name = Text.ofString ".env" ∨
    (∃ rest, rest ≠ [] ∧ name = Text.ofString ".env." ++ rest) ∨
    ∃ front, front ≠ [] ∧ name = front ++ Text.ofString ".env"

theorem isEnvName_iff {name : Text} (h : newline ∉ name) : isEnvName name ↔ IsDotenv name := by
  have honeLine : ∀ {t : Text}, t ⊆ name →
      ((!t.isEmpty && t.all fun c : CodePoint => c != '\n') = true ↔ t ≠ []) := by
    intro t hsubset
    have hall : (t.all fun c : CodePoint => c != '\n') = true := by
      rw [List.all_eq_true]
      intro c hc
      rw [bne_iff_ne]
      rintro rfl
      exact h (hsubset hc)
    simp [hall]
  unfold isEnvName IsDotenv
  simp only [Bool.or_eq_true, beq_iff_eq, or_assoc]
  refine or_congr Iff.rfl (or_congr ?_ ?_)
  · rw [Option.any_eq_true]
    constructor
    · rintro ⟨rest, hrest, hline⟩
      have hname := List.append_eq_of_isPrefixOf?_eq_some hrest
      refine ⟨rest, (honeLine ?_).mp hline, hname.symm⟩
      rw [← hname]
      exact List.subset_append_right _ _
    · rintro ⟨rest, hne, rfl⟩
      exact ⟨rest, List.isPrefixOf?_eq_some_iff_append_eq.mpr rfl,
        (honeLine (List.subset_append_right _ _)).mpr hne⟩
  · rw [Bool.and_eq_true, honeLine (List.take_subset _ _), Text.endsWith, List.isSuffixOf_iff_suffix]
    have hlength : (Text.ofString ".env").length = 4 := rfl
    constructor
    · rintro ⟨⟨front, rfl⟩, hne⟩
      rw [List.length_append, hlength, Nat.add_sub_cancel, List.take_left] at hne
      exact ⟨front, hne, rfl⟩
    · rintro ⟨front, hne, rfl⟩
      rw [List.length_append, hlength, Nat.add_sub_cancel, List.take_left]
      exact ⟨List.suffix_append _ _, hne⟩

theorem isEnvFile_iff {p : Text} (h : newline ∉ Path.lastName (Path.forwardSlashes p)) :
    isEnvFile p ↔ IsDotenv (Path.lastName (Path.forwardSlashes p)) := by
  have hlast : ((Path.lastName (Path.forwardSlashes p)).getLast? == some newline) = false := by
    rw [beq_eq_false_iff_ne]
    exact fun hlast => h (List.mem_of_getLast? hlast)
  unfold isEnvFile
  rw [← isEnvName_iff h]
  simp [hlast]

/-! ### Entries -/

def EndsInSeparator (entry : Text) : Prop :=
  ∃ front, entry = front ++ [slash] ∨ entry = front ++ [backslash]

theorem isDirectoryEntry_iff {entry : Text} : isDirectoryEntry entry ↔ EndsInSeparator entry := by
  have hlast : isDirectoryEntry entry =
      (entry.getLast? == some slash || entry.getLast? == some backslash) := rfl
  rw [hlast, Bool.or_eq_true, beq_iff_eq, beq_iff_eq, List.getLast?_eq_some_iff,
    List.getLast?_eq_some_iff, ← exists_or]
  rfl

/-- The regular files directly in a directory, by ascending names. -/
def IsListing (entries : List (Text × FileTree)) (names : List Text) : Prop :=
  names.Pairwise Text.Before ∧
    ∀ name, name ∈ names ↔ ∃ content, (name, FileTree.file content) ∈ entries

/-- What an entry of the manifest stands for. -/
inductive Expands (t : FileTree) (cwd root entry : Text) : List Text → Prop
  | directory {entries : List (Text × FileTree)} {names paths : List Text} :
      EndsInSeparator entry →
      t.find? (Path.join cwd (Path.join root entry)) = some (.dir entries) →
      IsListing entries names →
      List.Forall₂ (fun name path =>
        Path.reported cwd root (Path.join (Path.join root entry) name) = .ok path) names paths →
      Expands t cwd root entry paths
  | noDirectory : EndsInSeparator entry →
      ¬ t.hasDir (Path.join cwd (Path.join root entry)) → Expands t cwd root entry []
  | file : ¬ EndsInSeparator entry → t.hasFile (Path.join cwd (Path.join root entry)) →
      Expands t cwd root entry [Path.forwardSlashes entry]
  | noFile : ¬ EndsInSeparator entry → ¬ t.hasFile (Path.join cwd (Path.join root entry)) →
      Expands t cwd root entry []

def listing (entries : List (Text × FileTree)) : List Text :=
  Text.sort ((entries.filter fun (_, e) => e.isRegular).map (·.1))

theorem isListing_listing {entries : List (Text × FileTree)}
    (h : (FileTree.dir entries).WellFormed) : IsListing entries (listing entries) := by
  cases h with
  | dir hnodup _ _ =>
    constructor
    · exact Text.pairwise_before_sort (hnodup.sublist (List.filter_sublist.map _))
    · intro name
      rw [listing, Text.mem_sort, List.mem_map]
      constructor
      · rintro ⟨⟨_, entry⟩, hentry, rfl⟩
        obtain ⟨hentry, hregular⟩ := List.mem_filter.mp hentry
        cases entry with
        | file content => exact ⟨content, hentry⟩
        | link _ => cases hregular
        | dir _ => cases hregular
      · rintro ⟨content, hfile⟩
        exact ⟨(name, .file content), List.mem_filter.mpr ⟨hfile, rfl⟩, rfl⟩

theorem IsListing.unique {entries entries' : List (Text × FileTree)} {names names' : List Text}
    (h : IsListing entries names) (h' : IsListing entries' names')
    (hfiles : ∀ name content, (name, FileTree.file content) ∈ entries ↔
      (name, FileTree.file content) ∈ entries') : names = names' := by
  apply Text.eq_of_pairwise_before h.1 h'.1
  intro name
  rw [h.2, h'.2]
  exact exists_congr fun content => hfiles name content

/-! ### Expansions -/

section Expand

variable {t t' : FileTree} {cwd root entry : Text} {entries : List (Text × FileTree)}

theorem find?_entryPath (t : FileTree) (cwd root entry : Text) :
    t.find? (Path.join cwd (Path.clean (Path.join root entry))) =
      t.find? (Path.join cwd (Path.join root entry)) :=
  FileTree.find?_congr (Path.components_join_clean _ _)

theorem hasFile_entryPath (t : FileTree) (cwd root entry : Text) :
    t.hasFile (Path.join cwd (Path.clean (Path.join root entry))) =
      t.hasFile (Path.join cwd (Path.join root entry)) := by
  rw [FileTree.hasFile, find?_entryPath, ← FileTree.hasFile]

theorem reported_clean_join (hcwd : Path.isAbsolute cwd) {name : Text} (hname : Path.IsName name)
    (p root : Text) :
    Path.reported cwd root (Path.join (Path.clean p) name) =
      Path.reported cwd root (Path.join p name) := by
  have hrelative := Path.isAbsolute_of_isComponent hname.1
  have hne := Path.join_ne_nil_right hname.1.1
  have hjoin := Path.isAbsolute_join_left hcwd
  unfold Path.reported
  rw [Path.relative_congr (hne _) (hjoin _) (hne _) (hjoin _)]
  rw [Path.place_eq (hjoin _), Path.place_eq (hjoin _), Path.components_join_join hrelative,
    Path.components_join_join hrelative, Path.components_join_clean]

theorem exists_reported_join (hcwd : Path.isAbsolute cwd) {name : Text} (hname : Path.IsName name)
    (p root : Text) : ∃ path, Path.reported cwd root (Path.join p name) = .ok path := by
  rw [Path.reported, Path.relative_eq (Path.join_ne_nil_right hname.1.1 p)
    (Path.isAbsolute_join_left hcwd _)]
  exact ⟨_, rfl⟩

theorem isName_of_mem_listing (hwf : (FileTree.dir entries).WellFormed) {name : Text}
    (h : name ∈ listing entries) : Path.IsName name := by
  obtain ⟨content, hfile⟩ := ((isListing_listing hwf).2 name).mp h
  cases hwf with
  | dir _ hnames _ => exact hnames _ hfile

theorem expand_of_dir (hcwd : Path.isAbsolute cwd) (hentry : isDirectoryEntry entry)
    (hwf : (FileTree.dir entries).WellFormed)
    (hfound : t.find? (Path.join cwd (Path.join root entry)) = some (.dir entries)) :
    expand t cwd root entry = (listing entries).filterMap fun name =>
      (Path.reported cwd root (Path.join (Path.join root entry) name)).toOption := by
  rw [← find?_entryPath] at hfound
  simp only [expand, hentry, if_true, hfound]
  apply List.filterMap_congr
  intro name hname
  rw [← reported_clean_join hcwd (isName_of_mem_listing hwf hname), Path.reported]
  cases Path.relative cwd (Path.join (Path.clean (Path.join root entry)) name) root <;> rfl

theorem expand_of_not_hasDir (hentry : isDirectoryEntry entry)
    (hfound : ¬ t.hasDir (Path.join cwd (Path.join root entry))) : expand t cwd root entry = [] := by
  simp only [expand, hentry, if_true]
  rw [FileTree.hasDir, ← find?_entryPath] at hfound
  split
  · next entries hdir =>
    rw [hdir] at hfound
    exact absurd rfl hfound
  · rfl

theorem expand_of_not_isDirectoryEntry (hentry : isDirectoryEntry entry = false) :
    expand t cwd root entry =
      if t.hasFile (Path.join cwd (Path.join root entry)) then [Path.forwardSlashes entry] else [] := by
  simp only [expand, hentry, Bool.false_eq_true, if_false, hasFile_entryPath]

private theorem toOption_eq_some_iff {ε α : Type} {x : Except ε α} {a : α} :
    x.toOption = some a ↔ x = .ok a := by
  cases x <;> simp [Except.toOption]

private theorem forall₂_filterMap {α β : Type} {f : α → Option β} {l : List α}
    (h : ∀ a ∈ l, ∃ b, f a = some b) : List.Forall₂ (fun a b => f a = some b) l (l.filterMap f) := by
  induction l with
  | nil => exact .nil
  | cons a l ih =>
    rw [List.forall_mem_cons] at h
    obtain ⟨b, hb⟩ := h.1
    rw [List.filterMap_cons_some hb]
    exact .cons hb (ih h.2)

theorem expands_expand (ht : t.WellFormed) (hcwd : Path.isAbsolute cwd) (root entry : Text) :
    Expands t cwd root entry (expand t cwd root entry) := by
  by_cases hentry : isDirectoryEntry entry
  · have hends := isDirectoryEntry_iff.mp hentry
    by_cases hdir : t.hasDir (Path.join cwd (Path.join root entry))
    · obtain ⟨entries, hfound⟩ := FileTree.hasDir_iff.mp hdir
      have hwf := ht.find? hfound
      rw [expand_of_dir hcwd hentry hwf hfound]
      refine .directory hends hfound (isListing_listing hwf) ?_
      refine (forall₂_filterMap fun name hname => ?_).imp fun name path hpath => ?_
      · obtain ⟨path, hpath⟩ :=
          exists_reported_join hcwd (isName_of_mem_listing hwf hname) (Path.join root entry) root
        exact ⟨path, congrArg Except.toOption hpath⟩
      · exact toOption_eq_some_iff.mp hpath
    · rw [expand_of_not_hasDir hentry hdir]
      exact .noDirectory hends hdir
  · have hends := mt isDirectoryEntry_iff.mpr hentry
    rw [expand_of_not_isDirectoryEntry (Bool.eq_false_iff.mpr hentry)]
    split
    · next hfile => exact .file hends hfile
    · next hfile => exact .noFile hends hfile

theorem listing_of_sameContents {entries' : List (Text × FileTree)}
    (hwf : (FileTree.dir entries).WellFormed) (hwf' : (FileTree.dir entries').WellFormed)
    (hsame : FileTree.SameContents (.dir entries) (.dir entries')) :
    listing entries = listing entries' := by
  apply (isListing_listing hwf).unique (isListing_listing hwf')
  intro name content
  rw [FileTree.mem_entries_iff hwf, FileTree.mem_entries_iff hwf']
  have hsymm : FileTree.SameContents (.dir entries') (.dir entries) := fun names => (hsame names).symm
  exact ⟨hsame.at?_file, hsymm.at?_file⟩

theorem expand_of_sameContents (ht : t.WellFormed) (ht' : t'.WellFormed)
    (hcwd : Path.isAbsolute cwd) (hsame : FileTree.SameContents t t') (root entry : Text) :
    expand t cwd root entry = expand t' cwd root entry := by
  have hsymm : FileTree.SameContents t' t := fun names => (hsame names).symm
  by_cases hentry : isDirectoryEntry entry
  · by_cases hdir : t.hasDir (Path.join cwd (Path.join root entry))
    · obtain ⟨entries, hfound⟩ := FileTree.hasDir_iff.mp hdir
      obtain ⟨entries', hfound', hsame'⟩ := hsame.find?_dir hfound
      have hwf := ht.find? hfound
      have hwf' := ht'.find? hfound'
      rw [expand_of_dir hcwd hentry hwf hfound, expand_of_dir hcwd hentry hwf' hfound',
        listing_of_sameContents hwf hwf' hsame']
    · have hdir' : ¬ t'.hasDir (Path.join cwd (Path.join root entry)) := by
        intro hdir'
        obtain ⟨entries', hfound'⟩ := FileTree.hasDir_iff.mp hdir'
        obtain ⟨entries, hfound, _⟩ := hsymm.find?_dir hfound'
        exact hdir (FileTree.hasDir_iff.mpr ⟨entries, hfound⟩)
      rw [expand_of_not_hasDir hentry hdir, expand_of_not_hasDir hentry hdir']
  · rw [expand_of_not_isDirectoryEntry (Bool.eq_false_iff.mpr hentry),
      expand_of_not_isDirectoryEntry (Bool.eq_false_iff.mpr hentry), hsame.hasFile_eq]

end Expand

/-! ### Declared assets -/

section DeclaredAssets

variable {t : FileTree} {cwd : Text}

theorem mem_declaredAssets {root p : Text} {m : Manifest} :
    p ∈ m.declaredAssets t cwd root ↔
      (∃ entry ∈ m.assets, p ∈ expand t cwd root entry) ∧ p ∉ m.fontAssets ∧ ¬ isEnvFile p := by
  unfold declaredAssets
  simp

/-- The declared assets are the first occurrences among the files that the entries stand for, less
fonts and files of environment variables, in whatever order directories list their entries. -/
theorem declaredAssets_exact (v : Volume) (hcwd : Path.isAbsolute cwd) (root : Text)
    (m : Manifest) :
    (∀ entry, Expands v.tree cwd root entry (expand v.tree cwd root entry)) ∧
    (m.declaredAssets v.tree cwd root).Nodup ∧
    (∀ p, p ∈ m.declaredAssets v.tree cwd root ↔
      (∃ entry ∈ m.assets, p ∈ expand v.tree cwd root entry) ∧ p ∉ m.fontAssets ∧ ¬ isEnvFile p) ∧
    (m.declaredAssets v.tree cwd root).Pairwise (fun a b =>
      (m.assets.flatMap (expand v.tree cwd root)).idxOf a <
        (m.assets.flatMap (expand v.tree cwd root)).idxOf b) ∧
    (∀ p, newline ∉ Path.lastName (Path.forwardSlashes p) →
      (isEnvFile p ↔ IsDotenv (Path.lastName (Path.forwardSlashes p)))) ∧
    ∀ t', FileTree.Reordered v.tree t' →
      m.declaredAssets t' cwd root = m.declaredAssets v.tree cwd root := by
  refine ⟨expands_expand v.wellFormed hcwd root, nodup_eraseDups _, fun p => mem_declaredAssets,
    pairwise_idxOf_eraseDups_filter _ _, fun p => isEnvFile_iff, ?_⟩
  intro t' hreordered
  obtain ⟨ht', hsame⟩ := hreordered.sameContents v.wellFormed
  have hexpand : expand t' cwd root = expand v.tree cwd root := by
    funext entry
    exact (expand_of_sameContents v.wellFormed ht' hcwd hsame root entry).symm
  unfold declaredAssets
  rw [hexpand]

end DeclaredAssets

def overlappingFiles : List (Text × FileTree) :=
  [("b.png", .file []), ("a.png", .file []), ("f.ttf", .file []), (".env", .file []),
    ("l.png", .link "a.png"), ("sub", .dir [("c.png", .file [])])]

def overlappingVolume : Volume :=
  ⟨.dir [("assets", .dir overlappingFiles), ("alias.png", .link "assets/a.png")], by decide⟩

/-- A file before and after the directory that has it, a link, and a directory that is not there. -/
def overlappingManifest : Manifest :=
  { assets := ["assets/b.png", "assets/", "alias.png", "./assets/", "gone/"],
    fontAssets := ["assets/f.ttf"] }

theorem declaredAssets_exact_overlapping :
    Path.isAbsolute (Text.ofString "/") ∧
      overlappingManifest.declaredAssets overlappingVolume.tree "/" "." =
        [Text.ofString "assets/b.png", Text.ofString "assets/a.png", Text.ofString "alias.png"] ∧
      Expands overlappingVolume.tree "/" "." "./assets/"
        [Text.ofString "assets/.env", Text.ofString "assets/a.png", Text.ofString "assets/b.png",
          Text.ofString "assets/f.ttf"] ∧
      ∀ t', FileTree.Reordered overlappingVolume.tree t' →
        overlappingManifest.declaredAssets t' "/" "." =
          [Text.ofString "assets/b.png", Text.ofString "assets/a.png", Text.ofString "alias.png"] := by
  have hcwd : Path.isAbsolute (Text.ofString "/") := by decide
  have hassets : overlappingManifest.declaredAssets overlappingVolume.tree "/" "." =
      [Text.ofString "assets/b.png", Text.ofString "assets/a.png", Text.ofString "alias.png"] := by
    simp only [declaredAssets, overlappingManifest, List.flatMap_cons, List.flatMap_nil, expand,
      Text.sort_eq_insertionSort]
    rfl
  have hexpand : expand overlappingVolume.tree "/" "." "./assets/" =
      [Text.ofString "assets/.env", Text.ofString "assets/a.png", Text.ofString "assets/b.png",
        Text.ofString "assets/f.ttf"] := by
    simp only [expand, Text.sort_eq_insertionSort]
    rfl
  obtain ⟨hexpands, _, _, _, _, horder⟩ :=
    declaredAssets_exact overlappingVolume hcwd "." overlappingManifest
  refine ⟨hcwd, hassets, ?_, ?_⟩
  · rw [← hexpand]
    exact hexpands _
  · intro t' hreordered
    rw [horder t' hreordered, hassets]

/-- A file whose own name ends in a backslash is taken for a directory, and left out. -/
theorem exists_file_expanding_to_nothing :
    ∃ (v : Volume) (cwd root entry : Text), Path.isAbsolute cwd ∧
      ¬ v.tree.hasDir (Path.join cwd (Path.join root entry)) ∧
      v.tree.hasFile (Path.join cwd (Path.join root entry)) ∧
      expand v.tree cwd root entry ≠ [Path.forwardSlashes entry] := by
  refine ⟨⟨.dir [("a\\", .file [])], by decide⟩, "/", ".", "a\\", by decide, ?_, ?_, ?_⟩
  · have hdir : FileTree.hasDir (.dir [("a\\", .file [])])
        (Path.join "/" (Path.join "." "a\\")) = false := rfl
    rw [hdir]
    decide
  · rfl
  · have hexpand : expand (.dir [("a\\", .file [])]) "/" "." "a\\" = [] := rfl
    rw [hexpand]
    exact (List.cons_ne_nil _ _).symm

end Deadwood.Manifest
