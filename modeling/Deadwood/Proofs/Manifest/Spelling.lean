import Deadwood.Proofs.Manifest.Assets
import Deadwood.Proofs.SourceFiles

/-!
How declared assets are spelled. Files that an entry finds in a directory are listed under their
normal paths from the root, while the path of a single file, like that of a font, is taken as the
manifest writes it; so one file may be listed under several spellings.
-/
namespace Deadwood

open Deadwood.Path (backslash)

namespace FileTree

/-- No links, and no backslashes in names. -/
inductive Plain : FileTree → Prop
  | file (content : Bytes) : Plain (file content)
  | dir {entries : List (Text × FileTree)} : (∀ entry ∈ entries, backslash ∉ entry.1) →
      (∀ entry ∈ entries, Plain entry.2) → Plain (dir entries)

section Plain

variable {t found : FileTree} {names : List Text}

theorem Plain.of_holds (hplain : t.Plain) (h : Holds t names found) :
    found.Plain ∧ ∀ name ∈ names, backslash ∉ name := by
  induction h with
  | self => exact ⟨hplain, fun _ hname => absurd hname List.not_mem_nil⟩
  | entry hmem _ ih =>
    cases hplain with
    | dir hnames hentries =>
      obtain ⟨hfound, hrest⟩ := ih (hentries _ hmem)
      exact ⟨hfound, List.forall_mem_cons.mpr ⟨hnames _ hmem, hrest⟩⟩

theorem Plain.of_at? (hplain : t.Plain) (ht : t.WellFormed) (h : t.at? names = some found) :
    found.Plain ∧ ∀ name ∈ names, backslash ∉ name :=
  hplain.of_holds ((holds_iff_at? ht).mpr h)

theorem Plain.eq_of_locate? (hplain : t.Plain) (ht : t.WellFormed) {links : Nat}
    {place path result : List Text} (hplace : Path.above ∉ place)
    (h : t.locate? .follow links place path = some result) :
    result = path.foldl (Path.enter true) place ∧ ∀ name ∈ path, backslash ∉ name := by
  induction path generalizing place with
  | nil =>
    rw [locate?_nil] at h
    cases h
    exact ⟨rfl, fun _ hname => absurd hname List.not_mem_nil⟩
  | cons name rest ih =>
    rw [locate?_cons_shell] at h
    rw [List.foldl_cons, List.forall_mem_cons]
    have hplace' := Path.above_notMem_enter hplace name
    by_cases hname : name = Path.above
    · subst hname
      rw [Path.enter_above hplace] at hplace' ⊢
      rw [beq_self_eq_true, if_pos rfl, List.drop_one] at h
      split at h
      · obtain ⟨hresult, hrest⟩ := ih hplace' h
        exact ⟨hresult, by decide, hrest⟩
      · cases h
    · rw [Path.enter_of_ne hname] at hplace' ⊢
      rw [beq_false_of_ne hname, if_neg Bool.false_ne_true] at h
      cases hfound : t.at? (name :: place).reverse with
      | none =>
        rw [hfound] at h
        cases h
      | some found =>
        obtain ⟨hfoundPlain, hnames⟩ := hplain.of_at? ht hfound
        rw [hfound] at h
        have hbelow : t.locate? .follow links (name :: place) rest = some result := by
          cases hfoundPlain with
          | file => exact h
          | dir => exact h
        obtain ⟨hresult, hrest⟩ := ih hplace' hbelow
        exact ⟨hresult, hnames name (by simp), hrest⟩

theorem Plain.at?_of_find? (hplain : t.Plain) (ht : t.WellFormed) {path : Text}
    (h : t.find? path = some found) :
    t.at? (Path.collapse true (Path.components path)) = some found ∧
      ∀ name ∈ Path.components path, backslash ∉ name := by
  obtain ⟨names, hnames, hat⟩ := Option.bind_eq_some_iff.mp h
  unfold place? at hnames
  split at hnames
  · obtain ⟨result, hresult, rfl⟩ := Option.map_eq_some_iff.mp hnames
    obtain ⟨rfl, hback⟩ := hplain.eq_of_locate? ht List.not_mem_nil hresult
    exact ⟨hat, hback⟩
  · cases hnames

end Plain

end FileTree

namespace Manifest

private theorem exists_of_mem_forall₂ {α β : Type} {r : α → β → Prop} {l : List α} {l' : List β}
    (h : List.Forall₂ r l l') {b : β} (hb : b ∈ l') : ∃ a ∈ l, r a b := by
  induction h with
  | nil => cases hb
  | cons hab _ ih =>
    rcases List.mem_cons.mp hb with rfl | hb
    · exact ⟨_, List.mem_cons_self, hab⟩
    · obtain ⟨a, ha, hr⟩ := ih hb
      exact ⟨a, List.mem_cons_of_mem _ ha, hr⟩

/-- A path is spelled as the file that it names is seen from the root. -/
def Canonical (cwd root p : Text) : Prop :=
  Path.relative cwd (Path.join root p) root = .ok p

section Spelling

variable {t : FileTree} {cwd root entry p q : Text}

theorem join_ne_nil_of_canonical (h : Canonical cwd root p) : Path.join root p ≠ [] := by
  intro hnil
  rw [Canonical, hnil] at h
  cases h

theorem Canonical.unique (hcwd : Path.isAbsolute cwd) (hp : Canonical cwd root p)
    (hq : Canonical cwd root q)
    (hplace : Path.place cwd (Path.join root p) = Path.place cwd (Path.join root q)) : p = q := by
  have hjoin := Path.isAbsolute_join_left hcwd
  have hsame := Path.relative_congr (join_ne_nil_of_canonical hp) (hjoin _)
    (join_ne_nil_of_canonical hq) (hjoin _) hplace root
  rw [hp, hq] at hsame
  exact Except.ok.inj hsame

theorem canonical_of_relative (hcwd : Path.isAbsolute cwd) {file : Text} (hfile : file ≠ [])
    (h : Path.relative cwd file root = .ok p) :
    Canonical cwd root p ∧ Path.place cwd (Path.join root p) = Path.place cwd file := by
  have hjoin := Path.isAbsolute_join_left hcwd
  have hplace := (Path.place_join_relative (hjoin root) hfile (hjoin file) h).2
  have hne : p ≠ [] := by
    rw [Path.relative_eq hfile (hjoin file)] at h
    cases h
    exact Path.ofComponents_ne_nil _ _
  refine ⟨?_, hplace⟩
  rw [Canonical, Path.relative_congr (Path.join_ne_nil_right hne root) (hjoin _) hfile (hjoin _) hplace]
  exact h

def NamesFile (t : FileTree) (cwd root p : Text) : Prop :=
  ∃ content, t.at? (Path.place cwd (Path.join root p)) = some (.file content)

section Plain

variable (ht : t.WellFormed) (hplain : t.Plain) (hcwd : Path.isAbsolute cwd)

include ht hplain hcwd

theorem canonical_of_reported {directory name : Text} {entries : List (Text × FileTree)}
    {content : Bytes} (hfound : t.find? (Path.join cwd directory) = some (.dir entries))
    (hmem : (name, .file content) ∈ entries)
    (h : Path.reported cwd root (Path.join directory name) = .ok p) :
    Canonical cwd root p ∧ NamesFile t cwd root p := by
  have hjoin := Path.isAbsolute_join_left hcwd
  have hwf := ht.find? hfound
  have hname : Path.IsName name := by
    cases hwf with
    | dir _ hnames _ => exact hnames _ hmem
  have hne := Path.join_ne_nil_right hname.1.1 directory
  have hplace : Path.place cwd (Path.join directory name) = Path.place cwd directory ++ [name] := by
    rw [Path.place_eq (hjoin _), Path.place_eq (hjoin _),
      Path.components_join_join (Path.isAbsolute_of_isComponent hname.1),
      Path.components_of_isComponent hname.1, Path.collapse_append, List.foldl_cons, List.foldl_nil,
      Path.enter_of_ne hname.2, List.reverse_cons, List.reverse_reverse]
  have hfile : t.at? (Path.place cwd (Path.join directory name)) = some (.file content) := by
    have hdir := (hplain.at?_of_find? ht hfound).1
    rw [← Path.place_eq (hjoin _)] at hdir
    rw [hplace, FileTree.at?_append, hdir, Option.bind_some]
    exact (FileTree.mem_entries_iff hwf).mp hmem
  rw [Path.reported_eq hne (hjoin _) (hplain.of_at? ht hfile).2] at h
  obtain ⟨hcanonical, hsame⟩ := canonical_of_relative hcwd hne h
  rw [← hsame] at hfile
  exact ⟨hcanonical, content, hfile⟩

/-- The entry of a file that is there has no backslash to replace. -/
theorem namesFile_of_hasFile (h : t.hasFile (Path.join cwd (Path.join root entry))) :
    Path.forwardSlashes entry = entry ∧ NamesFile t cwd root entry := by
  obtain ⟨content, hfound⟩ := FileTree.hasFile_iff.mp h
  obtain ⟨hat, hback⟩ := hplain.at?_of_find? ht hfound
  rw [← Path.place_eq (Path.isAbsolute_join_left hcwd _)] at hat
  refine ⟨Path.forwardSlashes_of_notMem fun hmem => ?_, content, hat⟩
  rcases Path.mem_components_of_mem hmem with hdot | hslash | ⟨name, hname, hc⟩
  · exact absurd hdot (by decide)
  · exact absurd hslash (by decide)
  · exact hback name (Path.mem_components_join (Path.mem_components_join hname root) cwd) hc

theorem spelled_of_mem_expand (h : p ∈ expand t cwd root entry) :
    NamesFile t cwd root p ∧ (Canonical cwd root p ∨ p = entry ∧ ¬ EndsInSeparator entry) := by
  have hexpands := expands_expand ht hcwd root entry
  generalize expand t cwd root entry = paths at h hexpands
  cases hexpands with
  | directory _ hfound hlisting hpaths =>
    obtain ⟨name, hname, hreported⟩ := exists_of_mem_forall₂ hpaths h
    obtain ⟨content, hmem⟩ := (hlisting.2 name).mp hname
    obtain ⟨hcanonical, hfile⟩ := canonical_of_reported ht hplain hcwd hfound hmem hreported
    exact ⟨hfile, .inl hcanonical⟩
  | file hends hfile =>
    obtain ⟨hspelled, hfile⟩ := namesFile_of_hasFile ht hplain hcwd hfile
    rw [hspelled, List.mem_singleton] at h
    subst h
    exact ⟨hfile, .inr ⟨rfl, hends⟩⟩
  | noDirectory => cases h
  | noFile => cases h

end Plain

/-- Each declared asset names a file, under the path by which the root sees it unless the manifest
writes that file's path otherwise. Among paths of that form no file is listed twice, and no font. -/
theorem declaredAssets_spelling (v : Volume) (hplain : v.tree.Plain)
    (hcwd : Path.isAbsolute cwd) (root : Text) (m : Manifest) :
    (∀ p ∈ m.declaredAssets v.tree cwd root, NamesFile v.tree cwd root p) ∧
    ((∀ p ∈ m.declaredAssets v.tree cwd root, Canonical cwd root p) ↔
      ∀ p ∈ m.declaredAssets v.tree cwd root, p ∈ m.assets → ¬ EndsInSeparator p →
        Canonical cwd root p) ∧
    (∀ p ∈ m.declaredAssets v.tree cwd root, ∀ q ∈ m.declaredAssets v.tree cwd root,
      Canonical cwd root p → Canonical cwd root q →
        Path.place cwd (Path.join root p) = Path.place cwd (Path.join root q) → p = q) ∧
    ∀ p ∈ m.declaredAssets v.tree cwd root, ∀ font ∈ m.fontAssets,
      Canonical cwd root p → Canonical cwd root font →
        Path.place cwd (Path.join root p) ≠ Path.place cwd (Path.join root font) := by
  refine ⟨?_, ⟨fun h p hp _ _ => h p hp, ?_⟩, fun p _ q _ hp hq => hp.unique hcwd hq, ?_⟩
  · intro p hp
    obtain ⟨entry, _, hp⟩ := (mem_declaredAssets.mp hp).1
    exact (spelled_of_mem_expand v.wellFormed hplain hcwd hp).1
  · intro h p hp
    obtain ⟨entry, hentry, hmem⟩ := (mem_declaredAssets.mp hp).1
    rcases (spelled_of_mem_expand v.wellFormed hplain hcwd hmem).2 with hcanonical | ⟨rfl, hends⟩
    · exact hcanonical
    · exact h p hp hentry hends
  · intro p hp font hfont hcanonical hcanonical' hplace
    have hsame := hcanonical.unique hcwd hcanonical' hplace
    exact (mem_declaredAssets.mp hp).2.1 (hsame ▸ hfont)

end Spelling

def respelledFiles : List (Text × FileTree) :=
  [("a.png", .file []), ("f.ttf", .file [])]

def respelledVolume : Volume :=
  ⟨.dir [("assets", .dir respelledFiles)], by decide⟩

theorem plain_respelledVolume : respelledVolume.tree.Plain := by
  refine .dir (by decide) ?_
  simp only [List.forall_mem_cons]
  refine ⟨.dir (by decide) ?_, fun _ h => absurd h List.not_mem_nil⟩
  simp only [respelledFiles, List.forall_mem_cons]
  exact ⟨.file _, .file _, fun _ h => absurd h List.not_mem_nil⟩

def plainManifest : Manifest :=
  { assets := ["./assets/", "assets/a.png"], fontAssets := ["assets/f.ttf"] }

theorem declaredAssets_spelling_plain :
    (respelledVolume.tree.Plain ∧ Path.isAbsolute (Text.ofString "/")) ∧
      plainManifest.declaredAssets respelledVolume.tree "/" "." = [Text.ofString "assets/a.png"] ∧
      Canonical "/" "." (Text.ofString "assets/a.png") ∧
      NamesFile respelledVolume.tree "/" "." (Text.ofString "assets/a.png") ∧
      Path.place "/" (Path.join "." (Text.ofString "assets/a.png")) ≠
        Path.place "/" (Path.join "." (Text.ofString "assets/f.ttf")) := by
  have hcwd : Path.isAbsolute (Text.ofString "/") := by decide
  have hassets : plainManifest.declaredAssets respelledVolume.tree "/" "." =
      [Text.ofString "assets/a.png"] := by
    simp only [declaredAssets, plainManifest, List.flatMap_cons, List.flatMap_nil, expand,
      Text.sort_eq_insertionSort]
    rfl
  have hcanonical : Canonical "/" "." (Text.ofString "assets/a.png") := by rfl
  have hfont : Canonical "/" "." (Text.ofString "assets/f.ttf") := by rfl
  obtain ⟨hnames, hall, _, hfonts⟩ :=
    declaredAssets_spelling respelledVolume plain_respelledVolume hcwd "." plainManifest
  rw [hassets] at hnames hall hfonts
  have hlisted := List.mem_singleton_self (Text.ofString "assets/a.png")
  refine ⟨⟨plain_respelledVolume, hcwd⟩, hassets, ?_, hnames _ hlisted,
    hfonts _ hlisted _ (List.mem_singleton_self _) hcanonical hfont⟩
  apply hall.mpr _ _ hlisted
  intro p hp _ _
  rw [List.mem_singleton.mp hp]
  exact hcanonical

def respelledManifest : Manifest :=
  { assets := ["assets/", "./assets/a.png"], fontAssets := ["./assets/f.ttf"] }

/-- A file is listed again under the path that the manifest writes, and a font is listed if the
manifest writes its path in another way. -/
theorem exists_asset_of_two_spellings :
    ∃ (v : Volume) (cwd root : Text) (m : Manifest), v.tree.Plain ∧ Path.isAbsolute cwd ∧
      (∃ p ∈ m.declaredAssets v.tree cwd root, ¬ Canonical cwd root p) ∧
      (∃ p ∈ m.declaredAssets v.tree cwd root, ∃ q ∈ m.declaredAssets v.tree cwd root, p ≠ q ∧
        Path.place cwd (Path.join root p) = Path.place cwd (Path.join root q)) ∧
      ∃ p ∈ m.declaredAssets v.tree cwd root, ∃ font ∈ m.fontAssets,
        Path.place cwd (Path.join root p) = Path.place cwd (Path.join root font) := by
  have hassets : respelledManifest.declaredAssets respelledVolume.tree "/" "." =
      [Text.ofString "assets/a.png", Text.ofString "assets/f.ttf", Text.ofString "./assets/a.png"] := by
    simp only [declaredAssets, respelledManifest, List.flatMap_cons, List.flatMap_nil, expand,
      Text.sort_eq_insertionSort]
    rfl
  refine ⟨respelledVolume, "/", ".", respelledManifest, plain_respelledVolume, by decide, ?_⟩
  rw [hassets]
  refine ⟨⟨"./assets/a.png", by simp, ?_⟩,
    ⟨"assets/a.png", by simp, "./assets/a.png", by simp, by decide, by decide⟩,
    ⟨"assets/f.ttf", by simp, "./assets/f.ttf", by simp [respelledManifest], by decide⟩⟩
  have hrelative : Path.relative "/" (Path.join "." "./assets/a.png") "." =
      .ok (Text.ofString "assets/a.png") := by rfl
  rw [Canonical, hrelative]
  exact fun h => absurd (Except.ok.inj h) (by decide)

end Manifest

end Deadwood
