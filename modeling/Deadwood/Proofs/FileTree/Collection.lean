import Deadwood.Proofs.FileTree.Contents
import Deadwood.Proofs.Order
import Deadwood.Proofs.SourceFiles

/-!
Which source files are collected, and in which order: all regular files with the extension that the
directory holds, not through links, by their whole paths.
-/
namespace Deadwood

namespace Path

/-- `extension` is what a file name has after its stem. -/
def IsExtension (name extension : Text) : Prop :=
  ∃ stem, IsStem name stem ∧ name = stem ++ extension

theorem splitExtension_append_self (name : Text) :
    (splitExtension name).1 ++ (splitExtension name).2 = name := by
  by_cases hdot : dot ∈ name
  · obtain ⟨front, extension, rfl, hextension⟩ := exists_last_of_mem hdot
    rw [splitExtension_append hextension]
    split
    · rfl
    · exact List.append_nil _
  · rw [splitExtension_of_not_mem hdot, List.append_nil]

theorem isExtension_iff {name extension : Text} :
    IsExtension name extension ↔ (splitExtension name).2 = extension := by
  have hname := splitExtension_append_self name
  constructor
  · rintro ⟨stem, hstem, hextension⟩
    rw [isStem_iff] at hstem
    subst hstem
    exact List.append_cancel_left (hname.trans hextension)
  · rintro rfl
    exact ⟨_, isStem_splitExtension name, hname.symm⟩

theorem baseName_join {base name : Text} (hbase : base ≠ []) (hname : slash ∉ name) :
    baseName (join base name) = name := by
  have hrelative : isAbsolute name = false := by
    cases name with
    | nil => rfl
    | cons c name =>
      rw [List.mem_cons, not_or] at hname
      simpa [isAbsolute] using Ne.symm hname.1
  have hempty : base.isEmpty = false := by simpa using hbase
  symm
  rw [← isBaseName_iff]
  unfold join
  simp only [hrelative, hempty, Bool.or_self, Bool.false_eq_true, if_false]
  split
  · next hlast => exact ⟨hname, base, rfl, fun c hc => Option.some.inj (hc.symm.trans (eq_of_beq hlast))⟩
  · exact ⟨hname, base ++ [slash], by simp, by simp⟩

theorem foldl_join {lead : Text} {names more : List Text} (hlead : IsLead lead) (hne : lead ≠ [])
    (hnames : ∀ name ∈ names, IsName name) (hmore : ∀ name ∈ more, IsName name) :
    more.foldl join (ofComponents lead names) = ofComponents lead (names ++ more) := by
  induction more generalizing names with
  | nil => rw [List.foldl_nil, List.append_nil]
  | cons name more ih =>
    rw [List.forall_mem_cons] at hmore
    have hjoined : ∀ other ∈ names ++ [name], IsName other := by
      simpa [or_imp, forall_and] using ⟨hnames, hmore.1⟩
    rw [List.foldl_cons,
      join_ofComponents hlead hne (fun other hother => (hnames other hother).1) hmore.1.1,
      ih hjoined hmore.2, List.append_assoc, List.singleton_append]

end Path

namespace FileTree

/-! ### The files of a directory -/

theorem filesIn_eq_flatMap (base : Text) (entries : List (Text × FileTree)) :
    filesIn base entries = entries.flatMap fun entry => filesAt (Path.join base entry.1) entry.2 := by
  induction entries with
  | nil => rw [filesIn, List.flatMap_nil]
  | cons entry entries ih => rw [filesIn, List.flatMap_cons, ih]

theorem mem_filesAt {t : FileTree} {base p : Text} (ht : t.WellFormed) :
    p ∈ filesAt base t ↔
      ∃ names content, Holds t names (file content) ∧ p = names.foldl Path.join base := by
  induction ht generalizing base with
  | file content =>
    rw [filesAt, List.mem_singleton]
    constructor
    · rintro rfl
      exact ⟨[], content, .self _, rfl⟩
    · rintro ⟨names, content', hholds, rfl⟩
      cases hholds
      rfl
  | link target =>
    rw [filesAt]
    constructor
    · exact fun h => absurd h List.not_mem_nil
    · rintro ⟨names, content, hholds, _⟩
      cases hholds
  | dir _ _ _ ih =>
    rw [filesAt, filesIn_eq_flatMap, List.mem_flatMap]
    constructor
    · rintro ⟨⟨name, entry⟩, hentry, hp⟩
      obtain ⟨names, content, hholds, rfl⟩ := (ih _ hentry).mp hp
      exact ⟨name :: names, content, .entry hentry hholds, rfl⟩
    · rintro ⟨names, content, hholds, rfl⟩
      cases hholds with
      | entry hentry hbelow => exact ⟨_, hentry, (ih _ hentry).mpr ⟨_, content, hbelow, rfl⟩⟩

section FilesAt

variable {t : FileTree} {lead p : Text} {names : List Text}

theorem exists_components_of_mem_filesAt (ht : t.WellFormed) (hlead : Path.IsLead lead)
    (hne : lead ≠ []) (hnames : ∀ name ∈ names, Path.IsName name)
    (h : p ∈ filesAt (Path.ofComponents lead names) t) :
    ∃ more, Path.components p = names ++ more := by
  obtain ⟨more, content, hholds, rfl⟩ := (mem_filesAt ht).mp h
  have hmore := (ht.of_holds hholds).2
  refine ⟨more, ?_⟩
  rw [Path.foldl_join hlead hne hnames hmore]
  apply Path.components_ofComponents hlead
  intro name hname
  exact ((List.mem_append.mp hname).elim (hnames name) (hmore name)).1

theorem nodup_filesAt (ht : t.WellFormed) (hlead : Path.IsLead lead) (hne : lead ≠ [])
    (hnames : ∀ name ∈ names, Path.IsName name) :
    (filesAt (Path.ofComponents lead names) t).Nodup := by
  induction ht generalizing names with
  | file content =>
    rw [filesAt]
    exact List.nodup_singleton _
  | link target =>
    rw [filesAt]
    exact List.nodup_nil
  | @dir entries hnodup hentryNames hentries ih =>
    have hinner : ∀ entry ∈ entries, ∀ name ∈ names ++ [entry.1], Path.IsName name := by
      intro entry hentry
      simpa [or_imp, forall_and] using ⟨hnames, hentryNames entry hentry⟩
    have hjoin : ∀ entry ∈ entries, filesAt (Path.join (Path.ofComponents lead names) entry.1) entry.2 =
        filesAt (Path.ofComponents lead (names ++ [entry.1])) entry.2 := by
      intro entry hentry
      rw [Path.join_ofComponents hlead hne (fun name hname => (hnames name hname).1)
        (hentryNames entry hentry).1]
    rw [filesAt, filesIn_eq_flatMap, List.nodup_flatMap]
    constructor
    · intro entry hentry
      rw [hjoin entry hentry]
      exact ih entry hentry (hinner entry hentry)
    · rw [List.Nodup, List.pairwise_map] at hnodup
      refine hnodup.imp_of_mem fun {entry other} hentry hother hdiffer p hp hp' => ?_
      simp only [hjoin entry hentry] at hp
      simp only [hjoin other hother] at hp'
      obtain ⟨more, hmore⟩ := exists_components_of_mem_filesAt (hentries entry hentry) hlead hne
        (hinner entry hentry) hp
      obtain ⟨more', hmore'⟩ := exists_components_of_mem_filesAt (hentries other hother) hlead hne
        (hinner other hother) hp'
      rw [hmore, List.append_assoc, List.append_assoc] at hmore'
      exact hdiffer (List.cons.inj (List.append_cancel_left hmore')).1

end FilesAt

/-! ### Source files -/

/-- A regular file that the tree holds, with its path from `base` and with the extension. -/
def IsSource (top : FileTree) (base extension p : Text) : Prop :=
  ∃ names name content, Holds top (names ++ [name]) (file content) ∧
    p = (names ++ [name]).foldl Path.join base ∧ Path.IsExtension name extension

section SourceFiles

variable {t t' : FileTree} {cwd directory extension p : Text}

theorem baseName_foldl_join {base name : Text} {names : List Text} (hbase : base ≠ [])
    (hname : Path.slash ∉ name) :
    Path.baseName ((names ++ [name]).foldl Path.join base) = name := by
  have hne : names.foldl Path.join base ≠ [] := by
    induction names generalizing base with
    | nil => exact hbase
    | cons first names ih => exact ih (Path.join_ne_nil hbase first)
  rw [List.foldl_append, List.foldl_cons, List.foldl_nil]
  exact Path.baseName_join hne hname

theorem isSource_dir_iff {entries : List (Text × FileTree)} {base : Text}
    (h : (dir entries).WellFormed) (hbase : base ≠ []) :
    IsSource (dir entries) base extension p ↔
      p ∈ filesAt base (dir entries) ∧ (Path.splitExtension (Path.baseName p)).2 = extension := by
  rw [mem_filesAt h]
  constructor
  · rintro ⟨names, name, content, hholds, rfl, hextension⟩
    have hname : Path.IsName name := (h.of_holds hholds).2 name (by simp)
    rw [baseName_foldl_join hbase hname.1.2.2, ← Path.isExtension_iff]
    exact ⟨⟨names ++ [name], content, hholds, rfl⟩, hextension⟩
  · rintro ⟨⟨names, content, hholds, rfl⟩, hextension⟩
    rcases List.eq_nil_or_concat names with rfl | ⟨names, name, rfl⟩
    · cases hholds
    · rw [List.concat_eq_append] at hholds hextension ⊢
      have hname : Path.IsName name := (h.of_holds hholds).2 name (by simp)
      rw [baseName_foldl_join hbase hname.1.2.2, ← Path.isExtension_iff] at hextension
      exact ⟨names, name, content, hholds, rfl, hextension⟩

theorem IsSource.isDir {top : FileTree} {base : Text} (h : IsSource top base extension p) :
    ∃ entries, top = dir entries := by
  obtain ⟨names, name, content, hholds, _⟩ := h
  generalize hall : names ++ [name] = all at hholds
  cases hholds with
  | self => simp at hall
  | entry => exact ⟨_, rfl⟩

theorem mem_sourceFiles (ht : t.WellFormed) :
    p ∈ t.sourceFiles cwd directory extension ↔
      ∃ top, t.find? (Path.absolute cwd directory) = some top ∧
        IsSource top (Path.absolute cwd directory) extension p := by
  simp only [sourceFiles]
  split
  · next entries hfound =>
    rw [hfound, Text.mem_sort, List.mem_filter, beq_iff_eq, ← filesAt,
      ← isSource_dir_iff (ht.find? hfound) (Path.absolute_ne_nil cwd directory)]
    constructor
    · exact fun h => ⟨_, rfl, h⟩
    · rintro ⟨_, ⟨rfl⟩, h⟩
      exact h
  · next hnone =>
    constructor
    · exact fun h => absurd h List.not_mem_nil
    · rintro ⟨top, htop, hsource⟩
      obtain ⟨entries, rfl⟩ := hsource.isDir
      exact absurd htop (hnone entries)

theorem exists_absolute_eq (hcwd : Path.isAbsolute cwd) (directory : Text) :
    ∃ lead names, Path.IsLead lead ∧ lead ≠ [] ∧ (∀ name ∈ names, Path.IsName name) ∧
      Path.absolute cwd directory = Path.ofComponents lead names := by
  have hjoin := Path.isAbsolute_join_left hcwd directory
  exact ⟨_, _, Path.isLead_leadingSlashes _, Path.leadingSlashes_ne_nil hjoin,
    fun _ => Path.isName_of_mem_collapse, Path.normalize_eq hjoin⟩

theorem pairwise_sourceFiles (ht : t.WellFormed) (hcwd : Path.isAbsolute cwd) :
    (t.sourceFiles cwd directory extension).Pairwise Text.Before := by
  obtain ⟨lead, names, hlead, hne, hnames, hbase⟩ := exists_absolute_eq hcwd directory
  simp only [sourceFiles]
  split
  · next entries hfound =>
    apply Text.pairwise_before_sort
    rw [hbase, ← filesAt]
    exact (nodup_filesAt (ht.find? hfound) hlead hne hnames).filter _
  · exact .nil

theorem isNormal_of_mem_sourceFiles (ht : t.WellFormed) (hcwd : Path.isAbsolute cwd)
    (h : p ∈ t.sourceFiles cwd directory extension) : Path.isAbsolute p ∧ Path.normalize p = p := by
  obtain ⟨lead, base, hlead, hne, hbase, habsolute⟩ := exists_absolute_eq hcwd directory
  obtain ⟨top, htop, names, name, content, hholds, hp, _⟩ := (mem_sourceFiles ht).mp h
  have hnames := ((ht.find? htop).of_holds hholds).2
  have hall : ∀ other ∈ base ++ (names ++ [name]), Path.IsName other := by
    intro other hother
    exact (List.mem_append.mp hother).elim (hbase other) (hnames other)
  rw [habsolute, Path.foldl_join hlead hne hbase hnames] at hp
  rw [hp, Path.isAbsolute_ofComponents hlead fun other hother => (hall other hother).1,
    Path.normalize_ofComponents hlead hne hall]
  simp [hne]

theorem isSource_of_sameContents {top top' : FileTree} {base : Text} (htop : top.WellFormed)
    (htop' : top'.WellFormed) (hsame : SameContents top top') (h : IsSource top base extension p) :
    IsSource top' base extension p := by
  obtain ⟨names, name, content, hholds, hp, hextension⟩ := h
  refine ⟨names, name, content, ?_, hp, hextension⟩
  rw [holds_iff_at? htop] at hholds
  rw [holds_iff_at? htop']
  exact hsame.at?_file hholds

end SourceFiles

end FileTree

namespace Disk

open FileTree (Holds Reordered)

variable {d d' : Disk} {cwd directory extension p : Text}

/-- A source of the tree that a walk from `base` comes across: each directory on the way can be listed,
and the file can be looked at. -/
def IsSource (d : Disk) (top : FileTree) (base extension p : Text) : Prop :=
  ∃ names name content, Holds top (names ++ [name]) (.file content) ∧
    p = (names ++ [name]).foldl Path.join base ∧ Path.IsExtension name extension ∧
    (∀ n ≤ names.length, d.allows .list ((names.take n).foldl Path.join base)) ∧ d.allows .look p

theorem directories_foldl_join {lead name : Text} {base names : List Text}
    (hlead : Path.IsLead lead) (hne : lead ≠ []) (hbase : ∀ other ∈ base, Path.IsName other)
    (hnames : ∀ other ∈ names ++ [name], Path.IsName other) :
    directories (Path.ofComponents lead base)
        ((names ++ [name]).foldl Path.join (Path.ofComponents lead base)) =
      (List.range (names.length + 1)).map fun n =>
        (names.take n).foldl Path.join (Path.ofComponents lead base) := by
  have hall : ∀ other ∈ base ++ (names ++ [name]), Path.IsComponent other := by
    intro other hother
    exact ((List.mem_append.mp hother).elim (hbase other) (hnames other)).1
  simp only [directories]
  rw [Path.foldl_join hlead hne hbase hnames, Path.components_ofComponents hlead hall,
    Path.components_ofComponents hlead fun other hother => (hbase other hother).1,
    List.drop_left, List.length_append, List.length_singleton]
  apply List.map_congr_left
  intro n hn
  rw [List.take_append_of_le_length (Nat.le_of_lt_succ (List.mem_range.mp hn))]

theorem isSource_iff (hcwd : Path.isAbsolute cwd) (directory : Text) {top : FileTree}
    (htop : top.WellFormed) :
    d.IsSource top (Path.absolute cwd directory) extension p ↔
      FileTree.IsSource top (Path.absolute cwd directory) extension p ∧
        d.reaches (Path.absolute cwd directory) p := by
  obtain ⟨lead, base, hlead, hne, hbase, habsolute⟩ := FileTree.exists_absolute_eq hcwd directory
  have hreaches : ∀ names name content, Holds top (names ++ [name]) (.file content) →
      (d.reaches (Path.absolute cwd directory)
          ((names ++ [name]).foldl Path.join (Path.absolute cwd directory)) ↔
        (∀ n ≤ names.length, d.allows .list ((names.take n).foldl Path.join
          (Path.absolute cwd directory))) ∧
          d.allows .look ((names ++ [name]).foldl Path.join (Path.absolute cwd directory))) := by
    intro names name content hholds
    rw [reaches, habsolute, directories_foldl_join hlead hne hbase (htop.of_holds hholds).2]
    simp only [List.all_map, Bool.and_eq_true, List.all_eq_true, List.mem_range, Function.comp_apply,
      Nat.lt_succ_iff]
  constructor
  · rintro ⟨names, name, content, hholds, rfl, hextension, hlist, hlook⟩
    exact ⟨⟨names, name, content, hholds, rfl, hextension⟩,
      (hreaches names name content hholds).mpr ⟨hlist, hlook⟩⟩
  · rintro ⟨⟨names, name, content, hholds, rfl, hextension⟩, hreached⟩
    obtain ⟨hlist, hlook⟩ := (hreaches names name content hholds).mp hreached
    exact ⟨names, name, content, hholds, rfl, hextension, hlist, hlook⟩

theorem mem_sourceFiles (hcwd : Path.isAbsolute cwd) :
    p ∈ d.sourceFiles cwd directory extension ↔
      d.allows .look (Path.absolute cwd directory) ∧
        ∃ top, d.tree.find? (Path.absolute cwd directory) = some top ∧
          d.IsSource top (Path.absolute cwd directory) extension p := by
  rw [mem_sourceFiles_iff, FileTree.mem_sourceFiles d.wellFormed, hasDir, Bool.and_eq_true]
  constructor
  · rintro ⟨⟨hlook, _⟩, ⟨top, htop, hsource⟩, hreaches⟩
    exact ⟨hlook, top, htop,
      (isSource_iff hcwd directory (d.wellFormed.find? htop)).mpr ⟨hsource, hreaches⟩⟩
  · rintro ⟨hlook, top, htop, hsource⟩
    obtain ⟨hsource, hreaches⟩ :=
      (isSource_iff hcwd directory (d.wellFormed.find? htop)).mp hsource
    obtain ⟨entries, rfl⟩ := hsource.isDir
    exact ⟨⟨hlook, FileTree.hasDir_iff.mpr ⟨entries, htop⟩⟩, ⟨_, htop, hsource⟩, hreaches⟩

theorem sublist_sourceFiles (d : Disk) (cwd directory extension : Text) :
    (d.sourceFiles cwd directory extension).Sublist (d.tree.sourceFiles cwd directory extension) := by
  simp only [sourceFiles]
  split
  · exact List.filter_sublist
  · exact List.nil_sublist _

theorem mem_sourceFiles_of_sameContents (hcwd : Path.isAbsolute cwd)
    (hsame : FileTree.SameContents d.tree d'.tree) (hrefuses : d'.refuses? = d.refuses?)
    (h : p ∈ d.sourceFiles cwd directory extension) :
    p ∈ d'.sourceFiles cwd directory extension := by
  have hallows : d'.allows = d.allows := by
    funext request path
    rw [allows, allows, refusal?, refusal?, hrefuses]
  obtain ⟨hlook, top, htop, hsource⟩ := (mem_sourceFiles hcwd).mp h
  obtain ⟨top', htop', hsame'⟩ := hsame.find? _ htop
  have hwf := d.wellFormed.find? htop
  have hwf' := d'.wellFormed.find? htop'
  obtain ⟨hsource, hreaches⟩ := (isSource_iff hcwd directory hwf).mp hsource
  rw [reaches, ← hallows] at hreaches
  have hsource' := FileTree.isSource_of_sameContents hwf hwf' hsame' hsource
  exact (mem_sourceFiles hcwd).mpr ⟨hallows ▸ hlook, top', htop',
    (isSource_iff hcwd directory hwf').mpr ⟨hsource', hreaches⟩⟩

theorem mem_sourceFiles_of_unrefused (hcwd : Path.isAbsolute cwd)
    (h : ∀ request path, d.refusal? request path = none) :
    p ∈ d.sourceFiles cwd directory extension ↔
      ∃ top, d.tree.find? (Path.absolute cwd directory) = some top ∧
        FileTree.IsSource top (Path.absolute cwd directory) extension p := by
  have hallows : ∀ request path, d.allows request path := by
    intro request path
    rw [allows, h]
    rfl
  have hreaches : d.reaches (Path.absolute cwd directory) p := by
    simp [reaches, hallows]
  rw [mem_sourceFiles hcwd, and_iff_right (hallows _ _)]
  refine exists_congr fun top => and_congr_right fun htop => ?_
  rw [isSource_iff hcwd directory (d.wellFormed.find? htop), and_iff_left hreaches]

/-- The source files of a directory are all its regular files with the extension that are reached
through no link, by ascending paths in normal form, in whatever order directories list their entries.
Only what the operating system does not show is left out. `..` in the directory is taken as it is
written; without it the directory is the one that the path leads to. -/
theorem sourceFiles_exact (d : Disk) (hcwd : Path.isAbsolute cwd) (directory extension : Text) :
    (d.sourceFiles cwd directory extension).Pairwise Text.Before ∧
    (∀ p ∈ d.sourceFiles cwd directory extension, Path.isAbsolute p ∧ Path.normalize p = p) ∧
    (∀ p, p ∈ d.sourceFiles cwd directory extension ↔
      d.allows .look (Path.absolute cwd directory) ∧
        ∃ top, d.tree.find? (Path.absolute cwd directory) = some top ∧
          d.IsSource top (Path.absolute cwd directory) extension p) ∧
    ((∀ request path, d.refusal? request path = none) →
      ∀ p, p ∈ d.sourceFiles cwd directory extension ↔
        ∃ top, d.tree.find? (Path.absolute cwd directory) = some top ∧
          FileTree.IsSource top (Path.absolute cwd directory) extension p) ∧
    (¬ d.hasDir (Path.absolute cwd directory) → d.sourceFiles cwd directory extension = []) ∧
    (Path.above ∉ Path.components (Path.join cwd directory) →
      d.tree.find? (Path.absolute cwd directory) = d.tree.find? (Path.join cwd directory)) ∧
    ∀ d' : Disk, Reordered d.tree d'.tree → d'.refuses? = d.refuses? →
      d'.sourceFiles cwd directory extension = d.sourceFiles cwd directory extension := by
  have hordered : ∀ d' : Disk, (d'.sourceFiles cwd directory extension).Pairwise Text.Before :=
    fun d' => (FileTree.pairwise_sourceFiles d'.wellFormed hcwd).sublist (d'.sublist_sourceFiles ..)
  refine ⟨hordered d, ?_, fun p => mem_sourceFiles hcwd,
    fun hunrefused p => mem_sourceFiles_of_unrefused hcwd hunrefused, ?_, ?_, ?_⟩
  · intro p hp
    exact FileTree.isNormal_of_mem_sourceFiles d.wellFormed hcwd ((d.sublist_sourceFiles ..).subset hp)
  · intro hdir
    simp only [sourceFiles, if_neg hdir]
  · intro habove
    apply FileTree.find?_congr
    rw [Path.absolute, Path.components_normalize (Path.isAbsolute_join_left hcwd directory)]
    apply Path.collapse_of_names
    rintro name hname rfl
    exact habove hname
  · intro d' hreordered hrefuses
    obtain ⟨_, hsame⟩ := hreordered.sameContents d.wellFormed
    apply Text.eq_of_pairwise_before (hordered d') (hordered d)
    intro p
    constructor
    · exact mem_sourceFiles_of_sameContents hcwd (fun names => (hsame names).symm) hrefuses.symm
    · exact mem_sourceFiles_of_sameContents hcwd hsame hrefuses

def linkedEntries : List (Text × FileTree) :=
  [("a.dart", .file []), ("a", .dir [("b.dart", .file []), ("up.dart", .link "..")]),
    ("a-b", .dir [("c.dart", .file [])]), (".dart", .file []), ("alias.dart", .link "a.dart"),
    ("gone.dart", .link "nowhere")]

def linkedDisk : Disk :=
  .unguarded ⟨.dir linkedEntries, by decide⟩

def reversedDisk : Disk :=
  .unguarded ⟨.dir linkedEntries.reverse, by decide⟩

theorem sourceFiles_exact_linked :
    Path.isAbsolute (Text.ofString "/") ∧ Reordered linkedDisk.tree reversedDisk.tree ∧
      linkedDisk.sourceFiles "/" "." ".dart" =
        [Text.ofString "/a-b/c.dart", Text.ofString "/a.dart", Text.ofString "/a/b.dart"] ∧
      reversedDisk.sourceFiles "/" "." ".dart" =
        [Text.ofString "/a-b/c.dart", Text.ofString "/a.dart", Text.ofString "/a/b.dart"] ∧
      Text.Before (Text.ofString "/a-b/c.dart") (Text.ofString "/a.dart") := by
  have hcwd : Path.isAbsolute (Text.ofString "/") := by decide
  have hreordered : Reordered linkedDisk.tree reversedDisk.tree :=
    .shuffle (List.reverse_perm _).symm
  have hfiles : linkedDisk.sourceFiles "/" "." ".dart" =
      [Text.ofString "/a-b/c.dart", Text.ofString "/a.dart", Text.ofString "/a/b.dart"] := by
    simp only [sourceFiles, FileTree.sourceFiles, Text.sort_eq_insertionSort]
    rfl
  obtain ⟨hascending, _, _, _, _, _, horder⟩ := sourceFiles_exact linkedDisk hcwd "." ".dart"
  rw [hfiles] at hascending horder
  exact ⟨hcwd, hreordered, hfiles, horder _ hreordered rfl,
    List.rel_of_pairwise_cons hascending List.mem_cons_self⟩

end Disk

end Deadwood
