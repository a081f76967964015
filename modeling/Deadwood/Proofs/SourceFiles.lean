import Deadwood.Disk

/-!
Reading files and collecting them. A path that leads to a regular file can be read, and no collected
path is empty, whatever the names in the tree are.
-/
namespace Deadwood

namespace Path

theorem ofComponents_ne_nil (lead : Text) (names : List Text) : ofComponents lead names ≠ [] := by
  simp only [ofComponents]
  split
  · exact List.cons_ne_nil _ _
  · next h =>
    intro hnil
    exact h (List.isEmpty_iff.mpr hnil)

theorem absolute_ne_nil (cwd p : Text) : absolute cwd p ≠ [] :=
  ofComponents_ne_nil _ _

theorem join_ne_nil {base : Text} (h : base ≠ []) (name : Text) : join base name ≠ [] := by
  unfold join
  split
  · next habsolute =>
    -- an absolute name starts with a slash
    rintro rfl
    have hbase : base.isEmpty = false := by simpa using h
    rw [hbase] at habsolute
    cases habsolute
  · split
    · exact List.append_ne_nil_of_left_ne_nil h _
    · exact List.append_ne_nil_of_left_ne_nil h _

end Path

namespace FileTree

variable {t : FileTree} {path : Text}

theorem isSome_read? : (t.read? path).isSome = t.hasFile path := by
  unfold read? hasFile
  cases t.find? path with
  | none => rfl
  | some found => cases found <;> rfl

mutual

theorem ne_nil_of_mem_filesAt (base : Text) (hbase : base ≠ []) (t : FileTree) :
    ∀ p ∈ filesAt base t, p ≠ [] := by
  cases t with
  | file content =>
    rw [filesAt]
    intro p hp
    rwa [List.mem_singleton.mp hp]
  | link target =>
    rw [filesAt]
    intro p hp
    cases hp
  | dir entries =>
    rw [filesAt]
    exact ne_nil_of_mem_filesIn base hbase entries

theorem ne_nil_of_mem_filesIn (base : Text) (hbase : base ≠ []) (entries : List (Text × FileTree)) :
    ∀ p ∈ filesIn base entries, p ≠ [] := by
  cases entries with
  | nil =>
    rw [filesIn]
    intro p hp
    cases hp
  | cons entry rest =>
    obtain ⟨name, entry⟩ := entry
    rw [filesIn]
    intro p hp
    rcases List.mem_append.mp hp with hp | hp
    · exact ne_nil_of_mem_filesAt _ (Path.join_ne_nil hbase name) entry p hp
    · exact ne_nil_of_mem_filesIn base hbase rest p hp

end

theorem ne_nil_of_mem_sourceFiles {cwd directory extension : Text} {p : Text}
    (h : p ∈ t.sourceFiles cwd directory extension) : p ≠ [] := by
  simp only [sourceFiles] at h
  split at h
  · next entries _ =>
    have hp : p ∈ filesIn (Path.absolute cwd directory) entries :=
      (List.mem_filter.mp ((List.mergeSort_perm _ _).mem_iff.mp h)).1
    exact ne_nil_of_mem_filesIn _ (Path.absolute_ne_nil cwd directory) entries p hp
  · cases h

end FileTree

namespace Disk

variable {d : Disk} {cwd directory extension p : Text}

theorem mem_sourceFiles_iff :
    p ∈ d.sourceFiles cwd directory extension ↔
      d.hasDir (Path.absolute cwd directory) ∧ p ∈ d.tree.sourceFiles cwd directory extension ∧
        d.reaches (Path.absolute cwd directory) p := by
  simp only [sourceFiles]
  split
  · next hdir => simp [hdir]
  · next hdir => simp [hdir]

/-- A disk that turns nothing down. -/
def unguarded (v : Volume) : Disk where
  toVolume := v
  refuses? := fun _ _ => none

theorem refusal?_unguarded (v : Volume) (request : Request) (path : Text) :
    (unguarded v).refusal? request path = none :=
  ite_self _

end Disk

end Deadwood
