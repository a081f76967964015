import Deadwood.Manifest.Basic

/-!
The asset files that a manifest declares, found in the file tree.
-/
namespace Deadwood.Manifest

def isEnvName (name : Text) : Bool :=
  let oneLine (t : Text) : Bool := !t.isEmpty && t.all fun c : CodePoint => c != '\n'
  name == Text.ofString ".env" ||
    ((Text.ofString ".env.").isPrefixOf? name).any oneLine ||
    (Text.endsWith ".env" name && oneLine (name.take (name.length - 4)))

/-- A line feed at the very end of the name is overlooked. -/
def isEnvFile (path : Text) : Bool :=
  let name := Path.lastName (Path.forwardSlashes path)
  isEnvName name || (name.getLast? == some ('\n' : CodePoint) && isEnvName name.dropLast)

def isDirectoryEntry (entry : Text) : Bool :=
  entry.getLast? == some '/' || entry.getLast? == some '\\'

/-- The files that an entry stands for, as paths from the project's root: those directly in a
directory, by name and without links, or one file. -/
def expand (t : FileTree) (cwd root entry : Text) : List Text :=
  let path := Path.clean (Path.join root entry)
  if isDirectoryEntry entry then
    match t.find? (Path.join cwd path) with
    | some (.dir entries) =>
      let names := Text.sort ((entries.filter fun (_, e) => e.isRegular).map (·.1))
      names.filterMap fun name =>
        match Path.relative cwd (Path.join path name) root with
        | .ok p => some (Path.forwardSlashes p)
        | .error _ => none
    | _ => []
  else if t.hasFile (Path.join cwd path) then [Path.forwardSlashes entry]
  else []

/-- What the operating system is asked while the files of an entry are looked for, in order. -/
def requests (t : FileTree) (cwd root entry : Text) : List (Disk.Request × Text) :=
  let path := Path.join cwd (Path.clean (Path.join root entry))
  let below : List (Disk.Request × Text) :=
    match t.find? path with
    | some (.dir entries) =>
      (.list, path) ::
        (Text.sort (entries.map (·.1))).map fun name => (.look, Path.join path name)
    | _ => []
  (.look, path) :: if isDirectoryEntry entry then below else []

/-- The asset files of a project, each once. Fonts and files of environment variables are left out:
neither is named in the source. -/
def declaredAssets (t : FileTree) (cwd root : Text) (m : Manifest) : List Text :=
  let all := m.assets.flatMap (expand t cwd root)
  (all.filter fun asset => !m.fontAssets.contains asset && !isEnvFile asset).eraseDups

/-- The asset files of a project on a disk. The first request that is turned down ends the search. -/
def findAssets (d : Disk) (cwd root : Text) (m : Manifest) : Except Error (List Text) :=
  match d.firstRefusal? (m.assets.flatMap (requests d.tree cwd root)) with
  | some r => .error (.refused r)
  | none => .ok (m.declaredAssets d.tree cwd root)

end Deadwood.Manifest
