import Deadwood.CommandLine.Run

/-!
The program. It takes a copy of the files that it may need, runs on the copy, and prints and writes what
the run says.
-/
namespace Deadwood

def pathString (path : Text) : String :=
  (path.toString?).getD ""

structure Snapshot where
  tree : FileTree
  refused : List ((Disk.Request × Text) × Disk.Refusal) := []

namespace Snapshot

def add (s : Snapshot) (path : Text) (new : FileTree) : Snapshot :=
  { s with tree := s.tree.create path new }

def refuse (s : Snapshot) (request : Disk.Request) (path : Text) (e : IO.Error) : Snapshot :=
  let refusal : Disk.Refusal := match e with
    | .permissionDenied .. => .accessDenied
    | _ => .deviceFault
  { s with refused := ((request, path), refusal) :: s.refused }

def disk? (s : Snapshot) : Option Disk :=
  (Volume.ofTree? s.tree).map fun v =>
    { toVolume := v
      refuses? := fun request path =>
        s.refused.lookup (request, path) <|> (Disk.ofVolume v).refuses? request path }

/-- Adds what is at a path, and all that is below it. Links lead to where they end. -/
partial def take (s : Snapshot) (path : String) : IO Snapshot := do
  let text := Text.ofString path
  let isKnown := (s.tree.place? .keep text).any fun place =>
    !((s.tree.at? place).any (·.entries.isEmpty))
  if isKnown then return s
  try
    let place := (← IO.currentDir) / path
    match (← place.symlinkMetadata).type with
    | .dir =>
      let mut all := s.add text (.dir [])
      let entries ← try place.readDir catch e => return all.refuse .list text e
      for entry in entries do
        all ← all.take (path ++ "/" ++ entry.fileName)
      return all
    | .symlink =>
      let target ← IO.FS.realPath path
      (s.add text (.link (Text.ofString target.toString))).take target.toString
    | .file =>
      try return s.add text (.file (← IO.FS.readBinFile path).toList)
      catch e => return (s.add text (.file [])).refuse .read text e
    | .other => return s
  catch _ => return s

end Snapshot

def readEnvironment (file : Option Bytes) : IO Environment := do
  let names := [Settings.codeDirName, Settings.manifestVariable, Settings.workersName,
    Settings.extraCallbacksName] ++
    ((file.bind Text.ofFile?).map Environment.File.mentioned).getD []
  let mut env : Environment := {}
  for name in names do
    if let some value ← IO.getEnv (pathString name) then
      env := env.set name (Text.ofString value)
  return env

def parentOf (path : Text) : Text :=
  Path.ofComponents (Path.leadingSlashes path) (Path.components path).dropLast

def takeFiles (cwd : Text) (args : List Text) : IO Snapshot := do
  let place (p : Text) : Text := Path.clean (Path.join cwd p)
  let mut files : Snapshot := { tree := FileTree.create (.dir []) cwd (.dir []) }
  if let some (.audit request) := CommandLine.read? args then
    if let some path := request.path then
      files ← files.take (pathString (place path))
    if let some file := request.output then
      let directory := parentOf (place file)
      let isDirectory ← try pure (!(← IO.FS.realPath (pathString directory)).toString.isEmpty)
        catch _ => pure false
      if isDirectory && !files.tree.hasDir directory then files := files.add directory (.dir [])
  files.take (pathString (place (Text.ofString ".env")))

def run (args : List String) : IO UInt32 := do
  let cwd := Text.ofString (← IO.currentDir).toString
  let args := args.map Text.ofString
  let some disk := (← takeFiles cwd args).disk?
    | throw (IO.userError "a file name cannot be a name")
  let file := disk.read? (Path.join cwd (Text.ofString ".env"))
  let world : CommandLine.World :=
    { disk, cwd, environment := ← readEnvironment file, terminal := { encoding := none } }
  let outcome := CommandLine.run .standard world args
  IO.print (pathString outcome.stdout)
  IO.eprint (pathString outcome.stderr)
  if let some (path, content) := outcome.written then
    IO.FS.writeBinFile (pathString path) ⟨content.toArray⟩
  if let some failure := outcome.failure then
    IO.eprintln (pathString failure.message)
  return outcome.exitCode.toUInt32

end Deadwood

def main (args : List String) : IO UInt32 :=
  Deadwood.run args
