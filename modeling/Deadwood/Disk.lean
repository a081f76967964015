import Deadwood.FileTree

/-!
Files as the operating system shows them. It may turn a request down although the tree has what was
asked for; which requests those are is left open.
-/
namespace Deadwood

/-- A tree in which every entry can be named. -/
structure Volume where
  tree : FileTree
  wellFormed : tree.WellFormed

namespace Volume

instance : Inhabited Volume :=
  ⟨⟨.dir [], .dir List.nodup_nil (by simp) (by simp)⟩⟩

def ofTree? (tree : FileTree) : Option Volume :=
  if h : tree.WellFormed then some ⟨tree, h⟩ else none

end Volume

namespace Disk

inductive Request where
  | look
  | list
  | read
  | write
  deriving DecidableEq, Repr

/-- Why a request is turned down. That nothing is there is an answer, not a refusal. -/
inductive Refusal where
  | nameTooLong
  | accessDenied
  | deviceFault
  deriving DecidableEq, Repr

def Refusal.message : Refusal → Text
  | nameTooLong => "File name too long"
  | accessDenied => "Permission denied"
  | deviceFault => "Input/output error"

end Disk

structure Disk extends Volume where
  refuses? : Disk.Request → Text → Option Disk.Refusal

namespace Disk

/-- Nothing is asked about a path that cannot be a path. -/
def refusal? (d : Disk) (request : Request) (path : Text) : Option Refusal :=
  if FileTree.isSound path then d.refuses? request path else none

def firstRefusal? (d : Disk) (requests : List (Request × Text)) : Option Refusal :=
  requests.findSome? fun (request, path) => d.refusal? request path

def allows (d : Disk) (request : Request) (path : Text) : Bool :=
  (d.refusal? request path).isNone

def isFile (d : Disk) (path : Text) : Except Refusal Bool :=
  match d.refusal? .look path with
  | some r => .error r
  | none => .ok (d.tree.hasFile path)

def isDir (d : Disk) (path : Text) : Except Refusal Bool :=
  match d.refusal? .look path with
  | some r => .error r
  | none => .ok (d.tree.hasDir path)

/-- Unlike `isDir`, this takes a refusal for a no. -/
def hasDir (d : Disk) (path : Text) : Bool :=
  d.allows .look path && d.tree.hasDir path

def read? (d : Disk) (path : Text) : Option Bytes :=
  if d.allows .read path then d.tree.read? path else none

def directories (base path : Text) : List Text :=
  let names := (Path.components path).drop (Path.components base).length
  (List.range names.length).map fun n => (names.take n).foldl Path.join base

/-- Whether a walk through the directories below `base` comes across a file. -/
def reaches (d : Disk) (base path : Text) : Bool :=
  (directories base path).all (d.allows .list) && d.allows .look path

/-- What cannot be listed or looked at is passed over. -/
def sourceFiles (d : Disk) (cwd directory extension : Text) : List Text :=
  let base := Path.absolute cwd directory
  if d.hasDir base then (d.tree.sourceFiles cwd directory extension).filter (d.reaches base) else []

/-! ### Limits on names -/

/-- How many bytes a name takes. A surrogate stands for one byte of a name that is not UTF-8. -/
def byteLength (path : Text) : Nat :=
  path.foldl (fun n c => n + if c.isSurrogate then 1 else (Utf8.encodePoint c).length) 0

def maxNameLength : Nat := 255

def maxPathLength : Nat := 4095

/-- A name is measured when it is looked up, which needs a directory to look it up in. -/
def meetsLongName (t : FileTree) (path : Text) : Bool :=
  let names := Path.components path
  maxPathLength < byteLength path ||
    (List.range names.length).any fun n =>
      (names[n]?).any (fun name => maxNameLength < byteLength name) &&
        t.hasDir (Path.ofComponents [Path.slash] (names.take n))

def ofVolume (v : Volume) : Disk where
  toVolume := v
  refuses? := fun _ path => if meetsLongName v.tree path then some .nameTooLong else none

end Disk

end Deadwood
