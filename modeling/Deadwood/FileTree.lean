import Deadwood.Path
import Deadwood.Text.Utf8

/-!
A tree of directories, files and symbolic links. Paths are looked up as the operating system does:
links are followed along the way, and `..` leaves the directory that was reached, not the one that was
written.
-/
namespace Deadwood

inductive FileTree where
  | file (content : Bytes)
  | link (target : Text)
  | dir (entries : List (Text × FileTree))

namespace FileTree

instance : Inhabited FileTree := ⟨dir []⟩

def entries : FileTree → List (Text × FileTree)
  | dir entries => entries
  | _ => []

def isDir : FileTree → Bool
  | dir _ => true
  | _ => false

def isRegular : FileTree → Bool
  | file _ => true
  | _ => false

/-- Every entry has a name of its own, which a path can go through. -/
inductive WellFormed : FileTree → Prop
  | file (content : Bytes) : WellFormed (file content)
  | link (target : Text) : WellFormed (link target)
  | dir {entries : List (Text × FileTree)} : (entries.map (·.1)).Nodup →
      (∀ entry ∈ entries, Path.IsName entry.1) → (∀ entry ∈ entries, WellFormed entry.2) →
      WellFormed (dir entries)

mutual

def isWellFormed : FileTree → Bool
  | file _ | link _ => true
  | dir entries =>
    decide (entries.map (·.1)).Nodup && entries.all (fun entry => decide (Path.IsName entry.1)) &&
      areWellFormed entries

def areWellFormed : List (Text × FileTree) → Bool
  | [] => true
  | (_, entry) :: rest => entry.isWellFormed && areWellFormed rest

end

mutual

theorem isWellFormed_iff : ∀ t : FileTree, t.isWellFormed = true ↔ t.WellFormed
  | .file content => by simp [isWellFormed, WellFormed.file]
  | .link target => by simp [isWellFormed, WellFormed.link]
  | .dir entries => by
    simp only [isWellFormed, Bool.and_eq_true, decide_eq_true_eq, List.all_eq_true,
      areWellFormed_iff entries]
    constructor
    · rintro ⟨⟨hnodup, hnames⟩, hentries⟩
      exact .dir hnodup hnames hentries
    · intro h
      cases h with
      | dir hnodup hnames hentries => exact ⟨⟨hnodup, hnames⟩, hentries⟩

theorem areWellFormed_iff : ∀ entries : List (Text × FileTree),
    areWellFormed entries = true ↔ ∀ entry ∈ entries, entry.2.WellFormed
  | [] => by simp [areWellFormed]
  | (_, entry) :: rest => by
    rw [areWellFormed, Bool.and_eq_true, isWellFormed_iff entry, areWellFormed_iff rest,
      List.forall_mem_cons]

end

instance (t : FileTree) : Decidable t.WellFormed :=
  decidable_of_iff _ (isWellFormed_iff t)

/-- What is reached by these names through directories only. -/
def at? (t : FileTree) : List Text → Option FileTree
  | [] => some t
  | name :: names => (t.entries.lookup name).bind (·.at? names)

def maxLinks : Nat := 40

/-- What to do about the last name of a path. -/
inductive Last where
  /-- It must exist, and is followed if it is a link. -/
  | follow
  /-- It must exist, and is not followed. -/
  | keep
  /-- It and all names before it may be missing. -/
  | create
  deriving DecidableEq

/-- Where a path leads from the names in `place`, the innermost first. From a link, `jump` goes on. -/
def walk? (t : FileTree) (last : Last) (jump : List Text → List Text → Option (List Text))
    (place : List Text) : List Text → Option (List Text)
  | [] => some place
  | name :: rest =>
    if name == Path.above then
      if (t.at? place.reverse).any isDir then t.walk? last jump (place.drop 1) rest else none
    else
      match t.at? (name :: place).reverse with
      | some (.link target) =>
        if rest.isEmpty && last == .keep then some (name :: place)
        else jump (if Path.isAbsolute target then [] else place) (Path.components target ++ rest)
      | some _ => t.walk? last jump (name :: place) rest
      | none => if last == .create then t.walk? last jump (name :: place) rest else none

def locate? (t : FileTree) (last : Last) : Nat → List Text → List Text → Option (List Text)
  | 0 => t.walk? last fun _ _ => none
  | links + 1 => t.walk? last (t.locate? last links)

/-- A path that can be asked for. The surrogates from U+DC80 to U+DCFF stand for bytes of a name that
is not UTF-8; no other surrogate stands for anything. -/
def isSound (path : Text) : Bool :=
  path.all fun c => c.val != 0 && (!c.isSurrogate || (0xDC80 ≤ c.val && c.val ≤ 0xDCFF))

def place? (t : FileTree) (last : Last) (path : Text) : Option (List Text) :=
  if isSound path then (t.locate? last maxLinks [] (Path.components path)).map List.reverse else none

def find? (t : FileTree) (path : Text) : Option FileTree :=
  (t.place? .follow path).bind t.at?

def hasFile (t : FileTree) (path : Text) : Bool :=
  (t.find? path).any isRegular

def hasDir (t : FileTree) (path : Text) : Bool :=
  (t.find? path).any isDir

def read? (t : FileTree) (path : Text) : Option Bytes :=
  match t.find? path with
  | some (.file content) => some content
  | _ => none

def setEntry (name : Text) (new : FileTree) : List (Text × FileTree) → List (Text × FileTree)
  | [] => [(name, new)]
  | (known, old) :: rest =>
    if known == name then (name, new) :: rest else (known, old) :: setEntry name new rest

def put (new : FileTree) : List Text → FileTree → FileTree
  | [], _ => new
  | name :: names, t =>
    dir (setEntry name (put new names ((t.entries.lookup name).getD (dir []))) t.entries)

def create (t : FileTree) (path : Text) (new : FileTree) : FileTree :=
  let names := Path.components path
  match t.place? .create (Path.ofComponents [Path.slash] names.dropLast), names.getLast? with
  | some parent, some name =>
    let place := parent ++ [name]
    match new, t.at? place with
    | .dir [], some (.dir _) => t
    | _, _ => put new place t
  | _, _ => t

inductive WriteError where
  | noDirectory
  | notADirectory
  | isDirectory
  deriving DecidableEq, Repr

def write (t : FileTree) (path : Text) (content : Bytes) : Except WriteError FileTree :=
  match t.place? .create path with
  | none => .error .noDirectory
  | some place =>
    match t.at? place with
    | some (.dir _) => .error .isDirectory
    | _ =>
      match t.at? place.dropLast with
      | some (.dir _) => .ok (put (.file content) place t)
      | some _ => .error .notADirectory
      | none =>
        let isFile := (List.range place.length).any fun n => (t.at? (place.take n)).any (!·.isDir)
        .error (if isFile then .notADirectory else .noDirectory)

mutual

/-- The regular files at a path: the file itself, or those in a directory and in its directories. Links
are left out, and so is what they lead to. -/
def filesAt (path : Text) : FileTree → List Text
  | file _ => [path]
  | dir entries => filesIn path entries
  | link _ => []

def filesIn (base : Text) : List (Text × FileTree) → List Text
  | [] => []
  | (name, entry) :: rest => filesAt (Path.join base name) entry ++ filesIn base rest

end

def sourceFiles (t : FileTree) (cwd directory extension : Text) : List Text :=
  let base := Path.absolute cwd directory
  match t.find? base with
  | some (.dir entries) =>
    Text.sort ((filesIn base entries).filter fun path =>
      (Path.splitExtension (Path.baseName path)).2 == extension)
  | _ => []

end FileTree

end Deadwood
