import Deadwood.Proofs.FileTree.Contents

/-!
What writing a file does to a tree. A path leads to the written file afterwards, links along the way
followed, and all else is as it was.
-/
namespace Deadwood.FileTree

/-! ### Entries -/

section Entries

variable {name other : Text} {new : FileTree} {entries : List (Text × FileTree)}

end Entries

/-! ### Places -/

section Places

variable {t found : FileTree} {name : Text} {names more place other : List Text}
  {content : Bytes}

end Places

/-! ### Paths to what may be missing -/

section Create

variable {t t' : FileTree} {links : Nat} {place path found : List Text}

end Create

/-! ### Writing -/

section Write

variable {t t' : FileTree} {path : Text} {content : Bytes}

end Write

end Deadwood.FileTree
