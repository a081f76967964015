import Deadwood.Index
import Deadwood.Path
import Deadwood.Report.Basic

/-!
What counts as used. A declaration is used when its name occurs more often than it is declared in
the same kind; a package when some URI names it; an asset when a string literal holds its path, its
file name or, if that is long enough to mean something, its file name without the extension.
-/
namespace Deadwood

structure DeclaredPackage where
  name : Text
  line : Int
  deriving DecidableEq, Repr

/-- Stems shorter than this occur in too much unrelated text. -/
def minStemLength : Nat := 4

def assetNeedles (asset : Text) : List Text :=
  let name := Path.baseName asset
  let stem := (Path.splitExtension name).1
  [asset, name] ++ if minStemLength ≤ stem.length then [stem] else []

namespace Index

def declaredCount (index : Index) (kind : Declaration.Kind) (name : Text) : Nat :=
  index.declarations.countP fun d => d.kind == kind && d.name == name

/-- Every occurrence of the name is the name of a declaration. -/
def isUnused (index : Index) (d : Declaration) : Bool :=
  index.census.count d.name ≤ index.declaredCount d.kind d.name

def symbolFinding (cwd root : Text) (d : Declaration) : Except Path.Error SymbolFinding :=
  (Path.relative cwd d.file root).map fun file => ⟨d.name, Path.forwardSlashes file, d.line⟩

def unusedSymbols (index : Index) (cwd root : Text) (kind : Declaration.Kind) :
    Except Path.Error (List SymbolFinding) :=
  (index.declarations.filter fun d => d.kind == kind && index.isUnused d).mapM
    (symbolFinding cwd root)

/-- Declared packages that nothing imports, by name; equal names keep their order. -/
def unusedPackages (index : Index) (declared : List DeclaredPackage) : List PackageFinding :=
  ((declared.filter fun package => !index.packages.contains package.name).map fun package =>
    ⟨package.name, package.line⟩).mergeSort fun a b => Text.le a.name b.name

def mentions (index : Index) (asset : Text) : Bool :=
  index.literals.any fun literal => (assetNeedles asset).any (Text.contains · literal)

def unusedAssets (index : Index) (declared : List Text) : List AssetFinding :=
  (declared.filter fun asset => !index.mentions asset).map AssetFinding.mk

def report (index : Index) (cwd root : Text) (packages : List DeclaredPackage)
    (assets : List Text) : Except Path.Error Report := do
  let classes ← index.unusedSymbols cwd root .classType
  let methods ← index.unusedSymbols cwd root .method
  return ⟨classes, methods, index.unusedPackages packages, index.unusedAssets assets⟩

end Index

end Deadwood
