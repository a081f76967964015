import Deadwood.Text.Basic

/-!
What an analysis found: unused classes, methods, packages and assets.
-/
namespace Deadwood

structure SymbolFinding where
  name : Text
  file : Text
  line : Int
  deriving DecidableEq, Repr

structure PackageFinding where
  name : Text
  line : Int
  deriving DecidableEq, Repr

structure AssetFinding where
  path : Text
  deriving DecidableEq, Repr

structure Report where
  classes : List SymbolFinding := []
  methods : List SymbolFinding := []
  packages : List PackageFinding := []
  assets : List AssetFinding := []
  deriving DecidableEq, Repr

namespace Report

def total (report : Report) : Nat :=
  report.classes.length + report.methods.length + report.packages.length + report.assets.length

def isClean (report : Report) : Bool :=
  report.total == 0

end Report

end Deadwood
