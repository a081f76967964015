import Deadwood.Analysis

/-!
The tables of a whole project, merged from its files.
-/
namespace Deadwood

structure Index where
  declarations : List Declaration := []
  census : Census := {}
  packages : List Text := []
  literals : List Text := []
  analyzed : Nat := 0
  skipped : Nat := 0

namespace Index

def merge (index : Index) (analysis : FileAnalysis) : Index where
  declarations := index.declarations ++ analysis.declarations
  census := index.census.merge analysis.census
  packages := Text.addAll index.packages analysis.packages
  literals := Text.addAll index.literals analysis.literals
  analyzed := index.analyzed + 1
  skipped := index.skipped

def skip (index : Index) : Index :=
  { index with skipped := index.skipped + 1 }

/-- Takes in one result; a file that could not be read only counts as skipped. -/
def step (index : Index) : Option FileAnalysis → Index
  | some analysis => index.merge analysis
  | none => index.skip

def ofResults (results : List (Option FileAnalysis)) : Index :=
  results.foldl step {}

end Index

end Deadwood
