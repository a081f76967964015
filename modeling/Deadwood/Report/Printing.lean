import Deadwood.Report.Basic
import Deadwood.Table
import Deadwood.Terminal

/-!
A report for people: a table for each kind of finding, then a summary.
-/
namespace Deadwood.Report

def cell (t : Text) : Text :=
  Markup.render (Markup.escape t)

def symbolTable (title : Text) (findings : List SymbolFinding) : Table where
  title := title
  columns := [⟨"Name", false⟩, ⟨"File", false⟩, ⟨"Line", true⟩]
  rows := findings.map fun f => [cell f.name, cell f.file, Text.ofInt f.line]

def packageTable (findings : List PackageFinding) : Table where
  title := "Unused Packages"
  columns := [⟨"Package", false⟩, ⟨"pubspec.yaml line", true⟩]
  rows := findings.map fun f => [cell f.name, Text.ofInt f.line]

def assetTable (findings : List AssetFinding) : Table where
  title := "Unused Assets"
  columns := [⟨"Asset Path", false⟩]
  rows := findings.map fun f => [cell f.path]

def tables (r : Report) : List Table :=
  (if r.classes.isEmpty then [] else [symbolTable "Unused Classes" r.classes]) ++
    (if r.methods.isEmpty then [] else [symbolTable "Unused Methods/Functions" r.methods]) ++
    (if r.packages.isEmpty then [] else [packageTable r.packages]) ++
    (if r.assets.isEmpty then [] else [assetTable r.assets])

def summary (r : Report) (root : Text) : List Text :=
  if r.isClean then ["[bold green]✓ Your project is clean![/bold green]"]
  else
    [Text.ofString "\n[bold yellow]Summary for[/bold yellow] " ++ Markup.escape root,
      Text.ofString "  Unused classes:  " ++ Text.ofNat r.classes.length,
      Text.ofString "  Unused methods:  " ++ Text.ofNat r.methods.length,
      Text.ofString "  Unused packages: " ++ Text.ofNat r.packages.length,
      Text.ofString "  Unused assets:   " ++ Text.ofNat r.assets.length]

def printed (r : Report) (terminal : Terminal) (root : Text) : List Text :=
  r.tables.map Table.text ++ (r.summary root).map terminal.say

end Deadwood.Report
