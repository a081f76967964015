import Deadwood.Analysis
import Deadwood.Dart.Outline
import Deadwood.Manifest.Loading
import Deadwood.Pool
import Deadwood.Yaml.Construct

/-!
The analysis of a whole project on a disk.
-/
namespace Deadwood

namespace Project

inductive Error where
  | workers
  | path (e : Path.Error)
  | manifest (e : Manifest.Error)
  deriving DecidableEq, Repr

def Error.message : Error → Text
  | workers => "max_workers must be greater than 0"
  | path e => Text.ofString e.message
  | manifest e => e.message

/-- The parsers that an analysis relies on. The one for source always gives a tree, repaired where the
source is broken. -/
structure Parsers where
  yaml : Text → Except Yaml.Error Yaml.Value
  dart : Text → Node

def Parsers.standard : Parsers where
  yaml := Yaml.load
  dart := Dart.syntaxTree

/-- With fewer files it does not pay to share the work. -/
def parallelThreshold : Nat := 10

def isParallel (files : List Text) (workers : Option Int) : Bool :=
  parallelThreshold ≤ files.length && workers != some 1

def defaultWorkers : Nat := 32

/-- There are never more workers than files. -/
def workerCount (files : List Text) (workers : Option Int) : Nat :=
  min files.length (workers.elim defaultWorkers Int.toNat)

def mapFiles {α : Type} (files : List Text) (analyze : Text → α) (workers : Option Int) :
    Except Error (List α) :=
  if !isParallel files workers then .ok (files.map analyze)
  else if workers.any (· < 1) then .error .workers
  else .ok (Pool.complete analyze (workerCount files workers) files)

def analyzeFile (p : Parsers) (d : Disk) (excluded : List Text) (path : Text) :
    Option FileAnalysis :=
  ((d.read? path).bind Text.ofFile?).map (FileAnalysis.ofSource p.dart path excluded)

def buildIndex (p : Parsers) (d : Disk) (files excluded : List Text) (workers : Option Int) :
    Except Error Index :=
  (mapFiles files (analyzeFile p d excluded) workers).map Index.ofResults

def fileNotices (p : Parsers) (d : Disk) (path : Text) : List Notice :=
  match (d.read? path).bind Text.ofFile? with
  | none => [.unreadable path]
  | some source => (p.dart source).notices (Utf8.encode source) path

def sourceExtension : Text := ".dart"

structure Options where
  codeDir : Text := "lib"
  manifestName : Text := "pubspec.yaml"
  extraCallbacks : List Text := []
  workers : Option Int := none

structure Outcome where
  report : Report
  notices : List Notice

def hasCode (d : Disk) (root : Text) (options : Options) : Bool :=
  d.hasDir (Path.join root options.codeDir)

def sources (d : Disk) (cwd path : Text) (options : Options) : List Text :=
  d.sourceFiles cwd (Path.join (Path.absolute cwd path) options.codeDir) sourceExtension

def conclude (p : Parsers) (d : Disk) (cwd path : Text) (options : Options) (index : Index) :
    Except Error Outcome := do
  let root := Path.absolute cwd path
  let declared ← (Manifest.declared p.yaml d cwd root options.manifestName).mapError .manifest
  let report ← (index.report cwd root declared.packages declared.assets).mapError .path
  return ⟨report, (sources d cwd path options).flatMap (fileNotices p d) ++
    .analyzed index.analyzed index.skipped :: declared.notices⟩

def analyze (p : Parsers) (d : Disk) (cwd path : Text) (options : Options) :
    Except Error Outcome :=
  let root := Path.absolute cwd path
  if !hasCode d root options then
    .ok ⟨{}, [.noSourceDirectory options.codeDir root]⟩
  else do
    let excluded := frameworkCallbacks ++ options.extraCallbacks
    let index ← buildIndex p d (sources d cwd path options) excluded options.workers
    conclude p d cwd path options index

end Project

end Deadwood
