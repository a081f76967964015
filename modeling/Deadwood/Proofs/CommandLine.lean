import Deadwood.CommandLine.Run
import Deadwood.Proofs.FailSoft
import Deadwood.Proofs.FileTree.Writing
import Deadwood.Proofs.Settings
import Deadwood.Proofs.Workers

/-!
What a run of the program leaves behind. An audit that is refused prints no report and changes
nothing; any other prints or writes the report of the project, which depends on the project and the
settings only.
-/
namespace Deadwood.CommandLine

open Deadwood.Project (Parsers)

variable {l : Libraries} {w : World} {args : List Text} {request : Audit} {path : Text}
  {s : Settings} {o : Outcome} {report : Report}

/-! ### What an audit is about -/

def root (w : World) (path : Text) : Text :=
  Path.clean (Path.join w.cwd path)

/-- The settings, unless the file of variables cannot be read. -/
def settings (l : Libraries) (w : World) : Except Disk.Refusal (Except Settings.Error Settings) :=
  (environmentFile w).map fun file => (Settings.load l.environmentFiles w.environment file).2

/-- The analysis of a project by the settings alone. -/
def analysis (l : Libraries) (w : World) (path : Text) (s : Settings) :
    Except Project.Error Project.Outcome :=
  Project.analyze l.toParsers w.disk w.cwd (root w path)
    { codeDir := s.codeDir, manifestName := s.manifestName, extraCallbacks := s.extraCallbacks }

def Outcome.tree (o : Outcome) (w : World) : FileTree :=
  match o.written with
  | none => w.disk.tree
  | some (path, content) =>
    match w.disk.tree.write path content with
    | .ok t => t
    | .error _ => w.disk.tree

def Takes (t : Terminal) (texts : List Text) : Prop :=
  ∀ text ∈ texts, ∀ c ∈ text, t.takes c

structure Audit.Names (request : Audit) (w : World) (path : Text) : Prop where
  given : request.path = some path
  ne_nil : path ≠ []
  isDir : w.disk.isDir (root w path) = .ok true

def World.Faulty (l : Libraries) (w : World) : Prop :=
  ∃ file, environmentFile w = .ok file ∧ Settings.Faulty l.environmentFiles w.environment file

theorem Audit.Names.eq {other : Text} (h : request.Names w path) (h' : request.Names w other) :
    path = other :=
  Option.some.inj (h.given.symm.trans h'.given)

structure Legible (w : World) (request : Audit) (path : Text) (report : Report) : Prop where
  printed : Takes w.terminal
    (announcement w request (root w path) ++ result w request (root w path) report)
  written : request.output.isSome → ∀ c ∈ report.jsonText, c.isSurrogate = false

theorem Legible.jsonLine (h : Legible w request path report) (houtput : request.output.isSome) :
    ∀ c ∈ jsonLine report, c.isSurrogate = false := by
  intro c hc
  rcases List.mem_append.mp hc with hc | hc
  · exact h.written houtput c hc
  · rw [List.mem_singleton.mp hc]
    rfl

end Deadwood.CommandLine
