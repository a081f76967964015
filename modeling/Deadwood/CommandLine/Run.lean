import Deadwood.CommandLine.Arguments
import Deadwood.Project
import Deadwood.Report.Json
import Deadwood.Report.Printing
import Deadwood.Settings

/-!
What a run of the program does: its exit code, what it prints, and the file that it writes.
-/
namespace Deadwood.CommandLine

inductive Failure where
  | project (e : Project.Error)
  | refused (r : Disk.Refusal)
  | write (e : FileTree.WriteError)
  | encoding
  deriving DecidableEq, Repr

def Failure.message : Failure → Text
  | project e => e.message
  | refused r => r.message
  | write .noDirectory => "No such file or directory"
  | write .notADirectory => "Not a directory"
  | write .isDirectory => "Is a directory"
  | encoding => "surrogates not allowed"

/-- What the program relies on: parsers, and readers of arguments and of files of variables. -/
structure Libraries extends Project.Parsers where
  arguments : Reader
  environmentFiles : Environment.File.Reader

def Libraries.standard : Libraries where
  toParsers := .standard
  arguments := .standard
  environmentFiles := .standard

structure World where
  disk : Disk
  cwd : Text
  environment : Environment
  terminal : Terminal

def exitUsage : Nat := 64

def exitNoInput : Nat := 66

def exitArguments : Nat := 2

def exitFailure : Nat := 1

structure Outcome where
  exitCode : Nat
  stdout : Text := []
  stderr : Text := []
  written : Option (Text × Bytes) := none
  failure : Option Failure := none

namespace Outcome

def fail (o : Outcome) (e : Failure) : Outcome :=
  { o with exitCode := exitFailure, failure := some e }

def andThen (o : Outcome) (next : Outcome → Outcome) : Outcome :=
  if o.failure.isSome then o else next o

/-- A text is printed as a whole or not at all. -/
def print (t : Terminal) (o : Outcome) (text : Text) : Outcome :=
  o.andThen fun o =>
    if text.all t.takes then { o with stdout := o.stdout ++ text } else o.fail .encoding

/-- A file is emptied before its text is encoded. -/
def write (d : Disk) (path text : Text) (o : Outcome) : Outcome :=
  match d.refusal? .write path, d.tree.write path [] with
  | some r, _ => o.fail (.refused r)
  | none, .error e => o.fail (.write e)
  | none, .ok _ =>
    if text.any CodePoint.isSurrogate then { o.fail .encoding with written := some (path, []) }
    else { o with written := some (path, Utf8.encode text) }

end Outcome

def versionNumber : Text := "1.0.0"

/-- The content of the file of variables in the working directory. One that cannot be looked at
counts as missing; one that cannot be read does not. -/
def environmentFile (w : World) : Except Disk.Refusal (Option Bytes) :=
  let path := Path.join w.cwd ".env"
  if !w.disk.allows .look path then .ok none
  else
    match w.disk.tree.read? path, w.disk.refusal? .read path with
    | some _, some r => .error r
    | content, _ => .ok content

def jsonLine (r : Report) : Text :=
  r.jsonText ++ "\n"

def projectOptions (request : Audit) (s : Settings) : Project.Options where
  codeDir := s.codeDir
  manifestName := s.manifestName
  extraCallbacks := s.extraCallbacks
  workers := request.workers <|> s.workers

def missingCodeMessage (w : World) (codeDir root : Text) : Text :=
  w.terminal.say ("[yellow]" ++ Markup.escape codeDir ++ "/ directory not found in " ++
    Markup.escape root ++
    ". Make sure the target directory is a Flutter/Dart project.[/yellow]")

def announcement (w : World) (request : Audit) (root : Text) : List Text :=
  if request.asJson || request.output.isSome then []
  else
    [w.terminal.say
      ("[bold blue]Analyzing project:[/bold blue] " ++ Markup.escape root ++ "\n")]

def result (w : World) (request : Audit) (root : Text) (report : Report) : List Text :=
  if request.asJson then [jsonLine report]
  else
    match request.output with
    | some file =>
      [w.terminal.say ("[green]✓ Report written to " ++ Markup.escape (Path.clean file) ++
        "[/green]")]
    | none => report.printed w.terminal root

def outputPath (w : World) (file : Text) : Text :=
  Path.join w.cwd (Path.clean file)

def deliver (w : World) (request : Audit) (root : Text) (report : Report) (o : Outcome) : Outcome :=
  let o := match request.output with
    | some file => o.write w.disk (outputPath w file) (jsonLine report)
    | none => o
  (result w request root report).foldl (Outcome.print w.terminal) o

def auditProject (l : Libraries) (w : World) (request : Audit) (root : Text) (s : Settings) :
    Outcome :=
  let start : Outcome := { exitCode := 0 }
  match w.disk.isDir (Path.join root s.codeDir) with
  | .error r => start.fail (.refused r)
  | .ok hasCode =>
    let stderr := if hasCode then [] else missingCodeMessage w s.codeDir root
    let announced :=
      (announcement w request root).foldl (Outcome.print w.terminal) { start with stderr }
    announced.andThen fun o =>
      match Project.analyze l.toParsers w.disk w.cwd root (projectOptions request s) with
      | .error e => o.fail (.project e)
      | .ok outcome => deliver w request root outcome.report o

def audit (l : Libraries) (w : World) (request : Audit) : Outcome :=
  match request.path with
  | none | some [] =>
    { exitCode := exitUsage
      stderr := w.terminal.say "[bold red]Usage:[/bold red] dart-janitor audit <project_path>" }
  | some path =>
    let root := Path.clean (Path.join w.cwd path)
    match w.disk.isDir root with
    | .error r => Outcome.fail { exitCode := 0 } (.refused r)
    | .ok false =>
      { exitCode := exitNoInput
        stderr := w.terminal.say ("[bold red]Error:[/bold red] Directory not found: " ++
          Markup.escape path) }
    | .ok true =>
      match environmentFile w with
      | .error r => Outcome.fail { exitCode := 0 } (.refused r)
      | .ok file =>
        let session : Settings.Session := { reader := l.environmentFiles, environment := w.environment }
        match (session.get file).2 with
        | .error e =>
          { exitCode := exitUsage
            stderr := w.terminal.say ("[bold red]Configuration error:[/bold red] " ++
              Markup.escape e.message) }
        | .ok s => auditProject l w request root s

def run (l : Libraries) (w : World) (args : List Text) : Outcome :=
  match l.arguments.read? args with
  | none => { exitCode := exitArguments }
  | some .version => { exitCode := 0, stdout := versionNumber ++ "\n" }
  | some (.audit request) => audit l w request

end Deadwood.CommandLine
