import Deadwood.Decimal.Reading
import Deadwood.Environment.File
import Deadwood.Text.Malformed

/-!
Settings come from environment variables. A session loads a file of variables before the first use and
keeps to that; the variables themselves are looked up each time.
-/
namespace Deadwood

structure Settings where
  codeDir : Text
  manifestName : Text
  workers : Option Int
  extraCallbacks : List Text
  deriving DecidableEq

namespace Settings

inductive Error where
  | workers (raw : Text)
  | environment (e : Environment.Error)
  | malformed (description : Text)
  deriving DecidableEq, Repr

def codeDirName : Text := "DART_JANITOR_CODE_DIR"

def manifestVariable : Text := "DART_JANITOR_MANIFEST"

def workersName : Text := "DART_JANITOR_WORKERS"

def extraCallbacksName : Text := "DART_JANITOR_EXTRA_CALLBACKS"

def Error.message : Error → Text
  | workers raw => workersName ++ " must be a positive integer, got " ++ raw.quoted
  | environment e => Text.ofString e.message
  | malformed description => description

/-- The number of workers; unset or blank means that there is no preference. -/
def readWorkers (env : Environment) : Except Error (Option Int) :=
  match env.get? workersName with
  | none => .ok none
  | some raw =>
    if raw.isBlank then .ok none
    else
      match Text.integer? 10 raw with
      | some n => if n < 1 then .error (.workers raw) else .ok (some n)
      | none => .error (.workers raw)

def readNames (raw : Text) : List Text :=
  (((raw.split ',').map Text.strip).filter (!·.isEmpty)).eraseDups

def readCodeDir (env : Environment) : Text :=
  (env.get? codeDirName).getD "lib"

def readManifestName (env : Environment) : Text :=
  (env.get? manifestVariable).getD "pubspec.yaml"

def readExtraCallbacks (env : Environment) : List Text :=
  readNames ((env.get? extraCallbacksName).getD [])

def read (env : Environment) : Except Error Settings := do
  let workers ← readWorkers env
  return {
    codeDir := readCodeDir env
    manifestName := readManifestName env
    workers
    extraCallbacks := readExtraCallbacks env }

def loadFile (reader : Environment.File.Reader) (env : Environment) (file : Option Bytes) :
    Environment × Option Error :=
  match file with
  | none => (env, none)
  | some content =>
    match Text.ofFile? content with
    | some text =>
      let (env, error) := Environment.File.load reader env text
      (env, error.map .environment)
    | none => (env, (Utf8.malformed? content).map fun m => .malformed m.message)

/-- Loads a file of variables and reads the settings. The variables stay loaded if that fails. -/
def load (reader : Environment.File.Reader) (env : Environment) (file : Option Bytes) :
    Environment × Except Error Settings :=
  match loadFile reader env file with
  | (env, some e) => (env, .error e)
  | (env, none) => (env, read env)

structure Session where
  reader : Environment.File.Reader := .standard
  environment : Environment := {}
  kept : Option Nat := none
  opened : Nat := 0

namespace Session

/-- The settings in use. They are opened if none are kept, and kept if that succeeds. -/
def get (s : Session) (file : Option Bytes) : Session × Except Error Settings :=
  match s.kept with
  | some _ => (s, read s.environment)
  | none =>
    match load s.reader s.environment file with
    | (env, .ok settings) =>
      ({ s with environment := env, kept := some s.opened, opened := s.opened + 1 }, .ok settings)
    | (env, .error e) => ({ s with environment := env }, .error e)

def openApart (s : Session) (file : Option Bytes) : Session × Except Error Settings :=
  let (env, result) := load s.reader s.environment file
  ({ s with environment := env }, result)

def reset (s : Session) : Session :=
  { s with kept := none }

end Session

end Settings

end Deadwood
