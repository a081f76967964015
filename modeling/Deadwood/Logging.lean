import Deadwood.Notice

/-!
Where notices go. All parts of the program speak on channels below one name; setting up the output
replaces what was set up before.
-/
namespace Deadwood

structure Logger where
  name : Text
  level : Notice.Level := .warning
  propagates : Bool := true
  outputs : List Notice.Level := []

namespace Logger

def programName : Text := "dart_janitor"

def channelName : Option Text → Text
  | none | some [] => programName
  | some part => programName ++ "." ++ part

/-- The program's channel with one output, for warnings only unless all is to be told. -/
def configure (logger : Logger) (verbose : Bool) : Logger :=
  let level : Notice.Level := if verbose then .debug else .warning
  { logger with level, propagates := false, outputs := [level] }

end Logger

def Notice.logLine (n : Notice) : Text :=
  Text.ofString n.level.name ++ " " ++ Logger.channelName (some (Text.ofString n.channel)) ++ ": " ++
    n.message

end Deadwood
