import Deadwood.Settings

/-!
Where settings live: a session, with the file of variables beside it. Variables are set and unset,
the file is written and deleted, and settings are asked for and dropped, in any order.
-/
namespace Deadwood

structure Host where
  session : Settings.Session := {}
  file : Option Bytes := none

namespace Host

inductive Action where
  | set (name value : Text)
  | unset (name : Text)
  | write (content : Bytes)
  | delete
  | get
  | reset
  deriving DecidableEq, Repr

def start (reader : Environment.File.Reader) (env : Environment) (file : Option Bytes) : Host where
  session := { reader, environment := env }
  file := file

def environment (host : Host) : Environment :=
  host.session.environment

def reader (host : Host) : Environment.File.Reader :=
  host.session.reader

def withEnvironment (host : Host) (env : Environment) : Host :=
  { host with session := { host.session with environment := env } }

def isCached (host : Host) : Bool :=
  host.session.kept.isSome

def settings (host : Host) : Except Settings.Error Settings :=
  (host.session.get host.file).2

/-- A variable that cannot be set stays as it is. -/
def step (host : Host) : Action → Host
  | .set name value =>
    match host.environment.setChecked name value with
    | .ok env => host.withEnvironment env
    | .error _ => host
  | .unset name => host.withEnvironment (host.environment.unset name)
  | .write content => { host with file := some content }
  | .delete => { host with file := none }
  | .get => { host with session := (host.session.get host.file).1 }
  | .reset => { host with session := host.session.reset }

def run (host : Host) (actions : List Action) : Host :=
  actions.foldl step host

end Host

end Deadwood
