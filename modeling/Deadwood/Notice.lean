import Deadwood.Text.Basic

/-!
What a run tells about its own progress. A notice is an event; its level, its channel and its
wording follow from it.
-/
namespace Deadwood

inductive Notice where
  | brokenSource (file : Text) (defects : Nat)
  | unreadable (file : Text)
  | noSourceDirectory (name root : Text)
  | analyzed (files skipped : Nat)
  | noManifest (name root : Text)
  | manifestIgnored (path reason : Text)
  deriving DecidableEq, Repr

namespace Notice

inductive Level where
  | debug
  | info
  | warning
  deriving DecidableEq, Repr

def Level.name : Level → String
  | .debug => "DEBUG"
  | .info => "INFO"
  | .warning => "WARNING"

def Level.severity : Level → Nat
  | .debug => 10
  | .info => 20
  | .warning => 30

def level : Notice → Level
  | brokenSource .. | unreadable .. | noManifest .. | manifestIgnored .. => .debug
  | noSourceDirectory .. | analyzed .. => .info

def channel : Notice → String
  | noManifest .. | manifestIgnored .. => "manifest"
  | _ => "project"

def message : Notice → Text
  | brokenSource file defects =>
    file ++ ": " ++ Text.ofNat defects ++ " syntax error(s), using recovered tree"
  | unreadable file => "Skipping unreadable file " ++ file
  | noSourceDirectory name root => name ++ "/ directory not found in " ++ root ++ "; nothing to analyze"
  | analyzed files skipped =>
    "Analyzed " ++ Text.ofNat files ++ " file(s), skipped " ++ Text.ofNat skipped
  | noManifest name root => "No " ++ name ++ " in " ++ root
  | manifestIgnored path reason => "Ignoring " ++ path ++ ": " ++ reason

end Notice

end Deadwood
