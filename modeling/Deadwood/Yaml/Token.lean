import Deadwood.Text.Basic

/-!
The tokens of a document. Where block collections start and end is told by tokens too.
-/
namespace Deadwood.Yaml

inductive Directive where
  | version (major : Nat)
  | handle (name expansion : Text)
  | unknown
  deriving DecidableEq, Repr

inductive Token where
  | directive (d : Directive)
  | documentStart
  | documentEnd
  | streamEnd
  | blockSequenceStart
  | blockMappingStart
  | blockEnd
  | flowSequenceStart
  | flowSequenceEnd
  | flowMappingStart
  | flowMappingEnd
  | flowEntry
  | blockEntry
  | key
  | value
  | alias (name : Text)
  | anchor (name : Text)
  | tag (handle : Option Text) (suffix : Text)
  | scalar (text : Text) (plain : Bool)
  deriving DecidableEq, Repr

end Deadwood.Yaml
