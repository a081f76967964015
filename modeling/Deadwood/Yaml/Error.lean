import Deadwood.Calendar
import Deadwood.Text.Quoted

/-!
What can go wrong when a document is read. Everything that is wrong with the document itself is one
cause; the others arise when a scalar does not write the value that its tag promises.
-/
namespace Deadwood.Yaml

inductive Error where
  | malformed
  | codePoint
  | integer (base : Nat) (text : Text)
  | decimal (text : Text)
  | emptyNumber
  | truth (word : Text)
  | timestamp
  | calendar (e : Calendar.Error)
  deriving DecidableEq, Repr

def Error.message : Error → Text
  | malformed => "Invalid YAML"
  | codePoint => "chr() arg not in range(0x110000)"
  | integer base text =>
    "invalid literal for int() with base " ++ Text.ofNat base ++ ": " ++ text.quoted
  | decimal text => "could not convert string to float: " ++ text.quoted
  | emptyNumber => "string index out of range"
  | truth word => word.quoted
  | timestamp => "'NoneType' object has no attribute 'groupdict'"
  | calendar e => Text.ofString e.message

end Deadwood.Yaml
