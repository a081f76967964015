import Deadwood.Markup
import Deadwood.Text.Width

/-!
Printing to a terminal. One that does not take UTF-8 gets plain substitutes for icons.
-/
namespace Deadwood

/-- A terminal by the name of its encoding, if it gives one, and by what it takes. No encoding has
surrogates. -/
structure Terminal where
  encoding : Option Text
  takes : CodePoint → Bool := fun c => !c.isSurrogate

namespace Terminal

/-- The encoding in small letters; without a name it is that of the locale. -/
def encodingName (t : Terminal) : Text :=
  match t.encoding with
  | none | some [] => "utf-8"
  | some name => name.toLower

def isUtf8 (t : Terminal) : Bool :=
  (t.encodingName.filter fun c : CodePoint => c != '-' && c != '_') == Text.ofString "utf8"

def icons : List (CodePoint × Text) :=
  [('✓', "[OK]"), ('✗', "[FAIL]"), ('⚠', "[WARN]"), ('→', "->"), ('•', "*"), ('…', "..."),
    ('🧹', "[janitor]"), ('📦', "[pkg]"), ('📄', "[file]"), ('🖼', "[asset]")]

def substituteIcons (text : Text) : Text :=
  text.flatMap fun c => (icons.lookup c).getD [c]

def sanitize (t : Terminal) (text : Text) : Text :=
  if t.isUtf8 then text else substituteIcons text

inductive Printed where
  | markup (text : Text)
  | plain (text : Text)

def Printed.render (t : Terminal) : Printed → Text
  | markup text => Markup.render (t.sanitize text)
  | plain text => text.filter (!Markup.isDropped ·)

def tabSize : Nat := 8

def expandTabs (column : Nat) : Text → Text
  | [] => []
  | c :: t =>
    if c == '\t' then
      let spaces := tabSize - column % tabSize
      List.replicate spaces (' ' : CodePoint) ++ expandTabs (column + spaces) t
    else c :: expandTabs (column + c.width) t

def print (t : Terminal) (things : List Printed) : Text :=
  let lines := (Text.join " " (things.map (Printed.render t))).split '\n'
  Text.join "\n" (lines.map (expandTabs 0)) ++ "\n"

def say (t : Terminal) (markup : Text) : Text :=
  t.print [.markup markup]

end Terminal

end Deadwood
