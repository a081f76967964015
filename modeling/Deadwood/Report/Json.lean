import Deadwood.Report.Basic
import Deadwood.Text.Quoted

/-!
Reports as JSON documents. Objects keep the order of their members; a document is written over
several lines, two spaces per level, and only quotes, backslashes and control characters are
escaped.
-/
namespace Deadwood

inductive Json where
  | string (value : Text)
  | number (value : Int)
  | array (items : List Json)
  | object (members : List (Text × Json))

namespace Json

def escapeChar (c : CodePoint) : Text :=
  if c == '"' then "\\\""
  else if c == '\\' then "\\\\"
  else if c == '\n' then "\\n"
  else if c == '\r' then "\\r"
  else if c == '\t' then "\\t"
  else if c.val == 0x08 then "\\b"
  else if c.val == 0x0C then "\\f"
  else if c.val < 0x20 then "\\u" ++ Text.hexDigits 4 c.val
  else [c]

def writeString (t : Text) : Text :=
  "\"" ++ t.flatMap escapeChar ++ "\""

def newLine (level : Nat) : Text :=
  '\n' :: List.replicate (2 * level) (' ' : CodePoint)

def block (level : Nat) (opening closing : CodePoint) (lines : List Text) : Text :=
  if lines.isEmpty then [opening, closing]
  else
    [opening] ++ Text.join "," (lines.map (newLine (level + 1) ++ ·)) ++ newLine level ++ [closing]

mutual

def write (level : Nat) : Json → Text
  | string value => writeString value
  | number value => Text.ofInt value
  | array items => block level '[' ']' (writeItems (level + 1) items)
  | object members => block level '\x7b' '\x7d' (writeMembers (level + 1) members)

def writeItems (level : Nat) : List Json → List Text
  | [] => []
  | item :: items => write level item :: writeItems level items

def writeMembers (level : Nat) : List (Text × Json) → List Text
  | [] => []
  | (name, value) :: members =>
    (writeString name ++ ": " ++ write level value) :: writeMembers level members

end

end Json

def SymbolFinding.toJson (finding : SymbolFinding) : Json :=
  .object [("name", .string finding.name), ("file", .string finding.file),
    ("line", .number finding.line)]

def PackageFinding.toJson (finding : PackageFinding) : Json :=
  .object [("name", .string finding.name), ("line", .number finding.line)]

def AssetFinding.toJson (finding : AssetFinding) : Json :=
  .object [("path", .string finding.path)]

namespace Report

def toJson (report : Report) : Json :=
  .object [
    ("unused_classes", .array (report.classes.map SymbolFinding.toJson)),
    ("unused_methods", .array (report.methods.map SymbolFinding.toJson)),
    ("unused_packages", .array (report.packages.map PackageFinding.toJson)),
    ("unused_assets", .array (report.assets.map AssetFinding.toJson))]

def jsonText (report : Report) : Text :=
  report.toJson.write 0

end Report

end Deadwood
