import Deadwood.Text.Printable

/-!
Quoted text, as it stands in messages and inside the text of lists and mappings. Single quotes
unless the text holds a single quote and no double quote; the quote in use and the backslash are
escaped, and so is everything that does not print.
-/
namespace Deadwood.Text

def hexDigits (width n : Nat) : Text :=
  let digits := (Nat.toDigits 16 n).map CodePoint.ofChar
  List.replicate (width - digits.length) ('0' : CodePoint) ++ digits

def quoteChar (quote c : CodePoint) : Text :=
  if c == quote || c == '\\' then ['\\', c]
  else if c == '\t' then "\\t"
  else if c == '\n' then "\\n"
  else if c == '\r' then "\\r"
  else if c.isPrintable then [c]
  else if c.val < 0x100 then "\\x" ++ hexDigits 2 c.val
  else if c.val < 0x10000 then "\\u" ++ hexDigits 4 c.val
  else "\\U" ++ hexDigits 8 c.val

def quoted (t : Text) : Text :=
  let quote : CodePoint := if t.any (· == '\'') && !t.any (· == '"') then '"' else '\''
  quote :: t.flatMap (quoteChar quote) ++ [quote]

end Deadwood.Text
