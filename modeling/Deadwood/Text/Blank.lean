import Deadwood.Text.Basic

/-!
Blank characters: Unicode white space together with the four information separators. The zero
width space, the Mongolian vowel separator and the byte order mark are not blank.
-/
namespace Deadwood

def CodePoint.isBlank (c : CodePoint) : Bool :=
  let n := c.val
  (0x09 ≤ n && n ≤ 0x0D) || (0x1C ≤ n && n ≤ 0x20) || n == 0x85 || n == 0xA0 || n == 0x1680 ||
    (0x2000 ≤ n && n ≤ 0x200A) || n == 0x2028 || n == 0x2029 || n == 0x202F || n == 0x205F ||
    n == 0x3000

namespace Text

def stripLeft (t : Text) : Text :=
  t.dropWhile CodePoint.isBlank

def stripRight (t : Text) : Text :=
  (t.reverse.dropWhile CodePoint.isBlank).reverse

def strip (t : Text) : Text :=
  stripRight (stripLeft t)

def isBlank (t : Text) : Bool :=
  t.all CodePoint.isBlank

end Text

end Deadwood
