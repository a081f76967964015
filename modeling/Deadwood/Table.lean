import Deadwood.Text.Width

/-!
Tables in boxes. Every column is as wide as its widest line, with a space on either side; a title stands
centred above.
-/
namespace Deadwood

structure Table.Column where
  heading : Text
  alignRight : Bool := false

structure Table where
  title : Text
  columns : List Table.Column
  rows : List (List Text)

namespace Table

def spaces (n : Nat) : Text :=
  List.replicate n ' '

def widest (lines : List Text) : Nat :=
  (lines.map Text.width).foldl max 0

def widths (t : Table) : List Nat :=
  t.columns.zipIdx.map fun (column, i) =>
    max column.heading.width (widest (t.rows.flatMap fun row => Text.split '\n' ((row[i]?).getD [])))

def totalWidth (widths : List Nat) : Nat :=
  (widths.map (· + 2)).foldl (· + ·) 0 + widths.length + 1

def alignLine (column : Column) (width : Nat) (line : Text) : Text :=
  let free := spaces (width - line.width)
  if column.alignRight then free ++ line else line ++ free

def rule (left fill middle right : Text) (widths : List Nat) : Text :=
  left ++ Text.join middle (widths.map fun w => (List.replicate (w + 2) fill).flatten) ++ right

def line (side : Text) (columns : List (Column × Nat)) (cells : List Text) : Text :=
  side ++ Text.join side ((columns.zip cells).map fun ((column, width), cell) =>
    spaces 1 ++ alignLine column width cell ++ spaces 1) ++ side

def rowLines (side : Text) (columns : List (Column × Nat)) (cells : List Text) : List Text :=
  let split := cells.map (Text.split '\n')
  let height := (split.map List.length).foldl max 1
  (List.range height).map fun i => line side columns (split.map fun lines => (lines[i]?).getD [])

/-- Words put on lines no wider than `width`; a longer word has a line of its own. -/
def wrapWords (width : Nat) (current : Text) : List Text → List Text
  | [] => [current]
  | word :: words =>
    if current.isEmpty then wrapWords width word words
    else if current.width + 1 + word.width ≤ width then
      wrapWords width (current ++ " " ++ word) words
    else current :: wrapWords width word words

def centred (width : Nat) (text : Text) : Text :=
  let free := width - text.width
  spaces (free / 2) ++ text ++ spaces (free - free / 2)

def titleLines (width : Nat) (title : Text) : List Text :=
  (wrapWords width [] (title.split ' ')).map (centred width)

def lines (t : Table) : List Text :=
  let widths := t.widths
  let columns := t.columns.zip widths
  titleLines (totalWidth widths) t.title ++
    [rule "┏" "━" "┳" "┓" widths, line "┃" columns (t.columns.map (·.heading)),
      rule "┡" "━" "╇" "┩" widths] ++
    t.rows.flatMap (rowLines "│" columns) ++
    [rule "└" "─" "┴" "┘" widths]

def text (t : Table) : Text :=
  t.lines.flatMap (· ++ "\n")

end Table

end Deadwood
