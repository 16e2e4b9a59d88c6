import ScreenEditor.Screen.Grid
import ScreenEditor.Text.Cluster
import ScreenEditor.Text.Width

/-!
# The status line

A row of a grid that shows a text in reverse video.  The lines of the text stand one behind the
other, each begun where the width of those before it ends; within a line every cluster takes as many
cells as it is wide, as far as the row goes.
-/

namespace ScreenEditor

/-- The lines of a text; `line` is the one being read, last character first. -/
def linesFrom (line : List Char) : List Char → List (List Char)
  | [] => if line = [] then [] else [line.reverse]
  | '\n' :: rest =>
    (if line.head? = some '\r' then line.tail else line).reverse :: linesFrom [] rest
  | c :: rest => linesFrom (c :: line) rest

/-- The lines of a text.  A line feed ends a line, together with a carriage return before it. -/
def textLines (chars : List Char) : List (List Char) := linesFrom [] chars

namespace Grid

/-- Change the text of a cell and leave its colours. -/
def modifyGlyph (g : Grid) (row col : Nat) (change : String → String) : Grid :=
  match g.cell? row col with
  | some cell => g.setCell row col { cell with glyph := change cell.glyph }
  | none => g

/-- Blank the cells that a cluster of the given width takes after its first. -/
def blankBehind (g : Grid) (row col width : Nat) : Grid :=
  (List.range' (col + 1) (width - 1)).foldl (fun g c => g.setCell row c Cell.blank) g

/-- Put a row in reverse video. -/
def reverseRow (g : Grid) (row : Nat) : Grid :=
  (List.range g.cols).foldl (fun g col =>
    match g.cell? row col with
    | some cell => g.setCell row col { cell with reversed := true }
    | none => g) g

/-- Go on with a line that began at column `start`, up to the first cluster that does not fit.  A
cluster that takes no cell is added to the cell before it, and so is what follows when the line
begins with such a cluster. -/
def writeClusters (g : Grid) (row start col : Nat) : List (List Char) → Grid
  | [] => g
  | cluster :: rest =>
    let width := textWidth cluster
    if g.cols < col + width then g
    else
      let glyph := String.ofList cluster
      let g :=
        if start < col ∧ width ≠ 0 then g.modifyGlyph row col fun _ => glyph
        else g.modifyGlyph row (max start (col - 1)) (· ++ glyph)
      writeClusters (g.blankBehind row col width) row start (col + width) rest

/-- Write a line into a row from a column on. -/
def writeLine (g : Grid) (row start : Nat) (line : List Char) : Grid :=
  match clusters line with
  | [] => g
  | cluster :: rest =>
    let width := textWidth cluster
    if g.cols < start + width then g
    else
      let g := g.modifyGlyph row start fun _ => String.ofList cluster
      (g.blankBehind row start width).writeClusters row start (start + width) rest

/-- Write lines into a row, one behind the other, as long as there is a column for the next. -/
def writeLines (g : Grid) (row start : Nat) : List (List Char) → Grid
  | [] => g
  | line :: rest =>
    let width := textWidth line
    if width = 0 then writeLines g row start rest
    else if g.cols ≤ start then g
    else writeLines (g.writeLine row start line) row (start + width) rest

/-- Show a text in a row, all of which is put in reverse video, unless the text takes no cell. -/
def writeStatus (g : Grid) (row : Nat) (text : String) : Grid :=
  let lines := textLines text.toList
  if lines.all fun line => textWidth line == 0 then g
  else (g.reverseRow row).writeLines row 0 lines

end Grid
end ScreenEditor
