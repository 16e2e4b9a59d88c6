/-!
# Cell grids

A grid of character cells with a cursor.  Callers paint it with three commands: put a byte into a
cell, plain or in reverse video, clear the rest of a row, and place the cursor.  Cells are addressed
by 16-bit coordinates, so a row or column counts modulo 65536, and painting outside the grid does
nothing; the cursor is kept as given.
-/

namespace ScreenEditor

/-- One cell: the text it shows and whether it is in reverse video. -/
structure Cell where
  glyph : String
  reversed : Bool
  deriving DecidableEq, Repr

/-- A cell that shows nothing. -/
def Cell.blank : Cell := ⟨" ", false⟩

instance : Inhabited Cell := ⟨Cell.blank⟩

/-- A painting command. -/
inductive Paint where
  | put (row col : Nat) (byte : UInt8) (reverse : Bool)
  | clearToEnd (row col : Nat)
  | cursor (row col : Nat)
  deriving DecidableEq, Repr

/-- A coordinate as cells are addressed. -/
def coordinate (n : Nat) : Nat := n % 65536

/-- Cells row by row, the cursor, and whether the bytes put next are in reverse video. -/
structure Grid where
  rows : Nat
  cols : Nat
  cells : Array Cell
  reverse : Bool
  cursor : Nat × Nat

namespace Grid

/-- A grid of blank cells. -/
def blank (rows cols : Nat) : Grid where
  rows := coordinate rows
  cols := coordinate cols
  cells := Array.replicate (coordinate rows * coordinate cols) Cell.blank
  reverse := false
  cursor := (0, 0)

/-- Where the cell at a row and column is kept, if the grid has it. -/
def index? (g : Grid) (row col : Nat) : Option Nat :=
  if coordinate row < g.rows ∧ coordinate col < g.cols then
    some (coordinate row * g.cols + coordinate col)
  else none

/-- The cell at a row and column, if the grid has it. -/
def cell? (g : Grid) (row col : Nat) : Option Cell :=
  (g.index? row col).map (g.cells.getD · default)

/-- Put a cell at a row and column, if the grid has them. -/
def setCell (g : Grid) (row col : Nat) (cell : Cell) : Grid :=
  match g.index? row col with
  | some i => { g with cells := g.cells.setIfInBounds i cell }
  | none => g

/-- Choose whether the bytes put next are in reverse video. -/
def setReverse (g : Grid) (on : Bool) : Grid := { g with reverse := on }

/-- Put a byte into a cell, shown as the character with that code. -/
def put (g : Grid) (row col : Nat) (byte : UInt8) : Grid :=
  g.setCell row col ⟨String.singleton (Char.ofNat byte.toNat), g.reverse⟩

/-- Put bytes into cells at increasing columns. -/
def putAll (g : Grid) (row col : Nat) (bytes : List UInt8) : Grid :=
  bytes.zipIdx.foldl (fun g b => g.put row (col + b.2) b.1) g

/-- Blank a row from a column on. -/
def clearToEnd (g : Grid) (row col : Nat) : Grid :=
  (List.range' col (g.cols - col)).foldl (fun g c => g.setCell row c Cell.blank) g

/-- Place the cursor. -/
def placeCursor (g : Grid) (row col : Nat) : Grid := { g with cursor := (row, col) }

/-- Obey a painting command; clearing ends reverse video. -/
def paint (g : Grid) : Paint → Grid
  | .put row col byte on => (g.setReverse on).put row col byte
  | .clearToEnd row col => (g.setReverse false).clearToEnd row col
  | .cursor row col => g.placeCursor row col

/-- Obey painting commands in turn. -/
def paintAll (g : Grid) (paints : List Paint) : Grid := paints.foldl paint g

/-- What a row shows, blanks at its end included. -/
def rowText (g : Grid) (row : Nat) : String :=
  String.join ((List.range g.cols).map fun col => ((g.cell? row col).map (·.glyph)).getD "")

/-- What each row shows. -/
def lines (g : Grid) : List String := (List.range g.rows).map g.rowText

/-- Whether a cell is in reverse video. -/
def isReversed (g : Grid) (row col : Nat) : Bool := ((g.cell? row col).map (·.reversed)).getD false

/-- Copy a grid into this one, its upper left corner at a row and column, as far as an area of the
given size shows it. -/
def overlay (g source : Grid) (row col height width : Nat) : Grid :=
  (List.range (min source.rows height)).foldl (fun g r =>
    (List.range (min source.cols width)).foldl (fun g c =>
      match source.cell? r c with
      | some cell => if row + r < 65536 ∧ col + c < 65536 then
          g.setCell (row + r) (col + c) cell else g
      | none => g) g) g

end Grid

/-- A grid and the commands that painted it, in order. -/
structure Screen where
  grid : Grid
  painted : Array Paint

namespace Screen

/-- A screen of blank cells. -/
def blank (rows cols : Nat) : Screen := ⟨Grid.blank rows cols, #[]⟩

/-- Obey painting commands and remember them. -/
def paint (s : Screen) (paints : List Paint) : Screen :=
  ⟨s.grid.paintAll paints, s.painted ++ paints.toArray⟩

/-- Forget which commands painted the grid. -/
def forget (s : Screen) : Screen := { s with painted := #[] }

end Screen
end ScreenEditor
