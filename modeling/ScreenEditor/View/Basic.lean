import ScreenEditor.View.Layout
import ScreenEditor.Screen.Grid
import ScreenEditor.Selection

/-!
# Views

A view shows a window of a text on a grid of `rows` by `cols` cells.  It remembers where the window
begins, the layout of its rows and where the caret stands on them.  Every function that changes what
is to be seen gives the new view and the painting commands that bring the grid in step with it.

Here are the ways to show the whole window again: from a given start (`redrawAt`), from the current
start if the caret is on it (`refresh`), and from a start chosen around the caret (`reformat`).
-/

namespace ScreenEditor

/-- A byte as shown on the grid: printable ASCII as itself and anything else as a full stop. -/
def displayByte (b : UInt8) : UInt8 := if 0x20 ≤ b ∧ b ≤ 0x7E then b else 0x2E

/-- The window of a text on the grid. -/
structure View where
  rows : Nat
  cols : Nat
  preferredRow : Nat
  windowStart : Nat
  layout : List Row
  cursor : Nat × Nat
  deriving Repr

/-- A view and the painting commands that bring the grid in step with it. -/
abbrev Repainted := View × List Paint

namespace View

/-- A view that shows nothing yet.  It has at least one row and one column. -/
def new (rows cols preferredRow : Nat) : View where
  rows := max rows 1
  cols := max cols 1
  preferredRow := min preferredRow (max rows 1 - 1)
  windowStart := 0
  layout := List.replicate (max rows 1) ⟨0, false⟩
  cursor := (0, 0)

/-- Content offset at which a row of the window begins. -/
def rowStart (v : View) (row : Nat) : Nat :=
  (v.layout.take row).foldl (fun start r => start + r.extent) v.windowStart

/-- The row and column of an offset in rows that begin at `start`, counted from `row`. -/
def locateIn (cols offset row start : Nat) : List Row → Option (Nat × Nat)
  | [] => none
  | r :: rest =>
    if r.holds cols start offset then some (row, offset - start)
    else locateIn cols offset (row + 1) (start + r.extent) rest

/-- The row and column of an offset, if it is in the window. -/
def locate (v : View) (offset : Nat) : Option (Nat × Nat) :=
  if offset < v.windowStart then none else locateIn v.cols offset 0 v.windowStart v.layout

/-- Whether the caret is in the window. -/
def showsCaret (v : View) (g : GapBuffer) : Bool := (v.locate g.caret).isSome

/-- Lay the window out anew. -/
def relayout (v : View) (g : GapBuffer) : View :=
  { v with layout := g.rowsFrom v.cols v.windowStart v.rows }

/-- Paint one row of `length` bytes from a column on, and blank the rest of it. -/
def paintRow (g : GapBuffer) (selected : Option Span) (row start col length : Nat) : List Paint :=
  ((List.range' col (length - col)).map fun c =>
    let raw := g.rawIndex (start + c)
    .put row c (displayByte (g.readAt raw)) (highlighted selected g.gapBegin g.free raw))
  ++ [.clearToEnd row length]

/-- Paint rows that begin at `start`, counted from `row`. -/
def paintRows (g : GapBuffer) (selected : Option Span) (row start : Nat) : List Row → List Paint
  | [] => []
  | r :: rest =>
    paintRow g selected row start 0 r.length
      ++ paintRows g selected (row + 1) (start + r.extent) rest

/-- Note where the caret stands, if it is in the window. -/
def placeCursor (v : View) (g : GapBuffer) : Repainted :=
  match v.locate g.caret with
  | some place => ({ v with cursor := place }, [.cursor place.1 place.2])
  | none => (v, [])

/-- Do something more to a view that is being repainted. -/
@[inline] def andThen (r : Repainted) (f : View → Repainted) : Repainted :=
  let (v, paints) := f r.1
  (v, r.2 ++ paints)

/-- Begin the window at an offset, or at the end of a shorter text, and lay it out. -/
def moveWindow (v : View) (g : GapBuffer) (start : Nat) : View :=
  { v with windowStart := min start g.length }.relayout g

/-- Paint every row of the window from its current start. -/
def redraw (v : View) (g : GapBuffer) (selected : Option Span) : Repainted :=
  let v := v.moveWindow g v.windowStart
  andThen (v, paintRows g selected 0 v.windowStart v.layout) (·.placeCursor g)

/-- Paint the window from a given start. -/
def redrawAt (v : View) (g : GapBuffer) (selected : Option Span) (start : Nat) : Repainted :=
  { v with windowStart := start }.redraw g selected

/-- The start of the window that puts the caret on the preferred row.  The text is looked back over
as far as the grid has cells; when too little text precedes the caret, the window begins where that
look ends. -/
def startAround (v : View) (g : GapBuffer) : Nat :=
  let floor := g.caret - v.rows * v.cols
  let line := g.lineStart floor g.caret
  let starts :=
    g.prependLines v.cols floor v.preferredRow line (g.rowStartsTo v.cols g.caret line)
  starts.getD (starts.length - 1 - v.preferredRow) 0

/-- Choose the window around the caret and paint it. -/
def reformat (v : View) (g : GapBuffer) (selected : Option Span) : Repainted :=
  v.redrawAt g selected (v.startAround g)

/-- Paint the window from its current start if the caret is in it, and from a start chosen around
the caret otherwise. -/
def refresh (v : View) (g : GapBuffer) (selected : Option Span) : Repainted :=
  let v := v.moveWindow g v.windowStart
  if v.showsCaret g then v.redraw g selected else v.reformat g selected

end View
end ScreenEditor
