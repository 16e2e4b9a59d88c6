import ScreenEditor.View.Basic

/-!
# Following the caret

What a view repaints after a single byte was inserted or deleted at the caret, and after the caret
moved.  An edit repaints rows from the place of the edit down to the first row that ends where it
ended before, moved by the edit.  A caret that has left the window is followed row by row, and by a
new window around it when it is further away than the grid has rows.

`verticalTarget?`, `rowStartTarget` and `rowEndTarget` say where motions along the rows of the text
lead.
-/

namespace ScreenEditor

/-- An edit of one byte at the caret. -/
inductive ByteEdit where
  | insert
  | delete
  deriving DecidableEq, Repr

/-- Whether an offset behind the edit and the offset it had before are the same place. -/
def ByteEdit.aligns (e : ByteEdit) (new old : Nat) : Bool :=
  match e with
  | .insert => new == old + 1
  | .delete => new + 1 == old

namespace View

/-- Move the window one row towards the caret, if the row above can be found. -/
def scrollStep? (v : View) (g : GapBuffer) : Option View :=
  if g.caret < v.windowStart then
    (g.previousRowStart? v.cols v.windowStart (v.rows * v.cols)).map fun start =>
      { v with windowStart := start }.relayout g
  else some ({ v with windowStart := v.rowStart 1 }.relayout g)

/-- Move the window towards the caret, by at most so many rows. -/
def scroll (v : View) (g : GapBuffer) : Nat → View
  | 0 => v
  | n + 1 =>
    if v.showsCaret g then v
    else match v.scrollStep? g with
      | some v => v.scroll g n
      | none => v

/-- Bring the caret into the window and paint it. -/
def scrollToCaret (v : View) (g : GapBuffer) (selected : Option Span) : Repainted :=
  let v := v.scroll g v.rows
  if v.showsCaret g then v.redraw g selected else v.reformat g selected

/-- Lay rows out again after an edit and paint them, the first one from column `col` on, down to the
first that ends where it ended before.  `start` and `oldStart` are where the first row begins now
and began before the edit. -/
def patchRows (g : GapBuffer) (cols : Nat) (edit : ByteEdit) (row start oldStart col : Nat) :
    List Row → List Row × List Paint
  | [] => ([], [])
  | old :: rest =>
    let new := g.rowAt start cols
    let paints := paintRow g none row start (min col new.length) new.length
    if edit.aligns (start + new.extent) (oldStart + old.extent) then (new :: rest, paints)
    else
      let (rest, more) :=
        patchRows g cols edit (row + 1) (start + new.extent) (oldStart + old.extent) 0 rest
      (new :: rest, paints ++ more)

/-- Repaint after an edit at a row and column of the window. -/
def patch (v : View) (g : GapBuffer) (edit : ByteEdit) (row col : Nat) : Repainted :=
  let start := v.rowStart row
  let (rows, paints) := patchRows g v.cols edit row start start col (v.layout.drop row)
  let v := { v with layout := v.layout.take row ++ rows }
  andThen (v, paints) fun v =>
    if v.showsCaret g then v.placeCursor g else v.scrollToCaret g none

/-- Repaint after the byte before the caret was inserted. -/
def afterInsert (v : View) (g : GapBuffer) : Repainted :=
  v.patch g .insert v.cursor.1 v.cursor.2

/-- Repaint after the byte behind the caret was deleted. -/
def afterDeleteRight (v : View) (g : GapBuffer) : Repainted :=
  v.patch g .delete v.cursor.1 v.cursor.2

/-- Repaint after the byte before the caret was deleted.  At the left edge that byte belonged to the
row above: it was its terminator, or the last byte of a full row. -/
def afterDeleteLeft (v : View) (g : GapBuffer) : Repainted :=
  match v.cursor with
  | (row, col + 1) => v.patch g .delete row col
  | (row + 1, 0) =>
    let above := v.layout.getD row default
    v.patch g .delete row (if above.terminated then above.length else above.length - 1)
  | (0, 0) => v.reformat g none

/-- Repaint after the caret moved.  While something is selected, the rows between the old place of
the caret and the new one are painted again. -/
def afterMotion (v : View) (g : GapBuffer) (selected : Option Span) : Repainted :=
  match v.locate g.caret with
  | none => v.scrollToCaret g selected
  | some (row, _) =>
    let top := min v.cursor.1 row
    let bottom := max v.cursor.1 row
    let paints :=
      if selected.isSome then
        paintRows g selected top (v.rowStart top) ((v.layout.drop top).take (bottom + 1 - top))
      else []
    andThen (v, paints) (·.placeCursor g)

/-- Where the caret's row begins, and the column of the caret on it; rows are counted from the start
of the line when the caret is not in the window. -/
def caretRow (v : View) (g : GapBuffer) : Nat × Nat :=
  match v.locate g.caret with
  | some (row, col) => (v.rowStart row, col)
  | none =>
    let start := (g.rowStartsTo v.cols g.caret (g.lineStart 0 g.caret)).getLastD 0
    (start, g.caret - start)

/-- The start of the row so many rows above the one that begins at `start`, or of the first row. -/
def rowAbove (g : GapBuffer) (cols start : Nat) : Nat → Nat
  | 0 => start
  | n + 1 =>
    match g.previousRowStart? cols start start with
    | some start => rowAbove g cols start n
    | none => start

/-- The start of the row so many rows below the one that begins at `start`, or of the last row. -/
def rowBelow (g : GapBuffer) (cols start : Nat) : Nat → Nat
  | 0 => start
  | n + 1 =>
    match g.nextRowStart? cols start with
    | some start => rowBelow g cols start n
    | none => start

/-- Where the caret goes when it moves down by `rows` rows, or up when that is negative, keeping its
column as far as the row is long enough; none when there is no such row at all. -/
def verticalTarget? (v : View) (g : GapBuffer) (rows : Int) : Option Nat :=
  let (start, col) := v.caretRow g
  let target :=
    if rows < 0 then rowAbove g v.cols start rows.natAbs else rowBelow g v.cols start rows.natAbs
  if target = start then none else some (g.columnInRow v.cols target col)

/-- The start of the caret's row. -/
def rowStartTarget (v : View) (g : GapBuffer) : Nat := (v.caretRow g).1

/-- The last place for the caret on its row. -/
def rowEndTarget (v : View) (g : GapBuffer) : Nat :=
  g.columnInRow v.cols (v.caretRow g).1 v.cols

end View
end ScreenEditor
