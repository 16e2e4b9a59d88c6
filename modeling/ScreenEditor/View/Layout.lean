import ScreenEditor.Gap.Lemmas

/-!
# Laying a text out in rows

Every byte takes one cell.  A line terminator ends its row and takes no cell.  A row holds at most
`cols` bytes; a full row is always followed by a new row, even when the next byte is a terminator.
-/

namespace ScreenEditor

/-- One row of a layout: how many bytes it shows, and whether a terminator ends it. -/
structure Row where
  length : Nat
  terminated : Bool
  deriving DecidableEq, Repr

/-- How many bytes of text a row takes. -/
def Row.extent (r : Row) : Nat := r.length + r.terminated.toNat

instance : Inhabited Row := ⟨⟨0, false⟩⟩

/-- Whether a caret at `offset` stands on the row that begins at `start`.  Behind the last byte of a
full row it stands on the next row. -/
def Row.holds (r : Row) (cols start offset : Nat) : Bool :=
  offset < start + r.length || (offset == start + r.length && r.length < cols)

namespace GapBuffer

/-- The row that begins at an offset. -/
def rowAt (g : GapBuffer) (start : Nat) : Nat → Row
  | 0 => ⟨0, false⟩
  | cols + 1 =>
    match g.byteAt? start with
    | none => ⟨0, false⟩
    | some byte =>
      if byte = lineFeed then ⟨0, true⟩
      else
        let rest := g.rowAt (start + 1) cols
        { rest with length := rest.length + 1 }

/-- A row that ends on a terminator is not full. -/
theorem rowAt_length_lt {g : GapBuffer} {start cols : Nat}
    (h : (g.rowAt start cols).terminated = true) : (g.rowAt start cols).length < cols := by
  fun_induction rowAt g start cols with
  | case1 => simp at h
  | case2 => simp at h
  | case3 => simp
  | case4 start cols byte hb ne rest ih => simpa using ih h

/-- `count` rows, one after the other, from an offset on. -/
def rowsFrom (g : GapBuffer) (cols start : Nat) : Nat → List Row
  | 0 => []
  | count + 1 =>
    let row := g.rowAt start cols
    row :: g.rowsFrom cols (start + row.extent) count

@[simp] theorem length_rowsFrom (g : GapBuffer) (cols start count : Nat) :
    (g.rowsFrom cols start count).length = count := by
  induction count generalizing start with
  | zero => rfl
  | succ n ih => simp [rowsFrom, ih]

/-- The start of the line that holds an offset, looking back no further than `floor`. -/
def lineStart (g : GapBuffer) (floor : Nat) : Nat → Nat
  | 0 => 0
  | k + 1 =>
    if floor < k + 1 ∧ g.byteAt? k ≠ some lineFeed then g.lineStart floor k else k + 1

theorem lineStart_le (g : GapBuffer) (floor offset : Nat) : g.lineStart floor offset ≤ offset := by
  fun_induction lineStart g floor offset with
  | case1 => exact Nat.le_refl _
  | case2 k _ ih => omega
  | case3 => exact Nat.le_refl _

/-- The starts of the rows from `start` to the row on which a caret at `offset` stands. -/
def rowStartsTo (g : GapBuffer) (cols offset start : Nat) : List Nat :=
  let row := g.rowAt start cols
  if h : start < offset ∧ row.holds cols start offset = false ∧ row.extent ≠ 0 then
    have : offset - (start + row.extent) < offset - start := by omega
    start :: g.rowStartsTo cols offset (start + row.extent)
  else [start]
termination_by offset - start

/-- The starts of the rows from `start` up to, not including, `stop`. -/
def rowStartsBefore (g : GapBuffer) (cols stop start : Nat) : List Nat :=
  let row := g.rowAt start cols
  if h : start < stop ∧ row.extent ≠ 0 then
    have : stop - (start + row.extent) < stop - start := by omega
    start :: g.rowStartsBefore cols stop (start + row.extent)
  else if start < stop then [start]
  else []
termination_by stop - start

/-- Put the rows of earlier lines before `starts`, line by line, until more than `enough` rows are
there or the text from `floor` on is used up.  The first of `starts` is the start of a line. -/
def prependLines (g : GapBuffer) (cols floor enough line : Nat) (starts : List Nat) : List Nat :=
  if h : starts.length ≤ enough ∧ floor < line then
    let previous := g.lineStart floor (line - 1)
    have : previous < line :=
      Nat.lt_of_le_of_lt (g.lineStart_le floor (line - 1)) (Nat.sub_one_lt (by omega))
    g.prependLines cols floor enough previous (g.rowStartsBefore cols line previous ++ starts)
  else starts
termination_by line

/-- The start of the row before the one that begins at `start`.  Rows inside a line are full, so
only at the start of a line is the line before it looked for, at most `limit` bytes back; a longer
line gives no answer. -/
def previousRowStart? (g : GapBuffer) (cols start limit : Nat) : Option Nat :=
  if start = 0 then none
  else if g.byteAt? (start - 1) ≠ some lineFeed then some (start - cols)
  else
    let stop := start - 1
    let floor := stop - limit
    let line := g.lineStart floor stop
    if line = floor ∧ 0 < floor ∧ g.byteAt? (floor - 1) ≠ some lineFeed then none
    else some (line + (stop - line) / cols * cols)

/-- The start of the row after the one that begins at `start`, if that row is full or ends on a
terminator. -/
def nextRowStart? (g : GapBuffer) (cols start : Nat) : Option Nat :=
  let row := g.rowAt start cols
  if row.terminated ∨ row.length = cols then some (start + row.extent) else none

/-- Offset of a column in the row that begins at `start`, or of the last place for the caret on it
when the row is shorter. -/
def columnInRow (g : GapBuffer) (cols start col : Nat) : Nat :=
  let row := g.rowAt start cols
  start + min col (if row.length < cols then row.length else row.length - 1)

end GapBuffer
end ScreenEditor
