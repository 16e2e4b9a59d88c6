import ScreenEditor.Proofs.Screen.Painting
import ScreenEditor.Proofs.View.Rows
import ScreenEditor.View.Basic

/-!
# The picture of a window

What a window of a text looks like, cell by cell: a cell shows the byte at some offset
(`shownOffset?`), in reverse video if that offset is selected, or it shows nothing (`shownCell`).
Painting rows makes this picture, whatever the grid showed before (`cell?_paintRows`).
-/

namespace ScreenEditor

/-- The text of the cell that shows a byte. -/
def byteGlyph (b : UInt8) : String := String.singleton (Char.ofNat (displayByte b).toNat)

/-- Whether an offset is selected. -/
def marked (selected : Option Span) (offset : Nat) : Bool := selected.any (·.contains offset)

/-- The offset of the byte that a cell shows, if it shows one, in rows that begin at `start`. -/
def shownOffset? (cols : Nat) (text : List UInt8) (start row col : Nat) : Option Nat :=
  let rowStart := start + extentOf (rowsOf cols (text.drop start) row)
  if col < (firstRow cols (text.drop rowStart)).length then some (rowStart + col) else none

/-- The cell that shows the byte at an offset, or nothing. -/
def shownCell (text : List UInt8) (selected : Option Span) : Option Nat → Cell
  | some offset => ⟨byteGlyph (text.getD offset 0), marked selected offset⟩
  | none => Cell.blank

theorem reversed_shownCell (text : List UInt8) (selected : Option Span) (offset? : Option Nat) :
    (shownCell text selected offset?).reversed = offset?.any (marked selected) := by
  cases offset? <;> rfl

/-! ## Rows -/

section Rows

variable {cols : Nat} {text : List UInt8}

theorem shownOffset?_zero (start col : Nat) :
    shownOffset? cols text start 0 col
      = if col < (firstRow cols (text.drop start)).length then some (start + col) else none := rfl

/-- Rows further down are counted from a row on the way. -/
theorem shownOffset?_add (start m n col : Nat) :
    shownOffset? cols text start (m + n) col
      = shownOffset? cols text (start + extentOf (rowsOf cols (text.drop start) m)) n col := by
  simp only [shownOffset?, rowsOf_add, extentOf_append, List.drop_drop, Nat.add_assoc]

/-- The first row takes its bytes, and the rows below go on behind it. -/
theorem shownOffset?_succ (start row col : Nat) :
    shownOffset? cols text start (row + 1) col
      = shownOffset? cols text (start + (firstRow cols (text.drop start)).extent) row col := by
  rw [Nat.add_comm row 1, shownOffset?_add]
  rfl

end Rows

/-! ## Bytes -/

namespace GapBuffer

variable (g : GapBuffer)

/-- A cell is read through the gap. -/
theorem readAt_rawIndex {k : Nat} (h : k < g.length) :
    g.readAt (g.rawIndex k) = g.content.getD k 0 := by
  have hbyte := g.byteAt?_eq k
  rw [byteAt?, if_pos h] at hbyte
  rw [List.getD_eq_getElem?_getD, ← hbyte, Option.getD_some]

/-- The highlight is looked up through the gap as well. -/
theorem highlighted_rawIndex (selected : Option Span) (k : Nat) :
    highlighted selected g.gapBegin g.free (g.rawIndex k) = marked selected k := by
  cases selected with
  | none => rfl
  | some span =>
      rw [highlighted, marked, Option.any_some, rawIndex]
      split
      · rfl
      · next hge =>
        rw [if_neg (by omega)]
        simp only [Span.contains, Nat.add_le_add_iff_right, Nat.add_lt_add_iff_right]

end GapBuffer

/-! ## Painting rows -/

variable {grid : Grid} {rows cols : Nat} {g : GapBuffer} {selected : Option Span}

/-- Painting a row from a column on leaves the cells before it, puts the bytes, and blanks the
rest. -/
theorem cell?_paintRow (h : grid.Sized rows cols) {row start col length : Nat} (hrow : row < rows)
    (hcol : col ≤ length) (hlen : length ≤ cols) (htext : start + length ≤ g.length) {r c : Nat}
    (hr : r < rows) (hc : c < cols) :
    (grid.paintAll (View.paintRow g selected row start col length)).cell? r c
      = if r = row ∧ col ≤ c then
          some (shownCell g.content selected (if c < length then some (start + c) else none))
        else grid.cell? r c := by
  have hfit : col + (length - col) ≤ cols := by omega
  have hputs := Grid.cell?_puts h hrow (fun c => displayByte (g.readAt (g.rawIndex (start + c))))
    (fun c => highlighted selected g.gapBegin g.free (g.rawIndex (start + c))) hfit hr hc
  have hsized := Grid.sized_paintAll h ((List.range' col (length - col)).map fun c =>
    .put row c (displayByte (g.readAt (g.rawIndex (start + c))))
      (highlighted selected g.gapBegin g.free (g.rawIndex (start + c))))
  have hclear : ∀ grid' : Grid, grid'.paintAll [.clearToEnd row length]
      = (grid'.setReverse false).clearToEnd row length := fun _ => rfl
  have hreverse : ∀ grid' : Grid, (grid'.setReverse false).cell? r c = grid'.cell? r c :=
    fun _ => rfl
  rw [View.paintRow, Grid.paintAll_append, hclear,
    Grid.cell?_clearToEnd (Grid.sized_setReverse hsized false) hrow hr hc, hreverse, hputs]
  by_cases hrr : r = row ∧ col ≤ c
  · rw [if_pos hrr]
    by_cases hcl : c < length
    · rw [if_neg (by omega), if_pos (by omega), if_pos hcl, g.readAt_rawIndex (by omega),
        g.highlighted_rawIndex]
      rfl
    · rw [if_pos (by omega), if_neg hcl]
      rfl
  · rw [if_neg hrr, if_neg (by omega), if_neg (by omega)]

/-- **Painting rows makes their picture** and leaves the other rows as they are.  The induction is
on the rows; each is painted behind the one above it. -/
theorem cell?_paintRows (h : grid.Sized rows cols) {row start n : Nat} (hstart : start ≤ g.length)
    (hrow : row + n ≤ rows) {r c : Nat} (hr : r < rows) (hc : c < cols) :
    (grid.paintAll (View.paintRows g selected row start
      (rowsOf cols (g.content.drop start) n))).cell? r c
      = if row ≤ r ∧ r < row + n then
          some (shownCell g.content selected (shownOffset? cols g.content start (r - row) c))
        else grid.cell? r c := by
  induction n generalizing grid row start with
  | zero => exact (if_neg (by omega)).symm
  | succ n ih =>
      have hlen := length_firstRow_le_cols cols (g.content.drop start)
      have hext := extent_firstRow_le cols (g.content.drop start)
      have hle := length_le_extent (firstRow cols (g.content.drop start))
      rw [List.length_drop, g.length_content] at hext
      have hsized := Grid.sized_paintAll h (View.paintRow g selected row start 0
        (firstRow cols (g.content.drop start)).length)
      rw [rowsOf, View.paintRows, Grid.paintAll_append, List.drop_drop,
        ih hsized (by omega) (by omega),
        cell?_paintRow h (by omega) (Nat.zero_le _) hlen (by omega) hr hc]
      rcases Nat.lt_trichotomy r row with hlt | rfl | hgt
      · rw [if_neg (by omega), if_neg (by omega), if_neg (by omega)]
      · rw [if_neg (by omega), if_pos ⟨rfl, Nat.zero_le c⟩, Nat.sub_self, shownOffset?_zero,
          if_pos (⟨Nat.le_refl r, by omega⟩ : r ≤ r ∧ r < r + (n + 1))]
      · obtain ⟨k, rfl⟩ := Nat.exists_eq_add_of_lt hgt
        have hbelow : row + k + 1 - row = k + 1 := by omega
        have hrest : row + k + 1 - (row + 1) = k := by omega
        rw [hbelow, hrest, shownOffset?_succ]
        by_cases hin : k < n
        · rw [if_pos (by omega), if_pos (by omega)]
        · rw [if_neg (by omega), if_neg (by omega), if_neg (by omega)]

end ScreenEditor
