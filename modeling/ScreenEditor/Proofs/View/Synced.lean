import ScreenEditor.Proofs.View.Picture

/-!
# A grid in step with a text

`View.Synced` says that a view and a grid are in step with a text: the layout is that of the window,
the caret is located where the view remembers it, the cursor of the grid is there too, and every
cell shows its byte.  Painting the whole window brings that about, whatever the grid showed before,
as long as the caret is in the window (`View.synced_redraw`).
-/

namespace ScreenEditor

/-- The text of a cell on a row of a text. -/
def rowGlyph (text : List UInt8) (r : Row) (col : Nat) : String :=
  if col < r.length then byteGlyph (text.getD col 0) else " "

/-- A row of the grid shows a row of a text. -/
def ShowsRow (grid : Grid) (row : Nat) (text : List UInt8) (r : Row) : Prop :=
  ∀ col < grid.cols, grid.glyph row col = rowGlyph text r col

/-- The rows of the grid from `row` on show rows of a text. -/
def ShowsRows (grid : Grid) : Nat → List UInt8 → List Row → Prop
  | _, _, [] => True
  | row, text, r :: rest =>
      ShowsRow grid row text r ∧ ShowsRows grid (row + 1) (text.drop r.extent) rest

/-- Rows that another grid shows alike are shown by it too. -/
theorem ShowsRows.congr {grid grid' : Grid} {row : Nat} {text : List UInt8} {rows : List Row}
    (h : ShowsRows grid row text rows) (hcols : grid'.cols = grid.cols)
    (hglyph : ∀ r, row ≤ r → r < row + rows.length → ∀ c < grid.cols,
      grid'.glyph r c = grid.glyph r c) : ShowsRows grid' row text rows := by
  induction rows generalizing row text with
  | nil => trivial
  | cons r rest ih =>
      rw [List.length_cons] at hglyph
      refine ⟨?_, ih h.2 ?_⟩
      · intro col hcol
        rw [hcols] at hcol
        rw [hglyph row (Nat.le_refl _) (by omega) col hcol, h.1 col hcol]
      · intro r' hle hlt
        exact hglyph r' (by omega) (by omega)

/-- Grids that show the same rows have the same texts in their cells. -/
theorem ShowsRows.glyph_eq {grid grid' : Grid} {row : Nat} {text : List UInt8} {rows : List Row}
    (h : ShowsRows grid row text rows) (h' : ShowsRows grid' row text rows)
    (hcols : grid'.cols = grid.cols) {r c : Nat} (hle : row ≤ r) (hlt : r < row + rows.length)
    (hc : c < grid.cols) : grid'.glyph r c = grid.glyph r c := by
  induction rows generalizing row text with
  | nil => exact absurd hlt (by simpa using hle)
  | cons first rest ih =>
      rw [List.length_cons] at hlt
      by_cases he : r = row
      · subst he
        rw [h.1 c hc, h'.1 c (by rwa [hcols])]
      · exact ih h.2 h'.2 (by omega) (by omega)

theorem ShowsRows.append {grid : Grid} {row : Nat} {text : List UInt8} {rows more : List Row} :
    ShowsRows grid row text (rows ++ more) ↔ ShowsRows grid row text rows ∧
      ShowsRows grid (row + rows.length) (text.drop (extentOf rows)) more := by
  induction rows generalizing row text with
  | nil => simp [ShowsRows]
  | cons r rest ih =>
      rw [List.cons_append, ShowsRows, ShowsRows, ih, List.drop_drop, extentOf_cons, and_assoc,
        List.length_cons, Nat.add_assoc, Nat.add_comm 1]

/-! ## Painting rows -/

variable {grid : Grid} {rows cols : Nat} {g : GapBuffer} {selected : Option Span}

/-- What a painted row shows. -/
theorem glyph_paintRow (h : grid.Sized rows cols) {row start col length : Nat} (hrow : row < rows)
    (hcol : col ≤ length) (hlen : length ≤ cols) (htext : start + length ≤ g.length) {r c : Nat}
    (hr : r < rows) (hc : c < cols) :
    (grid.paintAll (View.paintRow g selected row start col length)).glyph r c
      = if r = row ∧ col ≤ c then
          if c < length then byteGlyph (g.content.getD (start + c) 0) else " "
        else grid.glyph r c := by
  rw [Grid.glyph, cell?_paintRow h hrow hcol hlen htext hr hc]
  split
  · split <;> rfl
  · rfl

/-- Painting rows leaves the other rows as they are. -/
theorem glyph_paintRows_of_not_mem (h : grid.Sized rows cols) {row start n : Nat}
    (hstart : start ≤ g.length) (hrow : row + n ≤ rows) {r c : Nat} (hr : r < rows) (hc : c < cols)
    (hout : r < row ∨ row + n ≤ r) :
    (grid.paintAll (View.paintRows g selected row start
      (rowsOf cols (g.content.drop start) n))).glyph r c = grid.glyph r c := by
  rw [Grid.glyph, cell?_paintRows h hstart hrow hr hc, if_neg (by omega)]
  rfl

/-- **Painting rows shows them.** -/
theorem showsRows_paintRows (h : grid.Sized rows cols) {row start n : Nat}
    (hstart : start ≤ g.length) (hrow : row + n ≤ rows) :
    ShowsRows (grid.paintAll (View.paintRows g selected row start
      (rowsOf cols (g.content.drop start) n))) row (g.content.drop start)
      (rowsOf cols (g.content.drop start) n) := by
  induction n generalizing grid row start with
  | zero => trivial
  | succ n ih =>
      have hlen := length_firstRow_le_cols cols (g.content.drop start)
      have hext := extent_firstRow_le cols (g.content.drop start)
      have hle := length_le_extent (firstRow cols (g.content.drop start))
      rw [List.length_drop, g.length_content] at hext
      have hsized := Grid.sized_paintAll h (View.paintRow g selected row start 0
        (firstRow cols (g.content.drop start)).length)
      rw [rowsOf, View.paintRows, Grid.paintAll_append, ShowsRows, List.drop_drop]
      refine ⟨?_, ih hsized (by omega) (by omega)⟩
      intro col hcol
      have hrest := Grid.sized_paintAll hsized (View.paintRows g selected (row + 1)
        (start + (firstRow cols (g.content.drop start)).extent)
        (rowsOf cols (g.content.drop (start + (firstRow cols (g.content.drop start)).extent)) n))
      rw [hrest.cols_eq] at hcol
      rw [glyph_paintRows_of_not_mem hsized (by omega) (by omega) (by omega) hcol (by omega),
        glyph_paintRow h (by omega) (Nat.zero_le _) hlen (by omega) (by omega) hcol,
        if_pos ⟨rfl, Nat.zero_le _⟩, rowGlyph]
      simp only [List.getD_eq_getElem?_getD, List.getElem?_drop]

/-! ## Views -/

namespace View

/-- The grid has the size of the view, with at least one cell. -/
structure Fits (v : View) (grid : Grid) : Prop where
  sized : grid.Sized v.rows v.cols
  rows_pos : 0 < v.rows
  cols_pos : 0 < v.cols
  preferred_lt : v.preferredRow < v.rows

/-- The layout of the view is that of the window. -/
structure LaidOut (v : View) (g : GapBuffer) : Prop where
  start_le : v.windowStart ≤ g.length
  layout_eq : v.layout = rowsOf v.cols (g.content.drop v.windowStart) v.rows

/-- **In step.**  The view is laid out, it knows where the caret stands, and the grid shows its
rows and has the cursor there. -/
structure Synced (v : View) (grid : Grid) (g : GapBuffer) : Prop where
  fits : v.Fits grid
  laidOut : v.LaidOut g
  locate_eq : v.locate g.caret = some v.cursor
  cursor_eq : grid.cursor = v.cursor
  shows : ShowsRows grid 0 (g.content.drop v.windowStart) v.layout

theorem Fits.paintAll {v : View} {grid : Grid} (h : v.Fits grid) (paints : List Paint) :
    v.Fits (grid.paintAll paints) :=
  ⟨Grid.sized_paintAll h.sized paints, h.rows_pos, h.cols_pos, h.preferred_lt⟩

theorem laidOut_moveWindow (v : View) (g : GapBuffer) (start : Nat) :
    (v.moveWindow g start).LaidOut g :=
  ⟨Nat.min_le_right _ _, rowsFrom_eq g _ _ _⟩

/-- Moving the window to where it is changes nothing. -/
theorem LaidOut.moveWindow_eq {v : View} {g : GapBuffer} (h : v.LaidOut g) :
    v.moveWindow g v.windowStart = v := by
  have hrows := rowsFrom_eq g v.cols v.windowStart v.rows
  rw [← h.layout_eq] at hrows
  rw [moveWindow, relayout, Nat.min_eq_left h.start_le, hrows]

end View

/-- Obeying the painting commands brings the grid in step with the view. -/
def Repainted.InStep (r : Repainted) (grid : Grid) (g : GapBuffer) : Prop :=
  r.1.Synced (grid.paintAll r.2) g

namespace View

variable {v : View} {grid : Grid} {g : GapBuffer} {selected : Option Span}

theorem inStep_andThen {r : Repainted} {f : View → Repainted}
    (h : (f r.1).InStep (grid.paintAll r.2) g) : (andThen r f).InStep grid g := by
  have hpaints : grid.paintAll (andThen r f).2 = (grid.paintAll r.2).paintAll (f r.1).2 :=
    Grid.paintAll_append grid r.2 (f r.1).2
  rw [Repainted.InStep, hpaints]
  exact h

/-- Once the rows are shown, placing the cursor is enough. -/
theorem synced_placeCursor (hfits : v.Fits grid) (hlaid : v.LaidOut g)
    (hshows : ShowsRows grid 0 (g.content.drop v.windowStart) v.layout)
    (hcaret : v.showsCaret g = true) : (v.placeCursor g).InStep grid g := by
  obtain ⟨place, hplace⟩ := Option.isSome_iff_exists.mp hcaret
  have heq : v.placeCursor g = ({ v with cursor := place }, [.cursor place.1 place.2]) := by
    rw [placeCursor, hplace]
  rw [heq]
  have hfits' := hfits.paintAll [.cursor place.1 place.2]
  exact ⟨⟨hfits'.sized, hfits'.rows_pos, hfits'.cols_pos, hfits'.preferred_lt⟩,
    ⟨hlaid.start_le, hlaid.layout_eq⟩, hplace, rfl, hshows.congr rfl fun _ _ _ _ _ => rfl⟩

/-- **Painting the whole window brings any grid of its size in step**, as long as the caret is in
the window. -/
theorem synced_redraw (hfits : v.Fits grid)
    (hcaret : (v.moveWindow g v.windowStart).showsCaret g = true) :
    (v.redraw g selected).InStep grid g := by
  have hlaid := laidOut_moveWindow v g v.windowStart
  have hfits' : (v.moveWindow g v.windowStart).Fits grid :=
    ⟨hfits.sized, hfits.rows_pos, hfits.cols_pos, hfits.preferred_lt⟩
  rw [redraw]
  generalize v.moveWindow g v.windowStart = w at hlaid hfits' hcaret ⊢
  apply inStep_andThen
  have hshows := @showsRows_paintRows grid w.rows w.cols g selected hfits'.sized 0 w.windowStart
    w.rows hlaid.start_le (Nat.le_of_eq (Nat.zero_add _))
  rw [← hlaid.layout_eq] at hshows
  exact synced_placeCursor (hfits'.paintAll _) hlaid hshows hcaret

/-- To be in step depends on the text and its caret only. -/
theorem Synced.congr {g' : GapBuffer} (h : v.Synced grid g) (hcontent : g'.content = g.content)
    (hcaret : g'.caret = g.caret) : v.Synced grid g' := by
  have hlen : g'.length = g.length := by
    rw [← g'.length_content, hcontent, g.length_content]
  refine ⟨h.fits, ⟨hlen ▸ h.laidOut.start_le, ?_⟩, ?_, h.cursor_eq, ?_⟩
  · rw [hcontent]
    exact h.laidOut.layout_eq
  · rw [hcaret]
    exact h.locate_eq
  · rw [hcontent]
    exact h.shows

/-- **Views in step with one text from one start agree in all that is seen.** -/
theorem Synced.agree {w : View} {grid' : Grid} (h : v.Synced grid g) (h' : w.Synced grid' g)
    (hrows : w.rows = v.rows) (hcols : w.cols = v.cols) (hstart : w.windowStart = v.windowStart) :
    grid'.lines = grid.lines ∧ w.layout = v.layout ∧ w.cursor = v.cursor := by
  have hlayout : w.layout = v.layout := by
    rw [h'.laidOut.layout_eq, h.laidOut.layout_eq, hrows, hcols, hstart]
  have hlocate : w.locate g.caret = v.locate g.caret := by
    rw [locate, locate, hstart, hcols, hlayout]
  refine ⟨?_, hlayout, ?_⟩
  · have hsized := h.fits.sized
    have hsized' := h'.fits.sized
    rw [hrows, hcols] at hsized'
    have hshows' := h'.shows
    rw [hlayout, hstart] at hshows'
    refine Grid.lines_congr hsized hsized' ?_
    intro row hrow col hcol
    refine h.shows.glyph_eq hshows' (hsized'.cols_eq.trans hsized.cols_eq.symm) (Nat.zero_le _)
      ?_ ?_
    · rw [h.laidOut.layout_eq, length_rowsOf]
      omega
    · rwa [hsized.cols_eq]
  · rw [h.locate_eq, h'.locate_eq] at hlocate
    exact Option.some.inj hlocate

/-- A view of the same size that was not used before fits a blank grid. -/
theorem Fits.fresh (h : v.Fits grid) (preferredRow start : Nat) :
    Fits { View.new v.rows v.cols preferredRow with windowStart := start }
      (Grid.blank v.rows v.cols) := by
  have hsized := Grid.sized_blank v.rows v.cols
  rw [Grid.coordinate_of_lt h.sized.rows_lt, Grid.coordinate_of_lt h.sized.cols_lt] at hsized
  have hrows : max v.rows 1 = v.rows := Nat.max_eq_left h.rows_pos
  have hcols : max v.cols 1 = v.cols := Nat.max_eq_left h.cols_pos
  refine ⟨?_, ?_, ?_, ?_⟩
  · simp only [View.new, hrows, hcols]
    exact hsized
  · simp only [View.new, hrows]
    exact h.rows_pos
  · simp only [View.new, hcols]
    exact h.cols_pos
  · simp only [View.new, hrows]
    have hpos := h.rows_pos
    omega

/-- It is brought in step from any start from which the window shows the caret. -/
theorem Fits.inStep_fresh (h : v.Fits grid) (preferredRow : Nat) (selected : Option Span)
    (hcaret : (v.moveWindow g v.windowStart).showsCaret g = true) :
    ((View.new v.rows v.cols preferredRow).redrawAt g selected v.windowStart).InStep
      (Grid.blank v.rows v.cols) g := by
  refine synced_redraw (h.fresh preferredRow v.windowStart) ?_
  have hrows : max v.rows 1 = v.rows := Nat.max_eq_left h.rows_pos
  have hcols : max v.cols 1 = v.cols := Nat.max_eq_left h.cols_pos
  simp only [showsCaret, locate, moveWindow, relayout, View.new, hrows, hcols] at hcaret ⊢
  exact hcaret

/-- A view that was not used before is brought in step from the same start. -/
theorem Synced.fresh (h : v.Synced grid g) (preferredRow : Nat) (selected : Option Span) :
    ((View.new v.rows v.cols preferredRow).redrawAt g selected v.windowStart).InStep
      (Grid.blank v.rows v.cols) g := by
  refine h.fits.inStep_fresh preferredRow selected ?_
  rw [h.laidOut.moveWindow_eq, showsCaret, h.locate_eq, Option.isSome_some]

theorem frame_redrawAt (v : View) (g : GapBuffer) (selected : Option Span) (start : Nat) :
    (v.redrawAt g selected start).1.rows = v.rows ∧
      (v.redrawAt g selected start).1.cols = v.cols ∧
      (v.redrawAt g selected start).1.windowStart = min start g.length := by
  simp only [redrawAt, redraw, andThen, placeCursor]
  split <;> exact ⟨rfl, rfl, rfl⟩

/-- **What is in step is what would be shown afresh.** -/
theorem Synced.eq_fresh (h : v.Synced grid g) (preferredRow : Nat) (selected : Option Span) :
    grid.lines = ((Grid.blank v.rows v.cols).paintAll ((View.new v.rows v.cols
        preferredRow).redrawAt g selected v.windowStart).2).lines ∧
      v.layout = ((View.new v.rows v.cols preferredRow).redrawAt g selected
        v.windowStart).1.layout ∧
      v.cursor = ((View.new v.rows v.cols preferredRow).redrawAt g selected
        v.windowStart).1.cursor := by
  obtain ⟨hrows, hcols, hstart⟩ := frame_redrawAt (View.new v.rows v.cols preferredRow) g selected
    v.windowStart
  have hfresh : Synced _ _ g := h.fresh preferredRow selected
  rw [Nat.min_eq_left h.laidOut.start_le] at hstart
  have hrows' : max v.rows 1 = v.rows := Nat.max_eq_left h.fits.rows_pos
  have hcols' : max v.cols 1 = v.cols := Nat.max_eq_left h.fits.cols_pos
  exact hfresh.agree h (hrows.trans hrows').symm (hcols.trans hcols').symm hstart.symm

end View
end ScreenEditor
