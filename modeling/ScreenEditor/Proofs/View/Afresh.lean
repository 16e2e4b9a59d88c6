import ScreenEditor.Proofs.View.Highlight

/-!
# Patches against painting afresh

A window can be painted afresh from its start: by a view that was not used before, on a blank grid.
`View.AsRedrawn` says that a view and a grid look like that, with nothing selected, and that the
cursor is where the caret is located.  The start of the window may be any offset of the text, also
one in the middle of a line.

## Main results

* `View.asRedrawn_iff`: that is the same as to be in step without a cell in reverse video.
* `View.asRedrawn_redrawAt`: painting the whole window brings it about.
* `View.asRedrawn_repaint`: **one edit at the caret, followed by its patch, keeps it**, and the
  caret stays on the grid.
* `View.asRedrawn_repaintAll`: so does any sequence of edits.
-/

namespace ScreenEditor

/-- An edit of one byte at the caret, with the byte that it inserts. -/
inductive CaretEdit where
  | insert (byte : UInt8)
  | deleteLeft
  | deleteRight
  deriving DecidableEq, Repr

namespace CaretEdit

/-- The text after the edit, where there is room for it or a byte to delete. -/
def perform? : CaretEdit → GapBuffer → Option GapBuffer
  | .insert byte, g => g.insert? byte
  | .deleteLeft, g => g.deleteLeft?.map Prod.snd
  | .deleteRight, g => g.deleteRight?.map Prod.snd

/-- The patch that belongs to the edit; `g` is the text after it. -/
def repaint : CaretEdit → View → GapBuffer → Repainted
  | .insert _, v, g => v.afterInsert g
  | .deleteLeft, v, g => v.afterDeleteLeft g
  | .deleteRight, v, g => v.afterDeleteRight g

end CaretEdit

namespace View

/-- A view of the same size that was not used before, painted from the same start. -/
def afresh (v : View) (g : GapBuffer) : Repainted :=
  (View.new v.rows v.cols v.preferredRow).redrawAt g none v.windowStart

/-- What that paints on a blank grid. -/
def pictureAfresh (v : View) (g : GapBuffer) : Grid :=
  (Grid.blank v.rows v.cols).paintAll (v.afresh g).2

/-- **As painted afresh.**  The rows are laid out from the start of the window, every cell is as
painting it afresh leaves it, and the cursor is where the caret is located.  The grid has the size
of the view, and no more rows and columns than can be addressed (`fits`). -/
structure AsRedrawn (v : View) (grid : Grid) (g : GapBuffer) : Prop where
  fits : v.Fits grid
  start_le : v.windowStart ≤ g.length
  layout_eq : v.layout = (v.afresh g).1.layout
  cells_eq : ∀ row < v.rows, ∀ col < v.cols,
    grid.cell? row col = (v.pictureAfresh g).cell? row col
  locate_eq : v.locate g.caret = some v.cursor
  cursor_eq : grid.cursor = v.cursor

variable {v : View} {grid : Grid} {g g' : GapBuffer}

/-- The layout of a view that was painted is that of the window. -/
theorem layout_redrawAt (v : View) (g : GapBuffer) (selected : Option Span) (start : Nat) :
    (v.redrawAt g selected start).1.layout
      = rowsOf v.cols (g.content.drop (min start g.length)) v.rows := by
  have hlaid := (laidOut_moveWindow { v with windowStart := start } g start).layout_eq
  simp only [redrawAt, redraw, andThen, placeCursor]
  split <;> exact hlaid

/-- A view painted afresh has the size and, inside the text, the start of the window. -/
theorem Fits.frame_afresh (h : v.Fits grid) (hstart : v.windowStart ≤ g.length) :
    (v.afresh g).1.rows = v.rows ∧ (v.afresh g).1.cols = v.cols ∧
      (v.afresh g).1.windowStart = v.windowStart := by
  obtain ⟨hrows, hcols, hstart'⟩ := frame_redrawAt (View.new v.rows v.cols v.preferredRow) g none
    v.windowStart
  exact ⟨hrows.trans (Nat.max_eq_left h.rows_pos), hcols.trans (Nat.max_eq_left h.cols_pos),
    hstart'.trans (Nat.min_eq_left hstart)⟩

theorem Fits.layout_afresh (h : v.Fits grid) (hstart : v.windowStart ≤ g.length) :
    (v.afresh g).1.layout = rowsOf v.cols (g.content.drop v.windowStart) v.rows := by
  have hrows : (View.new v.rows v.cols v.preferredRow).rows = v.rows := Nat.max_eq_left h.rows_pos
  have hcols : (View.new v.rows v.cols v.preferredRow).cols = v.cols := Nat.max_eq_left h.cols_pos
  rw [afresh, layout_redrawAt, hrows, hcols, Nat.min_eq_left hstart]

theorem Fits.sized_pictureAfresh (h : v.Fits grid) :
    (v.pictureAfresh g).Sized v.rows v.cols := by
  have hsized := Grid.sized_blank v.rows v.cols
  rw [Grid.coordinate_of_lt h.sized.rows_lt, Grid.coordinate_of_lt h.sized.cols_lt] at hsized
  exact Grid.sized_paintAll hsized _

theorem AsRedrawn.laidOut (h : v.AsRedrawn grid g) : v.LaidOut g :=
  ⟨h.start_le, h.layout_eq.trans (h.fits.layout_afresh h.start_le)⟩

/-- No cell of a window painted afresh is in reverse video. -/
theorem Fits.isReversed_pictureAfresh (h : v.Fits grid) (hstart : v.windowStart ≤ g.length)
    {row col : Nat} (hrow : row < v.rows) (hcol : col < v.cols) :
    (v.pictureAfresh g).isReversed row col = false := by
  obtain ⟨hrows, hcols, -⟩ := h.frame_afresh hstart
  have hmarks : (v.afresh g).1.Marks (v.pictureAfresh g) g none :=
    marks_redraw (h.fresh v.preferredRow v.windowStart)
  exact marks_none_iff.mp hmarks row (hrows.symm ▸ hrow) col (hcols.symm ▸ hcol)

/-- A window painted afresh is in step, if it shows the caret. -/
theorem Fits.synced_afresh (h : v.Fits grid) (hlaid : v.LaidOut g)
    (hlocate : v.locate g.caret = some v.cursor) :
    (v.afresh g).1.Synced (v.pictureAfresh g) g := by
  refine h.inStep_fresh v.preferredRow none ?_
  rw [hlaid.moveWindow_eq, showsCaret, hlocate, Option.isSome_some]

/-- **As painted afresh is in step, without a highlight.** -/
theorem asRedrawn_iff : v.AsRedrawn grid g ↔ v.Synced grid g ∧ v.Marks grid g none := by
  constructor
  · intro h
    have hlaid := h.laidOut
    obtain ⟨-, -, hstart⟩ := h.fits.frame_afresh h.start_le
    have hshows := (h.fits.synced_afresh hlaid h.locate_eq).shows
    rw [hstart, ← h.layout_eq] at hshows
    have hsized := h.fits.sized
    have hsized' := h.fits.sized_pictureAfresh (g := g)
    refine ⟨⟨h.fits, hlaid, h.locate_eq, h.cursor_eq, hshows.congr ?_ ?_⟩, ?_⟩
    · rw [hsized.cols_eq, hsized'.cols_eq]
    · intro row _ hrow col hcol
      rw [hlaid.layout_eq, length_rowsOf, Nat.zero_add] at hrow
      rw [hsized'.cols_eq] at hcol
      rw [Grid.glyph, Grid.glyph, h.cells_eq row hrow col hcol]
    · refine marks_none_iff.mpr fun row hrow col hcol => ?_
      rw [Grid.isReversed, h.cells_eq row hrow col hcol]
      exact h.fits.isReversed_pictureAfresh h.start_le hrow hcol
  · rintro ⟨h, hmarks⟩
    have hsized := h.fits.sized
    have hsized' := h.fits.sized_pictureAfresh (g := g)
    have hstart := h.laidOut.start_le
    have hlayout := h.fits.layout_afresh hstart
    rw [← h.laidOut.layout_eq] at hlayout
    refine ⟨h.fits, hstart, hlayout.symm, ?_, h.locate_eq, h.cursor_eq⟩
    intro row hrow col hcol
    have hfresh := (h.fits.synced_afresh h.laidOut h.locate_eq).shows
    obtain ⟨-, -, hstart'⟩ := h.fits.frame_afresh hstart
    rw [hstart', hlayout] at hfresh
    refine (Grid.cell?_eq_iff hsized hsized' hrow hcol).mpr ⟨?_, ?_⟩
    · refine hfresh.glyph_eq h.shows (hsized.cols_eq.trans hsized'.cols_eq.symm) (Nat.zero_le _) ?_
        (hsized'.cols_eq.symm ▸ hcol)
      rwa [h.laidOut.layout_eq, length_rowsOf, Nat.zero_add]
    · rw [marks_none_iff.mp hmarks row hrow col hcol,
        h.fits.isReversed_pictureAfresh hstart hrow hcol]

/-- **Painting the whole window brings it about**, from any start of the text from which the
window shows the caret. -/
theorem asRedrawn_redrawAt (hfits : v.Fits grid) {start : Nat}
    (hcaret : (v.moveWindow g start).showsCaret g = true) :
    (v.redrawAt g none start).1.AsRedrawn (grid.paintAll (v.redrawAt g none start).2) g := by
  have hfits' : Fits { v with windowStart := start } grid :=
    ⟨hfits.sized, hfits.rows_pos, hfits.cols_pos, hfits.preferred_lt⟩
  exact asRedrawn_iff.mpr ⟨synced_redraw hfits' hcaret, marks_redraw hfits'⟩

/-! ## Edits -/

/-- The patch of an edit brings the new text in step. -/
theorem inStep_repaint {e : CaretEdit} (h : v.Synced grid g) (hedit : e.perform? g = some g') :
    (e.repaint v g').InStep grid g' := by
  cases e with
  | insert byte => exact synced_afterInsert h (GapBuffer.makes_insert? hedit)
  | deleteLeft =>
      obtain ⟨⟨byte, _⟩, hdelete, rfl⟩ := Option.map_eq_some_iff.mp hedit
      obtain ⟨hmakes, hcaret⟩ := GapBuffer.makes_deleteLeft hdelete
      exact synced_afterDeleteLeft h hmakes hcaret
  | deleteRight =>
      obtain ⟨⟨byte, _⟩, hdelete, rfl⟩ := Option.map_eq_some_iff.mp hedit
      exact synced_afterDeleteRight h (GapBuffer.makes_deleteRight hdelete)

theorem plain_repaint (e : CaretEdit) (v : View) (g : GapBuffer) :
    ∀ p ∈ (e.repaint v g).2, p.Plain := by
  cases e with
  | insert byte => exact plain_patch v _ _ _
  | deleteLeft => exact plain_afterDeleteLeft v
  | deleteRight => exact plain_patch v _ _ _

/-- An edit keeps a window as it would be painted afresh. -/
theorem AsRedrawn.edited {e : CaretEdit} (h : v.AsRedrawn grid g)
    (hedit : e.perform? g = some g') :
    (e.repaint v g').1.AsRedrawn (grid.paintAll (e.repaint v g').2) g' := by
  obtain ⟨hsync, hmarks⟩ := asRedrawn_iff.mp h
  have hstep : (e.repaint v g').InStep grid g' := inStep_repaint hsync hedit
  exact asRedrawn_iff.mpr
    ⟨hstep, marks_of_plain hsync.fits hstep.fits (plain_repaint e v g') hmarks⟩

/-- An offset is located at a column of the grid. -/
theorem locateIn_col_lt {cols offset row start R col : Nat} {rows : List Row} (hcols : 0 < cols)
    (hrows : ∀ r ∈ rows, r.length ≤ cols)
    (h : locateIn cols offset row start rows = some (R, col)) : col < cols := by
  induction rows generalizing row start with
  | nil => cases h
  | cons r rest ih =>
      rw [locateIn] at h
      split at h
      · next hholds =>
        obtain ⟨-, rfl⟩ := Prod.mk.inj (Option.some.inj h)
        have hlen := hrows r List.mem_cons_self
        simp only [Row.holds, Bool.or_eq_true, Bool.and_eq_true, decide_eq_true_eq,
          beq_iff_eq] at hholds
        omega
      · exact ih (fun r hr => hrows r (List.mem_cons_of_mem _ hr)) h

/-- The caret of a window in step is on the grid. -/
theorem Synced.cursor_lt (h : v.Synced grid g) : v.cursor.1 < v.rows ∧ v.cursor.2 < v.cols := by
  refine ⟨(h.laidOut.standsAt h.locate_eq).1, ?_⟩
  have hlocate := h.locate_eq
  rw [locate] at hlocate
  split at hlocate
  · cases hlocate
  · refine locateIn_col_lt h.fits.cols_pos ?_ hlocate
    rw [h.laidOut.layout_eq]
    exact fun r hr => length_le_of_mem_rowsOf hr

/-- What is seen of a window painted afresh. -/
theorem AsRedrawn.seen (h : v.AsRedrawn grid g) :
    grid.lines = (v.pictureAfresh g).lines ∧ v.layout = (v.afresh g).1.layout ∧
      v.cursor = (v.afresh g).1.cursor :=
  (asRedrawn_iff.mp h).1.eq_fresh v.preferredRow none

/-- **One edit at the caret, followed by its patch, leaves what painting afresh would.**  The view
keeps its size, the grid has the lines, the rows and the cursor of a view painted afresh from the
start that the window then has, and the cursor is on the grid. -/
theorem asRedrawn_repaint {e : CaretEdit} (h : v.AsRedrawn grid g)
    (hedit : e.perform? g = some g') :
    let r := e.repaint v g'
    let grid' := grid.paintAll r.2
    r.1.AsRedrawn grid' g' ∧ (r.1.rows = v.rows ∧ r.1.cols = v.cols) ∧
      (grid'.lines = (r.1.pictureAfresh g').lines ∧ r.1.layout = (r.1.afresh g').1.layout ∧
        grid'.cursor = (r.1.afresh g').1.cursor) ∧
      grid'.cursor.1 < v.rows ∧ grid'.cursor.2 < v.cols := by
  intro r grid'
  have hedited : r.1.AsRedrawn grid' g' := h.edited hedit
  have hsized := Grid.sized_paintAll h.fits.sized r.2
  have hrows : r.1.rows = v.rows := hedited.fits.sized.rows_eq.symm.trans hsized.rows_eq
  have hcols : r.1.cols = v.cols := hedited.fits.sized.cols_eq.symm.trans hsized.cols_eq
  obtain ⟨hrow, hcol⟩ := (asRedrawn_iff.mp hedited).1.cursor_lt
  obtain ⟨hlines, hlayout, hcursor⟩ := hedited.seen
  rw [hedited.cursor_eq]
  exact ⟨hedited, ⟨hrows, hcols⟩, ⟨hlines, hlayout, hcursor⟩, hrows ▸ hrow, hcols ▸ hcol⟩

/-- A row of three cells in the middle of a line: a byte typed on the full row moves the rest of the
line on. -/
theorem asRedrawn_repaint_wrapping :
    let g := ((GapBuffer.empty 12).insertAll "abcdefg\nh".toUTF8.toList).seek 4
    let painted := (View.new 2 3 1).redrawAt g none 2
    let grid := (Grid.blank 2 3).paintAll painted.2
    grid.lines = ["cde", "fg "] ∧ painted.1.AsRedrawn grid g ∧
      ∃ g', (CaretEdit.insert 120).perform? g = some g' ∧
        let r := (CaretEdit.insert 120).repaint painted.1 g'
        (grid.paintAll r.2).lines = ["cdx", "efg"] ∧
          (grid.paintAll r.2).lines = (r.1.pictureAfresh g').lines := by
  intro g painted grid
  have hfits : (View.new 2 3 1).Fits (Grid.blank 2 3) :=
    ⟨Grid.sized_blank 2 3, by decide, by decide, by decide⟩
  have hpainted : painted.1.AsRedrawn grid g := asRedrawn_redrawAt hfits (by decide +kernel)
  have hedit : (CaretEdit.insert 120).perform? g = some (g.insert 120 (by decide +kernel)) :=
    dif_pos (by decide +kernel)
  obtain ⟨-, -, ⟨hlines, -⟩, -⟩ := asRedrawn_repaint hpainted hedit
  exact ⟨by decide +kernel, hpainted, _, hedit, by decide +kernel, hlines⟩

/-- Edits in turn, each followed by its patch.  An edit that does not apply changes nothing. -/
def repaintAll : List CaretEdit → View × Grid × GapBuffer → View × Grid × GapBuffer
  | [], s => s
  | e :: edits, (v, grid, g) =>
    match e.perform? g with
    | some g' =>
      let r := e.repaint v g'
      repaintAll edits (r.1, grid.paintAll r.2, g')
    | none => repaintAll edits (v, grid, g)

/-- **Patches do not add up to anything else.**  However many edits there were, the window is as it
would be painted afresh. -/
theorem asRedrawn_repaintAll (edits : List CaretEdit) (h : v.AsRedrawn grid g) :
    (repaintAll edits (v, grid, g)).1.AsRedrawn (repaintAll edits (v, grid, g)).2.1
      (repaintAll edits (v, grid, g)).2.2 := by
  induction edits generalizing v grid g with
  | nil => exact h
  | cons e edits ih =>
      rw [repaintAll]
      split
      · next g' hedit => exact ih (h.edited hedit)
      · exact ih h

end View
end ScreenEditor
