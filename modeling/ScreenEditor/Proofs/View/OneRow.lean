import ScreenEditor.Proofs.View.Vertical

/-!
# The row above and the row below

A motion by one row from a caret in the window leads to the row below whenever there is one, and to
the row above whenever that is full.  When the row above ends a line, it is worked out from the start
of that line.  But a window may begin somewhere in the middle of the line: then the window does not
show the row that is worked out, and the cursor misses the row above unless its column lies behind
the end of both (`SkewedAbove`, `LaidOut.locate_up_iff`).

A window that begins at a row of the text never shows such a row (`LaidOut.not_skewedAbove`).
-/

namespace ScreenEditor

namespace View

variable {v : View} {g g' : GapBuffer} {row col : Nat}

/-! ## Rows of a window -/

/-- A row of a window that is in step is the first row of the text from where it starts. -/
theorem LaidOut.getElem?_layout (hlaid : v.LaidOut g) (hrow : row < v.rows) :
    v.layout[row]? = some (firstRow v.cols (g.content.drop (v.rowStart row))) := by
  rw [hlaid.layout_eq, getElem?_rowsOf _ _ hrow, List.drop_drop,
    hlaid.rowStart_eq (Nat.le_of_lt hrow)]

theorem LaidOut.getD_layout (hlaid : v.LaidOut g) (hrow : row < v.rows) :
    v.layout.getD row default = firstRow v.cols (g.content.drop (v.rowStart row)) := by
  rw [List.getD_eq_getElem?_getD, hlaid.getElem?_layout hrow, Option.getD_some]

/-- The next row starts where this one ends. -/
theorem LaidOut.rowStart_succ (hlaid : v.LaidOut g) (hrow : row < v.rows) :
    v.rowStart (row + 1)
      = v.rowStart row + (firstRow v.cols (g.content.drop (v.rowStart row))).extent := by
  rw [hlaid.rowStart_eq hrow, extentOf_rowsOf_succ, List.drop_drop, ← Nat.add_assoc,
    ← hlaid.rowStart_eq (Nat.le_of_lt hrow)]

/-- A row ends inside the text. -/
theorem LaidOut.rowStart_add_length_le (hlaid : v.LaidOut g) (hrow : row ≤ v.rows) :
    v.rowStart row + (firstRow v.cols (g.content.drop (v.rowStart row))).length ≤ g.length := by
  have hle := hlaid.rowStart_le hrow
  have hext := extent_firstRow_le v.cols (g.content.drop (v.rowStart row))
  have hlen := length_le_extent (firstRow v.cols (g.content.drop (v.rowStart row)))
  rw [List.length_drop, g.length_content] at hext
  omega

/-- What a place in the window comes to, given the row above it. -/
theorem LaidOut.closed_above (hlaid : v.LaidOut g) (hcols : 0 < v.cols) {offset : Nat}
    (hoffset : offset ≤ g.length) (h : v.locate offset = some (row + 1, col)) :
    row + 1 < v.rows ∧ (∀ r ∈ v.layout.take row, r.Closed v.cols) ∧
      (firstRow v.cols (g.content.drop (v.rowStart row))).Closed v.cols := by
  obtain ⟨hrow, hclosed, -, -⟩ := (hlaid.locate_eq_some_iff hcols hoffset).mp h
  have habove := hlaid.getElem?_layout (Nat.lt_of_succ_lt hrow)
  rw [List.take_add_one, habove, Option.toList_some] at hclosed
  exact ⟨hrow, fun r hr => hclosed r (List.mem_append_left _ hr),
    hclosed _ (List.mem_append_right _ List.mem_cons_self)⟩

/-! ## Where motions by one row lead -/

/-- A caret that stands in the window is in the row that it was found in. -/
theorem caretRow_of_locate (h : v.locate g.caret = some (row, col)) :
    v.caretRow g = (v.rowStart row, col) := by
  rw [caretRow, h]

/-- Down: to the row below the caret's. -/
theorem LaidOut.verticalTarget?_one (hlaid : v.LaidOut g) (hcols : 0 < v.cols)
    (h : v.locate g.caret = some (row, col)) (hrow : row < v.rows)
    (hclosed : (firstRow v.cols (g.content.drop (v.rowStart row))).Closed v.cols) :
    v.verticalTarget? g 1 = some (v.rowStart (row + 1)
      + min col ((firstRow v.cols (g.content.drop (v.rowStart (row + 1)))).lastColumn v.cols)) := by
  have hdown := v.verticalTarget?_down g 1
  have hpos := extent_pos_of_closed hcols hclosed
  have hnext := hlaid.rowStart_succ hrow
  rw [caretRow_of_locate h] at hdown
  simp only [rowBelow, GapBuffer.nextRowStart?_of_closed hclosed, ← hnext,
    GapBuffer.columnInRow_eq] at hdown
  rwa [if_neg (by omega)] at hdown

/-- Up: to the row above the caret's if that is full, and else to the last row of its line as laid
out from the start of the line. -/
theorem LaidOut.verticalTarget?_neg_one (hlaid : v.LaidOut g) (hcols : 0 < v.cols)
    (h : v.locate g.caret = some (row + 1, col)) {above : Row}
    (habove : firstRow v.cols (g.content.drop (v.rowStart row)) = above) :
    v.verticalTarget? g (-1) = some (if above.terminated then
        v.rowStart row + above.length - g.lineEndColumn v.cols (v.rowStart row + above.length)
          + min col (g.lineEndColumn v.cols (v.rowStart row + above.length))
      else v.rowStart row + min col (above.lastColumn v.cols)) := by
  obtain ⟨hrow, -, hclosed⟩ := hlaid.closed_above hcols g.caret_le_length h
  have hup := v.verticalTarget?_up g Nat.one_pos
  have hprevious := GapBuffer.previousRowStart?_add_extent hcols hclosed
  have hext := length_le_extent above
  have hpos := extent_pos_of_closed hcols hclosed
  rw [caretRow_of_locate h] at hup
  rw [← hlaid.rowStart_succ (Nat.lt_of_succ_lt hrow)] at hprevious
  simp only [rowAbove, hprevious, GapBuffer.columnInRow_eq] at hup
  have hnext := hlaid.rowStart_succ (Nat.lt_of_succ_lt hrow)
  cases hterm : above.terminated with
  | true =>
      have hfeed := lineFeed_of_terminated (habove ▸ hterm)
      have hend : above.extent = above.length + 1 := by rw [Row.extent, hterm, Bool.toNat_true]
      rw [List.getElem?_drop, habove] at hfeed
      have hlt : g.lineEndColumn v.cols (v.rowStart row + above.length) < v.cols :=
        Nat.mod_lt _ hcols
      rw [habove] at hnext hup
      rw [hterm, if_pos rfl, GapBuffer.firstRow_lineEnd hcols hfeed, Row.lastColumn,
        if_pos hlt, if_neg (by omega)] at hup
      exact hup
  | false =>
      rw [habove] at hnext hpos hup
      rw [hterm, if_neg Bool.false_ne_true, habove, if_neg (by omega)] at hup
      exact hup

/-- The row above the caret's ends a line, and it is not the row that this line ends with when it is
laid out from its start; and the caret is left of the end of one of them. -/
def SkewedAbove (v : View) (g : GapBuffer) (row : Nat) : Prop :=
  let above := v.layout.getD row default
  let own := g.lineEndColumn v.cols (v.rowStart row + above.length)
  above.terminated = true ∧ above.length ≠ own ∧ v.cursor.2 < max above.length own

instance (v : View) (g : GapBuffer) (row : Nat) : Decidable (v.SkewedAbove g row) :=
  inferInstanceAs (Decidable (_ ∧ _ ∧ _))

/-- A window that begins at a row of the text shows the rows of its lines as laid out from their
start. -/
theorem LaidOut.not_skewedAbove (hlaid : v.LaidOut g) (hcols : 0 < v.cols)
    (hstart : v.windowStart ∈ rowStarts v.cols g.content)
    (h : v.locate g.caret = some (row + 1, col)) : ¬ v.SkewedAbove g row := by
  rintro ⟨hterm, hne, -⟩
  obtain ⟨hrow, hclosed, -⟩ := hlaid.closed_above hcols g.caret_le_length h
  have hmem := hlaid.rowStart_mem hcols hstart (Nat.le_of_lt (Nat.lt_of_succ_lt hrow)) hclosed
  rw [hlaid.getD_layout (Nat.lt_of_succ_lt hrow)] at hterm hne
  exact hne (GapBuffer.lineEndColumn_of_inLineGrid
    (GapBuffer.inLineGrid_of_mem hcols hmem) hterm).symm

/-! ## Landing -/

/-- A column of a row below closed rows, or the last one if the row is shorter. -/
theorem LaidOut.locate_eq_min_iff (hlaid : v.LaidOut g) (hcols : 0 < v.cols) (hrow : row < v.rows)
    (hclosed : ∀ r ∈ v.layout.take row, r.Closed v.cols) {offset : Nat}
    (hoffset : offset ≤ g.length) :
    v.locate offset = some (row, min col ((v.layout.getD row default).lastColumn v.cols)) ↔
      v.rowStart row + min col ((v.layout.getD row default).lastColumn v.cols) = offset := by
  rw [hlaid.locate_eq_some_iff hcols hoffset, hlaid.getD_layout hrow]
  exact ⟨fun hand => hand.2.2.1, fun hplace => ⟨hrow, hclosed, hplace, Nat.min_le_right _ _⟩⟩

/-- The target of a motion up is in the row above the caret's, at the column of the caret, unless
that row is skewed. -/
theorem LaidOut.locate_up_iff (hlaid : v.LaidOut g) (hcols : 0 < v.cols)
    (h : v.locate g.caret = some (row + 1, v.cursor.2)) :
    ∃ target ≤ g.length, v.verticalTarget? g (-1) = some target ∧
      (v.locate target
          = some (row, min v.cursor.2 ((v.layout.getD row default).lastColumn v.cols)) ↔
        ¬ v.SkewedAbove g row) := by
  obtain ⟨hrow, hclosed, -⟩ := hlaid.closed_above hcols g.caret_le_length h
  have hrow' := Nat.lt_of_succ_lt hrow
  have hup := hlaid.verticalTarget?_neg_one hcols h (hlaid.getD_layout hrow').symm
  have hend := hlaid.rowStart_add_length_le (Nat.le_of_lt hrow')
  have hshort := @length_firstRow_lt v.cols (g.content.drop (v.rowStart row))
  have hlocate := fun offset => @locate_eq_min_iff v g row v.cursor.2 hlaid hcols hrow' hclosed
    offset
  have hlast := (v.layout.getD row default).lastColumn_le v.cols
  have hown : g.lineEndColumn v.cols (v.rowStart row + (v.layout.getD row default).length)
      ≤ v.rowStart row + (v.layout.getD row default).length :=
    Nat.le_trans (Nat.mod_le _ _) (Nat.sub_le _ _)
  rw [← hlaid.getD_layout hrow'] at hend hshort
  refine ⟨_, ?_, hup, ?_⟩
  · split <;> omega
  · rw [hlocate _ (by split <;> omega), SkewedAbove]
    generalize v.layout.getD row default = above at *
    generalize g.lineEndColumn v.cols (v.rowStart row + above.length) = own at *
    -- the row that is shown and the one that is worked out end at the same terminator
    cases hterm : above.terminated with
    | false => simp
    | true =>
        have hlen := hshort hterm
        simp only [Row.lastColumn, if_pos hlen, if_pos, true_and]
        omega

/-- The target of a motion down is in the row below the caret's, at the column of the caret. -/
theorem LaidOut.locate_down (hlaid : v.LaidOut g) (hcols : 0 < v.cols)
    (h : v.locate g.caret = some (row, v.cursor.2)) (hrow : row + 1 < v.rows)
    (hclosed : (v.layout.getD row default).Closed v.cols) :
    ∃ target ≤ g.length, v.verticalTarget? g 1 = some target ∧
      v.locate target
        = some (row + 1, min v.cursor.2 ((v.layout.getD (row + 1) default).lastColumn v.cols)) := by
  have hrow' := Nat.lt_of_succ_lt hrow
  obtain ⟨-, habove, -, -⟩ := (hlaid.locate_eq_some_iff hcols g.caret_le_length).mp h
  have hall : ∀ r ∈ v.layout.take (row + 1), r.Closed v.cols := by
    rw [List.take_add_one, hlaid.getElem?_layout hrow', Option.toList_some,
      ← hlaid.getD_layout hrow']
    intro r hr
    rcases List.mem_append.mp hr with hr | hr
    · exact habove r hr
    · obtain rfl := List.mem_singleton.mp hr
      exact hclosed
  have hend := hlaid.rowStart_add_length_le (Nat.le_of_lt hrow)
  have hlast := (v.layout.getD (row + 1) default).lastColumn_le v.cols
  rw [hlaid.getD_layout hrow'] at hclosed
  have hdown := hlaid.verticalTarget?_one hcols h hrow' hclosed
  rw [← hlaid.getD_layout hrow] at hend hdown
  have htarget : v.rowStart (row + 1)
      + min v.cursor.2 ((v.layout.getD (row + 1) default).lastColumn v.cols) ≤ g.length := by
    omega
  exact ⟨_, htarget, hdown, (hlaid.locate_eq_min_iff hcols hrow hall htarget).mpr rfl⟩

/-- A motion keeps the window and puts the cursor at a place iff the window has the caret there. -/
theorem Synced.afterMotion_iff {grid : Grid} (h : v.Synced grid g)
    (hcontent : g'.content = g.content) (selected : Option Span) (place : Nat × Nat) :
    (v.afterMotion g' selected).1.windowStart = v.windowStart ∧
        (v.afterMotion g' selected).1.cursor = place ↔
      v.locate g'.caret = some place := by
  constructor
  · rintro ⟨hstart, rfl⟩
    have hmoved : (v.afterMotion g' selected).InStep grid g' := synced_afterMotion h hcontent
    have hsync : Synced _ _ g' := hmoved
    have hsized := Grid.sized_paintAll h.fits.sized (v.afterMotion g' selected).2
    have hrows := hsync.fits.sized.rows_eq.symm.trans hsized.rows_eq
    have hcols := hsync.fits.sized.cols_eq.symm.trans hsized.cols_eq
    have hlayout := hsync.laidOut.layout_eq
    rw [hrows, hcols, hstart, hcontent, ← h.laidOut.layout_eq] at hlayout
    have hlocate := hsync.locate_eq
    rwa [locate, hstart, hcols, hlayout] at hlocate
  · intro hlocate
    obtain ⟨row, col⟩ := place
    rw [afterMotion, hlocate]
    simp only [andThen, placeCursor, hlocate]
    exact ⟨trivial, trivial⟩

end View
end ScreenEditor
