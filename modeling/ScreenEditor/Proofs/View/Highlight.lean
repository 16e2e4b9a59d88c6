import ScreenEditor.Proofs.View.Patch

/-!
# The highlight of a window

`View.Marks` says that the cells in reverse video are those that show a selected byte.  Painting the
whole window brings that about.  Commands that put no byte in reverse video keep it while nothing is
selected, which covers every edit.

After a motion only the rows between the old place of the caret and the new one are painted, and
only if something is selected.  That is enough when the selection changed only between the two
places (`View.marks_afterMotion`), unless a selection was shown that has become empty.
-/

namespace ScreenEditor

/-! ## Rows above and below a caret -/

section Rows

variable {cols start p row col r c offset : Nat} {text : List UInt8}

/-- The bytes shown above the row of a caret stand before it. -/
theorem StandsAt.lt_of_above (h : StandsAt cols text start p row col) (hr : r < row)
    (hshown : shownOffset? cols text start r c = some offset) : offset < p := by
  have hmono := extentOf_rowsOf_mono cols (text.drop start) (Nat.succ_le_of_lt hr)
  have hp := h.offset_eq
  rw [Nat.succ_eq_add_one, extentOf_rowsOf_succ, List.drop_drop] at hmono
  simp only [shownOffset?] at hshown
  split at hshown
  · next hlt =>
    obtain rfl := Option.some.inj hshown
    have hle := length_le_extent
      (firstRow cols (text.drop (start + extentOf (rowsOf cols (text.drop start) r))))
    omega
  · cases hshown

/-- The bytes shown below the row of a caret stand behind it. -/
theorem StandsAt.le_of_below (h : StandsAt cols text start p row col) (hr : row < r)
    (hshown : shownOffset? cols text start r c = some offset) : p ≤ offset := by
  have hmono := extentOf_rowsOf_mono cols (text.drop start) (Nat.succ_le_of_lt hr)
  have hp := h.offset_eq
  have hcol := h.col_le
  have hle := length_le_extent
    (firstRow cols (text.drop (start + extentOf (rowsOf cols (text.drop start) row))))
  rw [Nat.succ_eq_add_one, extentOf_rowsOf_succ, List.drop_drop] at hmono
  simp only [shownOffset?] at hshown
  split at hshown
  · obtain rfl := Option.some.inj hshown
    omega
  · cases hshown

end Rows

/-- What painted rows mark. -/
theorem isReversed_paintRows {grid : Grid} {rows cols : Nat} {g : GapBuffer}
    {selected : Option Span} (h : grid.Sized rows cols) {row start n : Nat}
    (hstart : start ≤ g.length) (hrow : row + n ≤ rows) {r c : Nat} (hr : r < rows)
    (hc : c < cols) :
    (grid.paintAll (View.paintRows g selected row start
      (rowsOf cols (g.content.drop start) n))).isReversed r c
      = if row ≤ r ∧ r < row + n then
          (shownOffset? cols g.content start (r - row) c).any (marked selected)
        else grid.isReversed r c := by
  rw [Grid.isReversed, cell?_paintRows h hstart hrow hr hc]
  split
  · exact reversed_shownCell _ _ _
  · rfl

/-! ## Painting without a selection -/

section Plain

variable {g : GapBuffer}

/-- A row without a selection is painted in plain video. -/
theorem plain_paintRow (row start col length : Nat) :
    ∀ p ∈ View.paintRow g none row start col length, p.Plain := by
  intro p hp
  rcases List.mem_append.mp hp with hp | hp
  · obtain ⟨c, -, rfl⟩ := List.mem_map.mp hp
    exact rfl
  · obtain rfl := List.mem_singleton.mp hp
    trivial

/-- So are several. -/
theorem plain_paintRows (row start : Nat) (rows : List Row) :
    ∀ p ∈ View.paintRows g none row start rows, p.Plain := by
  induction rows generalizing row start with
  | nil =>
      intro p hp
      cases hp
  | cons r rest ih =>
      intro p hp
      rcases List.mem_append.mp hp with hp | hp
      · exact plain_paintRow row start 0 r.length p hp
      · exact ih (row + 1) (start + r.extent) p hp

/-- So are the rows of a patch. -/
theorem plain_patchRows (cols : Nat) (edit : ByteEdit) (row start oldStart col : Nat)
    (rows : List Row) :
    ∀ p ∈ (View.patchRows g cols edit row start oldStart col rows).2, p.Plain := by
  induction rows generalizing row start oldStart col with
  | nil =>
      intro p hp
      cases hp
  | cons old rest ih =>
      intro p hp
      rw [View.patchRows] at hp
      simp only at hp
      split at hp
      · exact plain_paintRow _ _ _ _ p hp
      · rcases List.mem_append.mp hp with hp | hp
        · exact plain_paintRow _ _ _ _ p hp
        · exact ih _ _ _ _ p hp

namespace View

variable (v : View)

/-- Placing the cursor paints no cell. -/
theorem plain_placeCursor : ∀ p ∈ (v.placeCursor g).2, p.Plain := by
  intro p hp
  rw [placeCursor] at hp
  split at hp
  · obtain rfl := List.mem_singleton.mp hp
    trivial
  · cases hp

/-- A window without a selection is plain. -/
theorem plain_redraw : ∀ p ∈ (v.redraw g none).2, p.Plain := by
  intro p hp
  rcases List.mem_append.mp hp with hp | hp
  · exact plain_paintRows _ _ _ p hp
  · exact plain_placeCursor _ p hp

/-- So is a new window. -/
theorem plain_reformat : ∀ p ∈ (v.reformat g none).2, p.Plain := plain_redraw _

/-- So is one that was scrolled. -/
theorem plain_scrollToCaret : ∀ p ∈ (v.scrollToCaret g none).2, p.Plain := by
  rw [scrollToCaret]
  split
  · exact plain_redraw _
  · exact plain_reformat _

/-- So is what follows the caret. -/
theorem plain_follow : ∀ p ∈ (if v.showsCaret g then v.placeCursor g
    else v.scrollToCaret g none).2, p.Plain := by
  split
  · exact plain_placeCursor v
  · exact plain_scrollToCaret v

/-- **A patch is plain**, whatever the edit is. -/
theorem plain_patch (edit : ByteEdit) (row col : Nat) :
    ∀ p ∈ (v.patch g edit row col).2, p.Plain := by
  intro p hp
  rcases List.mem_append.mp hp with hp | hp
  · exact plain_patchRows _ _ _ _ _ _ _ p hp
  · exact plain_follow _ p hp

/-- So is what a byte deleted to the left shows. -/
theorem plain_afterDeleteLeft : ∀ p ∈ (v.afterDeleteLeft g).2, p.Plain := by
  rw [afterDeleteLeft]
  split
  · exact plain_patch v _ _ _
  · exact plain_patch v _ _ _
  · exact plain_reformat v

end View

end Plain

/-! ## Highlights -/

namespace View

/-- **The highlight.**  The cells in reverse video are those that show a selected byte. -/
def Marks (v : View) (grid : Grid) (g : GapBuffer) (selected : Option Span) : Prop :=
  ∀ row < v.rows, ∀ col < v.cols, grid.isReversed row col
    = (shownOffset? v.cols g.content v.windowStart row col).any (marked selected)

variable {v : View} {grid : Grid} {g g' : GapBuffer} {selected selected' : Option Span}

/-- Without a selection no cell is in reverse video. -/
theorem marks_none_iff :
    v.Marks grid g none ↔ ∀ row < v.rows, ∀ col < v.cols, grid.isReversed row col = false := by
  have hnone : ∀ offset? : Option Nat, offset?.any (marked none) = false := by
    intro offset?
    cases offset? <;> rfl
  simp only [Marks, hnone]

end View

/-- Obeying the painting commands brings the highlight in step with the selection. -/
def Repainted.Marks (r : Repainted) (grid : Grid) (g : GapBuffer) (selected : Option Span) : Prop :=
  r.1.Marks (grid.paintAll r.2) g selected

namespace View

variable {v : View} {grid : Grid} {g g' : GapBuffer} {selected selected' : Option Span}

/-- Painting without a selection keeps the cells plain. -/
theorem marks_of_plain {r : Repainted} (hfits : v.Fits grid)
    (hfits' : r.1.Fits (grid.paintAll r.2)) (hplain : ∀ p ∈ r.2, p.Plain)
    (h : v.Marks grid g none) : r.Marks grid g' none := by
  have hsized := Grid.sized_paintAll hfits.sized r.2
  have hrows : r.1.rows = v.rows := hfits'.sized.rows_eq.symm.trans hsized.rows_eq
  have hcols : r.1.cols = v.cols := hfits'.sized.cols_eq.symm.trans hsized.cols_eq
  rw [marks_none_iff] at h
  refine marks_none_iff.mpr ?_
  rw [hrows, hcols]
  intro row hrow col hcol
  exact Grid.isReversed_paintAll hplain (h row hrow col hcol)

/-- Placing the cursor leaves the highlight alone. -/
theorem marks_andThen_placeCursor {r : Repainted} (h : r.Marks grid g selected) :
    (andThen r (·.placeCursor g)).Marks grid g selected := by
  have hpaints : grid.paintAll (andThen r (·.placeCursor g)).2
      = (grid.paintAll r.2).paintAll (r.1.placeCursor g).2 := Grid.paintAll_append grid r.2 _
  have hview : (andThen r (·.placeCursor g)).1 = (r.1.placeCursor g).1 := rfl
  rw [Repainted.Marks, hpaints, hview, placeCursor]
  split
  · exact h
  · exact h

/-- Painting some rows brings them in step, and keeps the others. -/
theorem marks_repaint (hfits : v.Fits grid) (hlaid : v.LaidOut g) {top n : Nat}
    (hn : top + n ≤ v.rows)
    (hothers : ∀ row < v.rows, ∀ col < v.cols, row < top ∨ top + n ≤ row → grid.isReversed row col
      = (shownOffset? v.cols g.content v.windowStart row col).any (marked selected)) :
    v.Marks (grid.paintAll (paintRows g selected top (v.rowStart top)
      ((v.layout.drop top).take n))) g selected := by
  intro row hrow col hcol
  have htop : top ≤ v.rows := Nat.le_trans (Nat.le_add_right _ _) hn
  rw [hlaid.take_drop_layout hn,
    isReversed_paintRows hfits.sized (hlaid.rowStart_le htop) hn hrow hcol]
  split
  · next hin =>
    obtain ⟨k, rfl⟩ := Nat.exists_eq_add_of_le hin.1
    rw [Nat.add_sub_cancel_left, hlaid.rowStart_eq htop, ← shownOffset?_add]
  · next hout => exact hothers row hrow col hcol (by omega)

/-- **Painting the whole window brings the highlight in step**, whatever the grid showed. -/
theorem marks_redraw (hfits : v.Fits grid) : (v.redraw g selected).Marks grid g selected := by
  have hlaid := laidOut_moveWindow v g v.windowStart
  have hfits' : (v.moveWindow g v.windowStart).Fits grid :=
    ⟨hfits.sized, hfits.rows_pos, hfits.cols_pos, hfits.preferred_lt⟩
  rw [redraw]
  generalize v.moveWindow g v.windowStart = w at hlaid hfits' ⊢
  have hlen : w.layout.length = w.rows := by rw [hlaid.layout_eq, length_rowsOf]
  have hall := @marks_repaint w grid g selected hfits' hlaid 0 w.rows
    (Nat.le_of_eq (Nat.zero_add w.rows)) fun row hrow col hcol hout => by omega
  rw [List.drop_zero, List.take_of_length_le (Nat.le_of_eq hlen)] at hall
  exact marks_andThen_placeCursor (r := (w, paintRows g selected 0 w.windowStart w.layout)) hall

/-- **A new window** marks what is selected. -/
theorem marks_reformat (hfits : v.Fits grid) : (v.reformat g selected).Marks grid g selected :=
  marks_redraw ⟨hfits.sized, hfits.rows_pos, hfits.cols_pos, hfits.preferred_lt⟩

/-- So does one that is shown again. -/
theorem marks_refresh (hfits : v.Fits grid) : (v.refresh g selected).Marks grid g selected := by
  have hfits' : (v.moveWindow g v.windowStart).Fits grid :=
    ⟨hfits.sized, hfits.rows_pos, hfits.cols_pos, hfits.preferred_lt⟩
  rw [refresh]
  split
  · exact marks_redraw hfits'
  · exact marks_reformat hfits'

/-- So does one that was scrolled. -/
theorem marks_scrollToCaret (hfits : v.Fits grid) (hlaid : v.LaidOut g) :
    (v.scrollToCaret g selected).Marks grid g selected := by
  have hfits' := (laidOut_scroll hfits hlaid v.rows).1
  rw [scrollToCaret]
  split
  · exact marks_redraw hfits'
  · exact marks_reformat hfits'

/-- **A motion keeps the highlight in step** if the selection changed only between the two places of
the caret, and did not become empty with the caret still in the window. -/
theorem marks_afterMotion (hsync : v.Synced grid g) (hcontent : g'.content = g.content)
    (h : v.Marks grid g selected)
    (hbetween : ∀ offset, offset < min g.caret g'.caret ∨ max g.caret g'.caret ≤ offset →
      marked selected' offset = marked selected offset)
    (hkept : v.showsCaret g' = true → selected' = none → selected = none) :
    (v.afterMotion g' selected').Marks grid g' selected' := by
  have hlaid := hsync.laidOut.congr hcontent
  have hmarks : v.Marks grid g' selected := by
    rw [Marks, hcontent]
    exact h
  rw [afterMotion]
  split
  · exact marks_scrollToCaret hsync.fits hlaid
  · next row col hlocate =>
    have hcaret : v.showsCaret g' = true := by rw [showsCaret, hlocate, Option.isSome_some]
    obtain ⟨hrow, hstands⟩ := hlaid.standsAt hlocate
    have hold : v.cursor.1 < v.rows ∧
        StandsAt v.cols g.content v.windowStart g.caret v.cursor.1 v.cursor.2 :=
      hsync.laidOut.standsAt hsync.locate_eq
    rw [← hcontent] at hold
    apply marks_andThen_placeCursor
    generalize v.cursor.1 = oldRow at hold ⊢
    cases selected' with
    | none =>
        obtain rfl := hkept hcaret rfl
        exact hmarks
    | some span =>
        refine marks_repaint hsync.fits hlaid (by omega) ?_
        -- The two carets stand both below such a row, or both above it.
        intro r hr c hc hout
        rw [hmarks r hr c hc]
        cases hshown : shownOffset? v.cols g'.content v.windowStart r c with
        | none => rfl
        | some offset =>
            refine (hbetween offset ?_).symm
            rcases hout with habove | hbelow
            · have hlt := hold.2.lt_of_above (by omega) hshown
              have hlt' := hstands.lt_of_above (by omega) hshown
              omega
            · have hge := hold.2.le_of_below (by omega) hshown
              have hge' := hstands.le_of_below (by omega) hshown
              omega

/-- With nothing selected, a motion inside the window repaints no cell. -/
theorem isReversed_afterMotion_none (hcaret : v.showsCaret g = true) (r c : Nat) :
    (grid.paintAll (v.afterMotion g none).2).isReversed r c = grid.isReversed r c := by
  obtain ⟨place, hplace⟩ := Option.isSome_iff_exists.mp hcaret
  have hpaints : (v.afterMotion g none).2 = [.cursor place.1 place.2] := by
    rw [afterMotion, hplace]
    simp only [Option.isSome_none, Bool.false_eq_true, if_false, andThen, placeCursor, hplace,
      List.nil_append]
  rw [hpaints]
  rfl

end View
end ScreenEditor
