import ScreenEditor.Proofs.View.Around

/-!
# Repainting after an edit

A window is patched by laying its rows out again from the row of the edit down to the first row that
ends where it ended before.  The rows above are closed and end before the edit, so they stay as they
are; the rows below begin with the same text as before (`ByteEdit.Makes.drop_eq`).

The headline results are `View.synced_patch` and what follows from it for the three edits of one
byte, and `View.synced_afterMotion` for a caret that only moved.
-/

namespace ScreenEditor

/-- The edit at an offset makes one text of another. -/
inductive ByteEdit.Makes : ByteEdit → Nat → List UInt8 → List UInt8 → Prop
  | insert (l r : List UInt8) (b : UInt8) : Makes .insert l.length (l ++ r) (l ++ b :: r)
  | delete (l r : List UInt8) (b : UInt8) : Makes .delete l.length (l ++ b :: r) (l ++ r)

namespace ByteEdit.Makes

variable {e : ByteEdit} {p : Nat} {text text' : List UInt8}

/-- The text before the edit stays. -/
theorem take_eq (h : e.Makes p text text') : text'.take p = text.take p := by
  cases h with
  | insert l r b => rw [List.take_left, List.take_left]
  | delete l r b => rw [List.take_left, List.take_left]

theorem le_length (h : e.Makes p text text') : p ≤ text'.length := by
  cases h with
  | insert l r b => exact List.length_append ▸ Nat.le_add_right _ _
  | delete l r b => exact List.length_append ▸ Nat.le_add_right _ _

/-- Behind the edit, places that align have the same text behind them. -/
theorem drop_eq (h : e.Makes p text text') {new old : Nat} (halign : e.aligns new old = true)
    (hnew : p ≤ new) (hold : p ≤ old) : text'.drop new = text.drop old := by
  cases h with
  | insert l r b =>
      obtain ⟨k, rfl⟩ := Nat.exists_eq_add_of_le hold
      have heq : new = l.length + (k + 1) := of_decide_eq_true halign
      rw [heq, List.drop_length_add_append, List.drop_length_add_append, List.drop_succ_cons]
  | delete l r b =>
      obtain ⟨k, rfl⟩ := Nat.exists_eq_add_of_le hnew
      have heq : l.length + (k + 1) = old := of_decide_eq_true halign
      rw [← heq, List.drop_length_add_append, List.drop_length_add_append, List.drop_succ_cons]

end ByteEdit.Makes

/-! ## Edits of a buffer -/

namespace GapBuffer

variable {g : GapBuffer}

/-- An insertion at the caret is one byte more at the caret's offset. -/
theorem makes_insertAll (b : UInt8) (h : 0 < g.free) :
    ByteEdit.Makes .insert g.caret g.content (g.insertAll [b]).content := by
  have hbefore : (g.insertAll [b]).before = g.before ++ [b] := g.before_insertAll h
  have hafter := g.after_insertAll [b]
  have hcaret : g.caret = g.before.length := g.length_before.symm
  rw [content, content, hbefore, hafter, hcaret, List.append_assoc]
  exact .insert g.before g.after b

theorem makes_insert? {g' : GapBuffer} {b : UInt8} (h : g.insert? b = some g') :
    ByteEdit.Makes .insert g.caret g.content g'.content := by
  unfold insert? at h
  split at h
  · next room =>
    have hall : g.insertAll [b] = g' := by
      rw [insertAll, dif_pos room, insertAll]
      exact Option.some.inj h
    exact hall ▸ g.makes_insertAll b (Nat.sub_pos_of_lt room)
  · cases h

/-- A deletion to the right takes the byte at the caret's offset. -/
theorem makes_deleteRight {g' : GapBuffer} {b : UInt8} (h : g.deleteRight? = some (b, g')) :
    ByteEdit.Makes .delete g.caret g.content g'.content := by
  obtain ⟨hafter, hbefore, -⟩ := g.of_deleteRight? h
  have hcaret : g.caret = g.before.length := g.length_before.symm
  rw [content, content, hafter, hbefore, hcaret]
  exact .delete g.before g'.after b

/-- A deletion to the left takes the byte before the caret, where the caret then stands. -/
theorem makes_deleteLeft {g' : GapBuffer} {b : UInt8} (h : g.deleteLeft? = some (b, g')) :
    ByteEdit.Makes .delete g'.caret g.content g'.content ∧ g'.caret + 1 = g.caret := by
  obtain ⟨hbefore, hafter, -⟩ := g.of_deleteLeft? h
  have hcaret : g'.caret = g'.before.length := g'.length_before.symm
  have hlen : g.caret = g.before.length := g.length_before.symm
  refine ⟨?_, ?_⟩
  · rw [content, content, hbefore, hafter, hcaret, List.append_assoc]
    exact .delete g'.before g.after b
  · rw [hcaret, hlen, hbefore, List.length_append, List.length_singleton]

end GapBuffer

/-! ## Where a caret stands -/

/-- An offset is at a column of a row of the window that begins at `start`: the rows above are
closed, and the row shows what stands before the column. -/
structure StandsAt (cols : Nat) (text : List UInt8) (start offset row col : Nat) : Prop where
  closed : ∀ r ∈ rowsOf cols (text.drop start) row, r.Closed cols
  offset_eq : start + extentOf (rowsOf cols (text.drop start) row) + col = offset
  col_le : col ≤ (firstRow cols
    (text.drop (start + extentOf (rowsOf cols (text.drop start) row)))).length

/-- A row that does not hold a caret at or behind its start is closed. -/
theorem closed_of_not_holds {cols start offset : Nat} {text : List UInt8}
    (hoffset : offset ≤ text.length)
    (h : (firstRow cols (text.drop start)).holds cols start offset = false) :
    (firstRow cols (text.drop start)).Closed cols := by
  by_cases hclosed : (firstRow cols (text.drop start)).Closed cols
  · exact hclosed
  · obtain ⟨heq, hlt⟩ := firstRow_of_not_closed hclosed
    rw [heq] at h
    simp only [Row.holds, Bool.or_eq_false_iff, Bool.and_eq_false_iff, decide_eq_false_iff_not,
      beq_eq_false_iff_ne] at h
    rw [List.length_drop] at h hlt
    omega

/-- A place that the view finds by counting rows down from a line start is where the offset stands.
-/
theorem of_locateIn {cols offset row start n R col : Nat} {text : List UInt8}
    (h : View.locateIn cols offset row start (rowsOf cols (text.drop start) n) = some (R, col))
    (hstart : start ≤ offset) (hoffset : offset ≤ text.length) :
    ∃ k < n, R = row + k ∧ StandsAt cols text start offset k col := by
  induction n generalizing row start with
  | zero => cases h
  | succ n ih =>
      rw [rowsOf, View.locateIn] at h
      cases hholds : (firstRow cols (text.drop start)).holds cols start offset with
      | true =>
          rw [hholds, if_pos rfl] at h
          obtain ⟨rfl, rfl⟩ := Prod.mk.inj (Option.some.inj h)
          refine ⟨0, Nat.succ_pos n, rfl, ?_, ?_, ?_⟩
          · intro r hr
            cases hr
          · rw [rowsOf, extentOf_nil]
            omega
          · rw [rowsOf, extentOf_nil, Nat.add_zero]
            simp only [Row.holds, Bool.or_eq_true, Bool.and_eq_true, decide_eq_true_eq,
              beq_iff_eq] at hholds
            omega
      | false =>
          have hclosed := closed_of_not_holds hoffset hholds
          have hle := Row.extent_le_of_not_holds length_firstRow_lt hholds
          rw [hholds, if_neg Bool.false_ne_true, List.drop_drop] at h
          obtain ⟨k, hk, rfl, hstands⟩ := ih h hle
          have hrows := rowsOf_drop_succ cols start k text
          refine ⟨k + 1, Nat.succ_lt_succ hk, by omega, ?_, ?_, ?_⟩
          · rw [hrows]
            intro r hr
            rcases List.mem_cons.mp hr with rfl | hr
            · exact hclosed
            · exact hstands.closed r hr
          · rw [hrows, extentOf_cons, ← Nat.add_assoc]
            exact hstands.offset_eq
          · rw [hrows, extentOf_cons, ← Nat.add_assoc]
            exact hstands.col_le

/-- Before the first place of a row the text goes back to the row above: its terminator, or the last
byte of a full row. -/
theorem StandsAt.above {cols start offset row : Nat} {text : List UInt8} (hcols : 0 < cols)
    (h : StandsAt cols text start (offset + 1) (row + 1) 0) {r : Row}
    (hr : (rowsOf cols (text.drop start) (row + 1))[row]? = some r) :
    StandsAt cols text start offset row (if r.terminated then r.length else r.length - 1) := by
  have hsplit := rowsOf_add cols (text.drop start) row 1
  rw [getElem?_rowsOf cols _ (Nat.lt_succ_self row), List.drop_drop] at hr
  have hlast : rowsOf cols ((text.drop start).drop (extentOf (rowsOf cols (text.drop start) row))) 1
      = [r] := by
    rw [rowsOf, rowsOf, List.drop_drop, Option.some.inj hr]
  rw [hlast] at hsplit
  have hclosed : r.Closed cols := h.closed r (by rw [hsplit]; simp)
  have hoffset := h.offset_eq
  rw [hsplit, extentOf_append, extentOf_cons, extentOf_nil] at hoffset
  have hext : r.extent = r.length + r.terminated.toNat := rfl
  refine ⟨?_, ?_, ?_⟩
  · intro s hs
    exact h.closed s (by rw [hsplit]; exact List.mem_append_left _ hs)
  · cases hterm : r.terminated with
    | true =>
        rw [hterm, Bool.toNat_true] at hext
        rw [if_pos rfl]
        omega
    | false =>
        rw [hterm, Bool.toNat_false] at hext
        rcases hclosed with hterm' | hfull
        · rw [hterm] at hterm'
          cases hterm'
        · rw [if_neg Bool.false_ne_true]
          omega
  · rw [Option.some.inj hr]
    split
    · exact Nat.le_refl _
    · exact Nat.sub_le _ _

/-- The text from a place before the edit up to the edit stays. -/
theorem ByteEdit.Makes.take_drop_eq {e : ByteEdit} {p : Nat} {text text' : List UInt8}
    (h : e.Makes p text text') (start : Nat) :
    (text'.drop start).take (p - start) = (text.drop start).take (p - start) := by
  rw [← List.drop_take, ← List.drop_take, h.take_eq]

/-- The rows above an edit are closed, so they are rows of the new text as well. -/
theorem StandsAt.rowsOf_eq {e : ByteEdit} {cols start p row col : Nat} {text text' : List UInt8}
    (h : StandsAt cols text start p row col) (hedit : e.Makes p text text') :
    rowsOf cols (text'.drop start) row = rowsOf cols (text.drop start) row := by
  have hoffset := h.offset_eq
  exact rowsOf_congr (hedit.take_drop_eq start) h.closed (by omega)

/-! ## Patched rows -/

/-- What a row shows is known from the text before its end. -/
theorem rowGlyph_congr {text text' : List UInt8} {r r' : Row} {m c : Nat}
    (h : text'.take m = text.take m) (hc : c < m) (hr : c < r.length) (hr' : c < r'.length) :
    rowGlyph text' r' c = rowGlyph text r c := by
  have hget := congrArg (·[c]?) h
  simp only [List.getElem?_take_of_lt hc] at hget
  rw [rowGlyph, rowGlyph, if_pos hr, if_pos hr', List.getD_eq_getElem?_getD,
    List.getD_eq_getElem?_getD, hget]

/-- Rows above an edit show the text as it is after the edit. -/
theorem ShowsRows.congr_text {grid : Grid} {row p : Nat} {text text' : List UInt8}
    {rows : List Row} (h : ShowsRows grid row text rows) (heq : text'.take p = text.take p)
    (hp : extentOf rows ≤ p) : ShowsRows grid row text' rows := by
  induction rows generalizing row p text text' with
  | nil => trivial
  | cons r rest ih =>
      rw [extentOf_cons] at hp
      have hle := length_le_extent r
      have hdrop : (text'.drop r.extent).take (p - r.extent)
          = (text.drop r.extent).take (p - r.extent) := by
        rw [← List.drop_take, ← List.drop_take, heq]
      refine ⟨?_, ih h.2 hdrop (by omega)⟩
      intro c hc
      rw [h.1 c hc]
      by_cases hlt : c < r.length
      · exact (rowGlyph_congr heq (by omega) hlt hlt).symm
      · rw [rowGlyph, rowGlyph, if_neg hlt, if_neg hlt]

/-- What patching rows from `row` on comes to: they are the rows of the text, the grid shows them,
and the rows above are as they were. -/
structure Patched (grid : Grid) (cols row n : Nat) (text : List UInt8)
    (patched : List Row × List Paint) : Prop where
  rows_eq : patched.1 = rowsOf cols text n
  shows : ShowsRows (grid.paintAll patched.2) row text patched.1
  above : ∀ r < row, ∀ c < grid.cols, (grid.paintAll patched.2).glyph r c = grid.glyph r c

/-- A first row that is shown goes before patched rows. -/
theorem Patched.cons {grid : Grid} {rows cols row n : Nat} {text : List UInt8} {paints : List Paint}
    {rest : List Row × List Paint} (hsized : grid.Sized rows cols) (hrow : row < rows)
    (hothers : ∀ r < rows, r ≠ row → ∀ c < cols,
      (grid.paintAll paints).glyph r c = grid.glyph r c)
    (hfirst : ShowsRow (grid.paintAll paints) row text (firstRow cols text))
    (hrest : Patched (grid.paintAll paints) cols (row + 1) n
      (text.drop (firstRow cols text).extent) rest) :
    Patched grid cols row (n + 1) text (firstRow cols text :: rest.1, paints ++ rest.2) := by
  have hsized' := Grid.sized_paintAll hsized paints
  have hsized'' := Grid.sized_paintAll hsized' rest.2
  refine ⟨?_, ?_, ?_⟩
  · rw [rowsOf, hrest.rows_eq]
  · rw [Grid.paintAll_append]
    refine ⟨?_, hrest.shows⟩
    intro c hc
    rw [hsized''.cols_eq, ← hsized'.cols_eq] at hc
    rw [hrest.above row (Nat.lt_succ_self row) c hc, hfirst c hc]
  · intro r hr c hc
    rw [hsized.cols_eq] at hc
    rw [Grid.paintAll_append, hrest.above r (by omega) c (hsized'.cols_eq ▸ hc),
      hothers r (by omega) (by omega) c hc]

/-- Painting a row from a column on shows it, if the cells before the column do already. -/
theorem showsRow_paintRow {rows cols : Nat} {g : GapBuffer} {grid : Grid}
    (hsized : grid.Sized rows cols) {row start col : Nat} (hrow : row < rows)
    (hstart : start ≤ g.length)
    (hcells : ∀ c < col, c < cols → grid.glyph row c
      = rowGlyph (g.content.drop start) (firstRow cols (g.content.drop start)) c) :
    ShowsRow (grid.paintAll (View.paintRow g none row start
        (min col (firstRow cols (g.content.drop start)).length)
        (firstRow cols (g.content.drop start)).length)) row (g.content.drop start)
      (firstRow cols (g.content.drop start)) ∧
    ∀ r < rows, r ≠ row → ∀ c < cols, (grid.paintAll (View.paintRow g none row start
        (min col (firstRow cols (g.content.drop start)).length)
        (firstRow cols (g.content.drop start)).length)).glyph r c = grid.glyph r c := by
  have hlen := length_firstRow_le_cols cols (g.content.drop start)
  have hext := extent_firstRow_le cols (g.content.drop start)
  rw [List.length_drop, g.length_content] at hext
  generalize firstRow cols (g.content.drop start) = new at hlen hext hcells ⊢
  have hle := length_le_extent new
  have hsized' := Grid.sized_paintAll hsized
    (View.paintRow g none row start (min col new.length) new.length)
  have hglyph := fun r c hr hc => @glyph_paintRow grid rows cols g none hsized row start
    (min col new.length) new.length hrow (Nat.min_le_right _ _) hlen (by omega) r c hr hc
  refine ⟨?_, ?_⟩
  · intro c hc
    rw [hsized'.cols_eq] at hc
    rw [hglyph row c hrow hc]
    by_cases hcol : min col new.length ≤ c
    · rw [if_pos ⟨rfl, hcol⟩, rowGlyph]
      simp only [List.getD_eq_getElem?_getD, List.getElem?_drop]
    · rw [if_neg fun h => hcol h.2]
      exact hcells c (by omega) hc
  · intro r hr hne c hc
    rw [hglyph r c hr hc, if_neg fun h => hne h.1]

/-- **Patching rows down to the first that ends where it ended before.**  `oldText` is the text
before the edit.  The induction is on the rows; what carries it is that the edit is not behind the
end of the first of them, before or after it. -/
theorem patched_patchRows {e : ByteEdit} {p rows cols : Nat} {oldText : List UInt8} {g : GapBuffer}
    {grid : Grid} (hedit : e.Makes p oldText g.content) (hsized : grid.Sized rows cols)
    {row start oldStart col n : Nat} (hrow : row + n ≤ rows) (hstart : start ≤ g.length)
    (hnew : p ≤ start + (firstRow cols (g.content.drop start)).extent)
    (hold : p ≤ oldStart + (firstRow cols (oldText.drop oldStart)).extent)
    (hshows : ShowsRows grid row (oldText.drop oldStart) (rowsOf cols (oldText.drop oldStart) n))
    (hcells : ∀ c < col, c < cols → grid.glyph row c
      = rowGlyph (g.content.drop start) (firstRow cols (g.content.drop start)) c) :
    Patched grid cols row n (g.content.drop start)
      (View.patchRows g cols e row start oldStart col
        (rowsOf cols (oldText.drop oldStart) n)) := by
  induction n generalizing grid row start oldStart col with
  | zero => exact ⟨rfl, trivial, fun _ _ _ _ => rfl⟩
  | succ n ih =>
      rw [rowsOf, View.patchRows, rowAt_eq, List.drop_drop]
      rw [rowsOf, ShowsRows, List.drop_drop] at hshows
      obtain ⟨hfirst, hothers⟩ := showsRow_paintRow hsized (by omega) hstart hcells
      have hcons := fun rest => @Patched.cons grid rows cols row n (g.content.drop start) _ rest
        hsized (by omega) hothers hfirst
      have hext := extent_firstRow_le cols (g.content.drop start)
      rw [List.length_drop, g.length_content] at hext
      rw [List.drop_drop] at hcons
      generalize firstRow cols (g.content.drop start) = new at hnew hothers hcons hext ⊢
      generalize firstRow cols (oldText.drop oldStart) = old at hold hshows ⊢
      have hsized' := Grid.sized_paintAll hsized
        (View.paintRow g none row start (min col new.length) new.length)
      generalize hpaints : View.paintRow g none row start (min col new.length) new.length = paints
        at hothers hcons hsized' ⊢
      have hbelow : ShowsRows (grid.paintAll paints) (row + 1)
          (oldText.drop (oldStart + old.extent))
          (rowsOf cols (oldText.drop (oldStart + old.extent)) n) := by
        refine hshows.2.congr (hsized'.cols_eq.trans hsized.cols_eq.symm) ?_
        rw [length_rowsOf]
        intro r hle hlt c hc
        exact hothers r (by omega) (by omega) c (hsized.cols_eq ▸ hc)
      split
      · next halign =>
        have hdrop := hedit.drop_eq halign hnew hold
        rw [← hdrop] at hbelow ⊢
        have hrest : Patched (grid.paintAll paints) cols (row + 1) n
            (g.content.drop (start + new.extent))
            (rowsOf cols (g.content.drop (start + new.extent)) n, []) :=
          ⟨rfl, hbelow, fun _ _ _ _ => rfl⟩
        have hall := hcons _ hrest
        rwa [List.append_nil] at hall
      · have hrest := ih hsized' (by omega) (by omega)
          (Nat.le_trans hnew (Nat.le_add_right _ _)) (Nat.le_trans hold (Nat.le_add_right _ _))
          hbelow fun c hc => absurd hc (Nat.not_lt_zero c)
        exact hcons _ hrest

namespace View

variable {v : View} {grid : Grid} {g g' : GapBuffer} {selected : Option Span}

/-- The caret stands where it is located. -/
theorem LaidOut.standsAt (hlaid : v.LaidOut g) {row col : Nat}
    (h : v.locate g.caret = some (row, col)) :
    row < v.rows ∧ StandsAt v.cols g.content v.windowStart g.caret row col := by
  rw [locate] at h
  split at h
  · cases h
  · next hge =>
    have hcaret := g.caret_le_length
    rw [← g.length_content] at hcaret
    rw [hlaid.layout_eq] at h
    obtain ⟨k, hk, rfl, hstands⟩ := of_locateIn h (Nat.le_of_not_lt hge) hcaret
    rw [Nat.zero_add]
    exact ⟨hk, hstands⟩

/-- Once the rows are shown, the caret is noted or followed. -/
theorem synced_follow (hfits : v.Fits grid) (hlaid : v.LaidOut g)
    (hshows : ShowsRows grid 0 (g.content.drop v.windowStart) v.layout) :
    (if v.showsCaret g then v.placeCursor g else v.scrollToCaret g selected).InStep grid g := by
  split
  · next hcaret => exact synced_placeCursor hfits hlaid hshows hcaret
  · exact synced_scrollToCaret hfits hlaid

/-- The layout of a window, cut at a row. -/
theorem LaidOut.layout_split (hlaid : v.LaidOut g) {row : Nat} (hrow : row ≤ v.rows) :
    v.layout = rowsOf v.cols (g.content.drop v.windowStart) row
      ++ rowsOf v.cols (g.content.drop (v.rowStart row)) (v.rows - row) := by
  have hadd := rowsOf_add v.cols (g.content.drop v.windowStart) row (v.rows - row)
  rw [List.drop_drop, ← hlaid.rowStart_eq hrow, Nat.add_sub_cancel' hrow] at hadd
  rw [← hadd, hlaid.layout_eq]

/-- What the grid shows, cut at a row. -/
theorem LaidOut.shows_split (hlaid : v.LaidOut g)
    (hshows : ShowsRows grid 0 (g.content.drop v.windowStart) v.layout) {row : Nat}
    (hrow : row ≤ v.rows) :
    ShowsRows grid 0 (g.content.drop v.windowStart)
        (rowsOf v.cols (g.content.drop v.windowStart) row) ∧
      ShowsRows grid row (g.content.drop (v.rowStart row))
        (rowsOf v.cols (g.content.drop (v.rowStart row)) (v.rows - row)) := by
  rwa [hlaid.layout_split hrow, ShowsRows.append, List.drop_drop, ← hlaid.rowStart_eq hrow,
    length_rowsOf, Nat.zero_add] at hshows

/-- **A patched window is in step**, if the edit was at the given row and column of a window that
was. -/
theorem synced_patch {e : ByteEdit} {p row col : Nat} (hsync : v.Synced grid g)
    (hedit : e.Makes p g.content g'.content) (hrow : row < v.rows)
    (hstands : StandsAt v.cols g.content v.windowStart p row col) :
    (v.patch g' e row col).InStep grid g' := by
  have hfits := hsync.fits
  have hstart := hsync.laidOut.rowStart_eq (Nat.le_of_lt hrow)
  have hoffset := hstands.offset_eq
  have hcolle := hstands.col_le
  have hple := hedit.le_length
  rw [g'.length_content] at hple
  rw [← hstart] at hoffset hcolle
  have habove := hstands.rowsOf_eq hedit
  have htake : (g'.content.drop (v.rowStart row)).take col
      = (g.content.drop (v.rowStart row)).take col := by
    have hcol : col = p - v.rowStart row := by omega
    rw [hcol, hedit.take_drop_eq]
  have hnewle := le_length_firstRow htake hcolle
  obtain ⟨hupper, hlower⟩ := hsync.laidOut.shows_split hsync.shows (Nat.le_of_lt hrow)
  have hcells : ∀ c < col, c < v.cols → grid.glyph row c
      = rowGlyph (g'.content.drop (v.rowStart row))
        (firstRow v.cols (g'.content.drop (v.rowStart row))) c := by
    intro c hc hcols
    obtain ⟨n, hn⟩ := Nat.exists_eq_add_of_lt hrow
    have hcount : v.rows - row = n + 1 := by omega
    rw [hcount, rowsOf] at hlower
    rw [hlower.1 c (by rw [hfits.sized.cols_eq]; exact hcols)]
    exact (rowGlyph_congr htake hc (by omega) (by omega)).symm
  have hpatched := patched_patchRows hedit hfits.sized
    (Nat.le_of_eq (Nat.add_sub_cancel' (Nat.le_of_lt hrow))) (by omega)
    (Nat.le_trans (by omega) (Nat.add_le_add_left (length_le_extent _) _))
    (Nat.le_trans (by omega) (Nat.add_le_add_left (length_le_extent _) _)) hlower hcells
  have hlayout := hsync.laidOut.layout_split (Nat.le_of_lt hrow)
  have hlen := length_rowsOf v.cols (g.content.drop v.windowStart) row
  have hcut : v.layout.take row = rowsOf v.cols (g.content.drop v.windowStart) row := by
    rw [hlayout, List.take_left' hlen]
  have hrest : v.layout.drop row
      = rowsOf v.cols (g.content.drop (v.rowStart row)) (v.rows - row) := by
    rw [hlayout, List.drop_left' hlen]
  rw [patch, hcut, hrest]
  generalize patchRows g' v.cols e row (v.rowStart row) (v.rowStart row) col
    (rowsOf v.cols (g.content.drop (v.rowStart row)) (v.rows - row)) = patched at hpatched ⊢
  obtain ⟨rows, paints⟩ := patched
  obtain ⟨hrows, hshows, hkept⟩ := hpatched
  apply inStep_andThen
  have hsized' := Grid.sized_paintAll hfits.sized paints
  have hupper' := (hupper.congr (hsized'.cols_eq.trans hfits.sized.cols_eq.symm) fun r _ hlt =>
    hkept r (by rwa [length_rowsOf, Nat.zero_add] at hlt)).congr_text
      (hedit.take_drop_eq v.windowStart) (by omega)
  apply synced_follow
  · exact ⟨hsized', hfits.rows_pos, hfits.cols_pos, hfits.preferred_lt⟩
  · have hadd := rowsOf_add v.cols (g'.content.drop v.windowStart) row (v.rows - row)
    rw [habove, List.drop_drop, ← hstart, Nat.add_sub_cancel' (Nat.le_of_lt hrow), ← hrows] at hadd
    have hwindow : v.windowStart ≤ g'.length := by omega
    exact ⟨hwindow, hadd.symm⟩
  · have happend := @ShowsRows.append (grid.paintAll paints) 0 (g'.content.drop v.windowStart)
      (rowsOf v.cols (g.content.drop v.windowStart) row) rows
    rw [List.drop_drop, ← hstart, length_rowsOf, Nat.zero_add] at happend
    exact happend.mpr ⟨hupper', hshows⟩

/-! ## Edits of one byte -/

/-- After an insertion the view is in step again. -/
theorem synced_afterInsert (hsync : v.Synced grid g)
    (hedit : ByteEdit.Makes .insert g.caret g.content g'.content) :
    (v.afterInsert g').InStep grid g' := by
  obtain ⟨hrow, hstands⟩ := hsync.laidOut.standsAt hsync.locate_eq
  exact synced_patch hsync hedit hrow hstands

/-- After a deletion to the right the view is in step again. -/
theorem synced_afterDeleteRight (hsync : v.Synced grid g)
    (hedit : ByteEdit.Makes .delete g.caret g.content g'.content) :
    (v.afterDeleteRight g').InStep grid g' := by
  obtain ⟨hrow, hstands⟩ := hsync.laidOut.standsAt hsync.locate_eq
  exact synced_patch hsync hedit hrow hstands

/-- Where the byte before the caret stands, if that is in the window: on the caret's row, or at the
left edge on the row above. -/
def placeBefore? (v : View) : Option (Nat × Nat) :=
  match v.cursor with
  | (row, col + 1) => some (row, col)
  | (row + 1, 0) =>
    let above := v.layout.getD row default
    some (row, if above.terminated then above.length else above.length - 1)
  | (0, 0) => none

/-- A deletion to the left patches from the place before the cursor, or redraws when there is none.
-/
theorem afterDeleteLeft_eq (v : View) (g : GapBuffer) :
    v.afterDeleteLeft g = match v.placeBefore? with
      | some (row, col) => v.patch g .delete row col
      | none => v.reformat g none := by
  rw [afterDeleteLeft, placeBefore?]
  obtain ⟨row, col⟩ := v.cursor
  cases col with
  | succ col => rfl
  | zero => cases row <;> rfl

theorem Synced.standsAt_placeBefore {p row col : Nat} (hsync : v.Synced grid g)
    (hp : p + 1 = g.caret) (h : v.placeBefore? = some (row, col)) :
    row < v.rows ∧ StandsAt v.cols g.content v.windowStart p row col := by
  have hlocate := hsync.locate_eq
  rw [placeBefore?] at h
  generalize v.cursor = cursor at hlocate h
  obtain ⟨row', col'⟩ := cursor
  obtain ⟨hrow, hstands⟩ := hsync.laidOut.standsAt hlocate
  rw [← hp] at hstands
  cases col' with
  | succ col' =>
      obtain ⟨rfl, rfl⟩ := Prod.mk.inj (Option.some.inj h)
      have hoffset := hstands.offset_eq
      have hcol := hstands.col_le
      exact ⟨hrow, hstands.closed, by omega, by omega⟩
  | zero =>
      cases row' with
      | zero => cases h
      | succ row' =>
          have hget := getElem?_rowsOf v.cols (g.content.drop v.windowStart)
            (Nat.lt_succ_self row')
          have habove := getElem?_rowsOf v.cols (g.content.drop v.windowStart)
            (Nat.lt_of_succ_lt hrow)
          rw [← hsync.laidOut.layout_eq] at habove
          simp only [List.getD_eq_getElem?_getD, habove, Option.getD_some] at h
          obtain ⟨rfl, rfl⟩ := Prod.mk.inj (Option.some.inj h)
          exact ⟨Nat.lt_of_succ_lt hrow, hstands.above hsync.fits.cols_pos hget⟩

/-- After a deletion to the left the view is in step again. -/
theorem synced_afterDeleteLeft {p : Nat} (hsync : v.Synced grid g)
    (hedit : ByteEdit.Makes .delete p g.content g'.content) (hp : p + 1 = g.caret) :
    (v.afterDeleteLeft g').InStep grid g' := by
  rw [afterDeleteLeft_eq]
  split
  · next row col hplace =>
    obtain ⟨hrow, hstands⟩ := hsync.standsAt_placeBefore hp hplace
    exact synced_patch hsync hedit hrow hstands
  · exact synced_reformat hsync.fits

/-! ## Motions -/

/-- Some rows of the window. -/
theorem LaidOut.take_drop_layout (hlaid : v.LaidOut g) {top n : Nat} (hn : top + n ≤ v.rows) :
    (v.layout.drop top).take n = rowsOf v.cols (g.content.drop (v.rowStart top)) n := by
  rw [hlaid.layout_split (Nat.le_trans (Nat.le_add_right _ _) hn),
    List.drop_left' (length_rowsOf _ _ _), take_rowsOf v.cols _ (by omega)]

/-- Painting some rows of the window again changes nothing that the grid shows. -/
theorem showsRows_repaint (hfits : v.Fits grid) (hlaid : v.LaidOut g)
    (hshows : ShowsRows grid 0 (g.content.drop v.windowStart) v.layout) {top n : Nat}
    (hn : top + n ≤ v.rows) :
    ShowsRows (grid.paintAll (paintRows g selected top (v.rowStart top)
      ((v.layout.drop top).take n))) 0 (g.content.drop v.windowStart) v.layout := by
  have hsized := hfits.sized
  have htop : top ≤ v.rows := Nat.le_trans (Nat.le_add_right _ _) hn
  have hstart := hlaid.rowStart_le htop
  have hlayout := hlaid.layout_split htop
  have hpart := hlaid.take_drop_layout hn
  obtain ⟨hupper, hlower⟩ := hlaid.shows_split hshows htop
  have hcount : v.rows - top = n + (v.rows - top - n) := by omega
  rw [hcount, rowsOf_add, ShowsRows.append, length_rowsOf] at hlower
  have hpainted := @showsRows_paintRows grid v.rows v.cols g selected hsized top (v.rowStart top) n
    hstart hn
  have hothers := fun r c hr hc hout => @glyph_paintRows_of_not_mem grid v.rows v.cols g selected
    hsized top (v.rowStart top) n hstart hn r c hr hc hout
  rw [hpart]
  generalize paintRows g selected top (v.rowStart top)
    (rowsOf v.cols (g.content.drop (v.rowStart top)) n) = paints at hpainted hothers ⊢
  have hcols := (Grid.sized_paintAll hsized paints).cols_eq.trans hsized.cols_eq.symm
  have hrowStart := hlaid.rowStart_eq htop
  rw [hlayout, ShowsRows.append, List.drop_drop, ← hrowStart, length_rowsOf, Nat.zero_add, hcount,
    rowsOf_add, ShowsRows.append, length_rowsOf]
  refine ⟨hupper.congr hcols ?_, hpainted, hlower.2.congr hcols ?_⟩
  · intro r _ hlt c hc
    rw [length_rowsOf] at hlt
    exact hothers r c (by omega) (hsized.cols_eq ▸ hc) (.inl (by omega))
  · intro r hle hlt c hc
    rw [length_rowsOf] at hlt
    exact hothers r c (by omega) (hsized.cols_eq ▸ hc) (.inr (by omega))

/-- A layout depends on the text only. -/
theorem LaidOut.congr (hlaid : v.LaidOut g) (hcontent : g'.content = g.content) :
    v.LaidOut g' := by
  have hlen : g'.length = g.length := by
    rw [← g'.length_content, hcontent, g.length_content]
  refine ⟨hlen ▸ hlaid.start_le, ?_⟩
  rw [hcontent]
  exact hlaid.layout_eq

/-- **A caret that moves within the text stays in step.** -/
theorem synced_afterMotion (hsync : v.Synced grid g) (hcontent : g'.content = g.content) :
    (v.afterMotion g' selected).InStep grid g' := by
  have hlaid := hsync.laidOut.congr hcontent
  rw [afterMotion]
  split
  · exact synced_scrollToCaret hsync.fits hlaid
  · next row col hlocate =>
    have hcaret : v.showsCaret g' = true := by rw [showsCaret, hlocate, Option.isSome_some]
    have hrow := (hlaid.standsAt hlocate).1
    have hold : v.cursor.1 < v.rows := (hsync.laidOut.standsAt hsync.locate_eq).1
    apply inStep_andThen
    refine synced_placeCursor (hsync.fits.paintAll _) hlaid ?_ hcaret
    have hshows := hsync.shows
    rw [← hcontent] at hshows
    split
    · exact showsRows_repaint hsync.fits hlaid hshows (by omega)
    · exact hshows

end View
end ScreenEditor
