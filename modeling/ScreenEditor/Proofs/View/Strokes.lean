import ScreenEditor.Proofs.View.Patch

/-!
# What painting reads and where it writes

A *stroke* is one row painted from a column on, with the length that the row is taken to have
(`Stroke`).  It reads one cell of the storage for every column and puts the byte there on the grid,
so a length that does not belong to the text would lead it into the gap or past the storage.  A
stroke is *inside* a grid if neither happens and all it writes is on the grid (`Stroke.Inside`).

All that a view puts on the grid comes from strokes (`Repaint.madeOf_strokes`).  They are inside
(`Repaint.Ready.inside`):

* when the rows are laid out before they are painted, whatever the view remembers
  (`View.inside_redrawStrokes`);
* after an edit of one byte, if the view was in step before the edit (`View.inside_patchStrokes`);
* after a motion, which paints rows as they are remembered, if the view was in step with a text of
  the same content (`View.inside_motionStrokes`).
-/

namespace ScreenEditor

/-! ## Strokes -/

/-- The command keeps to a grid of the given size.  A row may be cleared from behind its last
column, which clears nothing. -/
def Paint.StaysOn (rows cols : Nat) : Paint → Prop
  | .put row col _ _ => row < rows ∧ col < cols
  | .clearToEnd row col => row < rows ∧ col ≤ cols
  | .cursor row col => row < rows ∧ col < cols

/-- Whether the command changes cells. -/
def Paint.onCells : Paint → Bool
  | .cursor _ _ => false
  | _ => true

/-- A row painted from a column on: the text and the selection that are shown, the row of the grid,
where it begins in the text, the column, and how many bytes the row is taken to have. -/
structure Stroke where
  buffer : GapBuffer
  selected : Option Span
  row : Nat
  start : Nat
  col : Nat
  length : Nat

namespace Stroke

/-- The cells of the storage that are read, from the first column to the last. -/
def reads (k : Stroke) : List Nat :=
  (List.range' k.col (k.length - k.col)).map fun c => k.buffer.rawIndex (k.start + c)

/-- What is put on the grid: the bytes that are read, and blanks behind them. -/
def paints (k : Stroke) : List Paint :=
  ((k.reads.zipIdx k.col).map fun (raw, c) =>
    .put k.row c (displayByte (k.buffer.readAt raw))
      (highlighted k.selected k.buffer.gapBegin k.buffer.free raw))
  ++ [.clearToEnd k.row k.length]

/-- The stroke reads cells of the text only and keeps to a grid of the given size. -/
structure Inside (k : Stroke) (rows cols : Nat) : Prop where
  reads_text : ∀ raw ∈ k.reads,
    raw < k.buffer.capacity ∧ (raw < k.buffer.gapBegin ∨ k.buffer.gapEnd ≤ raw)
  stays_on : ∀ p ∈ k.paints, p.StaysOn rows cols

end Stroke

/-- A range with its places is the range twice. -/
theorem zipIdx_range' (start n : Nat) :
    (List.range' start n).zipIdx start = (List.range' start n).map fun c => (c, c) := by
  induction n generalizing start with
  | zero => rfl
  | succ n ih => rw [List.range'_succ, List.zipIdx_cons, ih, List.map_cons]

theorem Stroke.paints_eq (k : Stroke) :
    k.paints = View.paintRow k.buffer k.selected k.row k.start k.col k.length := by
  rw [paints, reads, List.zipIdx_map, zipIdx_range', List.map_map, List.map_map]
  rfl

/-- A stroke puts nothing but cells. -/
theorem Stroke.filter_paints (k : Stroke) : k.paints.filter Paint.onCells = k.paints := by
  refine List.filter_eq_self.mpr fun p hp => ?_
  rcases List.mem_append.mp hp with hp | hp
  · obtain ⟨-, -, rfl⟩ := List.mem_map.mp hp
    rfl
  · obtain rfl := List.mem_singleton.mp hp
    rfl

/-- A stroke puts nothing but cells. -/
theorem filter_flatMap_paints (strokes : List Stroke) :
    (strokes.flatMap Stroke.paints).filter Paint.onCells = strokes.flatMap Stroke.paints := by
  rw [List.filter_flatMap]
  simp only [Stroke.filter_paints]

/-- A byte of the text is outside the gap. -/
theorem GapBuffer.rawIndex_lt (g : GapBuffer) {k : Nat} (h : k < g.length) :
    g.rawIndex k < g.capacity ∧ (g.rawIndex k < g.gapBegin ∨ g.gapEnd ≤ g.rawIndex k) := by
  have hsome := g.offset?_rawIndex h
  have hnone := g.offset?_eq_none_iff (g.rawIndex k)
  rw [hsome] at hnone
  simp only [reduceCtorEq, false_iff] at hnone
  omega

/-- **A stroke is inside** if the text is as long as the row is taken to be. -/
theorem Stroke.inside_of_le {k : Stroke} {rows cols : Nat} (hrow : k.row < rows)
    (hlen : k.length ≤ cols) (htext : k.start + k.length ≤ k.buffer.length) :
    k.Inside rows cols := by
  refine ⟨?_, ?_⟩
  · intro raw hraw
    obtain ⟨c, hc, rfl⟩ := List.mem_map.mp hraw
    obtain ⟨hle, hlt⟩ := List.mem_range'_1.mp hc
    exact k.buffer.rawIndex_lt (by omega)
  · intro p hp
    rw [paints_eq, View.paintRow] at hp
    rcases List.mem_append.mp hp with hp | hp
    · obtain ⟨c, hc, rfl⟩ := List.mem_map.mp hp
      obtain ⟨hle, hlt⟩ := List.mem_range'_1.mp hc
      exact ⟨hrow, by omega⟩
    · obtain rfl := List.mem_singleton.mp hp
      exact ⟨hrow, hlen⟩

/-- The row at a place of a text is as long as the text has it. -/
theorem Stroke.inside_firstRow {g : GapBuffer} {rows cols row start : Nat} (hrow : row < rows)
    (hstart : start ≤ g.length) (selected : Option Span) (col : Nat) :
    Stroke.Inside ⟨g, selected, row, start, col, (firstRow cols (g.content.drop start)).length⟩
      rows cols := by
  have hext := extent_firstRow_le cols (g.content.drop start)
  have hle := length_le_extent (firstRow cols (g.content.drop start))
  rw [List.length_drop, g.length_content] at hext
  refine inside_of_le hrow (length_firstRow_le_cols cols _) ?_
  simp only
  omega

/-- All that was put on the grid comes from strokes. -/
def Repainted.MadeOf (r : Repainted) (strokes : List Stroke) : Prop :=
  r.2.filter Paint.onCells = strokes.flatMap Stroke.paints

namespace View

variable {v : View} {grid : Grid} {g g' : GapBuffer} {selected : Option Span} {rows cols : Nat}

/-- Placing the cursor needs no stroke. -/
theorem madeOf_placeCursor (v : View) (g : GapBuffer) : (v.placeCursor g).MadeOf [] := by
  rw [placeCursor]
  split <;> rfl

/-- The strokes of two steps come one after the other. -/
theorem madeOf_andThen {r : Repainted} {f : View → Repainted} {strokes more : List Stroke}
    (h : r.MadeOf strokes) (hf : (f r.1).MadeOf more) :
    (andThen r f).MadeOf (strokes ++ more) := by
  rw [Repainted.MadeOf, andThen, List.filter_append, h, hf, List.flatMap_append]

/-- Placing the cursor in the end adds none. -/
theorem madeOf_thenPlaceCursor {r : Repainted} {strokes : List Stroke} (h : r.MadeOf strokes) :
    (andThen r (·.placeCursor g)).MadeOf strokes := by
  have happend := madeOf_andThen (f := (·.placeCursor g)) h (madeOf_placeCursor r.1 g)
  rwa [List.append_nil] at happend

/-! ## Whole windows -/

/-- The strokes that paint rows from `start` on, counted from `row`. -/
def rowStrokes (g : GapBuffer) (selected : Option Span) (row start : Nat) : List Row → List Stroke
  | [] => []
  | r :: rest =>
    ⟨g, selected, row, start, 0, r.length⟩ ::
      rowStrokes g selected (row + 1) (start + r.extent) rest

/-- Painting rows is painting the stroke of each. -/
theorem paintRows_eq (row start : Nat) (layout : List Row) :
    paintRows g selected row start layout
      = (rowStrokes g selected row start layout).flatMap Stroke.paints := by
  induction layout generalizing row start with
  | nil => rfl
  | cons r rest ih => rw [paintRows, ih, rowStrokes, List.flatMap_cons, Stroke.paints_eq]

/-- So rows are made of their strokes. -/
theorem madeOf_paintRows (row start : Nat) (layout : List Row) :
    Repainted.MadeOf (v, paintRows g selected row start layout)
      (rowStrokes g selected row start layout) := by
  rw [Repainted.MadeOf, paintRows_eq, filter_flatMap_paints]

/-- Rows of the text are painted inside. -/
theorem inside_rowStrokes {row start n : Nat} (hstart : start ≤ g.length) (hrow : row + n ≤ rows) :
    ∀ k ∈ rowStrokes g selected row start (rowsOf cols (g.content.drop start) n),
      k.Inside rows cols := by
  induction n generalizing row start with
  | zero => exact List.forall_mem_nil _
  | succ n ih =>
      have hext := extent_firstRow_le cols (g.content.drop start)
      rw [List.length_drop, g.length_content] at hext
      rw [rowsOf, rowStrokes, List.drop_drop]
      refine List.forall_mem_cons.mpr ⟨?_, ih (by omega) (by omega)⟩
      exact Stroke.inside_firstRow (by omega) hstart selected 0

def redrawStrokes (v : View) (g : GapBuffer) (selected : Option Span) : List Stroke :=
  let w := v.moveWindow g v.windowStart
  rowStrokes g selected 0 w.windowStart w.layout

/-- A window is made of the strokes of its rows. -/
theorem madeOf_redraw (v : View) (g : GapBuffer) (selected : Option Span) :
    (v.redraw g selected).MadeOf (v.redrawStrokes g selected) :=
  madeOf_thenPlaceCursor (madeOf_paintRows 0 _ _)

/-- **A window that is painted whole is painted inside**, since its rows are laid out first. -/
theorem inside_redrawStrokes (v : View) (g : GapBuffer) (selected : Option Span) :
    ∀ k ∈ v.redrawStrokes g selected, k.Inside v.rows v.cols := by
  have hlaid := laidOut_moveWindow v g v.windowStart
  rw [redrawStrokes, hlaid.layout_eq]
  exact inside_rowStrokes hlaid.start_le (Nat.le_of_eq (Nat.zero_add _))

def reformatStrokes (v : View) (g : GapBuffer) (selected : Option Span) : List Stroke :=
  redrawStrokes { v with windowStart := v.startAround g } g selected

def refreshStrokes (v : View) (g : GapBuffer) (selected : Option Span) : List Stroke :=
  let w := v.moveWindow g v.windowStart
  if w.showsCaret g then w.redrawStrokes g selected else w.reformatStrokes g selected

def scrollStrokes (v : View) (g : GapBuffer) (selected : Option Span) : List Stroke :=
  let w := v.scroll g v.rows
  if w.showsCaret g then w.redrawStrokes g selected else w.reformatStrokes g selected

/-- So is one that is shown again. -/
theorem madeOf_refresh (v : View) (g : GapBuffer) (selected : Option Span) :
    (v.refresh g selected).MadeOf (v.refreshStrokes g selected) := by
  rw [refresh, refreshStrokes]
  split
  · exact madeOf_redraw _ g selected
  · exact madeOf_redraw _ g selected

/-- So is one that the caret has moved. -/
theorem madeOf_scrollToCaret (v : View) (g : GapBuffer) (selected : Option Span) :
    (v.scrollToCaret g selected).MadeOf (v.scrollStrokes g selected) := by
  rw [scrollToCaret, scrollStrokes]
  split
  · exact madeOf_redraw _ g selected
  · exact madeOf_redraw _ g selected

/-- **A window that is shown again** reads the text that it was just laid out over. -/
theorem inside_refreshStrokes (v : View) (g : GapBuffer) (selected : Option Span) :
    ∀ k ∈ v.refreshStrokes g selected, k.Inside v.rows v.cols := by
  rw [refreshStrokes]
  split
  · exact inside_redrawStrokes _ g selected
  · exact inside_redrawStrokes _ g selected

/-- A window keeps its size while it is scrolled. -/
theorem size_scroll (v : View) (g : GapBuffer) (n : Nat) :
    (v.scroll g n).rows = v.rows ∧ (v.scroll g n).cols = v.cols := by
  induction n generalizing v with
  | zero => exact ⟨rfl, rfl⟩
  | succ n ih =>
      rw [scroll]
      split
      · exact ⟨rfl, rfl⟩
      · split
        · next w hw =>
          rw [scrollStep?] at hw
          split at hw
          · obtain ⟨above, -, rfl⟩ := Option.map_eq_some_iff.mp hw
            exact ih _
          · obtain rfl := Option.some.inj hw
            exact ih _
        · exact ⟨rfl, rfl⟩

/-- So does one that the caret has moved. -/
theorem inside_scrollStrokes (v : View) (g : GapBuffer) (selected : Option Span) :
    ∀ k ∈ v.scrollStrokes g selected, k.Inside v.rows v.cols := by
  obtain ⟨hrows, hcols⟩ := v.size_scroll g v.rows
  rw [scrollStrokes]
  generalize v.scroll g v.rows = w at hrows hcols ⊢
  rw [← hrows, ← hcols]
  split
  · exact inside_redrawStrokes w g selected
  · exact inside_redrawStrokes _ g selected

/-! ## Patches -/

/-- The strokes that patch rows, down to the first that ends where it ended before. -/
def patchRowStrokes (g : GapBuffer) (cols : Nat) (edit : ByteEdit) (row start oldStart col : Nat) :
    List Row → List Stroke
  | [] => []
  | old :: rest =>
    let new := g.rowAt start cols
    ⟨g, none, row, start, min col new.length, new.length⟩ ::
      if edit.aligns (start + new.extent) (oldStart + old.extent) then []
      else patchRowStrokes g cols edit (row + 1) (start + new.extent) (oldStart + old.extent) 0 rest

/-- A patch paints the stroke of every row that it lays out again. -/
theorem paints_patchRows (g : GapBuffer) (cols : Nat) (edit : ByteEdit)
    (row start oldStart col : Nat) (olds : List Row) :
    (patchRows g cols edit row start oldStart col olds).2
      = (patchRowStrokes g cols edit row start oldStart col olds).flatMap Stroke.paints := by
  induction olds generalizing row start oldStart col with
  | nil => rfl
  | cons old rest ih =>
      rw [patchRows, patchRowStrokes, List.flatMap_cons, Stroke.paints_eq]
      simp only
      split
      · rw [List.flatMap_nil, List.append_nil]
      · rw [ih]

/-- Rows are patched inside, however they were laid out before: each is laid out anew. -/
theorem inside_patchRowStrokes {edit : ByteEdit} {row start oldStart col : Nat} {olds : List Row}
    (hstart : start ≤ g.length) (hrow : row + olds.length ≤ rows) :
    ∀ k ∈ patchRowStrokes g cols edit row start oldStart col olds, k.Inside rows cols := by
  induction olds generalizing row start oldStart col with
  | nil => exact List.forall_mem_nil _
  | cons old rest ih =>
      rw [List.length_cons] at hrow
      have hext := extent_firstRow_le cols (g.content.drop start)
      rw [List.length_drop, g.length_content] at hext
      rw [patchRowStrokes, rowAt_eq]
      refine List.forall_mem_cons.mpr ⟨?_, ?_⟩
      · exact Stroke.inside_firstRow (by omega) hstart none _
      · split
        · exact List.forall_mem_nil _
        · exact ih (by omega) (by omega)

def patchStrokes (v : View) (g : GapBuffer) (edit : ByteEdit) (row col : Nat) : List Stroke :=
  let start := v.rowStart row
  let (rows, _) := patchRows g v.cols edit row start start col (v.layout.drop row)
  let w := { v with layout := v.layout.take row ++ rows }
  patchRowStrokes g v.cols edit row start start col (v.layout.drop row)
    ++ if w.showsCaret g then [] else w.scrollStrokes g none

/-- So a patch is made of those strokes. -/
theorem madeOf_patch (v : View) (g : GapBuffer) (edit : ByteEdit) (row col : Nat) :
    (v.patch g edit row col).MadeOf (v.patchStrokes g edit row col) := by
  have hpaints := paints_patchRows g v.cols edit row (v.rowStart row) (v.rowStart row) col
    (v.layout.drop row)
  rw [patch, patchStrokes]
  simp only
  generalize patchRows g v.cols edit row (v.rowStart row) (v.rowStart row) col (v.layout.drop row)
    = patched at hpaints ⊢
  obtain ⟨layout, paints⟩ := patched
  refine madeOf_andThen ?_ ?_
  · rw [Repainted.MadeOf, hpaints, filter_flatMap_paints]
  · simp only
    split
    · exact madeOf_placeCursor _ g
    · exact madeOf_scrollToCaret _ g none

/-- **A patch is painted inside**, if the edit was at the given row and column of a window that was
in step. -/
theorem inside_patchStrokes {edit : ByteEdit} {p row col : Nat} (hsync : v.Synced grid g)
    (hedit : edit.Makes p g.content g'.content) (hrow : row < v.rows)
    (hstands : StandsAt v.cols g.content v.windowStart p row col) :
    ∀ k ∈ v.patchStrokes g' edit row col, k.Inside v.rows v.cols := by
  have hstart := hsync.laidOut.rowStart_eq (Nat.le_of_lt hrow)
  have hoffset := hstands.offset_eq
  have hple := hedit.le_length
  rw [g'.length_content] at hple
  have hlen : (v.layout.drop row).length = v.rows - row := by
    rw [List.length_drop, hsync.laidOut.layout_eq, length_rowsOf]
  rw [patchStrokes]
  refine List.forall_mem_append.mpr ⟨inside_patchRowStrokes (by omega) (by omega), ?_⟩
  split
  · exact List.forall_mem_nil _
  · exact inside_scrollStrokes _ g' none

def afterDeleteLeftStrokes (v : View) (g : GapBuffer) : List Stroke :=
  match v.placeBefore? with
  | some (row, col) => v.patchStrokes g .delete row col
  | none => v.reformatStrokes g none

/-- And so is the patch of a byte deleted to the left, or a whole window. -/
theorem madeOf_afterDeleteLeft (v : View) (g : GapBuffer) :
    (v.afterDeleteLeft g).MadeOf (v.afterDeleteLeftStrokes g) := by
  rw [afterDeleteLeft_eq, afterDeleteLeftStrokes]
  cases v.placeBefore? with
  | some place => exact madeOf_patch v g .delete place.1 place.2
  | none => exact madeOf_redraw _ g none

/-- **A byte deleted to the left** is patched in rows of the new text. -/
theorem inside_afterDeleteLeftStrokes {p : Nat} (hsync : v.Synced grid g)
    (hedit : ByteEdit.Makes .delete p g.content g'.content) (hp : p + 1 = g.caret) :
    ∀ k ∈ v.afterDeleteLeftStrokes g', k.Inside v.rows v.cols := by
  rw [afterDeleteLeftStrokes]
  split
  · next row col hplace =>
    obtain ⟨hrow, hstands⟩ := hsync.standsAt_placeBefore hp hplace
    exact inside_patchStrokes hsync hedit hrow hstands
  · exact inside_redrawStrokes _ g' none

/-! ## Motions -/

def motionStrokes (v : View) (g : GapBuffer) (selected : Option Span) : List Stroke :=
  match v.locate g.caret with
  | none => v.scrollStrokes g selected
  | some (row, _) =>
    let top := min v.cursor.1 row
    let bottom := max v.cursor.1 row
    if selected.isSome then
      rowStrokes g selected top (v.rowStart top) ((v.layout.drop top).take (bottom + 1 - top))
    else []

/-- A motion paints the rows on the way, or scrolls. -/
theorem madeOf_afterMotion (v : View) (g : GapBuffer) (selected : Option Span) :
    (v.afterMotion g selected).MadeOf (v.motionStrokes g selected) := by
  rw [afterMotion, motionStrokes]
  cases v.locate g.caret with
  | none => exact madeOf_scrollToCaret v g selected
  | some place =>
      refine madeOf_thenPlaceCursor ?_
      simp only
      split
      · exact madeOf_paintRows _ _ _
      · rfl

/-- **Rows are painted inside after a motion**, though they are not laid out again: the text is the
one that they were laid out for. -/
theorem inside_motionStrokes (hsync : v.Synced grid g) (hcontent : g'.content = g.content)
    (selected : Option Span) : ∀ k ∈ v.motionStrokes g' selected, k.Inside v.rows v.cols := by
  have hlaid := hsync.laidOut.congr hcontent
  rw [motionStrokes]
  split
  · exact inside_scrollStrokes v g' selected
  · next row col hlocate =>
    have hrow := (hlaid.standsAt hlocate).1
    have hold : v.cursor.1 < v.rows := (hsync.laidOut.standsAt hsync.locate_eq).1
    have htop : min v.cursor.1 row ≤ v.rows := by omega
    have hrows : min v.cursor.1 row + (max v.cursor.1 row + 1 - min v.cursor.1 row) ≤ v.rows := by
      omega
    simp only
    split
    · rw [hlaid.take_drop_layout hrows]
      exact inside_rowStrokes (hlaid.rowStart_le htop) hrows
    · exact List.forall_mem_nil _

end View

/-! ## Ways to repaint -/

/-- What a view is asked to do about a change. -/
inductive Repaint where
  | reformat
  | refresh
  | afterInsert
  | afterDeleteLeft
  | afterDeleteRight
  | afterMotion

namespace Repaint

def result (v : View) (g : GapBuffer) (selected : Option Span) : Repaint → Repainted
  | reformat => v.reformat g selected
  | refresh => v.refresh g selected
  | afterInsert => v.afterInsert g
  | afterDeleteLeft => v.afterDeleteLeft g
  | afterDeleteRight => v.afterDeleteRight g
  | afterMotion => v.afterMotion g selected

/-- The strokes of a repaint, in order. -/
def strokes (v : View) (g : GapBuffer) (selected : Option Span) : Repaint → List Stroke
  | reformat => v.reformatStrokes g selected
  | refresh => v.refreshStrokes g selected
  | afterInsert => v.patchStrokes g .insert v.cursor.1 v.cursor.2
  | afterDeleteLeft => v.afterDeleteLeftStrokes g
  | afterDeleteRight => v.patchStrokes g .delete v.cursor.1 v.cursor.2
  | afterMotion => v.motionStrokes g selected

/-- What a repaint relies on.  To show a window whole it relies on nothing; otherwise the view was
in step with the text as it was before the change that is to be shown. -/
inductive Ready (v : View) (g' : GapBuffer) : Repaint → Prop
  | reformat : Ready v g' reformat
  | refresh : Ready v g' refresh
  | afterInsert {grid : Grid} {g : GapBuffer} (hsync : v.Synced grid g)
      (hedit : ByteEdit.Makes .insert g.caret g.content g'.content) : Ready v g' afterInsert
  | afterDeleteLeft {grid : Grid} {g : GapBuffer} {p : Nat} (hsync : v.Synced grid g)
      (hedit : ByteEdit.Makes .delete p g.content g'.content) (hp : p + 1 = g.caret) :
      Ready v g' afterDeleteLeft
  | afterDeleteRight {grid : Grid} {g : GapBuffer} (hsync : v.Synced grid g)
      (hedit : ByteEdit.Makes .delete g.caret g.content g'.content) : Ready v g' afterDeleteRight
  | afterMotion {grid : Grid} {g : GapBuffer} (hsync : v.Synced grid g)
      (hcontent : g'.content = g.content) : Ready v g' afterMotion

/-- **All that a view puts on the grid comes from strokes.** -/
theorem madeOf_strokes (v : View) (g : GapBuffer) (selected : Option Span) (how : Repaint) :
    (how.result v g selected).MadeOf (how.strokes v g selected) := by
  cases how with
  | reformat => exact View.madeOf_redraw _ g selected
  | refresh => exact View.madeOf_refresh v g selected
  | afterInsert => exact View.madeOf_patch v g .insert _ _
  | afterDeleteLeft => exact View.madeOf_afterDeleteLeft v g
  | afterDeleteRight => exact View.madeOf_patch v g .delete _ _
  | afterMotion => exact View.madeOf_afterMotion v g selected

/-- **What relies on a view in step is painted inside.** -/
theorem Ready.inside {v : View} {g' : GapBuffer} {how : Repaint} (h : how.Ready v g')
    (selected : Option Span) : ∀ k ∈ how.strokes v g' selected, k.Inside v.rows v.cols := by
  cases h with
  | reformat => exact View.inside_redrawStrokes _ g' selected
  | refresh => exact View.inside_refreshStrokes v g' selected
  | afterInsert hsync hedit =>
      obtain ⟨hrow, hstands⟩ := hsync.laidOut.standsAt hsync.locate_eq
      exact View.inside_patchStrokes hsync hedit hrow hstands
  | afterDeleteLeft hsync hedit hp => exact View.inside_afterDeleteLeftStrokes hsync hedit hp
  | afterDeleteRight hsync hedit =>
      obtain ⟨hrow, hstands⟩ := hsync.laidOut.standsAt hsync.locate_eq
      exact View.inside_patchStrokes hsync hedit hrow hstands
  | afterMotion hsync hcontent => exact View.inside_motionStrokes hsync hcontent selected

end Repaint
end ScreenEditor
