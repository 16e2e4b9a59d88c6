import ScreenEditor.Proofs.View.RowGrid

/-!
# Going up and down

Vertical motion follows the rows of the text.  Going down lays out one row after the other; going up
works the row above out from the place where its line begins.  The two undo each other on the rows of
the whole text (`GapBuffer.previousRowStart?_of_inLineGrid`), since these lie whole rows apart within
their line.

So the place that a motion by some number of rows leads to is found by counting rows in the layout
of the whole text, whether the caret is in the window or not, as long as the window begins at one of
these rows (`View.vertical_follows_rows`).
-/

namespace ScreenEditor

/-! ## Places on a row -/

namespace Row

variable {r : Row} {cols start col : Nat}

theorem lastColumn_le (r : Row) (cols : Nat) : r.lastColumn cols ≤ r.length := by
  rw [lastColumn]
  split
  · exact Nat.le_refl _
  · exact Nat.sub_le _ _

/-- A caret stands on a row up to its last column. -/
theorem holds_iff (hcols : 0 < cols) (hlen : r.length ≤ cols) :
    r.holds cols start (start + col) = true ↔ col ≤ r.lastColumn cols := by
  simp only [holds, lastColumn, Bool.or_eq_true, Bool.and_eq_true, decide_eq_true_eq, beq_iff_eq]
  split <;> omega

/-- On a closed row the caret stands before the row below. -/
theorem lastColumn_lt_extent (hcols : 0 < cols) (h : r.Closed cols) :
    r.lastColumn cols < r.extent := by
  have hle := r.lastColumn_le cols
  rcases h with hterm | hfull
  · rw [extent, hterm, Bool.toNat_true]
    omega
  · have hext := length_le_extent r
    rw [lastColumn, if_neg (Nat.not_lt_of_le (Nat.le_of_eq hfull.symm))]
    omega

end Row

namespace View

/-- Where an offset is located in rows that begin at `start`, counted from `first`: on the row that
has it among its columns, below closed rows. -/
theorem locateIn_eq_some_iff {cols offset first start n R col : Nat} {text : List UInt8}
    (hcols : 0 < cols) (hstart : start ≤ offset) (hoffset : offset ≤ text.length) :
    locateIn cols offset first start (rowsOf cols (text.drop start) n) = some (R, col) ↔
      ∃ k < n, R = first + k ∧ (∀ r ∈ rowsOf cols (text.drop start) k, r.Closed cols) ∧
        start + extentOf (rowsOf cols (text.drop start) k) + col = offset ∧
        col ≤ (firstRow cols
          (text.drop (start + extentOf (rowsOf cols (text.drop start) k)))).lastColumn cols := by
  induction n generalizing first start with
  | zero => simp [rowsOf, locateIn]
  | succ n ih =>
      obtain ⟨here, rfl⟩ := Nat.exists_eq_add_of_le hstart
      have hholds := @Row.holds_iff _ cols start here hcols
        (length_firstRow_le_cols cols (text.drop start))
      rw [rowsOf, locateIn]
      by_cases hrow : here ≤ (firstRow cols (text.drop start)).lastColumn cols
      · rw [if_pos (hholds.mpr hrow), Nat.add_sub_cancel_left]
        constructor
        · intro h
          obtain ⟨rfl, rfl⟩ := Prod.mk.inj (Option.some.inj h)
          exact ⟨0, Nat.succ_pos n, rfl, by simp [rowsOf], rfl, hrow⟩
        · rintro ⟨k, hk, rfl, hclosed, hplace, -⟩
          cases k with
          | zero => simp_all [rowsOf]
          | succ k =>
              -- the rows below begin behind all places of a closed row
              rw [rowsOf] at hclosed hplace
              have hlt := Row.lastColumn_lt_extent hcols (hclosed _ List.mem_cons_self)
              rw [extentOf_cons] at hplace
              omega
      · have hnot : (firstRow cols (text.drop start)).holds cols start (start + here) = false :=
          Bool.eq_false_iff.mpr fun h => hrow (hholds.mp h)
        have hfirst := closed_of_not_holds hoffset hnot
        have hle := Row.extent_le_of_not_holds length_firstRow_lt hnot
        rw [hnot, if_neg Bool.false_ne_true, List.drop_drop, ih hle]
        constructor
        · rintro ⟨k, hk, rfl, hclosed, hplace, hcol⟩
          refine ⟨k + 1, Nat.succ_lt_succ hk, by omega, ?_, ?_, ?_⟩
          · rw [rowsOf_drop_succ]
            exact List.forall_mem_cons.mpr ⟨hfirst, hclosed⟩
          · rw [rowsOf_drop_succ, extentOf_cons, ← Nat.add_assoc]
            exact hplace
          · rw [rowsOf_drop_succ, extentOf_cons, ← Nat.add_assoc]
            exact hcol
        · rintro ⟨k, hk, rfl, hclosed, hplace, hcol⟩
          cases k with
          | zero =>
              obtain rfl : col = here := by simpa [rowsOf] using hplace
              exact absurd hcol (by simpa [rowsOf] using hrow)
          | succ k =>
              rw [rowsOf_drop_succ] at hclosed
              rw [rowsOf_drop_succ, extentOf_cons, ← Nat.add_assoc] at hplace hcol
              exact ⟨k, Nat.lt_of_succ_lt_succ hk, by omega,
                (List.forall_mem_cons.mp hclosed).2, hplace, hcol⟩

variable {v : View} {g : GapBuffer}

/-- The rows of a window on which a caret can stand, and where. -/
theorem LaidOut.locate_eq_some_iff (hlaid : v.LaidOut g) (hcols : 0 < v.cols)
    {offset row col : Nat} (hoffset : offset ≤ g.length) :
    v.locate offset = some (row, col) ↔
      row < v.rows ∧ (∀ r ∈ v.layout.take row, r.Closed v.cols) ∧
        v.rowStart row + col = offset ∧
        col ≤ (firstRow v.cols (g.content.drop (v.rowStart row))).lastColumn v.cols := by
  rw [← g.length_content] at hoffset
  rw [locate]
  split
  · next hlt =>
    refine iff_of_false (Option.some_ne_none _).symm ?_
    rintro ⟨hrow, -, hplace, -⟩
    rw [hlaid.rowStart_eq (Nat.le_of_lt hrow)] at hplace
    omega
  · next hge =>
    rw [hlaid.layout_eq, locateIn_eq_some_iff hcols (Nat.le_of_not_lt hge) hoffset]
    constructor
    · rintro ⟨k, hk, rfl, hclosed, hplace, hcol⟩
      rw [Nat.zero_add, take_rowsOf _ _ (Nat.le_of_lt hk),
        hlaid.rowStart_eq (Nat.le_of_lt hk)]
      exact ⟨hk, hclosed, hplace, hcol⟩
    · rintro ⟨hrow, hclosed, hplace, hcol⟩
      rw [take_rowsOf _ _ (Nat.le_of_lt hrow)] at hclosed
      rw [hlaid.rowStart_eq (Nat.le_of_lt hrow)] at hplace hcol
      exact ⟨row, hrow, (Nat.zero_add row).symm, hclosed, hplace, hcol⟩

end View

/-! ## One row up, one row down -/

namespace GapBuffer

variable {g : GapBuffer} {cols start : Nat}

theorem nextRowStart?_of_closed (h : (firstRow cols (g.content.drop start)).Closed cols) :
    g.nextRowStart? cols start
      = some (start + (firstRow cols (g.content.drop start)).extent) := by
  rw [nextRowStart?, rowAt_eq]
  exact if_pos h

theorem nextRowStart?_of_not_closed
    (h : ¬ (firstRow cols (g.content.drop start)).Closed cols) :
    g.nextRowStart? cols start = none := by
  rw [nextRowStart?, rowAt_eq]
  exact if_neg h

theorem columnInRow_eq (g : GapBuffer) (cols start col : Nat) :
    g.columnInRow cols start col
      = start + min col ((firstRow cols (g.content.drop start)).lastColumn cols) := by
  rw [columnInRow, rowAt_eq]
  rfl

theorem previousRowStart?_zero (g : GapBuffer) (cols limit : Nat) :
    g.previousRowStart? cols 0 limit = none := if_pos rfl

/-- Within a line the row above is a full one. -/
theorem previousRowStart?_of_ne_lineFeed {limit : Nat} (hpos : 0 < start)
    (h : g.content[start - 1]? ≠ some lineFeed) :
    g.previousRowStart? cols start limit = some (start - cols) := by
  rw [← g.byteAt?_eq] at h
  rw [previousRowStart?, if_neg (Nat.ne_of_gt hpos), if_pos h]

/-- The column at which a line that is laid out from its start ends, before the terminator at
`stop`. -/
def lineEndColumn (g : GapBuffer) (cols stop : Nat) : Nat := (stop - g.lineStart 0 stop) % cols

/-- The last row of a line that is laid out from its start. -/
theorem firstRow_lineEnd (hcols : 0 < cols) {stop : Nat} (h : g.content[stop]? = some lineFeed) :
    firstRow cols (g.content.drop (stop - g.lineEndColumn cols stop))
      = ⟨g.lineEndColumn cols stop, true⟩ := by
  have hline := g.lineStart_le 0 stop
  have hcol : g.lineEndColumn cols stop ≤ stop - g.lineStart 0 stop := Nat.mod_le _ _
  have hlt : g.lineEndColumn cols stop < cols := Nat.mod_lt _ hcols
  apply firstRow_of_lineFeed hlt
  · intro i hi
    rw [List.getElem?_drop]
    exact @ne_lineFeed_of_lineStart_le g stop _ (by omega) (by omega)
  · rw [List.getElem?_drop, Nat.sub_add_cancel (by omega), h]

/-- Above a line the row is worked out from the start of the line before it. -/
theorem previousRowStart?_of_lineFeed {stop : Nat} (h : g.content[stop]? = some lineFeed) :
    g.previousRowStart? cols (stop + 1) (stop + 1)
      = some (stop - g.lineEndColumn cols stop) := by
  rw [← g.byteAt?_eq] at h
  have hfloor : stop - (stop + 1) = 0 := Nat.sub_eq_zero_of_le (Nat.le_succ stop)
  have hline := g.lineStart_le 0 stop
  have hsplit := Nat.div_add_mod' (stop - g.lineStart 0 stop) cols
  have hplace : g.lineStart 0 stop + (stop - g.lineStart 0 stop) / cols * cols
      = stop - g.lineEndColumn cols stop := by
    rw [lineEndColumn]
    omega
  rw [previousRowStart?, if_neg (Nat.succ_ne_zero stop), Nat.add_sub_cancel,
    if_neg (not_not_intro h)]
  simp only [hfloor, hplace]
  exact if_neg fun hand => Nat.lt_irrefl 0 hand.2.1

/-- Where the row above is looked for: above a full row where that begins, and above one that is
terminated where the last row of its line would begin if the line was laid out from its start. -/
theorem previousRowStart?_add_extent (hcols : 0 < cols)
    (hclosed : (firstRow cols (g.content.drop start)).Closed cols) :
    g.previousRowStart? cols (start + (firstRow cols (g.content.drop start)).extent)
        (start + (firstRow cols (g.content.drop start)).extent)
      = some (if (firstRow cols (g.content.drop start)).terminated then
          start + (firstRow cols (g.content.drop start)).length
            - g.lineEndColumn cols (start + (firstRow cols (g.content.drop start)).length)
        else start) := by
  cases hterm : (firstRow cols (g.content.drop start)).terminated with
  | true =>
      have hfeed := lineFeed_of_terminated hterm
      rw [List.getElem?_drop] at hfeed
      rw [Row.extent, hterm, Bool.toNat_true, ← Nat.add_assoc,
        previousRowStart?_of_lineFeed hfeed, if_pos rfl]
  | false =>
      have hfull := hclosed.resolve_left (Bool.eq_false_iff.mp hterm)
      have hshown : (g.content.drop start)[cols - 1]? ≠ some lineFeed :=
        @ne_lineFeed_of_lt_firstRow cols _ _ (by omega)
      rw [List.getElem?_drop, ← Nat.add_sub_assoc hcols] at hshown
      rw [Row.extent, hterm, Bool.toNat_false, Nat.add_zero, hfull,
        previousRowStart?_of_ne_lineFeed (Nat.add_pos_right start hcols) hshown,
        Nat.add_sub_cancel, if_neg Bool.false_ne_true]

/-- A row that lies whole rows behind the start of its line is the last row of the line as laid out
from its start, if it is terminated. -/
theorem lineEndColumn_of_inLineGrid (hgrid : g.InLineGrid cols start)
    (hterm : (firstRow cols (g.content.drop start)).terminated = true) :
    g.lineEndColumn cols (start + (firstRow cols (g.content.drop start)).length)
      = (firstRow cols (g.content.drop start)).length := by
  have hle := g.lineStart_le 0 start
  obtain ⟨m, hm⟩ := hgrid
  rw [lineEndColumn, g.lineStart_add_length, Nat.sub_add_comm hle, hm, Nat.mul_add_mod,
    Nat.mod_eq_of_lt (length_firstRow_lt hterm)]

/-- **From a row that lies whole rows behind the start of its line, down and up leads back.** -/
theorem previousRowStart?_of_inLineGrid (hcols : 0 < cols) (hgrid : g.InLineGrid cols start)
    (hclosed : (firstRow cols (g.content.drop start)).Closed cols) :
    g.previousRowStart? cols (start + (firstRow cols (g.content.drop start)).extent)
        (start + (firstRow cols (g.content.drop start)).extent) = some start := by
  rw [previousRowStart?_add_extent hcols hclosed]
  split
  · next hterm => rw [lineEndColumn_of_inLineGrid hgrid hterm, Nat.add_sub_cancel]
  · rfl

end GapBuffer

namespace View

variable {v : View} {g : GapBuffer} {cols i here n : Nat}

/-! ## Several rows -/

/-- Going down follows the rows of the text, as far as the last one. -/
theorem getElem?_rowBelow (hcols : 0 < cols) (h : (rowStarts cols g.content)[i]? = some here) :
    (rowStarts cols g.content)[min (i + n) ((rowStarts cols g.content).length - 1)]?
      = some (rowBelow g cols here n) := by
  induction n generalizing i here with
  | zero =>
      have hlt := (List.getElem?_eq_some_iff.mp h).1
      rw [Nat.add_zero, Nat.min_eq_left (Nat.le_sub_one_of_lt hlt), h, rowBelow]
  | succ n ih =>
      rw [rowBelow]
      by_cases hclosed : (firstRow cols (g.content.drop here)).Closed cols
      · rw [GapBuffer.nextRowStart?_of_closed hclosed, ← Nat.succ_add_eq_add_succ]
        exact ih (getElem?_rowStarts_succ hcols h hclosed)
      · have hlt := (List.getElem?_eq_some_iff.mp h).1
        have hlast := mt (closed_iff_succ_lt hcols h).mpr hclosed
        have hend : min (i + (n + 1)) ((rowStarts cols g.content).length - 1) = i := by omega
        rw [GapBuffer.nextRowStart?_of_not_closed hclosed, hend, h]

/-- Going up follows them as far as the first one. -/
theorem getElem?_rowAbove (hcols : 0 < cols) (h : (rowStarts cols g.content)[i]? = some here) :
    (rowStarts cols g.content)[i - n]? = some (rowAbove g cols here n) := by
  induction n generalizing i here with
  | zero => exact h
  | succ n ih =>
      rw [rowAbove]
      cases i with
      | zero =>
          obtain rfl := Option.some.inj (getElem?_rowStarts_zero.symm.trans h)
          rw [GapBuffer.previousRowStart?_zero, Nat.zero_sub, h]
      | succ i =>
          obtain ⟨above, habove, hclosed, rfl⟩ := of_getElem?_rowStarts_succ hcols h
          have hgrid := GapBuffer.inLineGrid_of_mem hcols (List.mem_of_getElem? habove)
          rw [GapBuffer.previousRowStart?_of_inLineGrid hcols hgrid hclosed,
            Nat.add_sub_add_right]
          exact ih habove

end View

/-! ## The row of the caret -/

/-- An offset stands on the row of a text that begins at `start`. -/
structure OnRow (cols : Nat) (text : List UInt8) (offset start : Nat) : Prop where
  mem : start ∈ rowStarts cols text
  start_le : start ≤ offset
  col_le : offset - start ≤ (firstRow cols (text.drop start)).lastColumn cols

/-- That is the last row that begins at or before the offset. -/
theorem OnRow.lt_of_next {cols offset start i next : Nat} {text : List UInt8}
    (h : OnRow cols text offset start) (hcols : 0 < cols)
    (hi : (rowStarts cols text)[i]? = some start)
    (hnext : (rowStarts cols text)[i + 1]? = some next) : offset < next := by
  obtain ⟨here, hhere, hclosed, rfl⟩ := of_getElem?_rowStarts_succ hcols hnext
  obtain rfl := Option.some.inj (hi.symm.trans hhere)
  have hlt := Row.lastColumn_lt_extent hcols hclosed
  have hle := h.start_le
  have hcol := h.col_le
  omega

/-- The last of the rows that lead to a caret holds it. -/
theorem LeadTo.getLast? {g : GapBuffer} {cols offset : Nat} {starts : List Nat}
    (h : LeadTo g cols offset starts) :
    ∃ last, starts.getLast? = some last ∧ last ≤ offset ∧
      (g.rowAt last cols).holds cols last offset = true := by
  induction starts with
  | nil => exact h.elim
  | cons s rest ih =>
      cases rest with
      | nil => exact ⟨s, rfl, h.1, h.2⟩
      | cons t rest => exact ih h.2

namespace GapBuffer

variable {g : GapBuffer} {cols offset start : Nat}

/-- A line begins a row. -/
theorem lineStart_mem_rowStarts (hcols : 0 < cols) :
    g.lineStart 0 offset ∈ rowStarts cols g.content :=
  mem_rowStarts_of_lineFeed hcols fun hpos => by
    rw [← g.byteAt?_eq]
    exact lineFeed_before_lineStart hpos

/-- Forward layout stays on the rows of the text. -/
theorem mem_rowStarts_of_mem_rowStartsTo (hcols : 0 < cols) (hoffset : offset ≤ g.length)
    (hstart : start ∈ rowStarts cols g.content) {s : Nat}
    (hs : s ∈ g.rowStartsTo cols offset start) : s ∈ rowStarts cols g.content := by
  rw [← g.length_content] at hoffset
  fun_induction rowStartsTo g cols offset start with
  | case1 start row hgo hdec ih =>
      rcases List.mem_cons.mp hs with rfl | hs
      · exact hstart
      · obtain ⟨-, hholds, -⟩ := hgo
        have hrow : row = firstRow cols (g.content.drop start) := rowAt_eq g start cols
        rw [hrow] at hholds
        rw [hrow] at hs ih
        have hclosed := closed_of_not_holds hoffset hholds
        exact ih (add_extent_mem_rowStarts hcols hstart hclosed) hs
  | case2 start row hstop =>
      obtain rfl := List.mem_singleton.mp hs
      exact hstart

end GapBuffer

namespace View

variable {v : View} {g : GapBuffer} {cols i start n : Nat}

/-- A row of a window below closed rows is a row of the text, if the window begins at one. -/
theorem LaidOut.rowStart_mem (hlaid : v.LaidOut g) (hcols : 0 < v.cols)
    (hstart : v.windowStart ∈ rowStarts v.cols g.content) {row : Nat} (hrow : row ≤ v.rows)
    (hclosed : ∀ r ∈ v.layout.take row, r.Closed v.cols) :
    v.rowStart row ∈ rowStarts v.cols g.content := by
  rw [hlaid.layout_eq, take_rowsOf _ _ hrow] at hclosed
  rw [hlaid.rowStart_eq hrow]
  exact add_extentOf_mem_rowStarts hcols hstart hclosed

/-- **The caret's row**, whether it is in the window or not. -/
theorem LaidOut.onRow_caretRow (hlaid : v.LaidOut g) (hcols : 0 < v.cols)
    (hstart : v.windowStart ∈ rowStarts v.cols g.content) :
    OnRow v.cols g.content g.caret (v.caretRow g).1 ∧
      (v.caretRow g).2 = g.caret - (v.caretRow g).1 := by
  rw [caretRow]
  split
  · next row col hlocate =>
    obtain ⟨hrow, hclosed, hplace, hcol⟩ :=
      (hlaid.locate_eq_some_iff hcols g.caret_le_length).mp hlocate
    have hmem := hlaid.rowStart_mem hcols hstart (Nat.le_of_lt hrow) hclosed
    have hsub : g.caret - v.rowStart row = col := by omega
    exact ⟨⟨hmem, by omega, hsub ▸ hcol⟩, hsub.symm⟩
  · have hlead := (leadTo_rowStartsTo hcols (g.lineStart_le 0 g.caret) g.caret_le_length).1
    obtain ⟨last, hlast, hle, hholds⟩ := hlead.getLast?
    have hmem := GapBuffer.mem_rowStarts_of_mem_rowStartsTo hcols g.caret_le_length
      (GapBuffer.lineStart_mem_rowStarts hcols) (List.mem_of_getLast? hlast)
    simp only [List.getLastD_eq_getLast?, hlast, Option.getD_some]
    obtain ⟨col, hcol⟩ := Nat.exists_eq_add_of_le hle
    rw [rowAt_eq, hcol, Row.holds_iff hcols (length_firstRow_le_cols _ _)] at hholds
    refine ⟨⟨hmem, hle, ?_⟩, trivial⟩
    rwa [hcol, Nat.add_sub_cancel_left]

/-! ## Targets -/

theorem verticalTarget?_down (v : View) (g : GapBuffer) (n : Nat) :
    v.verticalTarget? g n =
      if rowBelow g v.cols (v.caretRow g).1 n = (v.caretRow g).1 then none
      else some (g.columnInRow v.cols (rowBelow g v.cols (v.caretRow g).1 n) (v.caretRow g).2) := by
  have hdown : ¬ (n : Int) < 0 := Int.not_lt_of_ge (Int.natCast_nonneg n)
  simp only [verticalTarget?, if_neg hdown, Int.natAbs_natCast]

theorem verticalTarget?_up (v : View) (g : GapBuffer) (hn : 0 < n) :
    v.verticalTarget? g (-n) =
      if rowAbove g v.cols (v.caretRow g).1 n = (v.caretRow g).1 then none
      else some (g.columnInRow v.cols (rowAbove g v.cols (v.caretRow g).1 n) (v.caretRow g).2) := by
  have hup : -(n : Int) < 0 := Int.neg_neg_of_pos (Int.natCast_pos.mpr hn)
  simp only [verticalTarget?, if_pos hup, Int.natAbs_neg, Int.natAbs_natCast]

/-- Below the caret's row there is a row to go to unless it is the last one. -/
theorem rowBelow_spec (hcols : 0 < cols) (hn : 0 < n)
    (h : (rowStarts cols g.content)[i]? = some start) :
    (rowBelow g cols start n = start ↔ i + 1 = (rowStarts cols g.content).length) ∧
      (rowBelow g cols start n ≠ start → (firstRow cols (g.content.drop start)).Closed cols ∧
        start + (firstRow cols (g.content.drop start)).extent ≤ rowBelow g cols start n) := by
  have hbelow := @getElem?_rowBelow g cols i start n hcols h
  have hlt := (List.getElem?_eq_some_iff.mp h).1
  have hclosed := closed_iff_succ_lt hcols h
  rcases Nat.eq_or_lt_of_le (Nat.succ_le_of_lt hlt) with hlast | hnext
  · have hsame : min (i + n) ((rowStarts cols g.content).length - 1) = i := by omega
    rw [hsame] at hbelow
    have heq : rowBelow g cols start n = start := Option.some.inj (hbelow.symm.trans h)
    exact ⟨iff_of_true heq hlast, fun hne => absurd heq hne⟩
  · have hle := extent_le_of_lt hcols h hbelow (by omega)
    have hpos := extent_pos_of_closed hcols (hclosed.mpr hnext)
    exact ⟨iff_of_false (by omega) (Nat.ne_of_lt hnext), fun _ => ⟨hclosed.mpr hnext, hle⟩⟩

/-- Above the caret's row there is a row to go to unless it is the first one. -/
theorem rowAbove_spec (hcols : 0 < cols) (hn : 0 < n)
    (h : (rowStarts cols g.content)[i]? = some start) :
    (rowAbove g cols start n = start ↔ i = 0) ∧
      (rowAbove g cols start n ≠ start →
        (firstRow cols (g.content.drop (rowAbove g cols start n))).Closed cols ∧
        rowAbove g cols start n
          + (firstRow cols (g.content.drop (rowAbove g cols start n))).extent ≤ start) := by
  have habove := @getElem?_rowAbove g cols i start n hcols h
  have hlt := (List.getElem?_eq_some_iff.mp h).1
  have hclosed := closed_iff_succ_lt hcols habove
  cases i with
  | zero =>
      rw [Nat.zero_sub] at habove
      have heq : rowAbove g cols start n = start := Option.some.inj (habove.symm.trans h)
      exact ⟨iff_of_true heq rfl, fun hne => absurd heq hne⟩
  | succ i =>
      have hle := extent_le_of_lt hcols habove h (by omega)
      have hfirst := hclosed.mpr (by omega)
      have hpos := extent_pos_of_closed hcols hfirst
      exact ⟨iff_of_false (by omega) (Nat.succ_ne_zero i), fun _ => ⟨hfirst, hle⟩⟩

end View

/-- The place at a column of a row of a text, or the last one on the row when that is shorter. -/
def placeAt? (cols : Nat) (text : List UInt8) (row col : Nat) : Option Nat :=
  (rowStarts cols text)[row]?.map fun start =>
    start + min col ((firstRow cols (text.drop start)).lastColumn cols)

namespace View

variable {v : View} {g : GapBuffer} {n : Nat}

/-- What motions by `n` rows come to when the caret is on row `i` of the text, which begins at
`start`: the last row that begins at or before the caret.  A motion leads to the row so many rows
below or above, or to the last row or the first one, at the column of the caret as far as that row
is long enough. -/
structure FollowsRows (v : View) (g : GapBuffer) (n i start : Nat) : Prop where
  row_eq : (rowStarts v.cols g.content)[i]? = some start
  start_le : start ≤ g.caret
  lt_next : ∀ next, (rowStarts v.cols g.content)[i + 1]? = some next → g.caret < next
  down_none : v.verticalTarget? g n = none ↔ i + 1 = (rowStarts v.cols g.content).length
  up_none : v.verticalTarget? g (-n) = none ↔ i = 0
  down_some : ∀ target, v.verticalTarget? g n = some target →
    placeAt? v.cols g.content (min (i + n) ((rowStarts v.cols g.content).length - 1))
      (g.caret - start) = some target ∧ g.caret < target ∧ target ≤ g.length
  up_some : ∀ target, v.verticalTarget? g (-n) = some target →
    placeAt? v.cols g.content (i - n) (g.caret - start) = some target ∧ target < g.caret

/-- **Motions by rows follow the rows of the text**, whether the caret is in the window or not. -/
theorem vertical_follows_rows (hlaid : v.LaidOut g) (hcols : 0 < v.cols)
    (hstart : v.windowStart ∈ rowStarts v.cols g.content) (hn : 0 < n) :
    ∃ i start, v.FollowsRows g n i start := by
  obtain ⟨hon, hcol⟩ := hlaid.onRow_caretRow hcols hstart
  have hdown := v.verticalTarget?_down g n
  have hup := v.verticalTarget?_up g hn
  rw [hcol] at hdown hup
  generalize (v.caretRow g).1 = start at hon hdown hup
  obtain ⟨i, hi⟩ := List.mem_iff_getElem?.mp hon.mem
  have hle := hon.start_le
  have hcolle := hon.col_le
  obtain ⟨hbelow_iff, hbelow⟩ := @rowBelow_spec g v.cols i start n hcols hn hi
  obtain ⟨habove_iff, habove⟩ := @rowAbove_spec g v.cols i start n hcols hn hi
  refine ⟨i, start, hi, hle, fun next => hon.lt_of_next hcols hi, ?_, ?_, ?_, ?_⟩
  · rw [hdown, ite_eq_left_iff, ← hbelow_iff]
    simp
  · rw [hup, ite_eq_left_iff, ← habove_iff]
    simp
  · intro target htarget
    rw [hdown, Option.ite_none_left_eq_some, Option.some.injEq, GapBuffer.columnInRow_eq] at htarget
    obtain ⟨hne, rfl⟩ := htarget
    obtain ⟨hclosed, hnext⟩ := hbelow hne
    have hlt := Row.lastColumn_lt_extent hcols hclosed
    have hin := extent_firstRow_le v.cols (g.content.drop (rowBelow g v.cols start n))
    have hlast := Row.lastColumn_le
      (firstRow v.cols (g.content.drop (rowBelow g v.cols start n))) v.cols
    have hext := length_le_extent (firstRow v.cols (g.content.drop (rowBelow g v.cols start n)))
    have hrow := @getElem?_rowBelow g v.cols i start n hcols hi
    have hrowle := le_length_of_mem_rowStarts hcols (List.mem_of_getElem? hrow)
    rw [g.length_content] at hrowle
    rw [List.length_drop, g.length_content] at hin
    refine ⟨?_, by omega, by omega⟩
    rw [placeAt?, hrow, Option.map_some]
  · intro target htarget
    rw [hup, Option.ite_none_left_eq_some, Option.some.injEq, GapBuffer.columnInRow_eq] at htarget
    obtain ⟨hne, rfl⟩ := htarget
    obtain ⟨hclosed, hnext⟩ := habove hne
    have hlt := Row.lastColumn_lt_extent hcols hclosed
    refine ⟨?_, by omega⟩
    rw [placeAt?, getElem?_rowAbove hcols hi, Option.map_some]

/-- A caret below the window, on the last row of a line that takes three. -/
theorem vertical_follows_rows_below_window :
    let g := (GapBuffer.empty 16).insertAll [97, 98, 10, 99, 100, 101, 102, 103, 104, 105]
    let v := (View.new 2 3 0).moveWindow g 0
    v.LaidOut g ∧ 0 < v.cols ∧ v.windowStart ∈ rowStarts v.cols g.content ∧
      rowStarts v.cols g.content = [0, 3, 6, 9] ∧ g.caret = 10 ∧ v.locate g.caret = none ∧
      v.verticalTarget? g 2 = none ∧ v.verticalTarget? g (-2) = some 4 ∧
      ∃ i start, v.FollowsRows g 2 i start := by
  intro g v
  have hlaid : v.LaidOut g := laidOut_moveWindow _ g 0
  have hstart : v.windowStart ∈ rowStarts v.cols g.content := by decide +kernel
  exact ⟨hlaid, by decide, hstart, by decide +kernel, by decide, by decide +kernel,
    by decide +kernel, by decide +kernel,
    vertical_follows_rows hlaid (by decide) hstart (by decide)⟩

end View
end ScreenEditor
