import ScreenEditor.Proofs.View.Synced
import ScreenEditor.View.Motion

/-!
# Windows that show the caret

A window shows the caret if it begins at one of the rows that lead down to it, not too far above
(`LeadTo.showsCaret`).  The start that `View.startAround` chooses is such a row, so a new window
around the caret is always in step (`View.synced_reformat`), and with it everything that falls back
on one: `View.synced_refresh` and `View.synced_scrollToCaret`.
-/

namespace ScreenEditor

/-- The starts of rows one below the other, the last of which holds a caret at `offset`. -/
def LeadTo (g : GapBuffer) (cols offset : Nat) : List Nat → Prop
  | [] => False
  | [s] => s ≤ offset ∧ (g.rowAt s cols).holds cols s offset = true
  | s :: t :: rest => t = s + (g.rowAt s cols).extent ∧ LeadTo g cols offset (t :: rest)

namespace LeadTo

variable {g : GapBuffer} {cols offset : Nat}

theorem head_le {s : Nat} {rest : List Nat} (h : LeadTo g cols offset (s :: rest)) :
    s ≤ offset := by
  induction rest generalizing s with
  | nil => exact h.1
  | cons t rest ih =>
      obtain ⟨rfl, hrest⟩ := h
      have hle := ih hrest
      omega

/-- The lower rows lead to the caret as well. -/
theorem drop {starts : List Nat} (h : LeadTo g cols offset starts) {i : Nat}
    (hi : i < starts.length) : LeadTo g cols offset (starts.drop i) := by
  induction i generalizing starts with
  | zero => exact h
  | succ i ih =>
      match starts, h with
      | [s], _ => exact absurd hi (by simp)
      | s :: t :: rest, h => exact ih h.2 (Nat.lt_of_succ_lt_succ hi)

/-- A caret is found on the rows that lead to it. -/
theorem isSome_locateIn {s : Nat} {rest : List Nat} (h : LeadTo g cols offset (s :: rest))
    {n : Nat} (hn : rest.length < n) (row : Nat) :
    (View.locateIn cols offset row s (rowsOf cols (g.content.drop s) n)).isSome = true := by
  induction rest generalizing s n row with
  | nil =>
      obtain ⟨n, rfl⟩ := Nat.exists_eq_succ_of_ne_zero (Nat.ne_of_gt hn)
      rw [rowsOf, View.locateIn, ← rowAt_eq, if_pos h.2]
      rfl
  | cons t rest ih =>
      obtain ⟨n, rfl⟩ := Nat.exists_eq_succ_of_ne_zero (Nat.ne_of_gt (Nat.zero_lt_of_lt hn))
      obtain ⟨rfl, hrest⟩ := h
      rw [rowsOf, View.locateIn, ← rowAt_eq]
      split
      · rfl
      · rw [List.drop_drop]
        exact ih hrest (Nat.lt_of_succ_lt_succ hn) (row + 1)

/-- A window that begins at the first of the rows shows the caret if it has as many rows. -/
theorem showsCaret {v : View} {s : Nat} {rest : List Nat}
    (h : LeadTo g v.cols g.caret (s :: rest)) (hrows : rest.length < v.rows) :
    (v.moveWindow g s).showsCaret g = true := by
  have hs := h.head_le
  have hle := g.caret_le_length
  have hmin : min s g.length = s := Nat.min_eq_left (by omega)
  have hlocate := h.isSome_locateIn hrows 0
  rw [View.showsCaret, View.moveWindow, hmin, View.relayout, View.locate]
  simp only [rowsFrom_eq]
  rw [if_neg (by omega)]
  exact hlocate

end LeadTo

variable {g : GapBuffer} {cols offset : Nat}

/-! ## Rows of one line -/

/-- A row that does not hold a caret behind its start ends before the caret. -/
theorem Row.extent_le_of_not_holds {r : Row} {start : Nat}
    (hlen : r.terminated = true → r.length < cols) (h : r.holds cols start offset = false) :
    start + r.extent ≤ offset := by
  simp only [Row.holds, Bool.or_eq_false_iff, Bool.and_eq_false_iff, decide_eq_false_iff_not,
    beq_eq_false_iff_ne] at h
  obtain ⟨hge, hne⟩ := h
  have hext : r.extent = r.length + r.terminated.toNat := rfl
  cases hterm : r.terminated with
  | false =>
      rw [hterm, Bool.toNat_false] at hext
      omega
  | true =>
      have hlt := hlen hterm
      rw [hterm, Bool.toNat_true] at hext
      rcases hne with hne | hge'
      · omega
      · exact absurd hlt hge'

/-- A row takes some text if text is left. -/
theorem extent_rowAt_pos (hcols : 0 < cols) {start : Nat} (h : start < g.length) :
    0 < (g.rowAt start cols).extent := by
  rw [rowAt_eq]
  apply extent_pos hcols
  intro hnil
  have hlen := congrArg List.length hnil
  rw [List.length_drop, g.length_content, List.length_nil] at hlen
  omega

/-- The rows from a start before the caret lead to the caret. -/
theorem leadTo_rowStartsTo (hcols : 0 < cols) {start : Nat} (hstart : start ≤ offset)
    (hoffset : offset ≤ g.length) :
    LeadTo g cols offset (g.rowStartsTo cols offset start) ∧
      (g.rowStartsTo cols offset start).head? = some start := by
  fun_induction GapBuffer.rowStartsTo g cols offset start with
  | case1 start row hgo hdec ih =>
      obtain ⟨hlt, hholds, hpos⟩ := hgo
      have hle : start + row.extent ≤ offset :=
        Row.extent_le_of_not_holds GapBuffer.rowAt_length_lt hholds
      obtain ⟨hlead, hhead⟩ := ih hle
      refine ⟨?_, rfl⟩
      obtain ⟨rest, hrest⟩ := List.head?_eq_some_iff.mp hhead
      rw [hrest] at hlead ⊢
      exact ⟨rfl, hlead⟩
  | case2 start row hstop =>
      refine ⟨⟨hstart, ?_⟩, rfl⟩
      cases hholds : (g.rowAt start cols).holds cols start offset with
      | true => rfl
      | false =>
          rcases Nat.lt_or_ge start offset with hlt | hge
          · have hpos := extent_rowAt_pos hcols (Nat.lt_of_lt_of_le hlt hoffset)
            exact absurd ⟨hlt, hholds, Nat.ne_of_gt hpos⟩ hstop
          · have hle := Row.extent_le_of_not_holds GapBuffer.rowAt_length_lt hholds
            have hlen := length_le_extent (g.rowAt start cols)
            have hheld : (g.rowAt start cols).holds cols start offset = true := by
              have hzero : (g.rowAt start cols).length = 0 := by omega
              have heq : offset = start := Nat.le_antisymm hge hstart
              simp [Row.holds, hzero, heq, hcols]
            rw [hheld] at hholds
            cases hholds

/-- Rows of earlier lines lead to the rows below them. -/
theorem leadTo_rowStartsBefore (hcols : 0 < cols) {start stop : Nat} {rest : List Nat}
    (hstart : start < stop) (hstop : stop ≤ g.length)
    (hfeed : g.byteAt? (stop - 1) = some lineFeed) (h : LeadTo g cols offset (stop :: rest)) :
    LeadTo g cols offset (g.rowStartsBefore cols stop start ++ stop :: rest) ∧
      (g.rowStartsBefore cols stop start ++ stop :: rest).head? = some start := by
  fun_induction GapBuffer.rowStartsBefore g cols stop start with
  | case1 start row hgo hdec ih =>
      have hle : start + row.extent ≤ stop := by
        rw [g.byteAt?_eq] at hfeed
        have hget : (g.content.drop start)[stop - 1 - start]? = some lineFeed := by
          rw [List.getElem?_drop, ← hfeed]
          congr 1
          omega
        have hext := @extent_le_of_lineFeed cols _ _ hget
        rw [← rowAt_eq] at hext
        have hrow : row.extent = (g.rowAt start cols).extent := rfl
        omega
      refine ⟨?_, rfl⟩
      rcases Nat.lt_or_ge (start + row.extent) stop with hlt | hge
      · obtain ⟨hlead, hhead⟩ := ih hlt
        obtain ⟨more, hmore⟩ := List.head?_eq_some_iff.mp hhead
        rw [List.cons_append, hmore]
        rw [hmore] at hlead
        exact ⟨rfl, hlead⟩
      · have heq : start + row.extent = stop := Nat.le_antisymm hle hge
        have hnone : g.rowStartsBefore cols stop (start + row.extent) = [] := by
          rw [GapBuffer.rowStartsBefore, dif_neg (by omega), if_neg (by omega)]
        rw [hnone]
        exact ⟨heq.symm, h⟩
  | case2 start row hnot hlt =>
      have hpos := extent_rowAt_pos hcols (Nat.lt_of_lt_of_le hlt hstop)
      exact absurd ⟨hlt, Nat.ne_of_gt hpos⟩ hnot
  | case3 start row hnot hge => exact absurd hstart hge

/-! ## Lines above -/

/-- A line begins behind a terminator, or not behind the floor of the search. -/
theorem lineFeed_before_lineStart {floor k : Nat} (h : floor < g.lineStart floor k) :
    g.byteAt? (g.lineStart floor k - 1) = some lineFeed := by
  fun_induction GapBuffer.lineStart g floor k with
  | case1 => exact absurd h (Nat.not_lt_zero _)
  | case2 k hgo ih => exact ih h
  | case3 k hstop =>
      cases hfeed : decide (g.byteAt? k = some lineFeed) with
      | true => exact of_decide_eq_true hfeed
      | false => exact absurd ⟨h, of_decide_eq_false hfeed⟩ hstop

/-- The rows of the lines above lead to the caret through the rows below them. -/
theorem leadTo_prependLines (hcols : 0 < cols) {floor enough line : Nat} {starts : List Nat}
    (hline : line ≤ g.length) (hfeed : floor < line → g.byteAt? (line - 1) = some lineFeed)
    (h : LeadTo g cols offset starts) (hhead : starts.head? = some line) :
    LeadTo g cols offset (g.prependLines cols floor enough line starts) := by
  fun_induction GapBuffer.prependLines g cols floor enough line starts with
  | case1 line starts hgo previous hdec ih =>
      obtain ⟨rest, rfl⟩ := List.head?_eq_some_iff.mp hhead
      obtain ⟨hlead, hhead'⟩ := leadTo_rowStartsBefore hcols hdec hline (hfeed hgo.2) h
      exact ih (by omega) lineFeed_before_lineStart hlead hhead'
  | case2 => exact h

/-! ## New windows -/

namespace View

variable {v : View} {grid : Grid} {selected : Option Span}

/-- The start chosen around the caret shows the caret. -/
theorem showsCaret_startAround (hfits : v.Fits grid) :
    (v.moveWindow g (v.startAround g)).showsCaret g = true := by
  have hle := g.lineStart_le (g.caret - v.rows * v.cols) g.caret
  have hcaret := g.caret_le_length
  obtain ⟨hrows, hhead⟩ := leadTo_rowStartsTo hfits.cols_pos hle hcaret
  have hlead := @leadTo_prependLines g v.cols g.caret hfits.cols_pos (g.caret - v.rows * v.cols)
    v.preferredRow _ _ (Nat.le_trans hle hcaret) lineFeed_before_lineStart hrows hhead
  rw [startAround]
  generalize g.prependLines v.cols (g.caret - v.rows * v.cols) v.preferredRow _ _ = starts
    at hlead ⊢
  -- Of the rows that lead down to the caret's, the window begins `preferredRow` rows above it.
  have hpos : 0 < starts.length := by
    cases starts with
    | nil => exact hlead.elim
    | cons s rest => exact Nat.succ_pos _
  have hlt : starts.length - 1 - v.preferredRow < starts.length := by omega
  have hdrop := hlead.drop hlt
  rw [List.drop_eq_getElem_cons hlt] at hdrop
  have hget : starts.getD (starts.length - 1 - v.preferredRow) 0
      = starts[starts.length - 1 - v.preferredRow] := by
    rw [List.getD_eq_getElem?_getD, List.getElem?_eq_getElem hlt, Option.getD_some]
  rw [hget]
  apply hdrop.showsCaret
  have hrows := hfits.preferred_lt
  rw [List.length_drop]
  omega

/-- **A new window around the caret is in step.** -/
theorem synced_reformat (hfits : v.Fits grid) : (v.reformat g selected).InStep grid g := by
  have hfits' : { v with windowStart := v.startAround g }.Fits grid :=
    ⟨hfits.sized, hfits.rows_pos, hfits.cols_pos, hfits.preferred_lt⟩
  have hcaret := showsCaret_startAround (g := g) hfits
  exact synced_redraw hfits' hcaret

/-- Showing a window again is in step, whatever the grid and the layout were. -/
theorem synced_refresh (hfits : v.Fits grid) : (v.refresh g selected).InStep grid g := by
  have hlaid := laidOut_moveWindow v g v.windowStart
  have hfits' : (v.moveWindow g v.windowStart).Fits grid :=
    ⟨hfits.sized, hfits.rows_pos, hfits.cols_pos, hfits.preferred_lt⟩
  rw [refresh]
  split
  · next hcaret =>
    refine synced_redraw hfits' ?_
    rwa [hlaid.moveWindow_eq]
  · exact synced_reformat hfits'

/-! ## Scrolling -/

theorem laidOut_relayout (hstart : v.windowStart ≤ g.length) : (v.relayout g).LaidOut g :=
  ⟨hstart, rowsFrom_eq g _ _ _⟩

/-- Where a row of the window begins. -/
theorem LaidOut.rowStart_eq (hlaid : v.LaidOut g) {row : Nat} (hrow : row ≤ v.rows) :
    v.rowStart row
      = v.windowStart + extentOf (rowsOf v.cols (g.content.drop v.windowStart) row) := by
  rw [rowStart, hlaid.layout_eq, take_rowsOf v.cols _ hrow, foldl_extent]

theorem LaidOut.rowStart_le (hlaid : v.LaidOut g) {row : Nat} (hrow : row ≤ v.rows) :
    v.rowStart row ≤ g.length := by
  have hstart := hlaid.start_le
  have hext := extentOf_rowsOf_le v.cols (g.content.drop v.windowStart) row
  rw [List.length_drop, g.length_content] at hext
  rw [hlaid.rowStart_eq hrow]
  omega

/-- The row above begins before the row. -/
theorem previousRowStart?_le {start limit above : Nat}
    (h : g.previousRowStart? cols start limit = some above) : above ≤ start := by
  rw [GapBuffer.previousRowStart?] at h
  split at h
  · cases h
  · split at h
    · obtain rfl := Option.some.inj h
      exact Nat.sub_le _ _
    · simp only at h
      split at h
      · cases h
      · obtain rfl := Option.some.inj h
        have hline := g.lineStart_le (start - 1 - limit) (start - 1)
        have hrows := Nat.div_mul_le_self
          (start - 1 - g.lineStart (start - 1 - limit) (start - 1)) cols
        omega

/-- A step of a scroll keeps the view laid out. -/
theorem laidOut_scrollStep? (hfits : v.Fits grid) (hlaid : v.LaidOut g) {w : View}
    (h : v.scrollStep? g = some w) : w.Fits grid ∧ w.LaidOut g := by
  rw [scrollStep?] at h
  split at h
  · obtain ⟨above, habove, rfl⟩ := Option.map_eq_some_iff.mp h
    have hle := previousRowStart?_le habove
    have hstart := hlaid.start_le
    exact ⟨⟨hfits.sized, hfits.rows_pos, hfits.cols_pos, hfits.preferred_lt⟩,
      laidOut_relayout (Nat.le_trans hle hstart)⟩
  · obtain rfl := Option.some.inj h
    exact ⟨⟨hfits.sized, hfits.rows_pos, hfits.cols_pos, hfits.preferred_lt⟩,
      laidOut_relayout (hlaid.rowStart_le hfits.rows_pos)⟩

theorem laidOut_scroll (hfits : v.Fits grid) (hlaid : v.LaidOut g) (n : Nat) :
    (v.scroll g n).Fits grid ∧ (v.scroll g n).LaidOut g := by
  induction n generalizing v with
  | zero => exact ⟨hfits, hlaid⟩
  | succ n ih =>
      rw [scroll]
      split
      · exact ⟨hfits, hlaid⟩
      · split
        · next w hw =>
          obtain ⟨hfits', hlaid'⟩ := laidOut_scrollStep? hfits hlaid hw
          exact ih hfits' hlaid'
        · exact ⟨hfits, hlaid⟩

/-- **Following the caret out of the window is in step.** -/
theorem synced_scrollToCaret (hfits : v.Fits grid) (hlaid : v.LaidOut g) :
    (v.scrollToCaret g selected).InStep grid g := by
  obtain ⟨hfits', hlaid'⟩ := laidOut_scroll hfits hlaid v.rows
  rw [scrollToCaret]
  split
  · next hcaret =>
    refine synced_redraw hfits' ?_
    rwa [hlaid'.moveWindow_eq]
  · exact synced_reformat hfits'

end View
end ScreenEditor
