import ScreenEditor.Screen.Grid

/-!
# What painting leaves in the cells

On a grid whose size fits its coordinates every command changes just the cells it names, which the
lemmas `cell?_setCell`, `cell?_clearToEnd` and `cell?_puts` say cell by cell.  The lines of a grid
depend on the texts of its cells only, `Grid.glyph` (`Grid.lines_congr`).  Commands that put no byte
in reverse video leave plain cells plain (`Grid.isReversed_paintAll`).
-/

namespace ScreenEditor

namespace Grid

/-- The text of a cell; outside the grid there is none. -/
def glyph (g : Grid) (row col : Nat) : String := ((g.cell? row col).map (·.glyph)).getD ""

/-- The grid has a size that coordinates can address, and a cell for each place. -/
structure Sized (g : Grid) (rows cols : Nat) : Prop where
  rows_eq : g.rows = rows
  cols_eq : g.cols = cols
  rows_lt : rows < 65536
  cols_lt : cols < 65536
  size_eq : g.cells.size = rows * cols

theorem coordinate_lt (n : Nat) : coordinate n < 65536 := Nat.mod_lt _ (by omega)

/-- A coordinate below 65536 is kept. -/
theorem coordinate_of_lt {n : Nat} (h : n < 65536) : coordinate n = n := Nat.mod_eq_of_lt h

/-- A blank grid has the size that was asked for, as far as coordinates go. -/
theorem sized_blank (rows cols : Nat) :
    (blank rows cols).Sized (coordinate rows) (coordinate cols) :=
  ⟨rfl, rfl, coordinate_lt rows, coordinate_lt cols, Array.size_replicate⟩

/-- Grids of one size whose cells have the same texts have the same lines. -/
theorem lines_congr {g g' : Grid} {rows cols : Nat} (h : g.Sized rows cols)
    (h' : g'.Sized rows cols)
    (hglyph : ∀ row < rows, ∀ col < cols, g'.glyph row col = g.glyph row col) :
    g'.lines = g.lines := by
  rw [lines, lines, h.rows_eq, h'.rows_eq]
  refine List.map_congr_left fun row hrow => ?_
  rw [rowText, rowText, h.cols_eq, h'.cols_eq]
  congr 1
  exact List.map_congr_left fun col hcol =>
    hglyph row (List.mem_range.mp hrow) col (List.mem_range.mp hcol)

variable {g : Grid} {rows cols row col r c : Nat}

/-! ## Single cells -/

/-- A cell on the grid has its place, row by row. -/
theorem index?_of_lt (h : g.Sized rows cols) (hrow : row < rows) (hcol : col < cols) :
    g.index? row col = some (row * cols + col) := by
  have hr := coordinate_of_lt (Nat.lt_trans hrow h.rows_lt)
  have hc := coordinate_of_lt (Nat.lt_trans hcol h.cols_lt)
  rw [index?, hr, hc, h.rows_eq, h.cols_eq, if_pos ⟨hrow, hcol⟩]

/-- Inside the grid a cell is its text and whether it is in reverse video. -/
theorem cell?_eq_iff {g' : Grid} (h : g.Sized rows cols) (h' : g'.Sized rows cols) (hr : r < rows)
    (hc : c < cols) : g.cell? r c = g'.cell? r c ↔
      g.glyph r c = g'.glyph r c ∧ g.isReversed r c = g'.isReversed r c := by
  simp only [glyph, isReversed, cell?, index?_of_lt h hr hc, index?_of_lt h' hr hc,
    Option.map_some, Option.getD_some, Option.some.injEq]
  generalize g.cells.getD (r * cols + c) default = cell
  generalize g'.cells.getD (r * cols + c) default = cell'
  cases cell
  cases cell'
  rw [Cell.mk.injEq]

/-- Places are kept apart. -/
theorem index_inj (hcol : col < cols) (hc : c < cols) :
    r * cols + c = row * cols + col ↔ r = row ∧ c = col := by
  constructor
  · intro heq
    have hdiv := congrArg (· / cols) heq
    have hpos : 0 < cols := by omega
    simp only [Nat.mul_comm _ cols, Nat.mul_add_div hpos, Nat.div_eq_of_lt hc,
      Nat.div_eq_of_lt hcol, Nat.add_zero] at hdiv
    subst hdiv
    exact ⟨rfl, Nat.add_left_cancel heq⟩
  · rintro ⟨rfl, rfl⟩
    rfl

/-- The place of a cell lies among the cells. -/
theorem index_lt (hrow : row < rows) (hcol : col < cols) : row * cols + col < rows * cols := by
  have hle : (row + 1) * cols ≤ rows * cols := Nat.mul_le_mul_right _ hrow
  rw [Nat.add_mul, Nat.one_mul] at hle
  omega

/-- A cell that is set changes no size. -/
theorem sized_setCell (h : g.Sized rows cols) (row col : Nat) (cell : Cell) :
    (g.setCell row col cell).Sized rows cols := by
  unfold setCell
  split
  · exact ⟨h.rows_eq, h.cols_eq, h.rows_lt, h.cols_lt, by rw [Array.size_setIfInBounds, h.size_eq]⟩
  · exact h

/-- **A cell that is set** is the only one that changes. -/
theorem cell?_setCell (h : g.Sized rows cols) (hrow : row < rows) (hcol : col < cols) (cell : Cell)
    (hr : r < rows) (hc : c < cols) :
    (g.setCell row col cell).cell? r c = if r = row ∧ c = col then some cell else g.cell? r c := by
  have hsized := sized_setCell h row col cell
  have hcells : (g.setCell row col cell).cells
      = g.cells.setIfInBounds (row * cols + col) cell := by
    rw [setCell, index?_of_lt h hrow hcol]
  have hlt : row * cols + col < g.cells.size := by
    rw [h.size_eq]
    exact index_lt hrow hcol
  rw [cell?, cell?, index?_of_lt hsized hr hc, index?_of_lt h hr hc, hcells]
  simp only [Option.map_some, Array.getD_eq_getD_getElem?, Array.getElem?_setIfInBounds]
  by_cases hsame : r = row ∧ c = col
  · obtain ⟨rfl, rfl⟩ := hsame
    simp [hlt]
  · have hne : row * cols + col ≠ r * cols + c := fun heq =>
      hsame ((index_inj hcol hc).mp heq.symm)
    rw [if_neg hsame, if_neg hne]

/-! ## Commands -/

/-- Nor does reverse video change the size. -/
theorem sized_setReverse (h : g.Sized rows cols) (on : Bool) : (g.setReverse on).Sized rows cols :=
  ⟨h.rows_eq, h.cols_eq, h.rows_lt, h.cols_lt, h.size_eq⟩

/-- Nor does a byte. -/
theorem sized_put (h : g.Sized rows cols) (row col : Nat) (b : UInt8) :
    (g.put row col b).Sized rows cols := sized_setCell h row col _

/-- Blanking so many cells from a column on. -/
def blankCells (g : Grid) (row col n : Nat) : Grid :=
  (List.range' col n).foldl (fun g c => g.setCell row c Cell.blank) g

/-- To clear to the end of a row blanks the cells from a column on. -/
theorem clearToEnd_eq (g : Grid) (row col : Nat) :
    g.clearToEnd row col = g.blankCells row col (g.cols - col) := rfl

theorem blankCells_succ (g : Grid) (row col n : Nat) :
    g.blankCells row col (n + 1) = (g.setCell row col Cell.blank).blankCells row (col + 1) n := rfl

/-- Blank cells leave the grid its size. -/
theorem sized_blankCells (h : g.Sized rows cols) (row col n : Nat) :
    (g.blankCells row col n).Sized rows cols := by
  induction n generalizing g col with
  | zero => exact h
  | succ n ih => exact ih (sized_setCell h row col Cell.blank) (col + 1)

/-- **Cells that are blanked** are those of the row from the column on, and no others. -/
theorem cell?_blankCells (h : g.Sized rows cols) (hrow : row < rows) {n : Nat}
    (hn : col + n ≤ cols) (hr : r < rows) (hc : c < cols) :
    (g.blankCells row col n).cell? r c
      = if r = row ∧ col ≤ c ∧ c < col + n then some Cell.blank else g.cell? r c := by
  induction n generalizing g col with
  | zero => exact (if_neg (by omega)).symm
  | succ n ih =>
      rw [blankCells_succ, ih (sized_setCell h row col Cell.blank) (by omega),
        cell?_setCell h hrow (by omega) Cell.blank hr hc]
      by_cases hrr : r = row
      · rcases Nat.lt_trichotomy c col with hlt | rfl | hgt
        · rw [if_neg (by omega), if_neg (by omega), if_neg (by omega)]
        · rw [if_neg (by omega), if_pos ⟨hrr, rfl⟩, if_pos (by omega)]
        · have hin : (r = row ∧ col + 1 ≤ c ∧ c < col + 1 + n)
              ↔ (r = row ∧ col ≤ c ∧ c < col + (n + 1)) := by omega
          simp only [hin]
          rw [if_neg (by omega : ¬ (r = row ∧ c = col))]
      · rw [if_neg (by omega), if_neg (by omega), if_neg (by omega)]

/-- Clearing to the end blanks the row from the column on. -/
theorem cell?_clearToEnd (h : g.Sized rows cols) (hrow : row < rows) (hr : r < rows)
    (hc : c < cols) :
    (g.clearToEnd row col).cell? r c
      = if r = row ∧ col ≤ c then some Cell.blank else g.cell? r c := by
  rw [clearToEnd_eq, h.cols_eq]
  rcases Nat.lt_or_ge cols col with hlt | hge
  · have hnone : cols - col = 0 := by omega
    rw [hnone, if_neg (by omega)]
    rfl
  · rw [cell?_blankCells h hrow (by omega) hr hc]
    have hin : (r = row ∧ col ≤ c ∧ c < col + (cols - col)) ↔ (r = row ∧ col ≤ c) := by omega
    simp only [hin]

/-- **What is painted** leaves the grid its size. -/
theorem sized_paint (h : g.Sized rows cols) (p : Paint) : (g.paint p).Sized rows cols := by
  cases p with
  | put row col b on =>
      exact sized_put (sized_setReverse h on) row col b
  | clearToEnd row col =>
      exact sized_blankCells (sized_setReverse h false) row col _
  | cursor row col => exact ⟨h.rows_eq, h.cols_eq, h.rows_lt, h.cols_lt, h.size_eq⟩

/-- So do several commands. -/
theorem sized_paintAll (h : g.Sized rows cols) (paints : List Paint) :
    (g.paintAll paints).Sized rows cols := by
  induction paints generalizing g with
  | nil => exact h
  | cons p paints ih => exact ih (sized_paint h p)

/-- Commands are carried out in order. -/
theorem paintAll_append (g : Grid) (paints more : List Paint) :
    g.paintAll (paints ++ more) = (g.paintAll paints).paintAll more := List.foldl_append

/-- The cell that a byte is put into. -/
def putCell (byte : UInt8) (on : Bool) : Cell := ⟨String.singleton (Char.ofNat byte.toNat), on⟩

/-- Bytes put into cells of one row, one after the other. -/
theorem cell?_puts (h : g.Sized rows cols) (hrow : row < rows) (byte : Nat → UInt8)
    (on : Nat → Bool) {n : Nat} (hn : col + n ≤ cols) (hr : r < rows) (hc : c < cols) :
    (g.paintAll ((List.range' col n).map fun c => .put row c (byte c) (on c))).cell? r c
      = if r = row ∧ col ≤ c ∧ c < col + n then some (putCell (byte c) (on c))
        else g.cell? r c := by
  induction n generalizing g col with
  | zero => exact (if_neg (by omega)).symm
  | succ n ih =>
      have hstep : g.paintAll ((List.range' col (n + 1)).map fun c => .put row c (byte c) (on c))
          = ((g.setReverse (on col)).setCell row col (putCell (byte col) (on col))).paintAll
            ((List.range' (col + 1) n).map fun c => .put row c (byte c) (on c)) := rfl
      have hreverse := sized_setReverse h (on col)
      have hsized := sized_setCell hreverse row col (putCell (byte col) (on col))
      rw [hstep, ih hsized (by omega), cell?_setCell hreverse hrow (by omega) _ hr hc]
      have hsame : (g.setReverse (on col)).cell? r c = g.cell? r c := rfl
      rw [hsame]
      by_cases hrr : r = row
      · rcases Nat.lt_trichotomy c col with hlt | rfl | hgt
        · rw [if_neg (by omega), if_neg (by omega), if_neg (by omega)]
        · rw [if_neg (by omega), if_pos ⟨hrr, rfl⟩, if_pos (by omega)]
        · have hin : (r = row ∧ col + 1 ≤ c ∧ c < col + 1 + n)
              ↔ (r = row ∧ col ≤ c ∧ c < col + (n + 1)) := by omega
          simp only [hin]
          rw [if_neg (by omega : ¬ (r = row ∧ c = col))]
      · rw [if_neg (by omega), if_neg (by omega), if_neg (by omega)]

/-! ## Reverse video -/

variable {cell : Cell}

/-- A plain cell that is put somewhere leaves a plain cell plain. -/
theorem isReversed_setCell (row col : Nat) (hcell : cell.reversed = false)
    (h : g.isReversed r c = false) : (g.setCell row col cell).isReversed r c = false := by
  unfold setCell
  split
  · next i _ =>
    have hindex : Grid.index? { g with cells := g.cells.setIfInBounds i cell } r c
        = g.index? r c := rfl
    rw [isReversed, cell?] at h ⊢
    rw [hindex]
    cases hrc : g.index? r c with
    | none => rfl
    | some j =>
        rw [hrc] at h
        simp only [Option.map_some, Option.getD_some, Array.getD_eq_getD_getElem?,
          Array.getElem?_setIfInBounds] at h ⊢
        split
        · split
          · exact hcell
          · rfl
        · exact h
  · exact h

/-- A cell that is blanked is in plain video. -/
theorem isReversed_blankCells (row col n : Nat) (h : g.isReversed r c = false) :
    (g.blankCells row col n).isReversed r c = false := by
  induction n generalizing g col with
  | zero => exact h
  | succ n ih => exact ih (col + 1) (isReversed_setCell row col rfl h)

end Grid

/-- A command that puts no byte in reverse video. -/
def Paint.Plain : Paint → Prop
  | .put _ _ _ on => on = false
  | .clearToEnd _ _ => True
  | .cursor _ _ => True

namespace Grid

variable {g : Grid} {r c : Nat}

/-- Plain commands leave a plain cell plain. -/
theorem isReversed_paintAll {paints : List Paint} (hplain : ∀ p ∈ paints, p.Plain)
    (h : g.isReversed r c = false) : (g.paintAll paints).isReversed r c = false := by
  induction paints generalizing g with
  | nil => exact h
  | cons p paints ih =>
      refine ih (fun p' hp' => hplain p' (List.mem_cons_of_mem p hp')) ?_
      have hp := hplain p List.mem_cons_self
      cases p with
      | put row col byte on => exact isReversed_setCell row col hp h
      | clearToEnd row col => exact isReversed_blankCells row col _ h
      | cursor row col => exact h

end Grid
end ScreenEditor
