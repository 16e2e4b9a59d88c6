import ScreenEditor.Proofs.View.Patch

/-!
# The rows of a whole text

`rowStarts` lays a whole text out from its start and lists where its rows begin: a row that is
closed has a row below it, and the first row that is not closed is the last one.

A terminator ends a row, so every line begins a row (`mem_rowStarts_of_lineFeed`), and within a line
the rows lie a row's width apart (`GapBuffer.inLineGrid_of_mem`).  From any row on, forward layout
stays on these rows (`add_extentOf_mem_rowStarts`).
-/

namespace ScreenEditor

instance (r : Row) (cols : Nat) : Decidable (r.Closed cols) :=
  inferInstanceAs (Decidable (r.terminated = true ∨ r.length = cols))

/-- Where rows begin, from the row at `start` on to the last row of the text. -/
def rowStartsFrom (cols : Nat) (text : List UInt8) (start : Nat) : List Nat :=
  let row := firstRow cols (text.drop start)
  if h : row.Closed cols ∧ 0 < row.extent then
    have : text.length - (start + row.extent) < text.length - start := by
      have hle : row.extent ≤ _ := extent_firstRow_le cols (text.drop start)
      rw [List.length_drop] at hle
      omega
    start :: rowStartsFrom cols text (start + row.extent)
  else [start]
termination_by text.length - start

/-- Where the rows of a text begin. -/
def rowStarts (cols : Nat) (text : List UInt8) : List Nat := rowStartsFrom cols text 0

/-- The last column at which a caret stands on a row: behind its last byte, or on that byte when the
row is full. -/
def Row.lastColumn (r : Row) (cols : Nat) : Nat :=
  if r.length < cols then r.length else r.length - 1

variable {cols start : Nat} {text : List UInt8}

/-! ## Row by row -/

theorem extent_pos_of_closed {r : Row} (hcols : 0 < cols) (h : r.Closed cols) : 0 < r.extent := by
  rcases h with hterm | hfull
  · simp [Row.extent, hterm]
  · exact Nat.lt_of_lt_of_le (hfull ▸ hcols) (length_le_extent r)

/-- Below a closed row there is another row. -/
theorem rowStartsFrom_of_closed (hcols : 0 < cols)
    (h : (firstRow cols (text.drop start)).Closed cols) :
    rowStartsFrom cols text start = start ::
      rowStartsFrom cols text (start + (firstRow cols (text.drop start)).extent) := by
  rw [rowStartsFrom, dif_pos ⟨h, extent_pos_of_closed hcols h⟩]

/-- Below a row that is not closed there is none. -/
theorem rowStartsFrom_of_not_closed (h : ¬ (firstRow cols (text.drop start)).Closed cols) :
    rowStartsFrom cols text start = [start] := by
  rw [rowStartsFrom, dif_neg fun hand => h hand.1]

@[simp] theorem getElem?_rowStartsFrom_zero : (rowStartsFrom cols text start)[0]? = some start := by
  rw [rowStartsFrom]
  split <;> rfl

@[simp] theorem getElem?_rowStarts_zero : (rowStarts cols text)[0]? = some 0 :=
  getElem?_rowStartsFrom_zero

/-- Row `i + 1` begins where row `i` ends, if that is closed; else there is none. -/
theorem getElem?_rowStartsFrom_succ (hcols : 0 < cols) {i here : Nat}
    (h : (rowStartsFrom cols text start)[i]? = some here) :
    ((firstRow cols (text.drop here)).Closed cols →
        (rowStartsFrom cols text start)[i + 1]?
          = some (here + (firstRow cols (text.drop here)).extent)) ∧
      (¬ (firstRow cols (text.drop here)).Closed cols →
        i + 1 = (rowStartsFrom cols text start).length) := by
  induction i generalizing start with
  | zero =>
      rw [getElem?_rowStartsFrom_zero] at h
      obtain rfl := Option.some.inj h
      refine ⟨fun hclosed => ?_, fun hnot => ?_⟩
      · rw [rowStartsFrom_of_closed hcols hclosed, List.getElem?_cons_succ,
          getElem?_rowStartsFrom_zero]
      · rw [rowStartsFrom_of_not_closed hnot]
        rfl
  | succ i ih =>
      by_cases hfirst : (firstRow cols (text.drop start)).Closed cols
      · rw [rowStartsFrom_of_closed hcols hfirst] at h ⊢
        rw [List.getElem?_cons_succ] at h
        obtain ⟨hnext, hlast⟩ := ih h
        exact ⟨hnext, fun hnot => congrArg (· + 1) (hlast hnot)⟩
      · rw [rowStartsFrom_of_not_closed hfirst] at h
        cases h

section RowStarts

variable {i j here there : Nat}

theorem getElem?_rowStarts_succ (hcols : 0 < cols)
    (h : (rowStarts cols text)[i]? = some here)
    (hclosed : (firstRow cols (text.drop here)).Closed cols) :
    (rowStarts cols text)[i + 1]? = some (here + (firstRow cols (text.drop here)).extent) :=
  (getElem?_rowStartsFrom_succ hcols h).1 hclosed

/-- A row is the last one iff it is not closed. -/
theorem closed_iff_succ_lt (hcols : 0 < cols) (h : (rowStarts cols text)[i]? = some here) :
    (firstRow cols (text.drop here)).Closed cols ↔ i + 1 < (rowStarts cols text).length := by
  by_cases hclosed : (firstRow cols (text.drop here)).Closed cols
  · have hnext := getElem?_rowStarts_succ hcols h hclosed
    exact iff_of_true hclosed (List.getElem?_eq_some_iff.mp hnext).1
  · have hlast := (getElem?_rowStartsFrom_succ hcols h).2 hclosed
    exact iff_of_false hclosed (Nat.not_lt_of_le (Nat.le_of_eq hlast.symm))

/-- A row below another one begins where that is closed and ends. -/
theorem of_getElem?_rowStarts_succ (hcols : 0 < cols)
    (h : (rowStarts cols text)[i + 1]? = some there) :
    ∃ here, (rowStarts cols text)[i]? = some here ∧
      (firstRow cols (text.drop here)).Closed cols ∧
      there = here + (firstRow cols (text.drop here)).extent := by
  have hlt := (List.getElem?_eq_some_iff.mp h).1
  have hhere := List.getElem?_eq_getElem (Nat.lt_of_succ_lt hlt)
  have hclosed := (closed_iff_succ_lt hcols hhere).mpr hlt
  refine ⟨_, hhere, hclosed, ?_⟩
  exact Option.some.inj (h.symm.trans (getElem?_rowStarts_succ hcols hhere hclosed))

/-- Rows do not overlap. -/
theorem extent_le_of_lt (hcols : 0 < cols) (h : (rowStarts cols text)[i]? = some here)
    (h' : (rowStarts cols text)[j]? = some there) (hij : i < j) :
    here + (firstRow cols (text.drop here)).extent ≤ there := by
  induction j generalizing there with
  | zero => exact absurd hij (Nat.not_lt_zero i)
  | succ j ih =>
      obtain ⟨above, habove, -, rfl⟩ := of_getElem?_rowStarts_succ hcols h'
      rcases Nat.eq_or_lt_of_le (Nat.le_of_lt_succ hij) with rfl | hlt
      · obtain rfl := Option.some.inj (h.symm.trans habove)
        exact Nat.le_refl _
      · exact Nat.le_add_right_of_le (ih habove hlt)

/-- Rows begin within the text. -/
theorem le_length_of_mem_rowStarts (hcols : 0 < cols) (h : here ∈ rowStarts cols text) :
    here ≤ text.length := by
  obtain ⟨i, hi⟩ := List.mem_iff_getElem?.mp h
  cases i with
  | zero =>
      obtain rfl := Option.some.inj (getElem?_rowStarts_zero.symm.trans hi)
      exact Nat.zero_le _
  | succ i =>
      obtain ⟨above, habove, hclosed, rfl⟩ := of_getElem?_rowStarts_succ hcols hi
      have hle := extent_firstRow_le cols (text.drop above)
      have hpos := extent_pos_of_closed hcols hclosed
      rw [List.length_drop] at hle
      omega

/-- Below a row that is closed begins another one. -/
theorem add_extent_mem_rowStarts (hcols : 0 < cols) (h : here ∈ rowStarts cols text)
    (hclosed : (firstRow cols (text.drop here)).Closed cols) :
    here + (firstRow cols (text.drop here)).extent ∈ rowStarts cols text := by
  obtain ⟨i, hi⟩ := List.mem_iff_getElem?.mp h
  exact List.mem_of_getElem? (getElem?_rowStarts_succ hcols hi hclosed)

/-- So do all rows below closed rows. -/
theorem add_extentOf_mem_rowStarts (hcols : 0 < cols) {n : Nat}
    (h : start ∈ rowStarts cols text)
    (hclosed : ∀ r ∈ rowsOf cols (text.drop start) n, r.Closed cols) :
    start + extentOf (rowsOf cols (text.drop start) n) ∈ rowStarts cols text := by
  induction n generalizing start with
  | zero => exact h
  | succ n ih =>
      rw [rowsOf, List.drop_drop] at hclosed ⊢
      obtain ⟨hfirst, hrest⟩ := List.forall_mem_cons.mp hclosed
      rw [extentOf_cons, ← Nat.add_assoc]
      exact ih (add_extent_mem_rowStarts hcols h hfirst) hrest

end RowStarts

/-! ## Lines -/

/-- What a row shows is not a terminator. -/
theorem ne_lineFeed_of_lt_firstRow {i : Nat} (h : i < (firstRow cols text).length) :
    text[i]? ≠ some lineFeed := by
  fun_induction firstRow cols text generalizing i with
  | case1 => cases h
  | case2 => cases h
  | case3 => cases h
  | case4 cols b rest hb ih =>
      cases i with
      | zero => simpa using hb
      | succ i => exact ih (Nat.lt_of_succ_lt_succ h)

/-- A row with a terminator behind its start is closed. -/
theorem closed_of_lineFeed {k : Nat} (h : text[k]? = some lineFeed) :
    (firstRow cols text).Closed cols := by
  refine Decidable.by_contra fun hnot => ?_
  obtain ⟨hrow, -⟩ := firstRow_of_not_closed hnot
  have hin := (List.getElem?_eq_some_iff.mp h).1
  exact @ne_lineFeed_of_lt_firstRow cols _ _ (by rw [hrow]; exact hin) h

/-- A row that is terminated shows all before the terminator. -/
theorem lineFeed_of_terminated (h : (firstRow cols text).terminated = true) :
    text[(firstRow cols text).length]? = some lineFeed := by
  fun_induction firstRow cols text with
  | case1 => cases h
  | case2 => cases h
  | case3 => rfl
  | case4 cols b rest hb ih => exact ih h

/-- A terminator that a row reaches ends it. -/
theorem firstRow_of_lineFeed {m : Nat} (hm : m < cols)
    (hshown : ∀ i < m, text[i]? ≠ some lineFeed) (hfeed : text[m]? = some lineFeed) :
    firstRow cols text = ⟨m, true⟩ := by
  fun_induction firstRow cols text generalizing m with
  | case1 => exact absurd hm (Nat.not_lt_zero m)
  | case2 => cases hfeed
  | case3 cols rest =>
      cases m with
      | zero => rfl
      | succ m => exact absurd rfl (hshown 0 (Nat.succ_pos m))
  | case4 cols b rest hb ih =>
      cases m with
      | zero => exact absurd (Option.some.inj hfeed) hb
      | succ m =>
          have hrest := ih (Nat.lt_of_succ_lt_succ hm)
            (fun i hi => hshown (i + 1) (Nat.succ_lt_succ hi)) hfeed
          rw [hrest]

/-- **A line begins a row.** -/
theorem mem_rowStarts_of_lineFeed (hcols : 0 < cols) {line : Nat}
    (h : 0 < line → text[line - 1]? = some lineFeed) : line ∈ rowStarts cols text := by
  suffices hfrom : ∀ start ≤ line, line ∈ rowStartsFrom cols text start from
    hfrom 0 (Nat.zero_le line)
  intro start hle
  -- a row above ends at the terminator before the line at the latest
  induction hn : line - start using Nat.strongRecOn generalizing start with
  | ind n ih =>
      rcases Nat.eq_or_lt_of_le hle with rfl | hlt
      · exact List.mem_of_getElem? getElem?_rowStartsFrom_zero
      · have hfeed : (text.drop start)[line - 1 - start]? = some lineFeed := by
          rw [List.getElem?_drop, ← h (by omega)]
          congr 1
          omega
        have hext := @extent_le_of_lineFeed cols _ _ hfeed
        have hclosed : (firstRow cols (text.drop start)).Closed cols := closed_of_lineFeed hfeed
        have hpos := extent_pos_of_closed hcols hclosed
        rw [rowStartsFrom_of_closed hcols hclosed]
        exact List.mem_cons_of_mem _ (ih _ (by omega) _ (by omega) rfl)

/-- A full row before the end of its line, an empty line, and a line that is one letter long. -/
example : rowStarts 3 [97, 98, 99, 10, 10, 100] = [0, 3, 4, 5] := by decide +kernel

namespace GapBuffer

variable {g : GapBuffer}

/-- Text without a terminator does not begin another line. -/
theorem lineStart_add {k n : Nat} (h : ∀ i < n, g.content[k + i]? ≠ some lineFeed) :
    g.lineStart 0 (k + n) = g.lineStart 0 k := by
  induction n with
  | zero => rfl
  | succ n ih =>
      have hlast := h n (Nat.lt_succ_self n)
      rw [← g.byteAt?_eq] at hlast
      rw [← Nat.add_assoc, lineStart, if_pos ⟨Nat.succ_pos _, hlast⟩]
      exact ih fun i hi => h i (Nat.lt_succ_of_lt hi)

/-- There is none between the start of a line and a place on it. -/
theorem ne_lineFeed_of_lineStart_le {k i : Nat} (hle : g.lineStart 0 k ≤ i) (hlt : i < k) :
    g.content[i]? ≠ some lineFeed := by
  fun_induction lineStart g 0 k with
  | case1 => exact absurd hlt (Nat.not_lt_zero i)
  | case2 k hgo ih =>
      rcases Nat.eq_or_lt_of_le (Nat.le_of_lt_succ hlt) with rfl | hlt
      · rw [← g.byteAt?_eq]
        exact hgo.2
      · exact ih hle hlt
  | case3 k hstop => omega

/-- A line begins behind a terminator. -/
theorem lineStart_succ_of_lineFeed {k : Nat} (h : g.content[k]? = some lineFeed) :
    g.lineStart 0 (k + 1) = k + 1 := by
  rw [← g.byteAt?_eq] at h
  rw [lineStart, if_neg fun hand => hand.2 h]

/-- An offset lies a number of whole rows behind the start of its line. -/
def InLineGrid (g : GapBuffer) (cols offset : Nat) : Prop := cols ∣ offset - g.lineStart 0 offset

instance (g : GapBuffer) (cols offset : Nat) : Decidable (g.InLineGrid cols offset) :=
  inferInstanceAs (Decidable (cols ∣ offset - g.lineStart 0 offset))

/-- The line of a row goes on to the end of what the row shows. -/
theorem lineStart_add_length (g : GapBuffer) (cols start : Nat) :
    g.lineStart 0 (start + (firstRow cols (g.content.drop start)).length)
      = g.lineStart 0 start :=
  lineStart_add fun i hi => by
    rw [← List.getElem?_drop]
    exact ne_lineFeed_of_lt_firstRow hi

/-- **Rows lie whole rows apart within their line.** -/
theorem inLineGrid_of_mem (hcols : 0 < cols) {here : Nat}
    (h : here ∈ rowStarts cols g.content) : g.InLineGrid cols here := by
  obtain ⟨i, hi⟩ := List.mem_iff_getElem?.mp h
  induction i generalizing here with
  | zero =>
      obtain rfl := Option.some.inj (getElem?_rowStarts_zero.symm.trans hi)
      exact Nat.dvd_zero cols
  | succ i ih =>
      obtain ⟨above, habove, hclosed, rfl⟩ := of_getElem?_rowStarts_succ hcols hi
      have hline := g.lineStart_add_length cols above
      cases hterm : (firstRow cols (g.content.drop above)).terminated with
      | true =>
          have hfeed := lineFeed_of_terminated hterm
          rw [List.getElem?_drop] at hfeed
          rw [InLineGrid, Row.extent, hterm, Bool.toNat_true, ← Nat.add_assoc,
            lineStart_succ_of_lineFeed hfeed, Nat.sub_self]
          exact Nat.dvd_zero cols
      | false =>
          have hfull := hclosed.resolve_left (Bool.eq_false_iff.mp hterm)
          have hgrid : cols ∣ above - g.lineStart 0 above :=
            ih (List.mem_of_getElem? habove) habove
          have hle := g.lineStart_le 0 above
          rw [InLineGrid, Row.extent, hterm, Bool.toNat_false, Nat.add_zero, hline, hfull,
            Nat.sub_add_comm hle]
          exact Nat.dvd_add hgrid (Nat.dvd_refl cols)

end GapBuffer
end ScreenEditor
