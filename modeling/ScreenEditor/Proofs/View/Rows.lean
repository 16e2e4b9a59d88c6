import ScreenEditor.Proofs.Gap.Content
import ScreenEditor.View.Layout

/-!
# Rows of a text

The row that begins at an offset depends on the text behind the offset only: `firstRow` is that row,
and `rowsOf` the rows one after the other.  A row is *closed* if it is full or ends on a terminator;
a closed row does not depend on what follows it, and one that is not closed reaches to the end of
the text.

So an edit leaves the closed rows before it as they are (`rowsOf_congr`).
-/

namespace ScreenEditor

/-- The row at the start of a text. -/
def firstRow : Nat → List UInt8 → Row
  | 0, _ => ⟨0, false⟩
  | _ + 1, [] => ⟨0, false⟩
  | cols + 1, b :: rest =>
      if b = lineFeed then ⟨0, true⟩
      else ⟨(firstRow cols rest).length + 1, (firstRow cols rest).terminated⟩

/-- The first rows of a text. -/
def rowsOf (cols : Nat) (text : List UInt8) : Nat → List Row
  | 0 => []
  | n + 1 => firstRow cols text :: rowsOf cols (text.drop (firstRow cols text).extent) n

/-- How much text rows take together. -/
def extentOf : List Row → Nat
  | [] => 0
  | r :: rest => r.extent + extentOf rest

/-- A row that ends where it does whatever follows. -/
def Row.Closed (r : Row) (cols : Nat) : Prop := r.terminated = true ∨ r.length = cols

/-! ## Rows of a buffer -/

/-- A row is laid out over the text behind its start. -/
theorem rowAt_eq (g : GapBuffer) (start cols : Nat) :
    g.rowAt start cols = firstRow cols (g.content.drop start) := by
  induction cols generalizing start with
  | zero => rfl
  | succ cols ih =>
      rw [GapBuffer.rowAt, GapBuffer.byteAt?_eq]
      rcases Nat.lt_or_ge start g.content.length with hlt | hge
      · rw [List.getElem?_eq_getElem hlt, List.drop_eq_getElem_cons hlt, firstRow]
        simp only [ih]
      · rw [List.getElem?_eq_none hge, List.drop_eq_nil_of_le hge, firstRow]

/-- So are the rows that follow it. -/
theorem rowsFrom_eq (g : GapBuffer) (cols start count : Nat) :
    g.rowsFrom cols start count = rowsOf cols (g.content.drop start) count := by
  induction count generalizing start with
  | zero => rfl
  | succ count ih => rw [GapBuffer.rowsFrom, rowsOf, ih, rowAt_eq, List.drop_drop]

/-! ## One row -/

/-- No row is longer than the grid is wide. -/
theorem length_firstRow_le_cols (cols : Nat) (text : List UInt8) :
    (firstRow cols text).length ≤ cols := by
  fun_induction firstRow cols text with
  | case1 => exact Nat.le_refl _
  | case2 => exact Nat.zero_le _
  | case3 => exact Nat.zero_le _
  | case4 cols b rest hb ih => exact Nat.succ_le_succ ih

/-- A row lies within the text. -/
theorem extent_firstRow_le (cols : Nat) (text : List UInt8) :
    (firstRow cols text).extent ≤ text.length := by
  fun_induction firstRow cols text with
  | case1 => exact Nat.zero_le _
  | case2 => exact Nat.le_refl _
  | case3 cols rest => exact Nat.succ_le_succ (Nat.zero_le _)
  | case4 cols b rest hb ih =>
      simp only [Row.extent, List.length_cons] at ih ⊢
      omega

/-- A row takes its bytes and perhaps a terminator. -/
theorem length_le_extent (r : Row) : r.length ≤ r.extent := Nat.le_add_right _ _

/-- Behind a row that is not closed the text has ended. -/
theorem firstRow_of_not_closed {cols : Nat} {text : List UInt8}
    (h : ¬ (firstRow cols text).Closed cols) :
    firstRow cols text = ⟨text.length, false⟩ ∧ text.length < cols := by
  fun_induction firstRow cols text with
  | case1 => exact absurd (.inr rfl) h
  | case2 => exact ⟨rfl, Nat.succ_pos _⟩
  | case3 => exact absurd (.inl rfl) h
  | case4 cols b rest hb ih =>
      obtain ⟨heq, hlt⟩ := ih fun hc => h (hc.imp_right (congrArg (· + 1)))
      rw [heq]
      exact ⟨rfl, Nat.succ_lt_succ hlt⟩

/-- A closed row does not depend on what follows it. -/
theorem firstRow_append_of_closed {cols : Nat} {text : List UInt8}
    (h : (firstRow cols text).Closed cols) (more : List UInt8) :
    firstRow cols (text.take (firstRow cols text).extent ++ more) = firstRow cols text := by
  fun_induction firstRow cols text with
  | case1 => rfl
  | case2 cols =>
      rcases h with h | h
      · cases h
      · exact absurd h (Nat.succ_ne_zero cols).symm
  | case3 cols rest => simp [Row.extent, firstRow]
  | case4 cols b rest hb ih =>
      have hextent : Row.extent ⟨(firstRow cols rest).length + 1, (firstRow cols rest).terminated⟩
          = (firstRow cols rest).extent + 1 := by
        simp only [Row.extent]
        omega
      have hrest := ih (h.imp_right Nat.succ.inj)
      rw [hextent, List.take_succ_cons, List.cons_append, firstRow, if_neg hb, hrest]

/-- The row is the same for a text that agrees with this one as far as the row goes. -/
theorem firstRow_congr {cols p : Nat} {text text' : List UInt8} (h : text'.take p = text.take p)
    (hclosed : (firstRow cols text).Closed cols) (hp : (firstRow cols text).extent ≤ p) :
    firstRow cols text' = firstRow cols text := by
  have hsame : text'.take (firstRow cols text).extent = text.take (firstRow cols text).extent := by
    have htake := congrArg (List.take (firstRow cols text).extent) h
    rwa [List.take_take, List.take_take, Nat.min_eq_left hp] at htake
  have hrow := firstRow_append_of_closed hclosed (text'.drop (firstRow cols text).extent)
  rwa [← hsame, List.take_append_drop] at hrow

/-- A terminator is met by every row that does not end before it. -/
theorem extent_le_of_lineFeed {cols k : Nat} {text : List UInt8}
    (h : text[k]? = some lineFeed) : (firstRow cols text).extent ≤ k + 1 := by
  fun_induction firstRow cols text generalizing k with
  | case1 => exact Nat.zero_le _
  | case2 => exact Nat.zero_le _
  | case3 cols rest => exact Nat.succ_le_succ (Nat.zero_le _)
  | case4 cols b rest hb ih =>
      cases k with
      | zero =>
          rw [List.getElem?_cons_zero] at h
          exact absurd (Option.some.inj h) hb
      | succ k =>
          rw [List.getElem?_cons_succ] at h
          have hrest := ih h
          simp only [Row.extent] at hrest ⊢
          omega

/-- A row that ends on a terminator is not full. -/
theorem length_firstRow_lt {cols : Nat} {text : List UInt8}
    (h : (firstRow cols text).terminated = true) : (firstRow cols text).length < cols := by
  fun_induction firstRow cols text with
  | case1 => cases h
  | case2 => cases h
  | case3 cols rest => exact Nat.succ_pos cols
  | case4 cols b rest hb ih => exact Nat.succ_lt_succ (ih h)

/-- What a row shows begins a row of every text that begins alike. -/
theorem le_length_firstRow {cols m : Nat} {text text' : List UInt8}
    (h : text'.take m = text.take m) (hm : m ≤ (firstRow cols text).length) :
    m ≤ (firstRow cols text').length := by
  fun_induction firstRow cols text generalizing m text' with
  | case1 => exact Nat.le_trans hm (Nat.zero_le _)
  | case2 => exact Nat.le_trans hm (Nat.zero_le _)
  | case3 => exact Nat.le_trans hm (Nat.zero_le _)
  | case4 cols b rest hb ih =>
      cases m with
      | zero => exact Nat.zero_le _
      | succ m =>
          rw [List.take_succ_cons] at h
          cases text' with
          | nil => cases h
          | cons b' rest' =>
              rw [List.take_succ_cons] at h
              obtain ⟨rfl, hrest⟩ := List.cons.inj h
              rw [firstRow, if_neg hb]
              exact Nat.succ_le_succ (ih hrest (Nat.le_of_succ_le_succ hm))

/-- A row takes at least one byte where there is text and room. -/
theorem extent_pos {cols : Nat} {text : List UInt8} (hc : 0 < cols) (ht : text ≠ []) :
    0 < (firstRow cols text).extent := by
  fun_cases firstRow cols text with
  | case1 => exact absurd hc (Nat.lt_irrefl 0)
  | case2 => exact absurd rfl ht
  | case3 cols rest => exact Nat.succ_pos _
  | case4 cols b rest hb =>
      simp only [Row.extent]
      omega

/-! ## Several rows -/

/-- There are as many rows as were asked for, empty ones included. -/
@[simp] theorem length_rowsOf (cols : Nat) (text : List UInt8) (n : Nat) :
    (rowsOf cols text n).length = n := by
  induction n generalizing text with
  | zero => rfl
  | succ n ih => rw [rowsOf, List.length_cons, ih]

@[simp] theorem extentOf_nil : extentOf [] = 0 := rfl

@[simp] theorem extentOf_cons (r : Row) (rows : List Row) :
    extentOf (r :: rows) = r.extent + extentOf rows := rfl

/-- Rows take what their parts take. -/
theorem extentOf_append (rows more : List Row) :
    extentOf (rows ++ more) = extentOf rows + extentOf more := by
  induction rows with
  | nil => exact (Nat.zero_add _).symm
  | cons r rest ih => rw [List.cons_append, extentOf, ih, extentOf, Nat.add_assoc]

/-- Adding up the rows from a start. -/
theorem foldl_extent (rows : List Row) (start : Nat) :
    rows.foldl (fun start r => start + r.extent) start = start + extentOf rows := by
  induction rows generalizing start with
  | nil => rfl
  | cons r rest ih => rw [List.foldl_cons, ih, extentOf_cons, Nat.add_assoc]

/-- Rows lie within the text. -/
theorem length_le_of_mem_rowsOf {cols : Nat} {text : List UInt8} {n : Nat} {r : Row}
    (h : r ∈ rowsOf cols text n) : r.length ≤ cols := by
  induction n generalizing text with
  | zero => cases h
  | succ n ih =>
      rw [rowsOf] at h
      rcases List.mem_cons.mp h with rfl | h
      · exact length_firstRow_le_cols cols text
      · exact ih h

/-- **Rows take no more than the text has.** -/
theorem extentOf_rowsOf_le (cols : Nat) (text : List UInt8) (n : Nat) :
    extentOf (rowsOf cols text n) ≤ text.length := by
  induction n generalizing text with
  | zero => exact Nat.zero_le _
  | succ n ih =>
      have hfirst := extent_firstRow_le cols text
      have hrest := ih (text.drop (firstRow cols text).extent)
      rw [List.length_drop] at hrest
      rw [rowsOf, extentOf_cons]
      omega

/-- Rows go on where the rows before them end. -/
theorem rowsOf_add (cols : Nat) (text : List UInt8) (m n : Nat) :
    rowsOf cols text (m + n)
      = rowsOf cols text m ++ rowsOf cols (text.drop (extentOf (rowsOf cols text m))) n := by
  induction m generalizing text with
  | zero => rw [Nat.zero_add]; rfl
  | succ m ih =>
      rw [Nat.add_right_comm, rowsOf, ih, rowsOf, List.cons_append, extentOf_cons, List.drop_drop]

/-- The next row begins where the one before ends. -/
theorem rowsOf_drop_succ (cols start n : Nat) (text : List UInt8) :
    rowsOf cols (text.drop start) (n + 1) = firstRow cols (text.drop start)
      :: rowsOf cols (text.drop (start + (firstRow cols (text.drop start)).extent)) n := by
  rw [rowsOf, List.drop_drop]

/-- The first of some rows are laid out as if there were no others. -/
theorem take_rowsOf (cols : Nat) (text : List UInt8) {m n : Nat} (h : m ≤ n) :
    (rowsOf cols text n).take m = rowsOf cols text m := by
  obtain ⟨k, rfl⟩ := Nat.exists_eq_add_of_le h
  rw [rowsOf_add, List.take_left' (length_rowsOf cols text m)]

/-- The others are laid out over the rest of the text. -/
theorem drop_rowsOf (cols : Nat) (text : List UInt8) {m n : Nat} (h : m ≤ n) :
    (rowsOf cols text n).drop m
      = rowsOf cols (text.drop (extentOf (rowsOf cols text m))) (n - m) := by
  obtain ⟨k, rfl⟩ := Nat.exists_eq_add_of_le h
  rw [rowsOf_add, List.drop_left' (length_rowsOf cols text m), Nat.add_sub_cancel_left]

/-- Each row begins behind all that the rows before it take. -/
theorem getElem?_rowsOf (cols : Nat) (text : List UInt8) {m n : Nat} (h : m < n) :
    (rowsOf cols text n)[m]?
      = some (firstRow cols (text.drop (extentOf (rowsOf cols text m)))) := by
  have hdrop := drop_rowsOf cols text (Nat.le_of_lt h)
  obtain ⟨k, hk⟩ : ∃ k, n - m = k + 1 := ⟨n - m - 1, by omega⟩
  rw [hk, rowsOf] at hdrop
  have hget := congrArg (·[0]?) hdrop
  simpa using hget

/-- The rows down to the next one. -/
theorem extentOf_rowsOf_succ (cols : Nat) (text : List UInt8) (n : Nat) :
    extentOf (rowsOf cols text (n + 1)) = extentOf (rowsOf cols text n)
      + (firstRow cols (text.drop (extentOf (rowsOf cols text n)))).extent := by
  rw [rowsOf_add, extentOf_append]
  rfl

/-- More rows take more of the text. -/
theorem extentOf_rowsOf_mono (cols : Nat) (text : List UInt8) {m n : Nat} (h : m ≤ n) :
    extentOf (rowsOf cols text m) ≤ extentOf (rowsOf cols text n) := by
  obtain ⟨k, rfl⟩ := Nat.exists_eq_add_of_le h
  rw [rowsOf_add, extentOf_append]
  exact Nat.le_add_right _ _

/-- **Closed rows before an edit stay as they are.** -/
theorem rowsOf_congr {cols p n : Nat} {text text' : List UInt8} (h : text'.take p = text.take p)
    (hclosed : ∀ r ∈ rowsOf cols text n, r.Closed cols) (hp : extentOf (rowsOf cols text n) ≤ p) :
    rowsOf cols text' n = rowsOf cols text n := by
  induction n generalizing p text text' with
  | zero => rfl
  | succ n ih =>
      rw [rowsOf, extentOf_cons] at hp
      have hfirst := firstRow_congr h (hclosed _ List.mem_cons_self) (by omega)
      have hdrop : (text'.drop (firstRow cols text).extent).take (p - (firstRow cols text).extent)
          = (text.drop (firstRow cols text).extent).take (p - (firstRow cols text).extent) := by
        rw [← List.drop_take, ← List.drop_take, h]
      have hrest := ih hdrop (fun r hr => hclosed r (List.mem_cons_of_mem _ hr)) (by omega)
      rw [rowsOf, rowsOf, hfirst, hrest]

end ScreenEditor
