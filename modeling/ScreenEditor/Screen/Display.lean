import ScreenEditor.Screen.Grid
import ScreenEditor.Text.Width

/-!
# Displays

A terminal is sent the cells that differ from those it was asked to show before, and goes on showing
what it has in the others.  A glyph wider than a cell hides the cells behind it, which are not sent;
they are stale once it is gone, and then sent even if they are as before.

`Display.update` is one pass over the cells of a grid, row by row.  A terminal that shows what it was
asked to goes on doing so, as long as no glyph is wider than a cell (`shown_update_of_narrow`).
-/

namespace ScreenEditor

/-- How many cells the text of a cell takes. -/
def Cell.width (cell : Cell) : Nat := textWidth cell.glyph.toList

/-- A cell of a display: what it was asked to show, what it is asked to show next, and what it
shows. -/
structure CellChange where
  asked : Cell
  next : Cell
  shown : Cell

/-- A pass over the cells of a display: how many cells from here on are stale, how many are hidden,
and what is shown in the cells before. -/
structure Pass where
  stale : Nat
  hidden : Nat
  shown : Array Cell

namespace Pass

/-- The pass before the first cell. -/
def start : Pass := ⟨0, 0, #[]⟩

/-- Whether the next cell is sent. -/
def sends (p : Pass) (change : CellChange) : Bool :=
  p.hidden == 0 && (change.next != change.asked || 0 < p.stale)

/-- Go on by a cell. -/
def step (p : Pass) (change : CellChange) : Pass where
  stale := max (max change.next.width change.asked.width) p.stale - 1
  hidden := change.next.width - 1
  shown := p.shown.push (if p.sends change then change.next else change.shown)

/-- A cell that shows what it was asked to shows what it is asked to next, where no glyph is wider
than a cell. -/
theorem step_of_narrow {shown : Array Cell} {asked next : Cell} (ha : asked.width ≤ 1)
    (hn : next.width ≤ 1) :
    step ⟨0, 0, shown⟩ ⟨asked, next, asked⟩ = ⟨0, 0, shown.push next⟩ := by
  have hs : max next.width asked.width - 1 = 0 := by omega
  have hh : next.width - 1 = 0 := by omega
  by_cases h : next = asked
  · subst h
    simp [step, sends, hh]
  · simp [step, sends, hs, hh, h]

/-- Narrow cells are shown one by one, each as the next frame has it. -/
theorem foldl_step_of_narrow {changes : List CellChange} {shown : Array Cell}
    (narrow : ∀ c ∈ changes, c.asked.width ≤ 1 ∧ c.next.width ≤ 1)
    (kept : ∀ c ∈ changes, c.shown = c.asked) :
    changes.foldl step ⟨0, 0, shown⟩ = ⟨0, 0, shown ++ (changes.map (·.next)).toArray⟩ := by
  induction changes generalizing shown with
  | nil => simp
  | cons c rest ih =>
    obtain ⟨asked, next, now⟩ := c
    obtain ⟨ha, hn⟩ := narrow _ List.mem_cons_self
    obtain rfl : now = asked := kept _ List.mem_cons_self
    rw [List.foldl_cons, step_of_narrow ha hn,
      ih (fun d hd => narrow d (List.mem_cons_of_mem _ hd))
        (fun d hd => kept d (List.mem_cons_of_mem _ hd))]
    simp

end Pass

/-- What a terminal was last asked to show, and what it shows. -/
structure Display where
  asked : Grid
  shown : Grid

namespace Display

/-- A terminal of the given size that shows nothing. -/
def blank (rows cols : Nat) : Display := ⟨Grid.blank rows cols, Grid.blank rows cols⟩

/-- The terminal in another size, in which it shows nothing, or as it is if that is its size. -/
def resize (d : Display) (rows cols : Nat) : Display :=
  if d.asked.rows = rows ∧ d.asked.cols = cols then d else blank rows cols

/-- The cells of the terminal that is asked to show a grid of its size. -/
def changes (d : Display) (next : Grid) : List CellChange :=
  (d.asked.cells.toList.zip (next.cells.toList.zip d.shown.cells.toList)).map fun cells =>
    ⟨cells.1, cells.2.1, cells.2.2⟩

/-- The terminal once it is asked to show a grid, whose size it takes. -/
def update (d : Display) (next : Grid) : Display :=
  let d := d.resize next.rows next.cols
  ⟨next, { next with cells := ((d.changes next).foldl Pass.step Pass.start).shown }⟩

private theorem fst_eq_of_mem_zip_zip {α β : Type} {a c : α} {b : β} {as : List α} {bs : List β}
    (h : (a, b, c) ∈ as.zip (bs.zip as)) : a = c := by
  induction as generalizing bs with
  | nil => simp at h
  | cons x xs ih =>
    cases bs with
    | nil => simp at h
    | cons y ys =>
      rw [List.zip_cons_cons, List.zip_cons_cons, List.mem_cons] at h
      rcases h with h | h
      · simp only [Prod.mk.injEq] at h
        rw [h.1, h.2.2]
      · exact ih h

private theorem map_zip_zip {as bs : List Cell} (h : as.length = bs.length) :
    (as.zip (bs.zip as)).map (fun cells => cells.2.1) = bs := by
  induction as generalizing bs with
  | nil => cases bs <;> simp_all
  | cons x xs ih =>
    cases bs with
    | nil => simp at h
    | cons y ys => simp [ih (Nat.succ.inj h)]

/-- A terminal that shows what it was asked to show goes on to show the next grid of its size, where
no glyph is wider than a cell. -/
theorem shown_update_of_narrow {d : Display} {next : Grid}
    (rows : d.asked.rows = next.rows) (cols : d.asked.cols = next.cols)
    (size : d.asked.cells.size = next.cells.size) (shown : d.shown = d.asked)
    (before : ∀ cell ∈ d.asked.cells, cell.width ≤ 1) (after : ∀ cell ∈ next.cells, cell.width ≤ 1) :
    (d.update next).shown = next := by
  have narrow : ∀ c ∈ d.changes next, c.asked.width ≤ 1 ∧ c.next.width ≤ 1 := by
    intro c hc
    obtain ⟨⟨asked, now, old⟩, hz, rfl⟩ := List.mem_map.mp hc
    have ha := (List.of_mem_zip hz).1
    have hn := (List.of_mem_zip (List.of_mem_zip hz).2).1
    exact ⟨before _ (Array.mem_toList_iff.mp ha), after _ (Array.mem_toList_iff.mp hn)⟩
  have kept : ∀ c ∈ d.changes next, c.shown = c.asked := by
    intro c hc
    rw [changes, shown] at hc
    obtain ⟨⟨asked, now, old⟩, hz, rfl⟩ := List.mem_map.mp hc
    exact (fst_eq_of_mem_zip_zip hz).symm
  have all : (d.changes next).map (·.next) = next.cells.toList := by
    rw [changes, shown, List.map_map]
    exact map_zip_zip (by simp [size])
  simp [update, resize, rows, cols, Pass.start, Pass.foldl_step_of_narrow narrow kept, all]

end Display
end ScreenEditor
