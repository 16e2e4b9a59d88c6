import ScreenEditor.Proofs.Session.Course
import ScreenEditor.Proofs.View.OneRow

/-!
# One row up, one row down

Along every course of a session, a motion by one row keeps the window and puts the cursor on the next
row of the screen, in the same column as far as that row is long enough (`Session.LandsOn`).  The
exception is a motion up to a row that is skewed, which a window that begins in the middle of a line
can show; `Session.not_landsOn_skewed` is such a motion, and it skips a row.

The headline result is `Session.movesByRow_course`.
-/

namespace ScreenEditor

namespace Session

variable {σ : Type} {s : Session σ} {row : Nat}

/-- A motion succeeded and put the cursor on a row of the window, which stays: in the column that it
had as far as that row is long enough. -/
structure LandsOn (s : Session σ) (moved : Bool × Session σ) (row : Nat) : Prop where
  moves : moved.1 = true
  window_eq : moved.2.view.windowStart = s.view.windowStart
  cursor_eq : moved.2.view.cursor
    = (row, min s.view.cursor.2 ((s.view.layout.getD row default).lastColumn s.view.cols))

/-- What is seen of a motion to a place that the text has. -/
theorem moveTo_some {offset : Nat} (hoffset : offset ≤ s.buffer.length) :
    ∃ selected, (s.moveTo (some offset)).1 = true ∧
      (s.moveTo (some offset)).2.view
        = (s.view.afterMotion (s.buffer.seek offset) selected).1 := by
  have hfilter : (some offset).filter (fun offset => decide (offset ≤ s.buffer.length))
      = some offset := by
    rw [Option.filter_some, if_pos (decide_eq_true hoffset)]
  rw [Session.moveTo, hfilter]
  exact ⟨_, rfl, rfl⟩

theorem Synced.landsOn_moveTo_iff (h : s.Synced) {offset : Nat}
    (hoffset : offset ≤ s.buffer.length) :
    s.LandsOn (s.moveTo (some offset)) row ↔ s.view.locate offset
      = some (row, min s.view.cursor.2
        ((s.view.layout.getD row default).lastColumn s.view.cols)) := by
  obtain ⟨selected, hmoves, hview⟩ := moveTo_some hoffset
  have hcaret : (s.buffer.seek offset).caret = offset := s.buffer.caret_seek hoffset
  have hiff := h.view.afterMotion_iff (s.buffer.content_seek offset) selected
    (row, min s.view.cursor.2 ((s.view.layout.getD row default).lastColumn s.view.cols))
  rw [← hview, hcaret] at hiff
  rw [← hiff]
  exact ⟨fun hlands => ⟨hlands.window_eq, hlands.cursor_eq⟩,
    fun hand => ⟨hmoves, hand.1, hand.2⟩⟩

theorem Synced.locate_caret (h : s.Synced) (hcursor : s.view.cursor.1 = row) :
    s.view.locate s.buffer.caret = some (row, s.view.cursor.2) := by
  rw [← hcursor]
  exact h.view.locate_eq

/-- **Up, to the row above**, unless that is skewed. -/
theorem Synced.landsOn_moveUp_iff (h : s.Synced) (hcursor : s.view.cursor.1 = row + 1) :
    s.LandsOn s.moveUp row ↔ ¬ s.view.SkewedAbove s.buffer row := by
  have hlocate := h.locate_caret hcursor
  obtain ⟨target, hle, hup, hiff⟩ := h.view.laidOut.locate_up_iff h.view.fits.cols_pos hlocate
  have hmove : s.moveUp = s.moveTo (some target) := congrArg s.moveTo hup
  rw [hmove, h.landsOn_moveTo_iff hle]
  exact hiff

/-- From a window that begins at a row of the text, always. -/
theorem Synced.landsOn_moveUp (h : s.Synced)
    (hstart : s.view.windowStart ∈ rowStarts s.view.cols s.buffer.content)
    (hcursor : s.view.cursor.1 = row + 1) : s.LandsOn s.moveUp row :=
  (h.landsOn_moveUp_iff hcursor).mpr
    (h.view.laidOut.not_skewedAbove h.view.fits.cols_pos hstart (h.locate_caret hcursor))

/-- **Down, to the row below**, if there is one. -/
theorem Synced.landsOn_moveDown (h : s.Synced) (hrow : s.view.cursor.1 + 1 < s.view.rows)
    (hclosed : (s.view.layout.getD s.view.cursor.1 default).Closed s.view.cols) :
    s.LandsOn s.moveDown (s.view.cursor.1 + 1) := by
  obtain ⟨target, hle, hdown, hlocate⟩ :=
    h.view.laidOut.locate_down h.view.fits.cols_pos h.view.locate_eq hrow hclosed
  have hmove : s.moveDown = s.moveTo (some target) := congrArg s.moveTo hdown
  rw [hmove, h.landsOn_moveTo_iff hle]
  exact hlocate

/-- A motion up lands on the row above unless that is skewed, and a motion down on the row below
whenever the screen has one.  No row above is skewed while the window begins at a row of the
text. -/
structure MovesByRow (s : Session σ) : Prop where
  up : ∀ row, s.view.cursor.1 = row + 1 →
    (s.LandsOn s.moveUp row ↔ ¬ s.view.SkewedAbove s.buffer row)
  up_of_mem : s.view.windowStart ∈ rowStarts s.view.cols s.buffer.content →
    ∀ row, s.view.cursor.1 = row + 1 → s.LandsOn s.moveUp row
  down : s.view.cursor.1 + 1 < s.view.rows →
    (s.view.layout.getD s.view.cursor.1 default).Closed s.view.cols →
    s.LandsOn s.moveDown (s.view.cursor.1 + 1)

/-- **Up and down move by one row along every course**, skewed rows apart. -/
theorem movesByRow_course [Storage σ] {options : SessionOptions} {storage : σ} {rows cols : Nat}
    {ops : List SessionOp} (hcap : options.capacity < 2 ^ 32) (hrows : 0 < coordinate rows)
    (hcols : 0 < coordinate cols) (hops : ∀ op ∈ ops, op.Sized)
    (h : create options storage rows cols = .ok s) :
    ∀ s' ∈ s.course ops, s'.MovesByRow := by
  intro s' hs'
  have hsync := (synced_create hcap hrows hcols h).course hops s' hs'
  exact ⟨fun row hcursor => hsync.landsOn_moveUp_iff hcursor,
    fun hstart row hcursor => hsync.landsOn_moveUp hstart hcursor, hsync.landsOn_moveDown⟩

/-- Two lines, the first of which takes two rows, on a screen that shows them all. -/
theorem movesByRow_course_two_lines :
    let config := { Config.standard "" with segmentCapacity := 8, loadChunkSize := 4 }
    let ops : List SessionOp :=
      [.insertByte 97, .insertByte 98, .insertByte 99, .insertByte 10, .insertByte 100, .moveUp,
        .moveUp, .moveDown]
    config.complaint? = none ∧
      ∃ s : Session Memory, create config.sessionOptions Memory.empty 3 2 = .ok s ∧
        (s.course ops).map (fun s' => s'.view.cursor)
          = [(0, 0), (0, 1), (1, 0), (1, 1), (2, 0), (2, 1), (1, 1), (0, 1), (1, 1)] ∧
        ∀ s' ∈ s.course ops, s'.MovesByRow := by
  intro config ops
  have hnone : config.complaint? = none := by decide
  have hcreate : create config.sessionOptions Memory.empty 3 2 = .ok _ := rfl
  have hsized : ∀ op ∈ ops, op.Sized := by simp [ops, SessionOp.Sized]
  exact ⟨hnone, _, hcreate, by decide +kernel,
    movesByRow_course (capacity_sessionOptions_lt hnone) (by decide) (by decide) hsized hcreate⟩

/-- A line of nine letters on a screen of two columns, in a window that begins at the eighth.  Up
from the line below, past its empty last row, leads to its ninth letter, two rows up and one column
to the right. -/
theorem not_landsOn_skewed :
    let config := { Config.standard "" with
      segmentCapacity := 16, loadChunkSize := 4, preferredRow := 0 }
    let ops : List SessionOp :=
      [97, 98, 99, 100, 101, 102, 103, 104, 105, 10, 106].map .insertByte
        ++ [.seek 7, .resize 3 2, .moveDown, .moveDown]
    config.complaint? = none ∧ (∀ op ∈ ops, op.Sized) ∧
      ∃ s : Session Memory, create config.sessionOptions Memory.empty 3 2 = .ok s ∧
        ∃ s' ∈ s.course ops, s'.view.cursor = (2, 0) ∧ s'.moveUp.2.view.cursor = (0, 1) ∧
          ¬ s'.LandsOn s'.moveUp 1 := by
  intro config ops
  obtain ⟨s, hcreate, s', hs', hbefore, hafter⟩ : ∃ s : Session Memory,
      create config.sessionOptions Memory.empty 3 2 = .ok s ∧
        ∃ s' ∈ s.course ops, s'.view.cursor = (2, 0) ∧ s'.moveUp.2.view.cursor = (0, 1) :=
    ⟨_, rfl, by decide +kernel⟩
  refine ⟨by decide, by decide, s, hcreate, s', hs', hbefore, hafter, fun hlands => ?_⟩
  exact Nat.zero_ne_one (congrArg Prod.fst (hafter.symm.trans hlands.cursor_eq))

end Session
end ScreenEditor
