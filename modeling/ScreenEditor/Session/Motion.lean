import ScreenEditor.Session.Basic
import ScreenEditor.View.Motion

/-!
# Moving the caret

Every motion finds a target and moves there.  A motion without a target, or with one behind the end
of the text, is refused.
-/

namespace ScreenEditor.Session

variable {σ : Type} [Storage σ]

/-- Move the caret to an offset, if there is one and the text has it. -/
def moveTo (s : Session σ) (target : Option Nat) : Bool × Session σ :=
  match target.filter (· ≤ s.buffer.length) with
  | none => (false, s.alert)
  | some offset =>
    let s := { s with table := s.table.modifyBuffer (·.seek offset) }
    let s := { s with selection := s.selection.track s.buffer.caret }
    (true, s.showWith fun v g => v.afterMotion g s.highlight)

/-- Move one byte to the left. -/
def moveLeft (s : Session σ) : Bool × Session σ :=
  s.moveTo (if s.buffer.caret = 0 then none else some (s.buffer.caret - 1))

/-- Move one byte to the right. -/
def moveRight (s : Session σ) : Bool × Session σ := s.moveTo (some (s.buffer.caret + 1))

/-- Move down by rows, or up when the number is negative. -/
def moveRows (s : Session σ) (rows : Int) : Bool × Session σ :=
  s.moveTo (s.view.verticalTarget? s.buffer rows)

/-- How many rows a page has: one less than the grid, so that pages overlap. -/
def pageRows (s : Session σ) : Int := (max (s.view.rows - 1) 1 : Nat)

/-- Move one row up. -/
def moveUp (s : Session σ) : Bool × Session σ := s.moveRows (-1)

/-- Move one row down. -/
def moveDown (s : Session σ) : Bool × Session σ := s.moveRows 1

/-- Move one page up. -/
def pageUp (s : Session σ) : Bool × Session σ := s.moveRows (-s.pageRows)

/-- Move one page down. -/
def pageDown (s : Session σ) : Bool × Session σ := s.moveRows s.pageRows

/-- Move to the start of the row. -/
def moveRowStart (s : Session σ) : Bool × Session σ :=
  s.moveTo (some (s.view.rowStartTarget s.buffer))

/-- Move to the last place on the row. -/
def moveRowEnd (s : Session σ) : Bool × Session σ :=
  s.moveTo (some (s.view.rowEndTarget s.buffer))

/-- Move to the start of the document. -/
def moveDocumentStart (s : Session σ) : Bool × Session σ := s.moveTo (some 0)

/-- Move to the end of the document. -/
def moveDocumentEnd (s : Session σ) : Bool × Session σ := s.moveTo (some s.buffer.length)

/-- Move to an offset. -/
def seek (s : Session σ) (offset : Nat) : Bool × Session σ := s.moveTo (some offset)

end ScreenEditor.Session
