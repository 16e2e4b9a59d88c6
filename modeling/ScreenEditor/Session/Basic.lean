import ScreenEditor.Segment.Table
import ScreenEditor.Storage.Basic
import ScreenEditor.Transfer.Settings
import ScreenEditor.View.Basic

/-!
# Editing sessions

A session joins segments, a view on the active one, a selection and the storage.  Its operations are
what a front end calls; each leaves the screen in step with the active document.

A refusal, such as typing into a full segment or moving past an end of the text, is no error: the
operation answers `false` and raises an alert.  Errors concern files, segments and names.
-/

namespace ScreenEditor

/-- What a session is made of. -/
structure SessionOptions where
  capacity : Nat
  present : List Bool
  preferredRow : Nat
  clipboardFile : String
  transfer : TransferSettings
  deriving Repr

/-- Segments under edit, what is shown of them, and the files they come from.  `pendingOverwrite` is
the name that a repeated save may overwrite. -/
structure Session (σ : Type) where
  table : SegmentTable
  view : View
  screen : Screen
  storage : σ
  selection : Selection
  transfer : TransferSettings
  clipboardFile : String
  pendingOverwrite : Option String
  preferredRow : Nat
  alerted : Bool
  status : Option String

namespace Session

variable {σ : Type} [Storage σ]

/-- The active document. -/
def document (s : Session σ) : Document := s.table.current

/-- The text of the active document. -/
def buffer (s : Session σ) : GapBuffer := s.table.current.buffer

/-- The number of the active segment. -/
def active (s : Session σ) : Nat := s.table.active

/-- The span that is shown as selected. -/
def highlight (s : Session σ) : Option Span := s.selection.nonEmptyRange

/-- Tell the user something on the status line. -/
def setStatus (s : Session σ) (text : String) : Session σ := { s with status := some text }

/-- Leave the status line to the description of the document. -/
def clearStatus (s : Session σ) : Session σ := { s with status := none }

/-- Raise an alert. -/
def alert (s : Session σ) : Session σ := { s with alerted := true }

/-- Whether an alert was raised since the last time it was asked. -/
def takeAlert (s : Session σ) : Bool × Session σ := (s.alerted, { s with alerted := false })

/-- Show what a function on views says is to be shown. -/
@[inline] def showWith (s : Session σ) (f : View → GapBuffer → Repainted) : Session σ :=
  let (view, paints) := f s.view s.table.current.buffer
  { s with view := view, screen := s.screen.paint paints }

/-- Show a window chosen around the caret. -/
def reformat (s : Session σ) : Session σ := s.showWith fun v g => v.reformat g s.highlight

/-- Show the present window again, or one around the caret when the caret is not in it. -/
def refresh (s : Session σ) : Session σ := s.showWith fun v g => v.refresh g s.highlight

/-- A session over new segments and a blank screen of the given size. -/
def create (options : SessionOptions) (storage : σ) (rows cols : Nat) :
    Except EditorError (Session σ) :=
  (SegmentTable.ofLayout options.capacity options.present).map fun table =>
    let screen := Screen.blank rows cols
    reformat {
      table := table
      view := View.new screen.grid.rows screen.grid.cols options.preferredRow
      screen := screen
      storage := storage
      selection := Selection.none
      transfer := options.transfer
      clipboardFile := options.clipboardFile
      pendingOverwrite := none
      preferredRow := options.preferredRow
      alerted := false
      status := none }

/-- Go on with a blank screen of another size. -/
def resize (s : Session σ) (rows cols : Nat) : Session σ :=
  let screen := Screen.blank rows cols
  reformat { s with
    screen := { screen with painted := s.screen.painted }
    view := View.new screen.grid.rows screen.grid.cols s.preferredRow }

end Session
end ScreenEditor
