import ScreenEditor.Session.Basic
import ScreenEditor.View.Motion

/-!
# Typing and deleting

Edits of the active document at the caret.  Every edit drops the selection, and marks the document
as modified when it is not refused.
-/

namespace ScreenEditor.Session

variable {σ : Type} [Storage σ]

/-- Drop the selection before a change, and say whether it was shown. -/
def dropSelection (s : Session σ) : Bool × Session σ :=
  (s.highlight.isSome, { s with selection := Selection.none })

/-- Refuse an edit after the selection was dropped. -/
def refuseEdit (s : Session σ) (wasShown : Bool) : Bool × Session σ :=
  (false, (if wasShown then s.refresh else s).alert)

/-- Finish an edit after the selection was dropped: everything is shown again if the selection was
shown, and otherwise what the edit changed. -/
def finishEdit (s : Session σ) (wasShown : Bool) (patch : View → GapBuffer → Repainted) :
    Bool × Session σ :=
  let s := { s with table := s.table.modifyCurrent Document.markModified }
  (true, if wasShown then s.refresh else s.showWith patch)

/-- Insert a byte at the caret. -/
def insertByte (s : Session σ) (byte : UInt8) : Bool × Session σ :=
  let (wasShown, s) := s.dropSelection
  if s.buffer.free = 0 then s.refuseEdit wasShown
  else
    { s with table := s.table.modifyBuffer (·.insertAll [byte]) }.finishEdit wasShown
      View.afterInsert

/-- Insert bytes one by one, up to the first that is refused. -/
def insertBytes (s : Session σ) : List UInt8 → Bool × Session σ
  | [] => (true, s)
  | byte :: rest =>
    match s.insertByte byte with
    | (true, s) => s.insertBytes rest
    | (false, s) => (false, s)

/-- Insert a character as its bytes in UTF-8. -/
def insertChar (s : Session σ) (c : Char) : Bool × Session σ :=
  s.insertBytes (String.utf8EncodeChar c)

/-- Insert blanks, up to the first that is refused. -/
def insertBlanks (s : Session σ) : Nat → Bool × Session σ
  | 0 => (true, s)
  | n + 1 =>
    match s.insertByte blankByte with
    | (true, s) => s.insertBlanks n
    | (false, s) => (false, s)

/-- Insert blanks up to the next tab stop of the grid. -/
def insertTab (s : Session σ) : Bool × Session σ :=
  let width := max s.transfer.tabWidth 1
  s.insertBlanks (width - s.view.cursor.2 % width)

/-- Delete the byte before the caret. -/
def deleteLeft (s : Session σ) : Bool × Session σ :=
  let (wasShown, s) := s.dropSelection
  match s.buffer.deleteLeft? with
  | none => s.refuseEdit wasShown
  | some (_, g) =>
    { s with table := s.table.modifyBuffer fun _ => g }.finishEdit wasShown View.afterDeleteLeft

/-- Delete the byte behind the caret. -/
def deleteRight (s : Session σ) : Bool × Session σ :=
  let (wasShown, s) := s.dropSelection
  match s.buffer.deleteRight? with
  | none => s.refuseEdit wasShown
  | some (_, g) =>
    { s with table := s.table.modifyBuffer fun _ => g }.finishEdit wasShown View.afterDeleteRight

end ScreenEditor.Session
