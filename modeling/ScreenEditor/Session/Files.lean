import ScreenEditor.Session.Basic
import ScreenEditor.Transfer.Load
import ScreenEditor.Transfer.Save

/-!
# Files and documents of a session

The selection goes to files and comes back through the clipboard file; documents are opened, saved
and switched.
-/

namespace ScreenEditor.Session

variable {σ : Type} [Storage σ]

/-! ## Selection and clipboard -/

/-- Start selecting at the caret, or freeze the selection there. -/
def toggleSelection (s : Session σ) : Session σ :=
  refresh { s with selection := s.selection.startOrExtend s.buffer.caret }

/-- Write a range of the active document to a file. -/
def exportRange (s : Session σ) (name : String) (range : Span) :
    Except EditorError Nat × Session σ :=
  let (result, table, storage) := s.table.save s.storage name (some range) s.transfer
  (result, { s with table := table, storage := storage })

/-- Copy the selection to the clipboard file. -/
def copy (s : Session σ) : Except EditorError Bool × Session σ :=
  match s.highlight with
  | none => (.ok false, s.alert)
  | some range =>
    match s.exportRange s.clipboardFile range with
    | (.error e, s) => (.error e, s)
    | (.ok written, s) =>
      let s := refresh { s with selection := Selection.none }
      (.ok true, s.setStatus ("Copied " ++ toString written ++ " bytes"))

/-- Copy the selection to the clipboard file and delete it. -/
def cut (s : Session σ) : Except EditorError Bool × Session σ :=
  match s.highlight with
  | none => (.ok false, s.alert)
  | some range =>
    match s.exportRange s.clipboardFile range with
    | (.error e, s) => (.error e, s)
    | (.ok written, s) =>
      let s := { s with
        table := s.table.modifyCurrent fun d =>
          (d.mapBuffer fun g => (g.deleteRange? range.lo range.hi).getD g).markModified
        selection := Selection.none }
      (.ok true, s.refresh.setStatus ("Cut " ++ toString written ++ " bytes"))

/-- Insert a file at the caret. -/
def insertFile (s : Session σ) (name : String) : Except EditorError LoadReport × Session σ :=
  let s := { s with selection := Selection.none }
  match s.table.load s.storage name .insert s.transfer with
  | (.error e, table, storage) => (.error e, { s with table := table, storage := storage })
  | (.ok report, table, storage) =>
    (.ok report, reformat { s with table := table, storage := storage })

/-- Insert the clipboard file at the caret. -/
def paste (s : Session σ) : Except EditorError LoadReport × Session σ :=
  s.insertFile s.clipboardFile

/-! ## Files -/

/-- Replace the active document by a file. -/
def openFile (s : Session σ) (name : String) : Except EditorError LoadReport × Session σ :=
  match s.table.load s.storage name .replace s.transfer with
  | (.error e, table, storage) => (.error e, { s with table := table, storage := storage })
  | (.ok report, table, storage) =>
    let s := reformat { s with table := table, storage := storage, selection := Selection.none }
    (.ok report, s.setStatus ("Read " ++ toString report.bytesRead ++ " bytes from " ++ name ++ " ("
      ++ toString report.segments.length ++ " part(s))"))

/-- Save the active document under a name.  A file of another name that exists already is
overwritten only with `force`, or when the same save was refused just before. -/
def saveAs (s : Session σ) (name : String) (force : Bool) : Except EditorError Nat × Session σ :=
  let confirmed := force || s.pendingOverwrite == some name
  if name ≠ s.document.header.name ∧ !confirmed ∧ Storage.contains s.storage name then
    (.error (.overwriteConfirmationRequired name),
      { s with
        table := s.table.modifyHeader fun h => { h with awaitsOverwrite := true }
        pendingOverwrite := some name })
  else
    let (result, table, storage) := s.table.save s.storage name none s.transfer
    let s := { s with table := table, storage := storage, pendingOverwrite := none }
    match result with
    | .error e => (.error e, s)
    | .ok written =>
      (.ok written, s.setStatus ("Wrote " ++ toString written ++ " bytes to " ++ name))

/-- Save the active document under its own name. -/
def save (s : Session σ) : Except EditorError Nat × Session σ :=
  if s.document.header.name.isEmpty then (.error .unnamed, s)
  else s.saveAs s.document.header.name true

/-- Write the selection to a file. -/
def saveSelection (s : Session σ) (name : String) : Except EditorError Nat × Session σ :=
  match s.highlight with
  | none => (.error .noSelection, s.alert)
  | some range => s.exportRange name range

/-! ## Documents -/

/-- Make a segment active. -/
def switchTo (s : Session σ) (id : Nat) : Except EditorError Unit × Session σ :=
  match s.table.activate id with
  | .error e => (.error e, s)
  | .ok table =>
    (.ok (), reformat { s with
      table := table, selection := Selection.none, pendingOverwrite := none })

/-- The segment after the active one, or before it, around the end. -/
def neighbour (s : Session σ) (forward : Bool) : Nat :=
  if forward then s.active % s.table.count + 1
  else (s.active + s.table.count - 2) % s.table.count + 1

/-- Make the next segment active, or the one before. -/
def cycle (s : Session σ) (forward : Bool) : Except EditorError Unit × Session σ :=
  s.switchTo (s.neighbour forward)

/-- The lines of a listing of all segments. -/
def listDocuments (s : Session σ) : List DocumentEntry × Session σ :=
  let (entries, table) := s.table.list
  (entries, { s with table := table })

/-- Whether any segment has unsaved changes. -/
def hasUnsavedChanges (s : Session σ) : Bool × Session σ :=
  let (entries, s) := s.listDocuments
  (entries.any (·.modified), s)

end ScreenEditor.Session
