/-!
# Reasons for refusal

What can go wrong between the editor and its files and segments, each cause with the one text that
tells it to the user.
-/

namespace ScreenEditor

/-- Why a file operation failed. -/
inductive FileFault where
  | notFound
  | isDirectory
  | notADirectory
  | nameTooLong
  | invalidName
  | notOpenForThat
  | invalidOffset
  | injected
  deriving DecidableEq, Repr

namespace FileFault

/-- The text of a fault. -/
def message : FileFault → String
  | notFound => "No such file or directory (os error 2)"
  | isDirectory => "Is a directory (os error 21)"
  | notADirectory => "Not a directory (os error 20)"
  | nameTooLong => "File name too long (os error 36)"
  | invalidName => "file name contained an unexpected NUL byte"
  | notOpenForThat => "Bad file descriptor (os error 9)"
  | invalidOffset => "Invalid argument (os error 22)"
  | injected => "injected failure"

/-- The class of a fault. -/
def kind : FileFault → String
  | notFound => "NotFound"
  | isDirectory => "IsADirectory"
  | notADirectory => "NotADirectory"
  | nameTooLong => "InvalidFilename"
  | invalidName => "InvalidInput"
  | notOpenForThat => "Uncategorized"
  | invalidOffset => "InvalidInput"
  | injected => "Other"

end FileFault

/-- What was being done to a file when it failed. -/
inductive FileAction where
  | opening
  | reading
  | writing
  | closing
  deriving DecidableEq, Repr

/-- The verb of a file action. -/
def FileAction.verb : FileAction → String
  | opening => "open"
  | reading => "read"
  | writing => "write"
  | closing => "close"

/-- Why the editor refused a request. -/
inductive EditorError where
  | notFound (name : String)
  | file (name : String) (action : FileAction) (fault : FileFault)
  | shortWrite (name : String) (written expected : Nat)
  | overwriteConfirmationRequired (name : String)
  | outOfSegments
  | invalidSegment (id : Nat)
  | tooManySegments (requested max : Nat)
  | noSegments
  | unnamed
  | noSelection
  deriving DecidableEq, Repr

namespace EditorError

/-- A file fault as an error; a file that is missing when opened is its own cause. -/
def ofFault (name : String) (action : FileAction) (fault : FileFault) : EditorError :=
  if action = .opening ∧ fault = .notFound then .notFound name else .file name action fault

/-- The class of an error. -/
def kind : EditorError → String
  | notFound _ => "NotFound"
  | file .. => "Io"
  | shortWrite .. => "ShortWrite"
  | overwriteConfirmationRequired _ => "OverwriteConfirmationRequired"
  | outOfSegments => "OutOfSegments"
  | invalidSegment _ => "InvalidSegment"
  | tooManySegments .. => "TooManySegments"
  | noSegments => "NoSegments"
  | unnamed => "Unnamed"
  | noSelection => "NoSelection"

/-- The text of an error. -/
def message : EditorError → String
  | notFound name => name ++ ": not found"
  | file name action fault => name ++ ": " ++ action.verb ++ " failed: " ++ fault.message
  | shortWrite name written expected =>
    name ++ ": short write (" ++ toString written ++ " of " ++ toString expected ++ " bytes)"
  | overwriteConfirmationRequired name => name ++ " already exists; save again to overwrite"
  | outOfSegments => "no free segment left for overflow"
  | invalidSegment id => "no segment with id " ++ toString id
  | tooManySegments requested max =>
    "at most " ++ toString max ++ " segment slots are supported, " ++ toString requested
      ++ " requested"
  | noSegments => "no segment slots are available"
  | unnamed => "no document name"
  | noSelection => "nothing is selected"

end EditorError
end ScreenEditor
