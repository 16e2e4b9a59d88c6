import ScreenEditor.Json.Value

/-!
# Actions

What a key can be bound to, and the name of each action in the configuration.
-/

namespace ScreenEditor

/-- Something the user can have done with a key. -/
inductive Action where
  | insertChar (c : Char)
  | insertNewline
  | insertTab
  | moveLeft
  | moveRight
  | moveUp
  | moveDown
  | moveLineStart
  | moveLineEnd
  | movePageUp
  | movePageDown
  | moveDocumentStart
  | moveDocumentEnd
  | deleteBackward
  | deleteForward
  | toggleSelection
  | copy
  | cut
  | paste
  | find
  | findNext
  | replace
  | queryReplace
  | save
  | saveAs
  | saveSelection
  | openFile
  | insertFile
  | quit
  | nextDocument
  | previousDocument
  | listDocuments
  | cancel
  deriving DecidableEq, Repr

namespace Action

/-- The actions that need no argument, with their names. -/
def plain : List (String × Action) := [
  ("insert_newline", insertNewline), ("insert_tab", insertTab),
  ("move_left", moveLeft), ("move_right", moveRight), ("move_up", moveUp), ("move_down", moveDown),
  ("move_line_start", moveLineStart), ("move_line_end", moveLineEnd),
  ("move_page_up", movePageUp), ("move_page_down", movePageDown),
  ("move_document_start", moveDocumentStart), ("move_document_end", moveDocumentEnd),
  ("delete_backward", deleteBackward), ("delete_forward", deleteForward),
  ("toggle_selection", toggleSelection), ("copy", copy), ("cut", cut), ("paste", paste),
  ("find", find), ("find_next", findNext), ("replace", replace), ("query_replace", queryReplace),
  ("save", save), ("save_as", saveAs), ("save_selection", saveSelection), ("open", openFile),
  ("insert_file", insertFile), ("quit", quit),
  ("next_document", nextDocument), ("prev_document", previousDocument),
  ("list_documents", listDocuments), ("cancel", cancel)]

/-- The action with a name.  Inserting a character takes the first character of the argument
`char`, which must be a string. -/
def ofName? (name : String) (args : Named Json.Value) : Option Action :=
  if name = "insert_char" then
    match args.find? "char" with
    | some (.string s) => s.toList.head?.map insertChar
    | _ => none
  else (plain.find? (·.1 == name)).map (·.2)

end Action
end ScreenEditor
