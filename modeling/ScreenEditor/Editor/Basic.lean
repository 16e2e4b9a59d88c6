import ScreenEditor.Keys.Keymap
import ScreenEditor.Prompt
import ScreenEditor.Screen.Display
import ScreenEditor.Screen.Frame
import ScreenEditor.Session.Query

/-!
# The editor at a terminal

An editor joins a session with a keymap and with what stands on the status line: a description of
the document, a prompt, or the question of a replace run.  `Editor.show` brings the terminal up to
date, gives what it shows then, and takes the bells that are due.
-/

namespace ScreenEditor

/-- What the keys are for at the moment: editing, the answer to a prompt, or the answer to the
question of a replace run, which the status line puts as `text`. -/
inductive Editor.Mode where
  | editing
  | prompting (prompt : Prompt)
  | asking (question : Session.Question) (text : String)

/-- A session at a terminal.  `rows` and `cols` are those of the terminal and `display` is what it
shows, `lastSearch` is what was searched for last, and `bells` counts the bells since the terminal
last showed something. -/
structure Editor (σ : Type) where
  session : Session σ
  keymap : Keymap
  rows : Nat
  cols : Nat
  display : Display
  mode : Editor.Mode
  lastSearch : Option String
  quitting : Bool
  bells : Nat

namespace Editor

variable {σ : Type}

/-- An editor for a terminal of the given size, with a session to be made over a storage. -/
def create [Storage σ] (config : Config) (storage : σ) (rows cols : Nat) :
    Except EditorError (Editor σ) :=
  let size := Area.gridSize cols rows
  (Session.create config.sessionOptions storage size.1 size.2).map fun session =>
    { session := session
      keymap := Keymap.ofBindings config.keybindings
      rows := rows
      cols := cols
      display := Display.blank rows cols
      mode := .editing
      lastSearch := none
      quitting := false
      bells := 0 }

/-- The description of the active document: name, changes, place among the segments, and size. -/
def describe (s : Session σ) : String :=
  let header := s.table.current.header
  let buffer := s.table.current.buffer
  " " ++ (if header.name.isEmpty then "[No Name]" else header.name)
    ++ (if header.modified then " [+]" else "")
    ++ " | segment " ++ toString s.table.active ++ " part " ++ toString header.part.toNat
    ++ " | " ++ toString buffer.caret ++ "/" ++ toString buffer.length ++ " bytes, "
    ++ toString buffer.free ++ " free"

/-- What the status line says, and where the cursor stands, by row and column. -/
def statusLine (e : Editor σ) : String × (Nat × Nat) :=
  let caret := e.session.screen.grid.cursor
  match e.mode with
  | .editing => (e.session.status.getD (describe e.session), caret)
  | .prompting prompt =>
    let (text, column) := prompt.display
    (text, ((Area.clipped 0 0 e.cols e.rows).status.y, column))
  | .asking _ text => (text, caret)

/-- Ring the bell. -/
def ring (e : Editor σ) : Editor σ := { e with bells := e.bells + 1 }

/-- Ring the bell if the session raised an alert. -/
def ringAlert (e : Editor σ) : Editor σ :=
  let (alerted, session) := e.session.takeAlert
  if alerted then { e with session := session }.ring else e

/-- Show the text and the status line, and give what the terminal shows then. -/
def showFrame (e : Editor σ) : Frame × Editor σ :=
  let (text, cursor) := e.statusLine
  let display := e.display.update (Grid.forTerminal e.rows e.cols e.session.screen.grid text)
  (⟨display.shown, (coordinate cursor.1, coordinate cursor.2), e.bells⟩,
    { e with display := display, bells := 0 })

/-- Ring the bells that are due, show the text and the status line, and give what the terminal shows
then.  Alerts wait while a question of a replace run is open. -/
def «show» (e : Editor σ) : Frame × Editor σ :=
  match e.mode with
  | .asking .. => e.showFrame
  | _ => e.ringAlert.showFrame

end Editor
end ScreenEditor
