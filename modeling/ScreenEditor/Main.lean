import ScreenEditor.Program

/-!
# The program at a terminal

The outer layer.  The files of the working folder are read when the program starts, and those that
an event changes are written back at once.  Frames go to the standard output; keys are read from the
standard input, which must pass them on as they are typed.
-/

namespace ScreenEditor.Main

/-- The key press that a terminal sends as a character: some keys have control characters, and a
letter held with control has the others. -/
def pressOfChar (c : Char) : KeyPress :=
  match c with
  | '\r' | '\n' => ⟨.enter, .none⟩
  | '\t' => ⟨.tab, .none⟩
  | '\x1b' => ⟨.escape, .none⟩
  | '\x7f' => ⟨.backspace, .none⟩
  | c =>
    if c.toNat < 0x20 then ⟨.char (Char.ofNat (c.toNat + 0x60)), .ctrl⟩ else ⟨.char c, .none⟩

/-- A command to the terminal, with its numbers. -/
def terminalCommand (numbers : List Nat) (letter : String) : String :=
  "\x1b[" ++ ";".intercalate (numbers.map toString) ++ letter

/-- The cells that are not hidden behind a wider glyph before them. -/
def visible (hidden : Nat) : List Cell → List Cell
  | [] => []
  | cell :: rest =>
    if hidden = 0 then cell :: visible (cell.width - 1) rest else visible (hidden - 1) rest

/-- The cells of a row, with the commands that switch reverse video. -/
def rowText (g : Grid) (row : Nat) : String :=
  let cells := visible 0 ((List.range g.cols).filterMap (g.cell? row))
  String.join (cells.map fun cell =>
    terminalCommand [if cell.reversed then 7 else 0] "m" ++ cell.glyph)

/-- A frame as the terminal takes it. -/
def frameText (f : Frame) : String :=
  let rows := (List.range f.grid.rows).map fun row =>
    terminalCommand [row + 1, 1] "H" ++ rowText f.grid row
  String.join rows ++ terminalCommand [f.cursor.1 + 1, f.cursor.2 + 1] "H"
    ++ String.ofList (List.replicate f.bells '\x07')

/-- The next characters of the input; none at its end. -/
partial def readChars (input : IO.FS.Stream) (reader : Utf8.Reader) : IO (List Char) := do
  match (← input.read 1).toList with
  | [] => return reader.finish
  | byte :: _ =>
    let reader := reader.step byte
    if reader.current.isNone then return reader.finish
    readChars input reader

/-- Write the files that differ from what they were. -/
def writeChanges (before after : Directory) : IO Unit :=
  after.files.forM fun (name, bytes) => do
    if before.files.find? name != some bytes then
      IO.FS.writeBinFile name ⟨bytes⟩

/-- Show frames and take keys until the user quits or the input ends. -/
partial def interact (input output : IO.FS.Stream) (e : Editor Directory) : IO Ending := do
  if e.quitting then return .quit
  let (frame, e) := e.show
  output.putStr (frameText frame)
  output.flush
  match ← readChars input {} with
  | [] => return Editor.endOfInput
  | chars =>
    let next := chars.foldl (fun e c => e.handle (.press (pressOfChar c))) e
    writeChanges e.session.storage next.session.storage
    interact input output next

/-- The bytes of a file that can be read. -/
def bytesOf? (name : String) : IO (Option (List UInt8)) := do
  match ← (IO.FS.readBinFile name).toBaseIO with
  | .ok bytes => return some bytes.toList
  | .error _ => return none

/-- The files of the working folder. -/
def workingFolder : IO Directory := do
  let entries ← (← IO.currentDir).readDir
  let files ← entries.toList.filterMapM fun entry => do
    return (← bytesOf? entry.fileName).map fun bytes => (entry.fileName, bytes)
  return Directory.ofFiles files

/-- The bytes of the configuration file in the user's folder for such files. -/
def userConfig? : IO (Option (List UInt8)) := do
  match ← IO.getEnv "XDG_CONFIG_HOME", ← IO.getEnv "HOME" with
  | some folder, _ => bytesOf? (pathIn folder "segedit/config.json")
  | none, some home => bytesOf? (pathIn home ".config/segedit/config.json")
  | none, none => return none

/-- A number in the environment. -/
def environmentNumber (name : String) (default : Nat) : IO Nat := do
  return ((← IO.getEnv name).bind String.toNat?).getD default

/-- Run the program and give its exit code. -/
def runProgram (arguments : List String) : IO Nat := do
  let directory ← workingFolder
  let started := Program.start {
    arguments := arguments
    configBytes := ← userConfig?
    temporary := "."
    directory := directory
    rows := ← environmentNumber "LINES" 24
    cols := ← environmentNumber "COLUMNS" 80 }
  match started with
  | .ended outcome =>
    writeChanges directory outcome.directory
    IO.print (outcome.printed.getD "")
    return outcome.code
  | .editing editor =>
    writeChanges directory editor.session.storage
    return Program.endingCode (← interact (← IO.getStdin) (← IO.getStdout) editor)

end ScreenEditor.Main

/-- The program. -/
def main (arguments : List String) : IO UInt32 := do
  return UInt32.ofNat (← ScreenEditor.Main.runProgram arguments)
