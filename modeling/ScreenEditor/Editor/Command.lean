import ScreenEditor.Editor.Basic
import ScreenEditor.Session.Editing
import ScreenEditor.Session.Files
import ScreenEditor.Session.Motion
import ScreenEditor.Text.Blank

/-!
# Commands

What an editor does with a key press.  While editing, the keymap says which action a key has.  Some
actions ask for more: they put a prompt, whose answer may lead to another prompt or to a replace run
with questions.

An action that the session refuses raises an alert; one that fails says why on the status line.
-/

namespace ScreenEditor.Editor

variable {σ : Type} [Storage σ]

/-- Change the session by an operation that is done, or refused with an alert. -/
def apply (e : Editor σ) (operation : Session σ → Bool × Session σ) : Editor σ :=
  { e with session := (operation e.session).2 }

/-- Say something on the status line. -/
def say (e : Editor σ) (text : String) : Editor σ :=
  { e with session := e.session.setStatus text }

/-- Take over what an operation of the session came to, and say why if it failed. -/
def report {α : Type} (e : Editor σ) (result : Except EditorError α × Session σ) : Editor σ :=
  let e := { e with session := result.2 }
  match result.1 with
  | .ok _ => e
  | .error error => e.say ("Error: " ++ error.message)

/-- Put a prompt with an answer to begin from. -/
def ask (e : Editor σ) (message : String) (purpose : PromptPurpose) (initial : String) :
    Editor σ :=
  { e with mode := .prompting (Prompt.new message purpose initial) }

/-- Search for a text, which is the last one searched for from then on.  An empty text is not
searched for. -/
def find (e : Editor σ) (text : String) : Editor σ :=
  if text.isEmpty then e
  else
    { e with
      session := (e.session.find (Utf8.encode text)).2
      lastSearch := some text }

/-! ## Replacing with questions -/

/-- The question put at every match. -/
def questionText (needle replacement : String) : String :=
  "Replace " ++ needle ++ " with " ++ replacement ++ "? (y/n/q)"

/-- Say how far a replace run came that was ended early. -/
def tellOutcome (s : Session σ) : SearchOutcome → Session σ
  | .finished summary =>
    if summary.aborted then
      s.setStatus ("Stopped after replacing " ++ toString summary.replaced ++ " of "
        ++ toString summary.offered ++ " matches")
    else s
  | _ => s

/-- Put the next question of a replace run, or go back to editing at its end. -/
def follow (e : Editor σ) (text : String) (step : Session.QueryStep × Session σ) : Editor σ :=
  match step with
  | (.ask question, session) => { e with session := session, mode := .asking question text }
  | (.done outcome, session) =>
    { e with session := tellOutcome session outcome, mode := .editing }

/-- Replace a text by another with a question at every match. -/
def queryReplace (e : Editor σ) (needle replacement : String) : Editor σ :=
  { e with lastSearch := some needle }.follow (questionText needle replacement)
    (e.session.beginQuery (Utf8.encode needle) (Utf8.encode replacement))

/-- The answer that a key gives to the question of a replace run. -/
def decisionOfKey? : KeyCode → Option ReplaceDecision
  | .char 'y' | .char ' ' => some .replace
  | .char 'n' | .backspace => some .skip
  | .char 'q' | .escape | .enter => some .abort
  | _ => none

/-- Answer the question of a replace run by a key; a key that is no answer rings the bell. -/
def pressAtQuestion (e : Editor σ) (question : Session.Question) (text : String)
    (press : KeyPress) : Editor σ :=
  match decisionOfKey? press.code with
  | some decision => e.follow text (e.session.answer question decision)
  | none => e.ring

/-! ## Actions -/

/-- The entry of a segment in the list of documents. -/
def entryText (active : Nat) (entry : DocumentEntry) : String :=
  (if entry.id = active then ">" else "") ++ toString entry.id ++ ":"
    ++ (if entry.name.isEmpty then "-" else entry.name) ++ (if entry.modified then "*" else "")

/-- List the documents, the active one and those that hold something, and ask for one of them. -/
def listDocuments (e : Editor σ) : Editor σ :=
  let (entries, session) := e.session.listDocuments
  let active := session.active
  let shown := entries.filter fun entry =>
    0 < entry.size || !entry.name.isEmpty || entry.id == active
  { e with session := session }.ask
    (" ".intercalate (shown.map (entryText active)) ++ "  Switch to: ") .switchDocument ""

/-- Save under the own name, or ask for one. -/
def save (e : Editor σ) : Editor σ :=
  match e.session.save with
  | (.error .unnamed, session) => { e with session := session }.ask "Save as: " .saveAs ""
  | result => e.report result

/-- Quit, unless unsaved changes call for a question. -/
def quit (e : Editor σ) : Editor σ :=
  let (unsaved, session) := e.session.hasUnsavedChanges
  let e := { e with session := session }
  if unsaved then e.ask "Modified documents exist. Quit anyway? (y/n) " .confirmQuit ""
  else { e with quitting := true }

/-- What was searched for last, to begin an answer from. -/
def searchedBefore (e : Editor σ) : String := e.lastSearch.getD ""

/-- Obey an action. -/
def obey (e : Editor σ) : Action → Editor σ
  | .insertChar c => e.apply (·.insertChar c)
  | .insertNewline => e.apply (·.insertByte lineFeed)
  | .insertTab => e.apply Session.insertTab
  | .moveLeft => e.apply Session.moveLeft
  | .moveRight => e.apply Session.moveRight
  | .moveUp => e.apply Session.moveUp
  | .moveDown => e.apply Session.moveDown
  | .moveLineStart => e.apply Session.moveRowStart
  | .moveLineEnd => e.apply Session.moveRowEnd
  | .movePageUp => e.apply Session.pageUp
  | .movePageDown => e.apply Session.pageDown
  | .moveDocumentStart => e.apply Session.moveDocumentStart
  | .moveDocumentEnd => e.apply Session.moveDocumentEnd
  | .deleteBackward => e.apply Session.deleteLeft
  | .deleteForward => e.apply Session.deleteRight
  | .toggleSelection => { e with session := e.session.toggleSelection }
  | .copy => e.report e.session.copy
  | .cut => e.report e.session.cut
  | .paste => e.report e.session.paste
  | .find => e.ask "Find: " .search e.searchedBefore
  | .findNext =>
    match e.lastSearch with
    | some text => e.find text
    | none => e.ask "Find: " .search ""
  | .replace => e.ask "Replace: " .replaceSearch e.searchedBefore
  | .queryReplace => e.ask "Query replace: " .queryReplaceSearch e.searchedBefore
  | .save => e.save
  | .saveAs => e.ask "Save as: " .saveAs e.session.document.header.name
  | .saveSelection =>
    if e.session.highlight.isSome then e.ask "Write selection to: " .saveSelection ""
    else e.say "Nothing is selected"
  | .openFile => e.ask "Open: " .openFile ""
  | .insertFile => e.ask "Insert file: " .insertFile ""
  | .quit => e.quit
  | .nextDocument => e.report (e.session.cycle true)
  | .previousDocument => e.report (e.session.cycle false)
  | .listDocuments => e.listDocuments
  | .cancel => e

/-- Obey the action of a key, if it has one. -/
def pressWhileEditing (e : Editor σ) (press : KeyPress) : Editor σ :=
  let e := { e with session := e.session.clearStatus }
  match e.keymap.resolve press with
  | some action => e.obey action
  | none => e

/-! ## Prompts -/

/-- Whether an answer says yes. -/
def saysYes (text : String) : Bool :=
  trimBlanks text.toList == ['y'] || trimBlanks text.toList == ['Y']

/-- The greatest segment number that can be given is below this. -/
def segmentNumberBound : Nat := Nat.pow 2 64

/-- The number that decimal digits spell; a plus sign may precede them. -/
def segmentNumber? (chars : List Char) : Option Nat :=
  let digits := if chars.head? = some '+' then chars.drop 1 else chars
  if digits = [] ∨ !digits.all Char.isDigit then none
  else
    let n := digits.foldl (fun n c => n * 10 + (c.toNat - '0'.toNat)) 0
    if n < segmentNumberBound then some n else none

/-- Switch to the segment whose number the answer spells. -/
def switchDocument (e : Editor σ) (text : String) : Editor σ :=
  match segmentNumber? (trimBlanks text.toList) with
  | some id => e.report (e.session.switchTo id)
  | none => e.say ("Not a segment number: " ++ text)

/-- Save under a name.  Before another file is overwritten, a prompt asks. -/
def saveAs (e : Editor σ) (name : String) : Editor σ :=
  match e.session.saveAs name false with
  | (.error (.overwriteConfirmationRequired name), session) =>
    { e with session := session }.ask (name ++ " exists. Overwrite? (y/n) ")
      (.confirmOverwrite name) ""
  | result => e.report result

/-- Do what a prompt was put for, given the answer. -/
def confirm (e : Editor σ) (purpose : PromptPurpose) (text : String) : Editor σ :=
  match purpose with
  | .openFile => e.report (e.session.openFile text)
  | .insertFile => e.report (e.session.insertFile text)
  | .saveAs => e.saveAs text
  | .confirmOverwrite name =>
    if saysYes text then e.report (e.session.saveAs name false) else e.say "Not saved"
  | .saveSelection => e.report (e.session.saveSelection text)
  | .search => e.find text
  | .replaceSearch =>
    if text.isEmpty then e else e.ask ("Replace " ++ text ++ " with: ") (.replaceWith text) ""
  | .replaceWith needle =>
    { e with
      session := (e.session.replaceAll (Utf8.encode needle) (Utf8.encode text)).2
      lastSearch := some needle }
  | .queryReplaceSearch =>
    if text.isEmpty then e
    else e.ask ("Query replace " ++ text ++ " with: ") (.queryReplaceWith text) ""
  | .queryReplaceWith needle => e.queryReplace needle text
  | .switchDocument =>
    if trimBlanks text.toList = [] then e else e.switchDocument text
  | .confirmQuit => { e with quitting := saysYes text }

/-- Edit the answer to a prompt by a key; other keys change nothing. -/
def editAnswer (p : Prompt) (press : KeyPress) : Prompt :=
  match press.code with
  | .backspace => p.backspace
  | .delete => p.delete
  | .left => p.cursorLeft
  | .right => p.cursorRight
  | .home => p.moveToStart
  | .endKey => p.moveToEnd
  | .char c =>
    if press.modifiers.typesText then p.insertChar c
    else if press.modifiers = .ctrl then
      match c with
      | 'a' => p.moveToStart
      | 'e' => p.moveToEnd
      | 'k' => p.deleteToEnd
      | 'u' => p.clear
      | _ => p
    else p
  | _ => p

/-- Whether a key takes a prompt back. -/
def cancels (press : KeyPress) : Bool :=
  press.code = .escape ∨ press = ⟨.char 'g', .ctrl⟩

/-- Confirm, take back or edit the answer to a prompt by a key. -/
def pressAtPrompt (e : Editor σ) (p : Prompt) (press : KeyPress) : Editor σ :=
  if cancels press then { e with mode := .editing }.say "Cancelled"
  else if press.code = .enter then { e with mode := .editing }.confirm p.purpose p.text
  else { e with mode := .prompting (editAnswer p press) }

/-- Do what a key press means at the moment. -/
def press (e : Editor σ) (press : KeyPress) : Editor σ :=
  match e.mode with
  | .editing => e.pressWhileEditing press
  | .prompting prompt => e.pressAtPrompt prompt press
  | .asking question text => e.pressAtQuestion question text press

end ScreenEditor.Editor
