import ScreenEditor.Editor.Command

/-!
# Runs of the editor

A run shows a frame and reads an event, in turn, until the user quits or no event is left.
`Editor.run` is a recursion over the events, so `run_cons` and `run_nil` say all about it.
-/

namespace ScreenEditor

/-- What a terminal reports. -/
inductive Event where
  | press (press : KeyPress)
  | release (press : KeyPress)
  | resize (rows cols : Nat)
  | paste (text : String)
  deriving DecidableEq, Repr

/-- How a run ended. -/
inductive Ending where
  | quit
  | failed (message : String)
  deriving DecidableEq, Repr

/-- The frames of a run, how it ended, and how many events were left. -/
structure Transcript where
  frames : List Frame
  ending : Ending
  unread : Nat

namespace Editor

variable {σ : Type} [Storage σ]

/-! ## Starting -/

/-- Whether a segment has nothing in it and no name. -/
def isFree (entry : DocumentEntry) : Bool :=
  entry.name.isEmpty && entry.size == 0 && !entry.modified

/-- Open a file, or begin a new one that has no name yet when it is missing. -/
def openOrBegin (e : Editor σ) (name : String) : Editor σ :=
  match e.session.openFile name with
  | (.error (.notFound _), session) => { e with session := session }.say ("New file: " ++ name)
  | result => e.report result

/-- Open files, each in a free segment, until no segment is free, and give the segment of the
first. -/
def openEach (e : Editor σ) (first : Option Nat) : List String → Editor σ × Option Nat
  | [] => (e, first)
  | name :: rest =>
    let (entries, session) := e.session.listDocuments
    let e := { e with session := session }
    match entries.find? isFree with
    | none => (e.say ("No free segment for " ++ name), first)
    | some entry =>
      let e := { e with session := (e.session.switchTo entry.id).2 }
      (e.openOrBegin name).openEach (first.or (some entry.id)) rest

/-- Open files, each in a free segment, and go back to the first. -/
def openFiles (e : Editor σ) (names : List String) : Editor σ :=
  match e.openEach none names with
  | (e, none) => e
  | (e, some id) => { e with session := (e.session.switchTo id).2 }

/-- An editor with files open, or the text that says why there is none. -/
def launch (config : Config) (storage : σ) (rows cols : Nat) (files : List String) :
    Except String (Editor σ) :=
  match create config storage rows cols with
  | .ok e => .ok (e.openFiles files)
  | .error error => .error ("Failed to set up segments: " ++ error.message)

/-! ## Running -/

/-- Take another size of the terminal.  The grid follows, unless a question is open. -/
def resize (e : Editor σ) (rows cols : Nat) : Editor σ :=
  let e := { e with rows := rows, cols := cols }
  match e.mode with
  | .asking .. => e
  | _ =>
    let size := Area.gridSize cols rows
    { e with session := e.session.resize size.1 size.2 }

/-- Do what an event means; releases and pasted text mean nothing. -/
def handle (e : Editor σ) : Event → Editor σ
  | .press press => e.press press
  | .resize rows cols => e.resize rows cols
  | .release _ | .paste _ => e

/-- What ends a run without events. -/
def endOfInput : Ending := .failed "end of input"

/-- Show the last frames when no event is left.  An open question ends its replace run first. -/
def close (e : Editor σ) : List Frame × Editor σ :=
  let (frame, e) := e.show
  match e.mode with
  | .asking question text =>
    let (outcome, session) := e.session.abortQuery question
    let (next, e) := (e.follow text (.done outcome, session)).show
    ([frame, next], e)
  | _ => ([frame], e)

/-- Run on the given events. -/
def run (e : Editor σ) : List Event → Transcript × Editor σ
  | [] =>
    if e.quitting then (⟨[], .quit, 0⟩, e)
    else
      let (frames, e) := e.close
      (⟨frames, endOfInput, 0⟩, e)
  | event :: rest =>
    if e.quitting then (⟨[], .quit, rest.length + 1⟩, e)
    else
      let (frame, e) := e.show
      let (transcript, e) := (e.handle event).run rest
      ({ transcript with frames := frame :: transcript.frames }, e)

end Editor
end ScreenEditor
