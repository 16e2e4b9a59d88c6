/-!
# Prompts

A question on the status line with an answer being typed.  The answer is kept as the characters
before and after its cursor, so the cursor always stands between characters.
-/

namespace ScreenEditor

/-- What an answer is for. -/
inductive PromptPurpose where
  | openFile
  | insertFile
  | saveAs
  | saveSelection
  | search
  | replaceSearch
  | replaceWith (needle : String)
  | queryReplaceSearch
  | queryReplaceWith (needle : String)
  | switchDocument
  | confirmOverwrite (name : String)
  | confirmQuit
  deriving DecidableEq, Repr

/-- A question and the answer typed so far; `before` has the characters before the cursor, last
first. -/
structure Prompt where
  message : String
  purpose : PromptPurpose
  before : List Char
  after : List Char
  deriving DecidableEq, Repr

namespace Prompt

/-- A question with an answer to begin from, the cursor at its end. -/
def new (message : String) (purpose : PromptPurpose) (initial : String) : Prompt :=
  ⟨message, purpose, initial.toList.reverse, []⟩

/-- The characters of the answer. -/
def chars (p : Prompt) : List Char := p.before.reverse ++ p.after

/-- The answer. -/
def text (p : Prompt) : String := String.ofList p.chars

/-- The offset of the cursor in the answer, in bytes of UTF-8. -/
def cursorBytes (p : Prompt) : Nat := p.before.foldl (fun n c => n + c.utf8Size) 0

/-- Move the cursor one character to the left. -/
def cursorLeft (p : Prompt) : Prompt :=
  match p.before with
  | [] => p
  | c :: rest => { p with before := rest, after := c :: p.after }

/-- Move the cursor one character to the right. -/
def cursorRight (p : Prompt) : Prompt :=
  match p.after with
  | [] => p
  | c :: rest => { p with before := c :: p.before, after := rest }

/-- Insert a character at the cursor. -/
def insertChar (p : Prompt) (c : Char) : Prompt := { p with before := c :: p.before }

/-- Delete the character before the cursor. -/
def backspace (p : Prompt) : Prompt := { p with before := p.before.drop 1 }

/-- Delete the character behind the cursor. -/
def delete (p : Prompt) : Prompt := { p with after := p.after.drop 1 }

/-- Move the cursor to the start. -/
def moveToStart (p : Prompt) : Prompt := { p with before := [], after := p.chars }

/-- Move the cursor to the end. -/
def moveToEnd (p : Prompt) : Prompt := { p with before := p.chars.reverse, after := [] }

/-- Put another answer in place of this one, the cursor at its end. -/
def setText (p : Prompt) (text : String) : Prompt :=
  { p with before := text.toList.reverse, after := [] }

/-- The characters of a text up to a byte offset, last first, and those behind it. -/
def splitBytes (taken : List Char) : Nat → List Char → List Char × List Char
  | _, [] => (taken, [])
  | offset, c :: rest =>
    if offset = 0 then (taken, c :: rest)
    else splitBytes (c :: taken) (offset - c.utf8Size) rest

/-- Move the cursor to a byte offset. -/
def setCursor (p : Prompt) (offset : Nat) : Prompt :=
  let (before, after) := splitBytes [] offset p.chars
  { p with before := before, after := after }

/-- Delete the answer from the cursor on. -/
def deleteToEnd (p : Prompt) : Prompt := { p with after := [] }

/-- Delete the answer. -/
def clear (p : Prompt) : Prompt := { p with before := [], after := [] }

/-- The status line: question and answer, and the column of the cursor, counted in characters. -/
def display (p : Prompt) : String × Nat :=
  (p.message ++ p.text, p.message.length + p.before.length)

end Prompt
end ScreenEditor
