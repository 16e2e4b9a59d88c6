import ScreenEditor.Json.Value
import ScreenEditor.Session.Basic

/-!
# Configuration

The options of the editor, their defaults, and which of them are acceptable.
-/

namespace ScreenEditor

/-- An action bound to a key, as the user wrote it: key and action may turn out to be unknown. -/
structure Binding where
  key : String
  modifiers : List String
  action : String
  args : Named Json.Value

/-- The options of the editor.  `missingSlots` names the slots, from 0, that have no segment. -/
structure Config where
  segmentCapacity : Nat
  segmentCount : Nat
  missingSlots : List Nat
  preferredRow : Nat
  tabWidth : Nat
  loadChunkSize : Nat
  saveChunkSize : Nat
  clipboardFile : String
  lineEnding : LineEnding
  keybindings : List Binding

/-- Why a configuration was not loaded. -/
inductive ConfigError where
  | unreadable
  | malformed
  | invalid (complaint : String)
  deriving DecidableEq, Repr

/-- The text of a configuration error. -/
def ConfigError.message : ConfigError → String
  | unreadable => "the file cannot be read as text"
  | malformed => "the text does not spell a configuration"
  | invalid complaint => "Validation error: " ++ complaint

/-- The path of a file in a folder, which is empty for the working folder.  A slash is put between
them unless the folder brings its own. -/
def pathIn (folder file : String) : String :=
  let slash := if folder.toList.getLast?.all (· == '/') then "" else "/"
  folder ++ slash ++ file

namespace Config

/-- The clipboard file in a folder for temporary files. -/
def clipboardIn (temporary : String) : String := pathIn temporary "segedit.clip"

/-- The options that apply where nothing else is said. -/
def standard (temporary : String) : Config where
  segmentCapacity := 48128
  segmentCount := 8
  missingSlots := []
  preferredRow := 8
  tabWidth := 8
  loadChunkSize := 1024
  saveChunkSize := 1024
  clipboardFile := clipboardIn temporary
  lineEnding := .lf
  keybindings := []

/-- For each slot whether it is present. -/
def slotLayout (c : Config) : List Bool :=
  (List.range c.segmentCount).map fun slot => !c.missingSlots.contains slot

/-- The settings of file transfer. -/
def transfer (c : Config) : TransferSettings where
  tabWidth := c.tabWidth
  readChunk := c.loadChunkSize
  writeChunk := c.saveChunkSize
  lineEnding := c.lineEnding

/-- What a session is made of. -/
def sessionOptions (c : Config) : SessionOptions where
  capacity := c.segmentCapacity
  present := c.slotLayout
  preferredRow := c.preferredRow
  clipboardFile := c.clipboardFile
  transfer := c.transfer

/-- The first thing that is wrong with the options, if anything is. -/
def complaint? (c : Config) : Option String :=
  if c.tabWidth = 0 then some "tab_width must be greater than 0"
  else if c.loadChunkSize = 0 ∨ c.saveChunkSize = 0 then
    some "chunk sizes must be greater than 0"
  else if c.segmentCapacity ≤ c.loadChunkSize then
    some "segment_capacity must exceed load_chunk_size"
  else if Nat.pow 2 32 ≤ c.segmentCapacity then some "segment_capacity must fit in 32 bits"
  else if c.segmentCount = 0 ∨ maxSlots < c.segmentCount then
    some ("segment_count must be between 1 and " ++ toString maxSlots)
  else if c.slotLayout.all (!·) then some "at least one segment slot must be present"
  else if c.clipboardFile.isEmpty then some "clipboard_file cannot be empty"
  else
    c.keybindings.findSome? fun b =>
      if b.key.isEmpty then some "keybinding key cannot be empty"
      else if b.action.isEmpty then some "keybinding action cannot be empty"
      else none

/-- The options, if they are acceptable. -/
def validate (c : Config) : Except ConfigError Config :=
  match c.complaint? with
  | some complaint => .error (.invalid complaint)
  | none => .ok c

end Config
end ScreenEditor
