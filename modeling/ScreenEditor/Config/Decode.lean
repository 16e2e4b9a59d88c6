import ScreenEditor.Config.Basic

/-!
# Reading a configuration

The options are read from a JSON object whose members are named for them, or from an array that has
them in order.  An option that is left out has its default; one that is given twice is an error, and
members with other names are passed over unread.
-/

namespace ScreenEditor.Config

open Json

/-- The values of fields, by position. -/
abbrev Fields := List (Option Tree)

/-- The fields given by members: none when one is given twice or a name is no text. -/
def fieldsOfMembers? (names : List String) (fields : Fields) :
    List (List Piece × Tree) → Option Fields
  | [] => some fields
  | (name, value) :: rest =>
    match text? name with
    | none => none
    | some name =>
      match names.idxOf? name with
      | none => fieldsOfMembers? names fields rest
      | some i =>
        if (fields.getD i none).isSome then none
        else fieldsOfMembers? names (fields.set i (some value)) rest

/-- The fields of a record with the given field names. -/
def fields? (names : List String) : Tree → Option Fields
  | .object members => fieldsOfMembers? names (names.map fun _ => none) members
  | .array items =>
    if items.length ≤ names.length then
      some (items.map some ++ List.replicate (names.length - items.length) none)
    else none
  | _ => none

/-- A field that must be given. -/
def required {α : Type} (read : Tree → Option α) (fields : Fields) (i : Nat) : Option α :=
  (fields.getD i none).bind read

/-- A field that has a default. -/
def optional {α : Type} (default : α) (read : Tree → Option α) (fields : Fields) (i : Nat) :
    Option α :=
  match fields.getD i none with
  | none => some default
  | some t => read t

/-- A whole number from 0 to 2^64 - 1. -/
def readNat? : Tree → Option Nat
  | .number n => n.toNat?
  | _ => none

/-- A string. -/
def readString? : Tree → Option String
  | .string pieces => text? pieces
  | _ => none

/-- An array. -/
def readArray? {α : Type} (read : Tree → Option α) : Tree → Option (List α)
  | .array items => items.mapM read
  | _ => none

/-- A line ending: its name, or an object whose one member has that name and the value null. -/
def readLineEnding? : Tree → Option LineEnding
  | .string pieces => (text? pieces).bind LineEnding.ofName?
  | .object [(name, .null)] => (text? name).bind LineEnding.ofName?
  | _ => none

/-- How deep containers may nest in a configuration. -/
def maxDepth : Nat := 127

/-- The depth at which the arguments of a binding stand. -/
def argsDepth : Nat := 4

/-- Arguments of an action. -/
def readArgs? : Tree → Option (Named Value)
  | .object members =>
    (membersToValues? (maxDepth - argsDepth) members).map Named.ofList
  | _ => none

/-- A key binding. -/
def readBinding? (t : Tree) : Option Binding := do
  let fields ← fields? ["key", "modifiers", "action", "args"] t
  let key ← required readString? fields 0
  let modifiers ← optional [] (readArray? readString?) fields 1
  let action ← required readString? fields 2
  let args ← optional [] readArgs? fields 3
  return ⟨key, modifiers, action, args⟩

/-- The names of the options, in order. -/
def optionNames : List String :=
  ["segment_capacity", "segment_count", "missing_slots", "preferred_row", "tab_width",
    "load_chunk_size", "save_chunk_size", "clipboard_file", "line_ending", "keybindings"]

/-- The options that a tree spells; `standard` has the defaults. -/
def ofTree? (standard : Config) (t : Tree) : Option Config := do
  let fields ← fields? optionNames t
  let segmentCapacity ← optional standard.segmentCapacity readNat? fields 0
  let segmentCount ← optional standard.segmentCount readNat? fields 1
  let missingSlots ← optional standard.missingSlots (readArray? readNat?) fields 2
  let preferredRow ← optional standard.preferredRow readNat? fields 3
  let tabWidth ← optional standard.tabWidth readNat? fields 4
  let loadChunkSize ← optional standard.loadChunkSize readNat? fields 5
  let saveChunkSize ← optional standard.saveChunkSize readNat? fields 6
  let clipboardFile ← optional standard.clipboardFile readString? fields 7
  let lineEnding ← optional standard.lineEnding readLineEnding? fields 8
  let keybindings ← optional standard.keybindings (readArray? readBinding?) fields 9
  return ⟨segmentCapacity, segmentCount, missingSlots, preferredRow, tabWidth, loadChunkSize,
    saveChunkSize, clipboardFile, lineEnding, keybindings⟩

/-- The acceptable options that the bytes of a file spell; none are the bytes of a missing file. -/
def load (standard : Config) (bytes : Option (List UInt8)) : Except ConfigError Config :=
  match bytes.bind Utf8.decode? with
  | none => .error .unreadable
  | some text =>
    match (Tree.parse? text).bind (ofTree? standard) with
    | none => .error .malformed
    | some config => config.validate

/-- The options that the bytes of a file spell, or the standard ones when they spell no acceptable
options. -/
def loadOrStandard (standard : Config) (bytes : Option (List UInt8)) : Config :=
  match load standard bytes with
  | .ok config => config
  | .error _ => standard

end ScreenEditor.Config
