import ScreenEditor.Config.Basic
import ScreenEditor.Keys.Action
import ScreenEditor.Keys.Key
import ScreenEditor.Text.LowerCase

/-!
# Keymaps

Which action a key press has.  A keymap lists key presses with their actions, and the first entry
for a press counts.  The user's bindings stand before the standard ones, later ones before earlier
ones.  A character that is bound to nothing types itself, unless keys other than shift are held.
-/

namespace ScreenEditor

/-- Key presses with their actions. -/
abbrev Keymap := List (KeyPress × Action)

namespace Keymap

/-- The keys with names, in lower case. -/
def namedKeys : List (String × KeyCode) := [
  ("enter", .enter), ("backspace", .backspace), ("delete", .delete), ("del", .delete),
  ("tab", .tab), ("esc", .escape), ("escape", .escape), ("space", .char ' '),
  ("left", .left), ("right", .right), ("up", .up), ("down", .down), ("home", .home),
  ("end", .endKey), ("pageup", .pageUp), ("pagedown", .pageDown)]

/-- The number that decimal digits spell, if it is at most 255.  A plus sign may precede them. -/
def byteNumber? (chars : List Char) : Option Nat :=
  let digits := if chars.head? = some '+' then chars.drop 1 else chars
  if digits = [] ∨ !digits.all Char.isDigit then none
  else
    let n := digits.foldl (fun n c => n * 10 + (c.toNat - '0'.toNat)) 0
    if n ≤ 255 then some n else none

/-- The key with a name, in any case: a named key, an f with the number of a function key, or a
single character, which stands for itself in lower case. -/
def keyOfName? (name : String) : Option KeyCode :=
  let lower := lowerCase name
  match namedKeys.find? (·.1 == lower) with
  | some (_, code) => some code
  | none =>
    match lower.toList with
    | [c] => some (.char c)
    | 'f' :: rest => (byteNumber? rest).map .function
    | _ => none

/-- Hold one more key, named in any case; other names add nothing. -/
def addModifier (m : Modifiers) (name : String) : Modifiers :=
  let lower := lowerCase name
  if lower = "ctrl" ∨ lower = "control" then { m with control := true }
  else if lower = "shift" then { m with shift := true }
  else if lower = "alt" then { m with alt := true }
  else m

/-- The keys held, by name. -/
def modifiersOfNames (names : List String) : Modifiers := names.foldl addModifier Modifiers.none

/-- The entry of a binding; none when its key or its action is unknown. -/
def entry? (b : Binding) : Option (KeyPress × Action) :=
  (keyOfName? b.key).bind fun code =>
    (Action.ofName? b.action b.args).map fun action =>
      (⟨code, (modifiersOfNames b.modifiers).alone⟩, action)

/-- The actions that keys have of themselves. -/
def standard : Keymap :=
  let key (code : KeyCode) (action : Action) : KeyPress × Action := (⟨code, .none⟩, action)
  let ctrl (code : KeyCode) (action : Action) : KeyPress × Action := (⟨code, .ctrl⟩, action)
  let alt (c : Char) (action : Action) : KeyPress × Action := (⟨.char c, .altOnly⟩, action)
  [ key .left .moveLeft, key .right .moveRight, key .up .moveUp, key .down .moveDown,
    key .home .moveLineStart, key .endKey .moveLineEnd,
    ctrl .home .moveDocumentStart, ctrl .endKey .moveDocumentEnd,
    key .pageUp .movePageUp, key .pageDown .movePageDown,
    key .backspace .deleteBackward, key .delete .deleteForward,
    key .enter .insertNewline, key .tab .insertTab,
    ctrl (.char 'b') .toggleSelection, ctrl (.char 'c') .copy, ctrl (.char 'x') .cut,
    ctrl (.char 'v') .paste,
    ctrl (.char 'f') .find, key (.function 3) .findNext, ctrl (.char 'r') .replace,
    alt 'r' .queryReplace,
    ctrl (.char 's') .save, alt 's' .saveAs, ctrl (.char 'w') .saveSelection,
    ctrl (.char 'o') .openFile, alt 'i' .insertFile, ctrl (.char 'q') .quit,
    alt ']' .nextDocument, alt '[' .previousDocument, ctrl (.char 'l') .listDocuments,
    key .escape .cancel ]

/-- The keymap of a list of bindings. -/
def ofBindings (bindings : List Binding) : Keymap :=
  (bindings.filterMap entry?).reverse ++ standard

/-- The action of a key press, if it has one. -/
def resolve (m : Keymap) (press : KeyPress) : Option Action :=
  match m.find? (·.1 == press) with
  | some (_, action) => some action
  | none =>
    match press.code with
    | .char c => if press.modifiers.typesText then some (.insertChar c) else none
    | _ => none

end Keymap
end ScreenEditor
