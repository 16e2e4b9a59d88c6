import ScreenEditor.Config.Decode
import ScreenEditor.Json.Printer

/-!
# Writing a configuration

The options as a JSON object, each with its name, in a fixed order.  The modifiers and arguments
of a binding are left out when there are none.
-/

namespace ScreenEditor.Config

open Json

/-- A whole number. -/
def natValue (n : Nat) : Value := .number (.int n)

/-- A key binding as an object. -/
def bindingValue (b : Binding) : Value :=
  .object ([("key", .string b.key)]
    ++ (if b.modifiers = [] then [] else [("modifiers", .array (b.modifiers.map .string))])
    ++ [("action", .string b.action)]
    ++ (if b.args.isEmpty then [] else [("args", .object b.args)]))

/-- The options as an object. -/
def toValue (c : Config) : Value :=
  .object (optionNames.zip
    [natValue c.segmentCapacity, natValue c.segmentCount, .array (c.missingSlots.map natValue),
      natValue c.preferredRow, natValue c.tabWidth, natValue c.loadChunkSize,
      natValue c.saveChunkSize, .string c.clipboardFile, .string c.lineEnding.name,
      .array (c.keybindings.map bindingValue)])

/-- The options as the text of a file. -/
def toText (c : Config) : String := c.toValue.pretty

end ScreenEditor.Config
