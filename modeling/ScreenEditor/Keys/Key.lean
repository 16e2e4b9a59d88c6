/-!
# Keys

What a keyboard reports: a key, and which others are held with it.  A binding can ask for control,
shift and alt; some terminals also report super, hyper and meta.
-/

namespace ScreenEditor

/-- A key.  Keys that no binding can name are told apart by their names only. -/
inductive KeyCode where
  | char (c : Char)
  | function (n : Nat)
  | enter
  | backspace
  | delete
  | tab
  | escape
  | left
  | right
  | up
  | down
  | home
  | endKey
  | pageUp
  | pageDown
  | other (name : String)
  deriving DecidableEq, Repr

/-- The keys that a binding can ask to be held. -/
structure Modifiers where
  control : Bool
  shift : Bool
  alt : Bool
  deriving DecidableEq, Repr

/-- All keys held while another is pressed. -/
structure Held extends Modifiers where
  superKey : Bool
  hyperKey : Bool
  metaKey : Bool
  deriving DecidableEq, Repr

namespace Modifiers

/-- No key is held. -/
def none : Modifiers := ⟨false, false, false⟩

/-- These keys are held and no further ones. -/
def alone (m : Modifiers) : Held := ⟨m, false, false, false⟩

end Modifiers

instance : Coe Modifiers Held := ⟨Modifiers.alone⟩

namespace Held

/-- No key is held. -/
def none : Held := Modifiers.none.alone

/-- Control alone is held. -/
def ctrl : Held := { none with control := true }

/-- Shift alone is held. -/
def shifted : Held := { none with shift := true }

/-- Alt alone is held. -/
def altOnly : Held := { none with alt := true }

/-- Whether at most shift is held, so that a character is typed. -/
def typesText (h : Held) : Bool := h = none || h = shifted

end Held

/-- A key pressed together with others. -/
structure KeyPress where
  code : KeyCode
  modifiers : Held
  deriving DecidableEq, Repr

end ScreenEditor
