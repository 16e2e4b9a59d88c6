import ScreenEditor.Json.Token

/-!
# JSON trees

The structure of a JSON text, with numbers and strings as written and with every member of an object
in its place, repeated names included.  A tree is built from tokens by a machine with a stack of
open arrays and objects, so that reading is again a fold, and nesting costs stack entries only.
-/

namespace ScreenEditor.Json

/-- A JSON text's structure. -/
inductive Tree where
  | null
  | bool (b : Bool)
  | number (n : Numeral)
  | string (pieces : List Piece)
  | array (items : List Tree)
  | object (members : List (List Piece × Tree))

namespace Tree

/-- An array or object that is still open around the value being read.  Lists are last first. -/
inductive Frame where
  | array (items : List Tree)
  | object (members : List (List Piece × Tree)) (name : List Piece)

/-- What may come next.  The innermost container is named where it is between its entries; the
containers around it are on the stack. -/
inductive Builder where
  | value (stack : List Frame)
  | firstItem (stack : List Frame)
  | afterItem (items : List Tree) (stack : List Frame)
  | firstName (stack : List Frame)
  | nextName (members : List (List Piece × Tree)) (stack : List Frame)
  | colon (members : List (List Piece × Tree)) (name : List Piece) (stack : List Frame)
  | afterMember (members : List (List Piece × Tree)) (stack : List Frame)
  | finished (tree : Tree)

namespace Builder

/-- Hand a finished value to the innermost open container. -/
def give (t : Tree) : List Frame → Builder
  | [] => .finished t
  | .array items :: stack => .afterItem (t :: items) stack
  | .object members name :: stack => .afterMember ((name, t) :: members) stack

/-- Begin a value. -/
def begin (stack : List Frame) : Token → Option Builder
  | .null => some (give .null stack)
  | .bool b => some (give (.bool b) stack)
  | .number n => some (give (.number n) stack)
  | .string pieces => some (give (.string pieces) stack)
  | .openArray => some (.firstItem stack)
  | .openObject => some (.firstName stack)
  | _ => none

/-- Read one token; none when no JSON text goes on this way. -/
def step : Builder → Token → Option Builder
  | .value stack, t => begin stack t
  | .firstItem stack, .closeArray => some (give (.array []) stack)
  | .firstItem stack, t => begin (.array [] :: stack) t
  | .afterItem items stack, .comma => some (.value (.array items :: stack))
  | .afterItem items stack, .closeArray => some (give (.array items.reverse) stack)
  | .firstName stack, .closeObject => some (give (.object []) stack)
  | .firstName stack, .string name => some (.colon [] name stack)
  | .nextName members stack, .string name => some (.colon members name stack)
  | .colon members name stack, .colon => some (.value (.object members name :: stack))
  | .afterMember members stack, .comma => some (.nextName members stack)
  | .afterMember members stack, .closeObject => some (give (.object members.reverse) stack)
  | _, _ => none

/-- The tree once the tokens are over. -/
def finish : Builder → Option Tree
  | .finished t => some t
  | _ => none

end Builder

/-- The tree that tokens spell. -/
def ofTokens? (tokens : List Token) : Option Tree :=
  (tokens.foldlM Builder.step (.value [])).bind Builder.finish

/-- The tree that a text spells. -/
def parse? (text : String) : Option Tree := (Token.ofChars? text.toList).bind ofTokens?

end Tree

/-- Whether a code unit is the first half of a surrogate pair. -/
def isHighSurrogate (code : Nat) : Bool := 0xD800 ≤ code && code < 0xDC00

/-- Whether a code unit is the second half of a surrogate pair. -/
def isLowSurrogate (code : Nat) : Bool := 0xDC00 ≤ code && code < 0xE000

/-- The characters that a string's pieces stand for; none when a surrogate stands alone. -/
def decodePieces? : List Piece → Option (List Char)
  | [] => some []
  | .char c :: rest => (decodePieces? rest).map (c :: ·)
  | .unit high :: .unit low :: rest =>
    if isHighSurrogate high then
      if isLowSurrogate low then
        (decodePieces? rest).map
          (Char.ofNat (0x10000 + (high - 0xD800) * 0x400 + (low - 0xDC00)) :: ·)
      else none
    else if isLowSurrogate high then none
    else (decodePieces? (.unit low :: rest)).map (Char.ofNat high :: ·)
  | .unit code :: rest =>
    if isHighSurrogate code || isLowSurrogate code then none
    else (decodePieces? rest).map (Char.ofNat code :: ·)

/-- The text that a string's pieces stand for. -/
def text? (pieces : List Piece) : Option String := (decodePieces? pieces).map String.ofList

end ScreenEditor.Json
