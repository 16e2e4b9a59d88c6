/-!
# JSON tokens

The lexical grammar of JSON as a machine that reads one character at a time, so that reading a text
is a fold over its characters.  Strings are kept as written, piece by piece: an escaped code unit
need not be a character on its own.  Numbers are kept digit by digit: what value they have is for
the reader of the number to say.
-/

namespace ScreenEditor.Json

/-- One piece of a string as written: a character, or a code unit given by four hex digits. -/
inductive Piece where
  | char (c : Char)
  | unit (code : Nat)
  deriving DecidableEq, Repr

/-- A number as written.  Digits are values below ten; an absent fraction or exponent is empty. -/
structure Numeral where
  negative : Bool := false
  whole : List Nat := []
  fraction : List Nat := []
  exponentNegative : Bool := false
  exponent : List Nat := []
  deriving DecidableEq, Repr

/-- The tokens of JSON. -/
inductive Token where
  | openArray
  | closeArray
  | openObject
  | closeObject
  | comma
  | colon
  | null
  | bool (b : Bool)
  | number (n : Numeral)
  | string (pieces : List Piece)
  deriving DecidableEq, Repr

namespace Token

/-- Where the machine stands inside a number. -/
inductive NumberStage where
  | sign
  | zero
  | whole
  | point
  | fraction
  | exponentMark
  | exponentSign
  | exponent
  deriving DecidableEq, Repr

/-- Whether a number may end at this stage. -/
def NumberStage.accepts : NumberStage → Bool
  | .zero | .whole | .fraction | .exponent => true
  | _ => false

/-- What the machine is in the middle of.  Lists are last first. -/
inductive Mode where
  | between
  | word (letters : List Char)
  | text (pieces : List Piece)
  | escape (pieces : List Piece)
  | hex (pieces : List Piece) (digits : Nat) (code : Nat)
  | number (stage : NumberStage) (numeral : Numeral)
  deriving Repr

/-- The machine: tokens read so far, last first, and what is being read. -/
structure Lexer where
  tokens : List Token := []
  mode : Mode := .between
  deriving Repr

/-- The value of a decimal digit. -/
def digit? (c : Char) : Option Nat :=
  if c.isDigit then some (c.toNat - '0'.toNat) else none

/-- The value of a hexadecimal digit. -/
def hexDigit? (c : Char) : Option Nat :=
  if c.isDigit then some (c.toNat - '0'.toNat)
  else if 'a' ≤ c ∧ c ≤ 'f' then some (c.toNat - 'a'.toNat + 10)
  else if 'A' ≤ c ∧ c ≤ 'F' then some (c.toNat - 'A'.toNat + 10)
  else none

/-- The four blanks of JSON. -/
def isBlank (c : Char) : Bool := c == ' ' || c == '\t' || c == '\n' || c == '\r'

/-- The token that a bare word stands for. -/
def ofWord? (letters : List Char) : Option Token :=
  match String.ofList letters with
  | "null" => some .null
  | "true" => some (.bool true)
  | "false" => some (.bool false)
  | _ => none

/-- The character that a one-letter escape stands for. -/
def ofEscape? : Char → Option Char
  | '\"' => some '\"'
  | '\\' => some '\\'
  | '/' => some '/'
  | 'b' => some '\x08'
  | 'f' => some '\x0c'
  | 'n' => some '\n'
  | 'r' => some '\r'
  | 't' => some '\t'
  | _ => none

/-- A finished number, its digits in order. -/
def ofNumeral (n : Numeral) : Token :=
  .number { n with
    whole := n.whole.reverse, fraction := n.fraction.reverse, exponent := n.exponent.reverse }

namespace Lexer

/-- Add a token and stand between tokens. -/
def push (l : Lexer) (t : Token) : Lexer := ⟨t :: l.tokens, .between⟩

/-- Read a character between tokens. -/
def stepBetween (l : Lexer) (c : Char) : Option Lexer :=
  if isBlank c then some l
  else match c with
    | '[' => some (l.push .openArray)
    | ']' => some (l.push .closeArray)
    | '{' => some (l.push .openObject)
    | '}' => some (l.push .closeObject)
    | ',' => some (l.push .comma)
    | ':' => some (l.push .colon)
    | '\"' => some { l with mode := .text [] }
    | '-' => some { l with mode := .number .sign { negative := true } }
    | '0' => some { l with mode := .number .zero { whole := [0] } }
    | _ =>
      match digit? c with
      | some d => some { l with mode := .number .whole { whole := [d] } }
      | none => if c.isLower then some { l with mode := .word [c] } else none

/-- The stage and numeral after one more character of a number, if it is one. -/
def stepNumber? (stage : NumberStage) (n : Numeral) (c : Char) : Option (NumberStage × Numeral) :=
  let mark : Option (NumberStage × Numeral) :=
    if c = 'e' ∨ c = 'E' then some (.exponentMark, n) else none
  match stage, digit? c with
  | .sign, some d => some (if d = 0 then .zero else .whole, { n with whole := [d] })
  | .sign, none => none
  | .zero, some _ => none
  | .zero, none => if c = '.' then some (.point, n) else mark
  | .whole, some d => some (.whole, { n with whole := d :: n.whole })
  | .whole, none => if c = '.' then some (.point, n) else mark
  | .point, some d => some (.fraction, { n with fraction := [d] })
  | .point, none => none
  | .fraction, some d => some (.fraction, { n with fraction := d :: n.fraction })
  | .fraction, none => mark
  | .exponentMark, some d => some (.exponent, { n with exponent := [d] })
  | .exponentMark, none =>
    if c = '+' then some (.exponentSign, n)
    else if c = '-' then some (.exponentSign, { n with exponentNegative := true })
    else none
  | .exponentSign, some d => some (.exponent, { n with exponent := [d] })
  | .exponentSign, none => none
  | .exponent, some d => some (.exponent, { n with exponent := d :: n.exponent })
  | .exponent, none => none

/-- Whether a character may follow a number that ends before it. -/
def endsNumber (stage : NumberStage) (c : Char) : Bool := stage.accepts && !c.isDigit

/-- Read one character; none when no JSON text goes on this way. -/
def step (l : Lexer) (c : Char) : Option Lexer :=
  match l.mode with
  | .between => l.stepBetween c
  | .word letters =>
    if c.isLower then some { l with mode := .word (c :: letters) }
    else (ofWord? letters.reverse).bind fun t => (l.push t).stepBetween c
  | .text pieces =>
    if c = '\"' then some (l.push (.string pieces.reverse))
    else if c = '\\' then some { l with mode := .escape pieces }
    else if c.toNat < 0x20 then none
    else some { l with mode := .text (.char c :: pieces) }
  | .escape pieces =>
    if c = 'u' then some { l with mode := .hex pieces 4 0 }
    else (ofEscape? c).map fun e => { l with mode := .text (.char e :: pieces) }
  | .hex pieces digits code =>
    (hexDigit? c).map fun d =>
      let code := code * 16 + d
      if digits ≤ 1 then { l with mode := .text (.unit code :: pieces) }
      else { l with mode := .hex pieces (digits - 1) code }
  | .number stage n =>
    match stepNumber? stage n c with
    | some (stage, n) => some { l with mode := .number stage n }
    | none => if endsNumber stage c then (l.push (ofNumeral n)).stepBetween c else none

/-- The tokens once the text is over; none in the middle of one. -/
def finish (l : Lexer) : Option (List Token) :=
  match l.mode with
  | .between => some l.tokens.reverse
  | .word letters => (ofWord? letters.reverse).map fun t => (t :: l.tokens).reverse
  | .number stage n =>
    if stage.accepts then some (ofNumeral n :: l.tokens).reverse else none
  | _ => none

end Lexer

/-- The tokens of a text. -/
def ofChars? (chars : List Char) : Option (List Token) :=
  (chars.foldlM Lexer.step {}).bind Lexer.finish

end Token
end ScreenEditor.Json
