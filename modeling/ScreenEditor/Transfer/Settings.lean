import ScreenEditor.Gap.Basic

/-!
# Settings of file transfer

What is written at the end of a line, how wide a tab is, and how many bytes are moved at a time.
-/

namespace ScreenEditor

/-- A horizontal tab. -/
def tabByte : UInt8 := 9

/-- A blank.  Tabs of a file become blanks. -/
def blankByte : UInt8 := 32

/-- What is written for a line terminator. -/
inductive LineEnding where
  | lf
  | crlf
  | cr
  deriving DecidableEq, Repr

namespace LineEnding

/-- A carriage return. -/
def carriageReturn : UInt8 := 13

/-- The bytes of a line ending. -/
def bytes : LineEnding → List UInt8
  | lf => [lineFeed]
  | crlf => [carriageReturn, lineFeed]
  | cr => [carriageReturn]

/-- The name of a line ending. -/
def name : LineEnding → String
  | lf => "LF"
  | crlf => "CRLF"
  | cr => "CR"

/-- The line ending with a name. -/
def ofName? (s : String) : Option LineEnding := [lf, crlf, cr].find? fun e => e.name == s

/-- Text with its terminators written as this line ending. -/
def convert (e : LineEnding) (text : List UInt8) : List UInt8 :=
  text.flatMap fun b => if b = lineFeed then e.bytes else [b]

end LineEnding

/-- The settings of file transfer.  A read chunk is also how much room a segment must keep free
before the next segment is begun. -/
structure TransferSettings where
  tabWidth : Nat
  readChunk : Nat
  writeChunk : Nat
  lineEnding : LineEnding
  deriving DecidableEq, Repr

end ScreenEditor
