import ScreenEditor.Document

/-!
# Control blocks

A document that is not on screen keeps its header and its gap in a block of 76 bytes:

    name length | name (64) | modified | overwrite question | part | gap begin (4) | gap end (4)

Positions are little-endian words of 32 bits.  A longer name is cut at byte 64 and a larger position
is kept modulo 2^32; reading takes the name as UTF-8 with replacement characters.
-/

namespace ScreenEditor

/-- A header together with a gap. -/
structure ControlBlock where
  header : Header
  gapBegin : Nat
  gapEnd : Nat
  deriving DecidableEq, Repr

namespace ControlBlock

/-- Number of bytes of an encoded block. -/
def size : Nat := 1 + maxNameBytes + 1 + 1 + 1 + 4 + 4

/-- A flag as a byte. -/
def flagByte (b : Bool) : UInt8 := if b then 1 else 0

/-- The low 32 bits of a number, lowest byte first. -/
def wordBytes (n : Nat) : List UInt8 :=
  [n, n / 0x100, n / 0x10000, n / 0x1000000].map UInt8.ofNat

/-- The number that four bytes, lowest first, stand for. -/
def wordOfBytes (bytes : List UInt8) : Nat :=
  bytes.foldr (fun b n => b.toNat + 0x100 * n) 0

/-- A block as bytes. -/
def encode (block : ControlBlock) : List UInt8 :=
  let name := (Utf8.encode block.header.name).take maxNameBytes
  UInt8.ofNat name.length :: (name ++ List.replicate (maxNameBytes - name.length) 0)
    ++ [flagByte block.header.modified, flagByte block.header.awaitsOverwrite, block.header.part]
    ++ wordBytes block.gapBegin ++ wordBytes block.gapEnd

/-- The block that bytes stand for; missing bytes count as zero. -/
def decode (bytes : List UInt8) : ControlBlock :=
  let byte (i : Nat) : UInt8 := bytes.getD i 0
  let field (start count : Nat) : List UInt8 := (List.range' start count).map byte
  let flags := 1 + maxNameBytes
  { header :=
      { name := Utf8.decodeLossy (field 1 (min (byte 0).toNat maxNameBytes))
        modified := byte flags != 0
        awaitsOverwrite := byte (flags + 1) != 0
        part := byte (flags + 2) }
    gapBegin := wordOfBytes (field (flags + 3) 4)
    gapEnd := wordOfBytes (field (flags + 7) 4) }

/-- The block of an unused segment of the given capacity. -/
def unused (capacity : Nat) : ControlBlock := ⟨Header.blank, 0, capacity⟩

end ControlBlock
end ScreenEditor
