import ScreenEditor.Error

/-!
# Storage

The editor reaches files through streams: open one by name, move bytes in chunks, seek, close.  A
storage is a value; each operation gives the storage as it is afterwards, and one that fails leaves
it as it was.

Reading makes progress: whenever a read gives bytes, less is left to read than before.  This is what
makes reading a whole file end.
-/

namespace ScreenEditor

/-- What a stream is opened for.  Writing begins with an empty file, appending with the file as it
is; both create a file that is missing. -/
inductive OpenMode where
  | read
  | write
  | append
  deriving DecidableEq, Repr

/-- An open stream: its file, what it was opened for, and the offset it stands at. -/
structure Stream where
  name : String
  mode : OpenMode
  position : Nat
  deriving DecidableEq, Repr

/-- The stream at an offset of its file. -/
def Stream.atOffset (s : Stream) (offset : Nat) : Stream := { s with position := offset }

/-- Stand so many bytes further on. -/
def Stream.advance (s : Stream) (count : Nat) : Stream :=
  { s with position := s.position + count }

/-- A collection of files that can be read and written through streams. -/
class Storage (σ : Type) where
  openStream : σ → String → OpenMode → Except FileFault (Stream × σ)
  read : σ → Stream → Nat → Except FileFault (List UInt8 × Stream × σ)
  write : σ → Stream → List UInt8 → Except FileFault (Nat × Stream × σ)
  seek : σ → Stream → Nat → Except FileFault Stream
  close : σ → Stream → Except FileFault σ
  contains : σ → String → Bool
  unread : σ → Stream → Nat
  unread_lt : ∀ {store : σ} {stream : Stream} {count : Nat} {bytes : List UInt8}
    {stream' : Stream} {store' : σ},
    read store stream count = .ok (bytes, stream', store') → bytes ≠ [] →
      unread store' stream' < unread store stream

/-- The bytes of a file. -/
abbrev FileBytes := Array UInt8

namespace FileBytes

/-- Up to `count` bytes from an offset on. -/
def readAt (file : FileBytes) (offset count : Nat) : List UInt8 :=
  (file.extract offset (offset + count)).toList

/-- The file with bytes written at an offset; a gap before the offset is filled with zeros. -/
def writeAt (file : FileBytes) (offset : Nat) (bytes : List UInt8) : FileBytes :=
  file.extract 0 offset ++ Array.replicate (offset - file.size) 0 ++ bytes.toArray
    ++ file.extract (offset + bytes.length) file.size

/-- Reading gives at most the bytes behind the offset. -/
theorem length_readAt_le (file : FileBytes) (offset count : Nat) :
    (file.readAt offset count).length ≤ file.size - offset := by
  simp only [readAt, Array.length_toList, Array.size_extract]
  omega

end FileBytes
end ScreenEditor
