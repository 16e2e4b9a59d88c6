import ScreenEditor.Named
import ScreenEditor.Storage.Basic

/-!
# Files in memory

A storage that keeps its files in a value.  It can be told to fail after a number of reads or
writes, and to accept only so many bytes at a time.
-/

namespace ScreenEditor

/-- Files by name, and how many operations still succeed where that is limited. -/
structure Memory where
  files : Named FileBytes
  readsLeft : Option Nat
  writesLeft : Option Nat
  writeLimit : Option Nat

namespace Memory

/-- No files and no limits. -/
def empty : Memory := ⟨[], none, none, none⟩

instance : Inhabited Memory := ⟨empty⟩

/-- The bytes of a file; a missing file has none. -/
def bytesOf (m : Memory) (name : String) : FileBytes := (m.files.find? name).getD #[]

/-- Put a file, instead of one that has the name already. -/
def putFile (m : Memory) (name : String) (bytes : List UInt8) : Memory :=
  { m with files := m.files.insert name bytes.toArray }

/-- The bytes of a file, if it exists. -/
def file? (m : Memory) (name : String) : Option (List UInt8) :=
  (m.files.find? name).map Array.toList

/-- One operation less of a limited number; none when no operation is left. -/
def spend? : Option Nat → Option (Option Nat)
  | none => some none
  | some 0 => none
  | some (n + 1) => some (some n)

/-- Open a stream. -/
def openStream (m : Memory) (name : String) (mode : OpenMode) :
    Except FileFault (Stream × Memory) :=
  match mode, m.files.find? name with
  | .read, none => .error .notFound
  | .read, some _ => .ok (⟨name, mode, 0⟩, m)
  | .write, _ => .ok (⟨name, mode, 0⟩, { m with files := m.files.insert name #[] })
  | .append, none => .ok (⟨name, mode, 0⟩, { m with files := m.files.insert name #[] })
  | .append, some bytes => .ok (⟨name, mode, bytes.size⟩, m)

/-- Read up to `count` bytes. -/
def read (m : Memory) (stream : Stream) (count : Nat) :
    Except FileFault (List UInt8 × Stream × Memory) :=
  match spend? m.readsLeft with
  | none => .error .injected
  | some left =>
    let bytes := (m.bytesOf stream.name).readAt stream.position count
    .ok (bytes, stream.advance bytes.length, { m with readsLeft := left })

/-- Write bytes where the stream stands, as many as are accepted at a time. -/
def write (m : Memory) (stream : Stream) (bytes : List UInt8) :
    Except FileFault (Nat × Stream × Memory) :=
  match spend? m.writesLeft with
  | none => .error .injected
  | some left =>
    let accepted := match m.writeLimit with
      | none => bytes
      | some limit => bytes.take limit
    let file := (m.bytesOf stream.name).writeAt stream.position accepted
    .ok (accepted.length, stream.advance accepted.length,
      { m with files := m.files.insert stream.name file, writesLeft := left })

/-- How many bytes lie behind the place where a stream stands. -/
def unread (m : Memory) (stream : Stream) : Nat :=
  (m.bytesOf stream.name).size - stream.position

/-- A read that gives bytes leaves fewer to be read. -/
theorem unread_lt {m : Memory} {stream : Stream} {count : Nat} {bytes : List UInt8}
    {stream' : Stream} {m' : Memory}
    (h : m.read stream count = .ok (bytes, stream', m')) (ne : bytes ≠ []) :
    m'.unread stream' < m.unread stream := by
  unfold read at h
  split at h
  · simp at h
  · simp only [Except.ok.injEq, Prod.mk.injEq] at h
    obtain ⟨rfl, rfl, rfl⟩ := h
    have := List.length_pos_iff.mpr ne
    have := FileBytes.length_readAt_le (m.bytesOf stream.name) stream.position count
    simp only [unread, bytesOf, Stream.advance] at *
    omega

instance : Storage Memory where
  openStream := openStream
  read := read
  write := write
  seek _ stream offset := .ok (stream.atOffset offset)
  close m _ := .ok m
  contains m name := (m.files.find? name).isSome
  unread := unread
  unread_lt := unread_lt

end Memory
end ScreenEditor
