import ScreenEditor.Named
import ScreenEditor.Storage.Basic

/-!
# Files in a directory

A storage whose names are paths.  A file is an array of bytes; a write past its end fills the gap
with zeros, and a stream opened for appending always writes at the end.  Folders can be opened for
reading, but not read.

A path may lead out of the directory: the folders that contain it and the root are there, and
beside them nothing is until it is written.
-/

namespace ScreenEditor

/-- The files of a directory by path, and its folders.  When the directory is the base of all names,
the empty name stands for the directory itself. -/
structure Directory where
  files : Named FileBytes
  folders : List String
  isBase : Bool

namespace Directory

/-- A directory of files without folders. -/
def ofFiles (files : List (String × List UInt8)) : Directory :=
  ⟨Named.ofList (files.map fun f => (f.1, f.2.toArray)), [], false⟩

/-- What a path leads to.  A path that ends in a slash asks for a folder; where there is none, the
fault is what a reader is told, and a writer is refused as if there were one. -/
inductive Place where
  | file (path : String)
  | folder
  | absent (path : String)
  | noFolder (fault : FileFault)

/-- The longest name of one file, in bytes of UTF-8. -/
def maxFileName : Nat := 255

/-- The longest path, in bytes of UTF-8. -/
def maxPath : Nat := 4095

/-- The path with the given steps, last first.  An empty first step begins at the root. -/
def pathOf (steps : List String) : String := "/".intercalate steps.reverse

/-- The folder that contains the one at the given steps, last first.  The root contains itself. -/
def parentOf : List String → List String
  | [] => [".."]
  | ".." :: above => ".." :: ".." :: above
  | [""] => [""]
  | _ :: above => above

/-- Why a step leads to no folder: its name is too long, it is a file, or it is missing. -/
def faultAt (d : Directory) (step path : String) : FileFault :=
  if maxFileName < step.utf8ByteSize then .nameTooLong
  else if (d.files.find? path).isSome then .notADirectory
  else .notFound

/-- What the last step of a path leads to when it is no folder. -/
def lastPlace (d : Directory) (step path : String) : Except FileFault Place :=
  match d.faultAt step path with
  | .notADirectory => .ok (.file path)
  | .notFound => .ok (.absent path)
  | fault => .error fault

/-- Follow the steps of a path from the folder that the steps in `above` lead to, last first.  Every
step but the last must lead to a folder. -/
def follow (d : Directory) (above : List String) : List String → Except FileFault Place
  | [] => .ok .folder
  | step :: rest =>
    let path := pathOf (step :: above)
    if step = "" ∨ step = "." then follow d above rest
    else if step = ".." then follow d (parentOf above) rest
    else if d.folders.contains path then follow d (step :: above) rest
    else if rest = [] then d.lastPlace step path
    else if rest.all (· == "") then .ok (.noFolder (d.faultAt step path))
    else .error (d.faultAt step path)

/-- What a name leads to. -/
def resolve (d : Directory) (name : String) : Except FileFault Place :=
  if name.contains '\x00' then .error .invalidName
  else if maxPath < name.utf8ByteSize then .error .nameTooLong
  else if name = "" then if d.isBase then .ok .folder else .error .notFound
  else d.follow (if name.startsWith "/" then [""] else []) (name.splitOn "/")

/-- The bytes of a file; a missing file has none. -/
def bytesOf (d : Directory) (path : String) : FileBytes := (d.files.find? path).getD #[]

/-- Put a file, instead of one that has the path already. -/
def putFile (d : Directory) (path : String) (bytes : FileBytes) : Directory :=
  { d with files := d.files.insert path bytes }

/-- Open a stream. -/
def openStream (d : Directory) (name : String) (mode : OpenMode) :
    Except FileFault (Stream × Directory) :=
  match d.resolve name, mode with
  | .error fault, _ => .error fault
  | .ok .folder, .read => .ok (⟨"", mode, 0⟩, d)
  | .ok .folder, _ => .error .isDirectory
  | .ok (.noFolder fault), .read => .error fault
  | .ok (.noFolder _), _ => .error .isDirectory
  | .ok (.absent _), .read => .error .notFound
  | .ok (.absent path), _ => .ok (⟨path, mode, 0⟩, d.putFile path #[])
  | .ok (.file path), .write => .ok (⟨path, mode, 0⟩, d.putFile path #[])
  | .ok (.file path), _ => .ok (⟨path, mode, 0⟩, d)

/-- Read up to `count` bytes. -/
def read (d : Directory) (stream : Stream) (count : Nat) :
    Except FileFault (List UInt8 × Stream × Directory) :=
  if stream.mode ≠ .read then .error .notOpenForThat
  else if stream.name = "" then .error .isDirectory
  else
    let bytes := (d.bytesOf stream.name).readAt stream.position count
    .ok (bytes, stream.advance bytes.length, d)

/-- Write bytes where the stream stands, or at the end of the file when appending. -/
def write (d : Directory) (stream : Stream) (bytes : List UInt8) :
    Except FileFault (Nat × Stream × Directory) :=
  if stream.mode = .read then .error .notOpenForThat
  else if bytes = [] then .ok (0, stream, d)
  else
    let file := d.bytesOf stream.name
    let offset := if stream.mode = .append then file.size else stream.position
    .ok (bytes.length, stream.atOffset (offset + bytes.length),
      d.putFile stream.name (file.writeAt offset bytes))

/-- Offsets in a file stay below this. -/
def offsetBound : Nat := Nat.pow 2 63

/-- Stand at an offset of the file, which may lie past its end. -/
def seek (stream : Stream) (offset : Nat) : Except FileFault Stream :=
  if offset < offsetBound then .ok (stream.atOffset offset) else .error .invalidOffset

/-- Whether a name leads to a file or a folder. -/
def contains (d : Directory) (name : String) : Bool :=
  match d.resolve name with
  | .ok (.file _) | .ok .folder => true
  | _ => false

/-- The whole bytes of a file. -/
def contents (d : Directory) (name : String) : Except FileFault (List UInt8) :=
  match d.resolve name with
  | .error fault => .error fault
  | .ok .folder => .error .isDirectory
  | .ok (.absent _) => .error .notFound
  | .ok (.noFolder fault) => .error fault
  | .ok (.file path) => .ok (d.bytesOf path).toList

/-- How many bytes lie behind the place where a stream stands. -/
def unread (d : Directory) (stream : Stream) : Nat :=
  (d.bytesOf stream.name).size - stream.position

/-- A read that gives bytes leaves fewer to be read. -/
theorem unread_lt {d : Directory} {stream : Stream} {count : Nat} {bytes : List UInt8}
    {stream' : Stream} {d' : Directory}
    (h : d.read stream count = .ok (bytes, stream', d')) (ne : bytes ≠ []) :
    d'.unread stream' < d.unread stream := by
  unfold read at h
  split at h
  · simp at h
  · split at h
    · simp at h
    · simp only [Except.ok.injEq, Prod.mk.injEq] at h
      obtain ⟨rfl, rfl, rfl⟩ := h
      have := List.length_pos_iff.mpr ne
      have := FileBytes.length_readAt_le (d.bytesOf stream.name) stream.position count
      simp only [unread, Stream.advance] at *
      omega

instance : Storage Directory where
  openStream := openStream
  read := read
  write := write
  seek _ := seek
  close d _ := .ok d
  contains := contains
  unread := unread
  unread_lt := unread_lt

end Directory
end ScreenEditor
