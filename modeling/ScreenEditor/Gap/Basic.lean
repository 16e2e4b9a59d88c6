import ScreenEditor.Gap.Cells

/-!
# Gap buffers

A text is kept in a fixed number of byte cells with a gap at the caret:

    [ text before the caret | gap | text after the caret ]

Inserting and deleting at the caret only move an edge of the gap; moving the caret carries one byte
across the gap per step.  Bytes in the gap are stale and never read as text.

Two kinds of position occur.  A *content offset* counts bytes of the text; a *raw index* counts
cells of the storage, gap included.  `GapBuffer.rawIndex` and `GapBuffer.offset?` convert.

An operation whose name ends in a question mark answers `none` where it does not apply.
-/

namespace ScreenEditor

/-- The one line terminator used inside a text. -/
def lineFeed : UInt8 := 10

/-- Storage whose cells `gapBegin, …, gapEnd - 1` are the gap. -/
structure GapBuffer where
  storage : Cells
  gapBegin : Nat
  gapEnd : Nat
  gapBegin_le_gapEnd : gapBegin ≤ gapEnd
  gapEnd_le_size : gapEnd ≤ storage.size

namespace GapBuffer

/-- An empty text over `capacity` zeroed cells. -/
def empty (capacity : Nat) : GapBuffer where
  storage := Cells.zeros capacity
  gapBegin := 0
  gapEnd := capacity
  gapBegin_le_gapEnd := Nat.zero_le _
  gapEnd_le_size := Nat.le_refl _

instance : Inhabited GapBuffer := ⟨empty 0⟩

/-- The buffer over `storage` with the given gap.  A gap that does not fit the storage gives an
empty text instead. -/
def ofStorage (storage : Cells) (gapBegin gapEnd : Nat) : GapBuffer :=
  if h : gapBegin ≤ gapEnd ∧ gapEnd ≤ storage.size then
    ⟨storage, gapBegin, gapEnd, h.1, h.2⟩
  else
    ⟨storage, 0, storage.size, Nat.zero_le _, Nat.le_refl _⟩

/-- Number of cells. -/
def capacity (g : GapBuffer) : Nat := g.storage.size

/-- Number of bytes of text. -/
def length (g : GapBuffer) : Nat := g.gapBegin + (g.storage.size - g.gapEnd)

/-- Number of bytes that still fit. -/
def free (g : GapBuffer) : Nat := g.gapEnd - g.gapBegin

/-- Content offset of the caret. -/
def caret (g : GapBuffer) : Nat := g.gapBegin

/-- Whether there is no text. -/
def isEmpty (g : GapBuffer) : Bool := g.length == 0

/-- Raw index of a content offset. -/
def rawIndex (g : GapBuffer) (offset : Nat) : Nat :=
  if offset < g.gapBegin then offset else offset + g.free

/-- Content offset of a raw index; none inside the gap and past the storage. -/
def offset? (g : GapBuffer) (raw : Nat) : Option Nat :=
  if raw < g.gapBegin then some raw
  else if g.gapEnd ≤ raw ∧ raw < g.storage.size then some (raw - g.free)
  else none

/-- The byte in a cell; zero past the storage. -/
def readAt (g : GapBuffer) (raw : Nat) : UInt8 := g.storage.read raw

/-- Put a byte into a cell; past the storage nothing changes. -/
def writeAt (g : GapBuffer) (raw : Nat) (byte : UInt8) : GapBuffer where
  storage := g.storage.write raw byte
  gapBegin := g.gapBegin
  gapEnd := g.gapEnd
  gapBegin_le_gapEnd := g.gapBegin_le_gapEnd
  gapEnd_le_size := by simpa using g.gapEnd_le_size

/-- The byte at a content offset, read through the gap. -/
def byteAt? (g : GapBuffer) (offset : Nat) : Option UInt8 :=
  if offset < g.length then some (g.readAt (g.rawIndex offset)) else none

/-- The text before the caret. -/
def before (g : GapBuffer) : List UInt8 := g.storage.slice 0 g.gapBegin

/-- The text after the caret. -/
def after (g : GapBuffer) : List UInt8 := g.storage.slice g.gapEnd g.storage.size

/-- The whole text. -/
def content (g : GapBuffer) : List UInt8 := g.before ++ g.after

/-- The text with offsets in `[lo, hi)`, clipped to the content. -/
def contentRange (g : GapBuffer) (lo hi : Nat) : List UInt8 :=
  (List.range' lo (min hi g.length - lo)).map fun offset => g.readAt (g.rawIndex offset)

/-- The text from an offset on. -/
def bytesFrom (g : GapBuffer) (offset : Nat) : List UInt8 :=
  g.before.drop offset ++ g.after.drop (offset - g.gapBegin)

/-- Put a byte before the caret. -/
def insert (g : GapBuffer) (byte : UInt8) (room : g.gapBegin < g.gapEnd) : GapBuffer where
  storage := g.storage.write g.gapBegin byte
  gapBegin := g.gapBegin + 1
  gapEnd := g.gapEnd
  gapBegin_le_gapEnd := room
  gapEnd_le_size := by simpa using g.gapEnd_le_size

/-- Put a byte before the caret, unless the buffer is full. -/
@[inline] def insert? (g : GapBuffer) (byte : UInt8) : Option GapBuffer :=
  if room : g.gapBegin < g.gapEnd then some (g.insert byte room) else none

/-- Put bytes before the caret as far as they fit. -/
def insertAll (g : GapBuffer) : List UInt8 → GapBuffer
  | [] => g
  | byte :: bytes =>
    if room : g.gapBegin < g.gapEnd then (g.insert byte room).insertAll bytes else g

/-- Put bytes before the caret, all or none. -/
@[inline] def insertAll? (g : GapBuffer) (bytes : List UInt8) : Option GapBuffer :=
  if bytes.length ≤ g.free then some (g.insertAll bytes) else none

/-- Delete the byte before the caret, if there is one, and give that byte. -/
@[inline] def deleteLeft? (g : GapBuffer) : Option (UInt8 × GapBuffer) :=
  if 0 < g.gapBegin then
    some (g.readAt (g.gapBegin - 1),
      { g with
        gapBegin := g.gapBegin - 1
        gapBegin_le_gapEnd := Nat.le_trans (Nat.sub_le _ _) g.gapBegin_le_gapEnd })
  else none

/-- Delete the byte after the caret, if there is one, and give that byte. -/
@[inline] def deleteRight? (g : GapBuffer) : Option (UInt8 × GapBuffer) :=
  if h : g.gapEnd < g.storage.size then
    some (g.readAt g.gapEnd,
      { g with
        gapEnd := g.gapEnd + 1
        gapBegin_le_gapEnd := Nat.le_succ_of_le g.gapBegin_le_gapEnd
        gapEnd_le_size := h })
  else none

/-- Carry the byte before the caret across the gap. -/
def stepLeft (g : GapBuffer) (h : 0 < g.gapBegin) : GapBuffer where
  storage :=
    let byte := g.readAt (g.gapBegin - 1)
    g.storage.write (g.gapEnd - 1) byte
  gapBegin := g.gapBegin - 1
  gapEnd := g.gapEnd - 1
  gapBegin_le_gapEnd := by have := g.gapBegin_le_gapEnd; omega
  gapEnd_le_size := by have := g.gapEnd_le_size; simp; omega

/-- Carry the byte after the caret across the gap. -/
def stepRight (g : GapBuffer) (h : g.gapEnd < g.storage.size) : GapBuffer where
  storage :=
    let byte := g.readAt g.gapEnd
    g.storage.write g.gapBegin byte
  gapBegin := g.gapBegin + 1
  gapEnd := g.gapEnd + 1
  gapBegin_le_gapEnd := Nat.succ_le_succ g.gapBegin_le_gapEnd
  gapEnd_le_size := by simpa using Nat.succ_le_of_lt h

/-- Move the caret left by `n` bytes, or to the start. -/
def moveLeft (g : GapBuffer) : Nat → GapBuffer
  | 0 => g
  | n + 1 => if h : 0 < g.gapBegin then (g.stepLeft h).moveLeft n else g

/-- Move the caret right by `n` bytes, or to the end. -/
def moveRight (g : GapBuffer) : Nat → GapBuffer
  | 0 => g
  | n + 1 => if h : g.gapEnd < g.storage.size then (g.stepRight h).moveRight n else g

/-- Move the caret to an offset, or to the end when the text is shorter. -/
def seek (g : GapBuffer) (target : Nat) : GapBuffer :=
  if target ≤ g.gapBegin then g.moveLeft (g.gapBegin - target)
  else g.moveRight (target - g.gapBegin)

/-- Move the caret to an offset of the text, its end included. -/
@[inline] def seek? (g : GapBuffer) (target : Nat) : Option GapBuffer :=
  if target ≤ g.length then some (g.seek target) else none

/-- Delete `n` bytes after the caret, or all of them when there are fewer. -/
def dropRight (g : GapBuffer) (n : Nat) : GapBuffer :=
  { g with
    gapEnd := min (g.gapEnd + n) g.storage.size
    gapBegin_le_gapEnd := by have := g.gapBegin_le_gapEnd; have := g.gapEnd_le_size; omega
    gapEnd_le_size := Nat.min_le_right _ _ }

/-- Delete the text in `[lo, hi)` and leave the caret at `lo`. -/
def deleteRange (g : GapBuffer) (lo hi : Nat) : GapBuffer :=
  (g.seek lo).dropRight (hi - lo)

/-- Delete the text in `[lo, hi)` if that is a range of the content. -/
@[inline] def deleteRange? (g : GapBuffer) (lo hi : Nat) : Option GapBuffer :=
  if lo ≤ hi ∧ hi ≤ g.length then some (g.deleteRange lo hi) else none

/-- Forget the whole text. -/
def reset (g : GapBuffer) : GapBuffer where
  storage := g.storage
  gapBegin := 0
  gapEnd := g.storage.size
  gapBegin_le_gapEnd := Nat.zero_le _
  gapEnd_le_size := Nat.le_refl _

end GapBuffer
end ScreenEditor
