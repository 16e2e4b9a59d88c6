import ScreenEditor.ControlBlock
import ScreenEditor.Error

/-!
# Segments

A segment table holds several documents in segments of one capacity, of which exactly one is active.
The active document is at hand as `current`; every other segment keeps its bytes in its slot and its
header and gap in a control block.  Segments are numbered from 1; the slots of a table need not all
be present, and only those that are have numbers.

That the active segment exists, and that its slot and no other lacks its bytes, are part of the type
(`active_pos`, `active_le`, `isSome_storage`), so switching to a segment that exists cannot fail.
-/

namespace ScreenEditor

/-- The greatest number of slots. -/
def maxSlots : Nat := 128

/-- A segment that may be put away: its place among all slots, its control block, and its bytes
while it is not active. -/
structure Slot where
  physical : Nat
  block : List UInt8
  storage : Option Cells

instance : Inhabited Slot := ⟨⟨0, [], none⟩⟩

/-- One line of a listing of the segments. -/
structure DocumentEntry where
  id : Nat
  size : Nat
  modified : Bool
  part : UInt8
  name : String
  deriving DecidableEq, Repr

/-- Segments, one of them active. -/
structure SegmentTable where
  capacity : Nat
  slots : Array Slot
  active : Nat
  current : Document
  active_pos : 0 < active
  active_le : active ≤ slots.size
  isSome_storage : ∀ i (h : i < slots.size), slots[i].storage.isSome = (i + 1 != active)

namespace SegmentTable

/-- The slots of a new table, the first of which is active. -/
def newSlots (capacity first : Nat) (rest : List Nat) : Array Slot :=
  let block := (ControlBlock.unused capacity).encode
  (⟨first, block, none⟩ :: rest.map fun p => ⟨p, block, some (Cells.zeros capacity)⟩).toArray

/-- Unused segments for the slots that are present. -/
def ofLayout (capacity : Nat) (present : List Bool) : Except EditorError SegmentTable :=
  if maxSlots < present.length then .error (.tooManySegments present.length maxSlots)
  else
    match (present.zipIdx.filter (·.1)).map (·.2) with
    | [] => .error .noSegments
    | first :: rest =>
      .ok {
        capacity := capacity
        slots := newSlots capacity first rest
        active := 1
        current := ⟨Header.blank, GapBuffer.empty capacity⟩
        active_pos := Nat.one_pos
        active_le := by simp [newSlots]
        isSome_storage := by
          intro i h
          cases i <;> simp [newSlots] }

/-- Number of segments. -/
def count (t : SegmentTable) : Nat := t.slots.size

/-- Whether a segment has this number. -/
def has (t : SegmentTable) (id : Nat) : Bool := 0 < id && id ≤ t.count

/-- The slot of a segment among all slots, absent ones included. -/
def physical? (t : SegmentTable) (id : Nat) : Option Nat :=
  if 0 < id then t.slots[id - 1]?.map (·.physical) else none

/-- Change the active document. -/
@[inline] def modifyCurrent (t : SegmentTable) (f : Document → Document) : SegmentTable :=
  { t with current := f t.current }

/-- Change the header of the active document. -/
@[inline] def modifyHeader (t : SegmentTable) (f : Header → Header) : SegmentTable :=
  t.modifyCurrent fun d => { d with header := f d.header }

/-- Change the text of the active document. -/
@[inline] def modifyBuffer (t : SegmentTable) (f : GapBuffer → GapBuffer) : SegmentTable :=
  t.modifyCurrent (·.mapBuffer f)

/-- The slot of the active document once that is put away. -/
def outgoing (t : SegmentTable) : Slot where
  physical := (t.slots.getD (t.active - 1) default).physical
  block := ControlBlock.encode
    ⟨t.current.header, t.current.buffer.gapBegin, t.current.buffer.gapEnd⟩
  storage := some t.current.buffer.storage

/-- The document that bytes and a control block stand for. -/
def incoming (storage : Cells) (block : List UInt8) : Document :=
  let block := ControlBlock.decode block
  ⟨block.header, GapBuffer.ofStorage storage block.gapBegin block.gapEnd⟩

/-- Make an existing segment other than the active one active: the document at hand is put away and
the segment's document taken out, its caret where it was left. -/
def switchTo (t : SegmentTable) (id : Nat) (pos : 0 < id) (le : id ≤ t.slots.size)
    (ne : id ≠ t.active) : SegmentTable :=
  have := t.active_pos
  have := t.active_le
  let slot := t.slots[id - 1]
  { capacity := t.capacity
    current := incoming
      (slot.storage.get (by rw [t.isSome_storage]; simp; omega)) slot.block
    slots := (t.slots.set (t.active - 1) t.outgoing).set (id - 1) { slot with storage := none }
      (by simp; omega)
    active := id
    active_pos := pos
    active_le := by simpa using le
    isSome_storage := by
      intro i h
      simp only [Array.size_set] at h
      by_cases hi : i = id - 1
      · subst hi
        simp
        omega
      · by_cases ha : i = t.active - 1
        · subst ha
          have h' : ¬ id - 1 = t.active - 1 := by omega
          simp [Array.getElem_set, h', outgoing]
          omega
        · have := t.isSome_storage i h
          simp only [Array.getElem_set, Ne.symm hi, Ne.symm ha, if_false, this]
          rw [Bool.eq_iff_iff]
          simp
          omega }

/-- Make a segment active; a number that no segment has changes nothing. -/
def switch (t : SegmentTable) (id : Nat) : SegmentTable :=
  if h : 0 < id ∧ id ≤ t.slots.size ∧ id ≠ t.active then t.switchTo id h.1 h.2.1 h.2.2 else t

/-- Make a segment active. -/
def activate (t : SegmentTable) (id : Nat) : Except EditorError SegmentTable :=
  if t.has id then .ok (t.switch id) else .error (.invalidSegment id)

/-- Whether a segment holds nothing, judged by its control block unless it is active. -/
def isUnused (t : SegmentTable) (id : Nat) : Bool :=
  if id = t.active then t.current.isUnused
  else if 0 < id then
    match t.slots[id - 1]? with
    | none => false
    | some slot =>
      let block := ControlBlock.decode slot.block
      block.header.name.isEmpty && !block.header.modified
        && block.gapBegin == 0 && block.gapEnd == t.capacity
  else false

/-- The next unused segment, searched upward from the active one and then from the first. -/
def nextUnused? (t : SegmentTable) : Option Nat :=
  (List.range' (t.active + 1) (t.count - t.active) ++ List.range' 1 (t.active - 1)).find? t.isUnused

/-- A part number one higher, or the greatest there is. -/
def nextPart (part : UInt8) : UInt8 := if part = 255 then 255 else part + 1

/-- Continue the active document in an unused segment: the segment takes the document's name and
the next part number and becomes active.  A document of its own becomes part 1 first.  None when
every segment is in use. -/
def continueInNext (t : SegmentTable) : Option (Nat × SegmentTable) :=
  t.nextUnused?.map fun id =>
    let t := t.modifyHeader fun h => if h.part = 0 then { h with part := 1 } else h
    let header : Header := ⟨t.current.header.name, false, false, nextPart t.current.header.part⟩
    (id, (t.switch id).modifyHeader fun _ => header)

/-- Put a control block into the slot of a segment. -/
def setBlock (t : SegmentTable) (id : Nat) (block : List UInt8) : SegmentTable :=
  if h : id - 1 < t.slots.size then
    { t with
      slots := t.slots.set (id - 1) { t.slots[id - 1] with block := block }
      active_le := by simpa using t.active_le
      isSome_storage := by
        intro i hi
        simp only [Array.size_set] at hi
        have := t.isSome_storage i hi
        by_cases e : id - 1 = i
        · subst e
          simpa using this
        · simpa [Array.getElem_set, e] using this }
  else t

/-- Make a segment unused. -/
def release (t : SegmentTable) (id : Nat) : Except EditorError SegmentTable :=
  if id = t.active then
    .ok (t.modifyCurrent fun d => ⟨Header.blank, d.buffer.reset⟩)
  else if t.has id then .ok (t.setBlock id (ControlBlock.unused t.capacity).encode)
  else .error (.invalidSegment id)

/-- Make several segments unused; numbers that no segment has are passed over. -/
def releaseAll (t : SegmentTable) (ids : List Nat) : SegmentTable :=
  ids.foldl (fun t id => (t.release id).toOption.getD t) t

/-- The line of a listing for the active document. -/
def currentEntry (t : SegmentTable) : DocumentEntry where
  id := t.active
  size := t.current.buffer.length
  modified := t.current.header.modified
  part := t.current.header.part
  name := t.current.header.name

end SegmentTable

/-- A listing in progress.  It makes one segment after the other active and remembers which one was
active before. -/
structure Listing where
  table : SegmentTable
  origin : Nat
  next : Nat

namespace Listing

/-- A listing that begins with the first segment. -/
def start (t : SegmentTable) : Listing := ⟨t, t.active, 1⟩

/-- Begin again with the first segment. -/
def restart (l : Listing) : Listing := { l with next := 1 }

/-- The line of the next segment; none at the end. -/
def step (l : Listing) : Option DocumentEntry × Listing :=
  if l.next ≤ l.table.count then
    let t := l.table.switch l.next
    (some t.currentEntry, ⟨t, l.origin, l.next + 1⟩)
  else (none, l)

/-- End the listing: the segment that was active before is active again. -/
def finish (l : Listing) : SegmentTable := l.table.switch l.origin

/-- The lines of the next so many segments. -/
def take (l : Listing) : Nat → List DocumentEntry × Listing
  | 0 => ([], l)
  | n + 1 =>
    match l.step with
    | (none, l) => ([], l)
    | (some entry, l) =>
      let (entries, l) := l.take n
      (entry :: entries, l)

end Listing

namespace SegmentTable

/-- The lines of all segments. -/
def list (t : SegmentTable) : List DocumentEntry × SegmentTable :=
  let (entries, l) := (Listing.start t).take t.count
  (entries, l.finish)

/-- The segments that are parts of the chain with this name, in the order of their parts. -/
def parts (t : SegmentTable) (name : String) : List Nat × SegmentTable :=
  let (entries, t) := t.list
  let chain := entries.filter fun e => e.part != 0 && e.name == name
  ((chain.mergeSort fun a b => a.part ≤ b.part).map (·.id), t)

end SegmentTable
end ScreenEditor
