import ScreenEditor.Segment.Table
import ScreenEditor.Storage.Basic
import ScreenEditor.Transfer.Settings

/-!
# Reading files into documents

A file is read chunk by chunk and converted on the way: a carriage return, a line feed and the two
together each become one terminator, and a tab becomes blanks up to the next tab stop.  When the
active segment runs out of room the document goes on in another segment, so that one file may become
a chain of parts.

A file either replaces the active document, in parts that end at line ends where they can, or is
inserted at its caret.  In the second case the text behind the caret is taken out when the first
further segment is begun, and put back after the inserted text.

Whatever fails, the documents are put back as they were (`Checkpoint.restore`).
-/

namespace ScreenEditor

/-- Whether a file replaces the document or is inserted at the caret. -/
inductive LoadMode where
  | replace
  | insert
  deriving DecidableEq, Repr

/-- How many bytes were read and stored, and the segments that took them, in order. -/
structure LoadReport where
  bytesRead : Nat
  bytesStored : Nat
  segments : List Nat
  deriving DecidableEq, Repr

/-- A document that takes the bytes of a file: the segments begun so far, last first, and where the
conversion stands.  `tail` is the text that was behind the caret, once it is taken out, and
`resume` the place where the inserted text ends once the tail is put back. -/
structure Sink where
  table : SegmentTable
  mode : LoadMode
  threshold : Nat
  tabWidth : Nat
  column : Nat
  pendingReturn : Bool
  overflowDue : Bool
  stored : Nat
  origin : Nat
  begun : List Nat
  tail : Option (List UInt8)
  resume : Option (Nat × Nat)

namespace Sink

/-- A sink after some bytes, or the sink as it was when no segment was left. -/
abbrev Filled := Except Sink Sink

/-- The segments that took bytes, in order. -/
def segments (s : Sink) : List Nat := s.origin :: s.begun.reverse

/-- Close the active part: as read from the file with the caret at the start, or as changed. -/
def finishPart (s : Sink) : Sink :=
  match s.mode with
  | .replace =>
    { s with table := s.table.modifyCurrent fun d =>
        ⟨{ d.header with modified := false }, d.buffer.seek 0⟩ }
  | .insert => { s with table := s.table.modifyCurrent Document.markModified }

/-- Take out the text behind the caret, before the first further segment of an insertion. -/
def detachTail (s : Sink) : Sink :=
  if s.mode = .insert ∧ s.tail = none then
    let g := s.table.current.buffer
    { s with
      tail := some (g.contentRange g.caret g.length)
      table := s.table.modifyBuffer fun g => g.deleteRange g.caret g.length }
  else s

/-- Go on in another segment. -/
def overflow (s : Sink) : Filled :=
  let s := s.detachTail.finishPart
  match s.table.continueInNext with
  | none => .error s
  | some (id, table) => .ok { s with table := table, begun := id :: s.begun, overflowDue := false }

/-- Put a byte into the active segment if it has room. -/
@[inline] def put (s : Sink) (byte : UInt8) : Sink :=
  { s with table := s.table.modifyBuffer fun g =>
      if room : g.gapBegin < g.gapEnd then g.insert byte room else g }

/-- Store a byte, in another segment if the active one is full or to be left. -/
def place (s : Sink) (byte : UInt8) : Filled :=
  if s.overflowDue || s.table.current.buffer.free == 0 then s.overflow.map (·.put byte)
  else .ok (s.put byte)

/-- Whether the active segment has less room than a chunk may need. -/
def lowOnSpace (s : Sink) : Bool := s.table.current.buffer.free < s.threshold

/-- Count a stored byte.  The end of a line is a place to go on in another segment. -/
def count (s : Sink) (byte : UInt8) : Sink :=
  if byte = lineFeed then
    { s with
      stored := s.stored + 1
      column := 0
      overflowDue := s.overflowDue || (s.mode == .replace && s.lowOnSpace) }
  else { s with stored := s.stored + 1, column := s.column + 1 }

/-- Store a converted byte. -/
def emit (s : Sink) (byte : UInt8) : Filled := (s.place byte).map (·.count byte)

/-- Store blanks, up to the first that finds no room. -/
def emitBlanks (s : Sink) : Nat → Filled
  | 0 => .ok s
  | n + 1 => do (← s.emit blankByte).emitBlanks n

/-- Take one byte of the file.  A line feed after a carriage return belongs to the same line end. -/
def feedByte (s : Sink) (byte : UInt8) : Filled :=
  if s.pendingReturn && byte == lineFeed then .ok { s with pendingReturn := false }
  else
    let s := { s with pendingReturn := false }
    if byte = LineEnding.carriageReturn then
      (s.emit lineFeed).map fun s => { s with pendingReturn := true }
    else if byte = tabByte then
      s.emitBlanks (s.tabWidth - s.column % s.tabWidth)
    else s.emit byte

/-- Take a chunk of the file.  Its end is a place to go on in another segment. -/
def feed (s : Sink) (chunk : List UInt8) : Filled :=
  (chunk.foldlM feedByte s).map fun s =>
    { s with overflowDue := s.overflowDue || s.lowOnSpace }

/-- Put the text that was behind the caret after the inserted text. -/
def reattachTail (s : Sink) : Filled :=
  match s.tail with
  | none => .ok s
  | some tail =>
    tail.foldlM place
      { s with
        tail := none
        overflowDue := false
        resume := some (s.table.active, s.table.current.buffer.caret) }

end Sink

/-- What is needed to undo a load: the active segment with its header, text and caret. -/
structure Checkpoint where
  origin : Nat
  header : Header
  content : List UInt8
  caret : Nat

namespace Checkpoint

/-- The state of the active document. -/
def take (t : SegmentTable) : Checkpoint :=
  ⟨t.active, t.current.header, t.current.buffer.content, t.current.buffer.caret⟩

/-- Put the document back, and give up the segments that were begun since. -/
def restore (c : Checkpoint) (t : SegmentTable) (begun : List Nat) : SegmentTable :=
  ((t.releaseAll begun).switch c.origin).modifyCurrent fun d =>
    ⟨c.header, (d.buffer.reset.insertAll c.content).seek c.caret⟩

end Checkpoint

/-- The column of the caret, counted from the terminator before it. -/
def GapBuffer.lineColumn (g : GapBuffer) : Nat :=
  (g.before.reverse.takeWhile (· != lineFeed)).length

namespace Load

variable {σ : Type} [Storage σ]

/-- Where reading ended: the sink, the number of bytes read, and the storage. -/
structure Reading (σ : Type) where
  sink : Sink
  bytesRead : Nat
  stream : Stream
  store : σ

/-- Why a load ends early, and the sink as it was then. -/
structure Failure (σ : Type) where
  error : EditorError
  sink : Sink
  stream : Stream
  store : σ

/-- Read chunks into the sink up to the end of the file. -/
def readAll (name : String) (chunk : Nat) (r : Reading σ) : Except (Failure σ) (Reading σ) :=
  match h : Storage.read r.store r.stream chunk with
  | .error fault =>
    .error ⟨.ofFault name .reading fault, r.sink, r.stream, r.store⟩
  | .ok ([], stream, store) => .ok { r with stream := stream, store := store }
  | .ok (byte :: rest, stream, store) =>
    match r.sink.feed (byte :: rest) with
    | .error sink => .error ⟨.outOfSegments, sink, stream, store⟩
    | .ok sink =>
      have : Storage.unread store stream < Storage.unread r.store r.stream :=
        Storage.unread_lt h (by simp)
      readAll name chunk ⟨sink, r.bytesRead + (byte :: rest).length, stream, store⟩
termination_by Storage.unread r.store r.stream

/-- The other parts of the active document's chain, if it is part of one. -/
def otherParts (t : SegmentTable) : List Nat × SegmentTable :=
  if t.current.header.part = 0 then ([], t)
  else
    let (ids, t) := t.parts t.current.header.name
    (ids.filter (· != t.active), t)

/-- The parts after the active document in its chain, if it is part of one. -/
def laterParts (t : SegmentTable) : List Nat × SegmentTable :=
  if t.current.header.part = 0 then ([], t)
  else
    let (ids, t) := t.parts t.current.header.name
    ((ids.dropWhile (· != t.active)).drop 1, t)

/-- The active document made ready for a file: emptied and given the file's name, or left alone. -/
def prepare (t : SegmentTable) (mode : LoadMode) (name : String) : SegmentTable :=
  match mode with
  | .replace => t.modifyCurrent fun d => ⟨Header.blank.setName name, d.buffer.reset⟩
  | .insert => t

/-- A sink over the active document. -/
def sinkOf (t : SegmentTable) (mode : LoadMode) (settings : TransferSettings) : Sink where
  table := t
  mode := mode
  threshold := settings.readChunk
  tabWidth := max settings.tabWidth 1
  column := match mode with
    | .replace => 0
    | .insert => t.current.buffer.lineColumn
  pendingReturn := false
  overflowDue := false
  stored := 0
  origin := t.active
  begun := []
  tail := none
  resume := none

/-- A part number higher by `added`, or the greatest there is. -/
def raisePart (part : UInt8) (added : Nat) : UInt8 :=
  UInt8.ofNat (min 255 (part.toNat + added % 256))

/-- Raise the part numbers of segments. -/
def raiseParts (t : SegmentTable) (ids : List Nat) (added : Nat) : SegmentTable :=
  ids.foldl (fun t id =>
    (t.switch id).modifyHeader fun h => { h with part := raisePart h.part added }) t

/-- The documents after a load: parts of the replaced document are given up, later parts of the
chain move back, and the caret stands where the inserted text ends. -/
def settle (sink : Sink) (stale later : List Nat) : SegmentTable :=
  let sink := sink.finishPart
  let t := sink.table.releaseAll stale
  let t := if sink.begun = [] then t else raiseParts t later sink.begun.length
  let t := match sink.resume with
    | none => t
    | some (id, caret) => (t.switch id).modifyBuffer (·.seek caret)
  t.switch sink.origin

end Load

/-- Load a file into the active document.  The segment that was active is active again. -/
def SegmentTable.load {σ : Type} [Storage σ] (t : SegmentTable) (store : σ) (name : String)
    (mode : LoadMode) (settings : TransferSettings) :
    Except EditorError LoadReport × SegmentTable × σ :=
  match Storage.openStream store name .read with
  | .error fault => (.error (.ofFault name .opening fault), t, store)
  | .ok (stream, store) =>
    let checkpoint := Checkpoint.take t
    let (stale, t) := if mode = .replace then Load.otherParts t else ([], t)
    let (later, t) := if mode = .insert then Load.laterParts t else ([], t)
    let sink := Load.sinkOf (Load.prepare t mode name) mode settings
    match Load.readAll name (max settings.readChunk 1) ⟨sink, 0, stream, store⟩ with
    | .error failed =>
      let store := (Storage.close failed.store failed.stream).toOption.getD failed.store
      (.error failed.error, checkpoint.restore failed.sink.table failed.sink.begun.reverse, store)
    | .ok done =>
      let store := (Storage.close done.store done.stream).toOption.getD done.store
      match done.sink.reattachTail with
      | .error sink =>
        (.error .outOfSegments, checkpoint.restore sink.table sink.begun.reverse, store)
      | .ok sink =>
        (.ok ⟨done.bytesRead, sink.stored, sink.segments⟩, Load.settle sink stale later, store)

end ScreenEditor
