import ScreenEditor.Segment.Table
import ScreenEditor.Selection
import ScreenEditor.Storage.Basic
import ScreenEditor.Transfer.Settings

/-!
# Writing documents to files

A document is written with all parts of its chain, in order, or a range of the active segment alone.
The text goes out piece by piece with its terminators converted; a storage may take fewer bytes than
it is given, and then the rest of the piece is offered again.

Only after everything is written and the file is closed do the parts take the file's name and count
as unmodified.
-/

namespace ScreenEditor

namespace Save

variable {σ : Type} [Storage σ]

/-- A list cut into pieces of `size` entries, the last of which may be shorter. -/
def pieces {α : Type} (size : Nat) : List α → List (List α)
  | [] => []
  | a :: as => (a :: as.take (size - 1)) :: pieces size (as.drop (size - 1))
termination_by l => l.length

/-- A file being written: how many bytes of the present run of text it has taken. -/
structure Writer (σ : Type) where
  stream : Stream
  store : σ
  written : Nat

/-- The error that ended the writing, and the file as it was then. -/
abbrev Failed (σ : Type) := EditorError × Writer σ

/-- Write bytes, offering again what was not taken.  `expected` is what the run will have taken in
all. -/
def writeBytes (name : String) (expected : Nat) (w : Writer σ) (bytes : List UInt8) :
    Except (Failed σ) (Writer σ) :=
  if empty : bytes = [] then .ok w
  else
    match Storage.write w.store w.stream bytes with
    | .error fault => .error (.ofFault name .writing fault, w)
    | .ok (count, stream, store) =>
      let w := { w with stream := stream, store := store }
      if zero : count = 0 then .error (.shortWrite name w.written expected, w)
      else
        have : (bytes.drop count).length < bytes.length := by
          have := List.length_pos_iff.mpr empty
          simp
          omega
        writeBytes name expected { w with written := w.written + count } (bytes.drop count)
termination_by bytes.length

/-- Write one piece of text. -/
def writePiece (name : String) (settings : TransferSettings) (w : Writer σ)
    (piece : List UInt8) : Except (Failed σ) (Writer σ) :=
  let converted := settings.lineEnding.convert piece
  writeBytes name (w.written + converted.length) w converted

/-- Write a run of text. -/
def writeRun (name : String) (settings : TransferSettings) (w : Writer σ)
    (text : List UInt8) : Except (Failed σ) (Writer σ) :=
  (pieces (max settings.writeChunk 1) text).foldlM (writePiece name settings)
    { w with written := 0 }

/-- Write the text of a buffer in `[lo, hi)`, clipped to the content: first what stands before the
gap, then what stands behind it.  The second part of the result is the number of bytes written. -/
def writeRange (name : String) (settings : TransferSettings) (w : Writer σ) (g : GapBuffer)
    (range : Span) : Except (Failed σ) (Writer σ × Nat) := do
  let lo := min range.lo g.length
  let hi := max (min range.hi g.length) lo
  let split := g.gapBegin
  let w ← writeRun name settings w ((g.before.take hi).drop lo)
  let first := w.written
  let w ← writeRun name settings w ((g.after.take (hi - split)).drop (lo - split))
  return (w, first + w.written)

/-- Write parts one after the other, or the given range of each.  The last part of the result is the
number of bytes written. -/
def writeParts (name : String) (settings : TransferSettings) (range : Option Span) :
    SegmentTable → Writer σ → List Nat →
    SegmentTable × Except (Failed σ) (Writer σ × Nat)
  | t, w, [] => (t, .ok (w, 0))
  | t, w, id :: ids =>
    let t := t.switch id
    let g := t.current.buffer
    match writeRange name settings w g (range.getD ⟨0, g.length⟩) with
    | .error e => (t, .error e)
    | .ok (w, count) =>
      match writeParts name settings range t w ids with
      | (t, .error e) => (t, .error e)
      | (t, .ok (w, more)) => (t, .ok (w, count + more))

/-- Give the parts the file's name and let them count as unmodified. -/
def rename (t : SegmentTable) (ids : List Nat) (name : String) : SegmentTable :=
  ids.foldl (fun t id =>
    (t.switch id).modifyHeader fun h =>
      { h.setName name with modified := false, awaitsOverwrite := false }) t

/-- The segments to be written. -/
def savedParts (t : SegmentTable) (range : Option Span) : List Nat × SegmentTable :=
  if range = none ∧ t.current.header.part ≠ 0 then t.parts t.current.header.name
  else ([t.active], t)

end Save

/-- Save the active document, or a range of it, and give the number of bytes written.  The segment
that was active is active again. -/
def SegmentTable.save {σ : Type} [Storage σ] (t : SegmentTable) (store : σ) (name : String)
    (range : Option Span) (settings : TransferSettings) :
    Except EditorError Nat × SegmentTable × σ :=
  let origin := t.active
  let (ids, t) := Save.savedParts t range
  match Storage.openStream store name .write with
  | .error fault => (.error (.ofFault name .opening fault), t, store)
  | .ok (stream, store) =>
    match Save.writeParts name settings range t ⟨stream, store, 0⟩ ids with
    | (t, .error (error, w)) =>
      let store := (Storage.close w.store w.stream).toOption.getD w.store
      (.error error, t.switch origin, store)
    | (t, .ok (w, count)) =>
      match Storage.close w.store w.stream with
      | .error fault => (.error (.ofFault name .closing fault), t.switch origin, w.store)
      | .ok store =>
        let t := if range = none then Save.rename t ids name else t
        (.ok count, t.switch origin, store)

end ScreenEditor
