import Mathlib.Data.Nat.ModEq
import ScreenEditor.Proofs.Transfer.LineEnds

/-!
# A tab that finds room

A file of one tab, inserted where there is room for its blanks, puts them at the caret and begins no
further part (`load_tab`).  Whether any room is left afterwards makes no difference.
-/

namespace ScreenEditor

/-! ## Tab stops -/

/-- Blanks up to the next tab stop behind a column. -/
def blanksToStop (settings : TransferSettings) (column : Nat) : Nat :=
  max settings.tabWidth 1 - column % max settings.tabWidth 1

/-- Blanks lead to the next tab stop. -/
theorem blanksToStop_spec (settings : TransferSettings) (column : Nat) :
    0 < blanksToStop settings column ∧
      blanksToStop settings column ≤ max settings.tabWidth 1 ∧
      max settings.tabWidth 1 ∣ column + blanksToStop settings column := by
  have hpos : 0 < max settings.tabWidth 1 :=
    Nat.lt_of_lt_of_le Nat.one_pos (Nat.le_max_right settings.tabWidth 1)
  have hlt := Nat.mod_lt column hpos
  have hdiv := Nat.div_add_mod column (max settings.tabWidth 1)
  rw [blanksToStop]
  generalize max settings.tabWidth 1 = width at *
  refine ⟨by omega, Nat.sub_le _ _, column / width + 1, ?_⟩
  rw [Nat.mul_add, Nat.mul_one]
  omega

/-- Two columns are as far from a tab stop if they lie a number of whole tabs apart. -/
theorem blanksToStop_eq_iff (settings : TransferSettings) (apart column : Nat) :
    blanksToStop settings column = blanksToStop settings (apart + column) ↔
      max settings.tabWidth 1 ∣ apart := by
  have hpos : 0 < max settings.tabWidth 1 :=
    Nat.lt_of_lt_of_le Nat.one_pos (Nat.le_max_right settings.tabWidth 1)
  have hlt := Nat.mod_lt column hpos
  have hlt' := Nat.mod_lt (apart + column) hpos
  have hmod := Nat.modEq_iff_dvd' (n := max settings.tabWidth 1) (Nat.le_add_left column apart)
  rw [Nat.add_sub_cancel] at hmod
  rw [← hmod, Nat.ModEq, blanksToStop, blanksToStop]
  omega

/-! ## Storing blanks -/

namespace Sink

variable {s : Sink}

/-- Blanks go to the active segment while it has room and is not to be left. -/
theorem emitBlanks_of_room (hdue : s.overflowDue = false) {n : Nat}
    (hroom : n ≤ s.table.current.buffer.free) :
    s.emitBlanks n = .ok { s with
      table := s.table.modifyBuffer (·.insertAll (List.replicate n blankByte))
      stored := s.stored + n
      column := s.column + n } := by
  induction n generalizing s with
  | zero => rfl
  | succ n ih =>
    have hfree : s.table.current.buffer.free ≠ 0 := Nat.ne_zero_of_lt hroom
    have hlt : s.table.current.buffer.gapBegin < s.table.current.buffer.gapEnd :=
      Nat.lt_of_sub_ne_zero hfree
    have hfirst : s.emit blankByte = .ok { s with
        table := s.table.modifyBuffer (putInto blankByte)
        stored := s.stored + 1
        column := s.column + 1 } := by
      have hstay : (s.overflowDue || s.table.current.buffer.free == 0) = false := by
        simp [hdue, hfree]
      rw [emit, place, hstay]
      rfl
    have hput := free_putInto blankByte hfree
    have hall : (putInto blankByte s.table.current.buffer).insertAll (List.replicate n blankByte)
        = s.table.current.buffer.insertAll (List.replicate (n + 1) blankByte) := by
      rw [List.replicate_succ, GapBuffer.insertAll, putInto, dif_pos hlt, dif_pos hlt]
    have hrest := @ih { s with
        table := s.table.modifyBuffer (putInto blankByte)
        stored := s.stored + 1
        column := s.column + 1 } hdue (show n ≤ (putInto blankByte s.table.current.buffer).free by
          omega)
    rw [emitBlanks, hfirst]
    refine hrest.trans ?_
    simp only [SegmentTable.modifyBuffer, SegmentTable.modifyCurrent, Document.mapBuffer, hall,
      Nat.add_assoc, Nat.add_comm 1 n]

/-- The sink is about to insert at the caret of the active document, and took nothing yet. -/
structure Begins (s : Sink) (t : SegmentTable) : Prop where
  current : s.table.current = t.current
  active : s.table.active = t.active
  origin : s.origin = t.active
  mode : s.mode = .insert
  pendingReturn : s.pendingReturn = false
  overflowDue : s.overflowDue = false
  stored : s.stored = 0
  begun : s.begun = []
  tail : s.tail = none
  resume : s.resume = none

theorem begins_firstSink {t : SegmentTable} (h : t.WellFormed) (name : String)
    (settings : TransferSettings) : (Load.firstSink t name .insert settings).Begins t := by
  have hactive : (Load.firstSink t name .insert settings).table.active = t.active :=
    (Load.agrees_listed h .insert).2
  exact ⟨Load.current_listed h .insert, hactive, hactive, rfl, rfl, rfl, rfl, rfl, rfl, rfl⟩

/-- A chunk of one tab, and what a load leaves that reads no more. -/
theorem Begins.feed_tab {t : SegmentTable} (h : s.Begins t) {blanks : Nat}
    (hblanks : s.tabWidth - s.column % s.tabWidth = blanks)
    (hroom : blanks ≤ t.current.buffer.free) :
    ∃ taken, s.feed [tabByte] = .ok taken ∧ taken.tail = none ∧ taken.stored = blanks ∧
      taken.segments = [t.active] ∧ ∀ later, (Load.settle taken [] later).current.buffer
        = t.current.buffer.insertAll (List.replicate blanks blankByte) := by
  have hsame : { s with pendingReturn := false } = s := by rw [← h.pendingReturn]
  have hbyte : s.feedByte tabByte = s.emitBlanks blanks := by
    rw [feedByte, h.pendingReturn, Bool.false_and, if_neg Bool.false_ne_true, hsame, ← hblanks]
    rfl
  rw [← h.current] at hroom
  rw [feed, List.foldlM_cons, hbyte, emitBlanks_of_room h.overflowDue hroom]
  refine ⟨_, rfl, h.tail, ?_, ?_, fun later => ?_⟩
  · simp only [h.stored, Nat.zero_add]
  · simp only [segments, h.begun, h.origin, List.reverse_nil]
  · refine (congrArg (·.current.buffer) (Load.settle_of_one ?_ ?_ ?_ later)).trans ?_
    · exact h.begun
    · exact h.resume
    · exact h.origin.trans h.active.symm
    · rw [finishPart, h.mode]
      exact congrArg (·.buffer.insertAll (List.replicate blanks blankByte)) h.current

end Sink

/-! ## Reading -/

namespace Load

variable {σ : Type} [Storage σ] {chunk : Nat}

/-- Nothing more to read. -/
theorem readAll_of_nil (name : String) {r : Reading σ} {stream : Stream} {store : σ}
    (h : Storage.read r.store r.stream chunk = .ok ([], stream, store)) :
    readAll name chunk r = .ok { r with stream := stream, store := store } := by
  rw [readAll]
  split
  · next h' => rw [h'] at h; cases h
  · next h' =>
    rw [h'] at h
    cases h
    rfl
  · next h' => rw [h'] at h; cases h

/-- A chunk that the sink takes. -/
theorem readAll_of_chunk (name : String) (r : Reading σ) {stream : Stream} {store : σ}
    {bytes : List UInt8} {sink : Sink} (hne : bytes ≠ [])
    (h : Storage.read r.store r.stream chunk = .ok (bytes, stream, store))
    (hfeed : r.sink.feed bytes = .ok sink) :
    readAll name chunk r = readAll name chunk
      ⟨sink, r.bytesRead + bytes.length, stream, store⟩ := by
  conv_lhs => rw [readAll]
  split
  · next h' => rw [h'] at h; cases h
  · next h' =>
    rw [h'] at h
    cases h
    exact absurd rfl hne
  · next h' =>
    rw [h'] at h
    cases h
    rw [hfeed]

end Load

theorem Streamed.read_of_nil {σ : Type} [Storage σ] {chunk : Nat} {store : σ} {stream : Stream}
    {file : List UInt8} (h : Streamed chunk store stream file) (hfile : file = []) :
    ∃ stream' store', Storage.read store stream chunk = .ok ([], stream', store') := by
  cases h with
  | done h => exact ⟨_, _, h⟩
  | step h rest =>
    obtain ⟨rfl, -⟩ := List.append_eq_nil_iff.mp hfile
    exact ⟨_, _, h⟩

/-- Reading a file of one byte takes a read for the byte and a read for the end. -/
theorem Streamed.reads_of_singleton {σ : Type} [HonestStorage σ] {chunk : Nat} (hc : 0 < chunk)
    {store : σ} {stream : Stream} {byte : UInt8} (h : Streamed chunk store stream [byte]) :
    ∃ stream' store' stream'' store'',
      Storage.read store stream chunk = .ok ([byte], stream', store') ∧
        Storage.read store' stream' chunk = .ok ([], stream'', store'') := by
  have hpending := h.eq_pending hc
  generalize hfile : [byte] = file at h
  cases h with
  | done h => cases hfile
  | @step _ _ _ _ bytes file h rest =>
    have hbytes : bytes ≠ [] := by
      rintro rfl
      rw [(HonestStorage.pending_read h hc).2 rfl] at hpending
      cases hpending
    obtain ⟨rfl, rfl⟩ : bytes = [byte] ∧ file = [] := by
      rcases List.singleton_eq_append_iff.mp hfile with ⟨rfl, -⟩ | hboth
      · exact absurd rfl hbytes
      · exact hboth
    obtain ⟨stream'', store'', hend⟩ := rest.read_of_nil rfl
    exact ⟨_, _, stream'', store'', h, hend⟩

/-- A file in memory is read to its end, when no read is made to fail. -/
theorem streamed_memory {m : Memory} (hreads : m.readsLeft = none) {chunk : Nat} (hc : 0 < chunk)
    (stream : Stream) :
    Streamed chunk m stream ((m.bytesOf stream.name).toList.drop stream.position) := by
  have hread := fun stream => Memory.read_of_unlimited hreads stream chunk
  induction hn : Storage.unread m stream using Nat.strongRecOn generalizing stream with
  | ind n ih =>
    by_cases hempty : (m.bytesOf stream.name).readAt stream.position chunk = []
    · have hend := hread stream
      rw [hempty] at hend
      rw [FileBytes.drop_eq_nil_of_readAt hc hempty]
      exact .done hend
    · have hrest := ih _ (hn ▸ Storage.unread_lt (hread stream) hempty) _ rfl
      rw [FileBytes.drop_eq_readAt_append _ _ chunk]
      exact .step (hread stream) hrest

/-! ## A file of one tab -/

/-- The name is that of a file of one tab, which can be read to its end. -/
structure OffersTab {σ : Type} [HonestStorage σ] (store : σ) (name : String)
    (settings : TransferSettings) : Prop where
  file_eq : HonestStorage.file? store name = some [tabByte]
  reads : ∃ stream opened read, Storage.openStream store name .read = .ok (stream, opened) ∧
    Streamed (max settings.readChunk 1) opened stream read

theorem offersTab_memory {m : Memory} {name : String} (hfile : m.file? name = some [tabByte])
    (hreads : m.readsLeft = none) (settings : TransferSettings) : OffersTab m name settings := by
  refine ⟨hfile, ⟨name, .read, 0⟩, m, _, ?_,
    streamed_memory hreads (Nat.lt_of_lt_of_le Nat.one_pos (Nat.le_max_right _ _)) _⟩
  obtain ⟨bytes, hbytes, -⟩ := Option.map_eq_some_iff.mp hfile
  simp only [Storage.openStream, Memory.openStream, hbytes]

/-- **A file of one tab**, inserted where there is room, puts blanks up to the next tab stop at the
caret. -/
theorem load_tab {σ : Type} [HonestStorage σ] {t : SegmentTable} (h : t.WellFormed) {store : σ}
    {name : String} {settings : TransferSettings} (htab : OffersTab store name settings)
    {blanks : Nat} (hblanks : blanksToStop settings t.current.buffer.lineColumn = blanks)
    (hroom : blanks ≤ t.current.buffer.free) :
    (t.load store name .insert settings).1 = .ok ⟨1, blanks, [t.active]⟩ ∧
      (t.load store name .insert settings).2.1.current.buffer
        = t.current.buffer.insertAll (List.replicate blanks blankByte) := by
  obtain ⟨stream, opened, read, hopen, hread⟩ := htab.reads
  have hchunk : 0 < max settings.readChunk 1 :=
    Nat.lt_of_lt_of_le Nat.one_pos (Nat.le_max_right _ _)
  have hpending := hread.eq_pending hchunk
  rw [HonestStorage.pending_open hopen htab.file_eq] at hpending
  subst hpending
  obtain ⟨stream', store', stream'', store'', hfirst, hend⟩ := hread.reads_of_singleton hchunk
  have hbegins := Sink.begins_firstSink h name settings
  have hcolumn : (Load.firstSink t name .insert settings).column = t.current.buffer.lineColumn :=
    congrArg (·.buffer.lineColumn) hbegins.current
  obtain ⟨taken, hfeed, htail, hstored, hsegments, hsettle⟩ :=
    hbegins.feed_tab (by rw [hcolumn]; exact hblanks) hroom
  rw [load_eq, hopen]
  -- what the sink begins with is not to be worked out again
  generalize Load.firstSink t name .insert settings = sink at *
  have hall := (Load.readAll_of_chunk name ⟨sink, 0, stream, opened⟩ (List.cons_ne_nil _ _) hfirst
    hfeed).trans (Load.readAll_of_nil name hend)
  simp only [hall, Sink.reattachTail, htail, hstored, hsegments]
  exact ⟨rfl, hsettle _⟩

end ScreenEditor
