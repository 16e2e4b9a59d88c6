import ScreenEditor.Proofs.Segment.Oversized
import ScreenEditor.Proofs.Transfer.Written

/-!
# Documents in one segment

A range is written from the active segment alone, and so is a document that is no part of a chain
(`Save.Alone`).  No other segment is made active for it, so the table stays, but for the header of
the document that was saved as a whole (`table_save`).

A load into segments too large for their control blocks never begins a further one.  Whether it
succeeds or not, it changes the document at hand and nothing else (`table_load_ok`,
`table_load_error`), and what it inserts stands at the caret (`textOf_load_oversized`).
-/

namespace ScreenEditor

/-! ## Saving -/

namespace Save

/-- The active segment is all that is written. -/
def Alone (t : SegmentTable) (range : Option Span) : Prop :=
  range = none → t.current.header.part = 0

theorem alone_range (t : SegmentTable) (range : Span) : Alone t (some range) := by
  rintro ⟨⟩

variable {t : SegmentTable} {range : Option Span}

/-- A segment that stands alone is saved alone, and no chain is looked up. -/
theorem savedParts_of_alone (h : Alone t range) : savedParts t range = ([t.active], t) := by
  rw [savedParts, if_neg fun hand => hand.2 (h hand.1)]

/-- What is saved is the text of the active segment. -/
theorem savedText_of_alone (h : Alone t range) :
    t.savedText range = t.current.buffer.textIn range := by
  cases range with
  | some range => rfl
  | none =>
      rw [SegmentTable.savedText, SegmentTable.wholeDocument, if_pos (h rfl),
        SegmentTable.textOf_singleton, SegmentTable.document_active]
      rfl

/-- The active segment is written where it is. -/
theorem writeParts_active {σ : Type} [Storage σ] (name : String) (settings : TransferSettings)
    (range : Option Span) (t : SegmentTable) (w : Writer σ) :
    writeParts name settings range t w [t.active] = (t, writeRange name settings w t.current.buffer
      (range.getD ⟨0, t.current.buffer.length⟩)) := by
  simp only [writeParts, SegmentTable.switch_active]
  cases writeRange name settings w t.current.buffer
      (range.getD ⟨0, t.current.buffer.length⟩) with
  | error failed => rfl
  | ok written => rfl

end Save

/-- **A save of the active segment alone leaves the table**, but for the header of a whole document
that it wrote. -/
theorem table_save {σ : Type} [Storage σ] {t : SegmentTable} {range : Option Span}
    (h : Save.Alone t range) (store : σ) (name : String) (settings : TransferSettings) :
    (t.save store name range settings).2.1 = match (t.save store name range settings).1 with
      | .error _ => t
      | .ok _ => if range = none then t.modifyCurrent (·.savedAs name) else t := by
  have hback := SegmentTable.switch_active t
  have hrenamed : (Save.rename t [t.active] name).switch t.active
      = t.modifyCurrent (·.savedAs name) := by
    rw [Save.rename, List.foldl_cons, hback]
    exact SegmentTable.switch_active (t.modifyCurrent (·.savedAs name))
  simp only [SegmentTable.save, Save.savedParts_of_alone h]
  cases Storage.openStream store name .write with
  | error fault => rfl
  | ok opened =>
      have hwrite := Save.writeParts_active name settings range t ⟨opened.1, opened.2, 0⟩
      generalize Save.writeRange name settings ⟨opened.1, opened.2, 0⟩ t.current.buffer
        (range.getD ⟨0, t.current.buffer.length⟩) = result at hwrite
      simp only [hwrite]
      cases result with
      | error failed => exact hback
      | ok written =>
          simp only
          cases Storage.close written.1.store written.1.stream with
          | error fault => exact hback
          | ok store' =>
              by_cases hrange : range = none
              · simp only [if_pos hrange, hrenamed]
              · simp only [if_neg hrange, hback]

/-- Writing a range leaves the table, whether it succeeds or not. -/
theorem table_save_range {σ : Type} [Storage σ] (t : SegmentTable) (store : σ) (name : String)
    (range : Span) (settings : TransferSettings) :
    (t.save store name (some range) settings).2.1 = t := by
  rw [table_save (Save.alone_range t range)]
  split
  · rfl
  · exact if_neg (Option.some_ne_none range)

/-- The file holds the converted text of the active segment. -/
theorem save_written_alone {σ : Type} [FaithfulStorage σ] {t : SegmentTable}
    {range : Option Span} (h : Save.Alone t range) {store : σ} {name : String}
    {settings : TransferSettings} {count : Nat}
    (hsave : (t.save store name range settings).1 = .ok count) :
    HonestStorage.file? (t.save store name range settings).2.2 name
      = some (settings.lineEnding.convert (t.savedText range)) := by
  obtain ⟨stream, opened, written, w, hopen, hwrite, hclose, -⟩ := (of_save_ok hsave).run
  rw [Save.savedParts_of_alone h, Save.writeParts_active] at hwrite
  have hbegin : (⟨stream, opened, 0⟩ : Save.Writer σ).Holds name [] :=
    FaithfulStorage.wrote_open hopen
  obtain ⟨hholds, -⟩ := Save.writeRange_spec hbegin (congrArg Prod.snd hwrite)
  rw [GapBuffer.textIn_getD, ← Save.savedText_of_alone h] at hholds
  exact FaithfulStorage.file?_close hholds hclose

/-- In an orderly table the file holds the text that was to be saved. -/
theorem file?_of_save_ok {σ : Type} [FaithfulStorage σ] {t : SegmentTable} (h : t.Orderly)
    {range : Option Span} {store : σ} {name : String} {settings : TransferSettings} {count : Nat}
    (hsave : (t.save store name range settings).1 = .ok count) :
    HonestStorage.file? (t.save store name range settings).2.2 name
      = some (settings.lineEnding.convert (t.savedText range)) := by
  rcases h with hwf | hover
  · exact (save_written hwf hsave).1
  · exact save_written_alone (fun _ => hover.current.part) hsave

/-! ## Sinks over segments without end -/

namespace Sink

variable {t : SegmentTable} {text : List UInt8} {s : Sink}

/-- The sink began with the table `t` and has put `text` before the caret of the active segment,
which is the only one it has changed. -/
structure Lone (t : SegmentTable) (text : List UInt8) (s : Sink) : Prop where
  table : ∃ g : GapBuffer, s.table = t.modifyBuffer fun _ => g
  before : s.table.current.buffer.before = text
  after : s.table.current.buffer.after = t.current.buffer.after
  begun : s.begun = []
  tail : s.tail = none

/-- The sink has changed the document at hand, and nothing else. -/
structure Halted (t : SegmentTable) (s : Sink) : Prop where
  table : ∃ d : Document, s.table = t.modifyCurrent fun _ => d
  begun : s.begun = []

/-- A lone segment that is full has nothing behind it to go on in. -/
theorem Lone.halted (h : Lone t text s) : Halted t s := by
  obtain ⟨g, htable⟩ := h.table
  exact ⟨⟨_, htable⟩, h.begun⟩

/-- Closing a part changes the document at hand. -/
theorem Lone.closed (h : Lone t text s) : Halted t s.detachTail.finishPart := by
  obtain ⟨g, htable⟩ := h.table
  rw [finishPart_eq, detachTail]
  split
  · refine ⟨⟨finished s.mode ⟨t.current.header, g.deleteRange g.caret g.length⟩, ?_⟩, h.begun⟩
    simp only [htable]
    rfl
  · refine ⟨⟨finished s.mode ⟨t.current.header, g⟩, ?_⟩, h.begun⟩
    simp only [htable]
    rfl

/-- **Without further segments a sink goes on filling the one it has**, up to its end. -/
theorem respected_lone (hcap : 2 ^ 32 ≤ t.capacity) : Respected (Lone t) (Halted t) where
  place {text s} b h := by
    unfold place
    split
    · have hclosed := h.closed
      obtain ⟨d, htable⟩ := hclosed.table
      have hnone : s.detachTail.finishPart.table.continueInNext = none := by
        rw [htable]
        exact SegmentTable.continueInNext_of_le_capacity hcap
      simp only [overflow, hnone]
      exact hclosed
    · next hroom =>
      obtain ⟨g, htable⟩ := h.table
      have hfree : s.table.current.buffer.free ≠ 0 := by
        simp only [Bool.or_eq_true, beq_iff_eq, not_or] at hroom
        exact hroom.2
      obtain ⟨hbefore, hafter⟩ := lists_putInto b hfree
      refine ⟨⟨putInto b g, ?_⟩, ?_, ?_, h.begun, h.tail⟩
      · rw [put_eq]
        simp only [htable]
        rfl
      · rw [← h.before]
        exact hbefore
      · rw [← h.after]
        exact hafter
  marks _ _ _ _ h := ⟨h.table, h.before, h.after, h.begun, h.tail⟩

end Sink

/-! ## Loading -/

namespace Load

variable {t : SegmentTable} {mode : LoadMode}

/-- A document of its own has no other parts to be listed. -/
theorem listed_of_part_eq_zero (mode : LoadMode) (hpart : t.current.header.part = 0) :
    listed t mode = t ∧ stale t mode = [] ∧ later t mode = [] := by
  cases mode with
  | replace =>
      rw [listed, stale, later, otherParts, if_pos hpart]
      exact ⟨rfl, rfl, rfl⟩
  | insert =>
      rw [listed, stale, later, laterParts, if_pos hpart]
      exact ⟨rfl, rfl, rfl⟩

/-- So it alone is made ready for the file. -/
theorem ready_of_part_eq_zero (mode : LoadMode) (hpart : t.current.header.part = 0)
    (name : String) :
    ∃ d : Document, ready t mode name = t.modifyCurrent fun _ => d := by
  obtain ⟨hlisted, -⟩ := listed_of_part_eq_zero mode hpart
  rw [ready, hlisted]
  cases mode with
  | replace => exact ⟨_, rfl⟩
  | insert => exact ⟨t.current, rfl⟩

/-- The sink that a load begins with has put nothing. -/
theorem lone_firstSink (t : SegmentTable) (name : String) (mode : LoadMode)
    (settings : TransferSettings) :
    Sink.Lone (ready t mode name) (ready t mode name).current.buffer.before
      (firstSink t name mode settings) :=
  ⟨⟨(ready t mode name).current.buffer, rfl⟩, rfl, rfl, rfl, rfl⟩

/-- The header of the document at hand after a load. -/
def loadedHeader (t : SegmentTable) (mode : LoadMode) (name : String) : Header :=
  { (ready t mode name).current.header with modified := mode == .insert }

end Load

section

variable {t : SegmentTable} {mode : LoadMode} {name : String} {settings : TransferSettings}

/-- What a load leaves that has read its file: the part is closed. -/
theorem Sink.Lone.settled {text : List UInt8} {s : Sink} (hpart : t.current.header.part = 0)
    (h : Lone (Load.ready t mode name) text s) (hmode : s.mode = mode) (hresume : s.resume = none)
    (horigin : s.origin = s.table.active) :
    ∃ g : GapBuffer, g.content = text ++ (Load.ready t mode name).current.buffer.after ∧
      Load.settle s (Load.stale t mode) (Load.later t mode)
        = t.modifyCurrent fun _ => ⟨Load.loadedHeader t mode name, g⟩ := by
  obtain ⟨-, hstale, -⟩ := Load.listed_of_part_eq_zero mode hpart
  obtain ⟨d, hready⟩ := Load.ready_of_part_eq_zero mode hpart name
  obtain ⟨g, htable⟩ := h.table
  have hcontent : s.table.current.buffer.content
      = text ++ (Load.ready t mode name).current.buffer.after := by
    rw [GapBuffer.content, h.before, h.after]
  refine ⟨(finished mode s.table.current).buffer, ?_, ?_⟩
  · rw [content_finished, hcontent]
  · have hheader : (finished mode s.table.current).header = Load.loadedHeader t mode name := by
      rw [header_finished, htable]
      rfl
    rw [hstale, Load.settle_of_one h.begun hresume horigin, finishPart_eq, hmode, ← hheader]
    simp only [htable, hready]
    rfl

variable {σ : Type} [Storage σ] {store : σ}

/-- **A load into such segments that succeeds** changes the document at hand and nothing else. -/
theorem table_load_ok (hcap : 2 ^ 32 ≤ t.capacity) (hpart : t.current.header.part = 0)
    {report : LoadReport} (hload : (t.load store name mode settings).1 = .ok report) :
    ∃ g : GapBuffer, (t.load store name mode settings).2.1
      = t.modifyCurrent fun _ => ⟨Load.loadedHeader t mode name, g⟩ := by
  obtain ⟨d, hready⟩ := Load.ready_of_part_eq_zero mode hpart name
  have hcap' : 2 ^ 32 ≤ (Load.ready t mode name).capacity := by rwa [hready]
  obtain ⟨stream, store', done, sink, -, hrun, htail, -, heq⟩ := (of_load_ok hload).run
  have hread := (Sink.respected_lone hcap').readAll name (max settings.readChunk 1)
    ⟨Load.firstSink t name mode settings, 0, stream, store'⟩
    (Load.lone_firstSink t name mode settings)
  rw [hrun] at hread
  obtain ⟨file, output, -, hlone, htook, -⟩ := hread
  rw [Sink.reattachTail, hlone.tail] at htail
  obtain rfl := Except.ok.inj htail
  obtain ⟨g, htable⟩ := hlone.table
  have horigin : done.sink.origin = done.sink.table.active := by
    rw [htook.origin, htable]
    rfl
  obtain ⟨g', -, hsettled⟩ := hlone.settled hpart htook.mode htook.resume horigin
  exact ⟨g', heq.trans hsettled⟩

/-- **A load into such segments that fails** changes at most the cells of the document at hand. -/
theorem table_load_error (hcap : 2 ^ 32 ≤ t.capacity) (hpart : t.current.header.part = 0)
    {e : EditorError} (hload : (t.load store name mode settings).1 = .error e) :
    ∃ g : GapBuffer, (t.load store name mode settings).2.1 = t.modifyBuffer fun _ => g := by
  obtain ⟨d, hready⟩ := Load.ready_of_part_eq_zero mode hpart name
  have hcap' : 2 ^ 32 ≤ (Load.ready t mode name).capacity := by rwa [hready]
  have hundo : ∀ s : Sink, Sink.Halted (Load.ready t mode name) s →
      ∃ g : GapBuffer, (Checkpoint.take t).restore s.table s.begun.reverse
        = t.modifyBuffer fun _ => g := by
    intro s hs
    obtain ⟨d', htable⟩ := hs.table
    have hactive : (t.modifyCurrent fun _ => d').switch t.active = t.modifyCurrent fun _ => d' :=
      SegmentTable.switch_active (t.modifyCurrent fun _ => d')
    rw [htable, hready, hs.begun]
    refine ⟨((d'.buffer.reset.insertAll t.current.buffer.content).seek t.current.buffer.caret), ?_⟩
    rw [Checkpoint.restore]
    exact congrArg (SegmentTable.modifyCurrent · _) hactive
  rw [load_eq] at hload ⊢
  cases hopen : Storage.openStream store name .read with
  | error fault => exact ⟨t.current.buffer, rfl⟩
  | ok opened =>
      simp only [hopen] at hload ⊢
      have hread := (Sink.respected_lone hcap').readAll name (max settings.readChunk 1)
        ⟨Load.firstSink t name mode settings, 0, opened.1, opened.2⟩
        (Load.lone_firstSink t name mode settings)
      cases hrun : Load.readAll name (max settings.readChunk 1)
          ⟨Load.firstSink t name mode settings, 0, opened.1, opened.2⟩ with
      | error failed =>
          rw [hrun] at hread
          refine hundo failed.sink ?_
          rcases hread with hhalted | ⟨_, hlone⟩
          · exact hhalted
          · exact hlone.halted
      | ok done =>
          rw [hrun] at hread
          obtain ⟨_, _, _, hlone, _⟩ := hread
          simp only [hrun, Sink.reattachTail, hlone.tail] at hload
          cases hload

end

/-- **A file inserted into such a segment** stands at the caret, in the one segment of the
document. -/
theorem textOf_load_oversized {σ : Type} [HonestStorage σ] {t : SegmentTable} {store : σ}
    {name : String} {settings : TransferSettings} (hcap : 2 ^ 32 ≤ t.capacity)
    (hpart : t.current.header.part = 0) {file : List UInt8}
    (hfile : HonestStorage.file? store name = some file) {report : LoadReport}
    (hload : (t.load store name .insert settings).1 = .ok report) :
    let t' := (t.load store name .insert settings).2.1
    t'.textOf report.segments = t.current.buffer.before
        ++ translate (max settings.tabWidth 1) t.current.buffer.lineColumn file
        ++ t.current.buffer.after ∧
      report.segments = [t.active] ∧ t'.active = t.active ∧ t'.current.header.part = 0 := by
  intro t'
  obtain ⟨hlisted, -⟩ := Load.listed_of_part_eq_zero .insert hpart
  have hready : Load.ready t .insert name = t := hlisted
  have hbegin := Load.lone_firstSink t name .insert settings
  have howed : (Load.firstSink t name .insert settings).owed file
      = translate (max settings.tabWidth 1) t.current.buffer.lineColumn file := by
    rw [Load.firstSink, hready]
    rfl
  obtain ⟨taken, sink, hlone, htook, htail, rfl, hsettled⟩ := tracked_of_load_ok
    (Sink.respected_lone (by rwa [hready])).tracked hbegin (fun _ _ => trivial) hfile hload
  rw [Sink.reattachTail, hlone.tail] at htail
  obtain rfl := Except.ok.inj htail
  obtain ⟨g, htable⟩ := hlone.table
  have horigin : taken.origin = taken.table.active := by
    rw [htook.origin, htable]
    rfl
  obtain ⟨g', hcontent, hdone⟩ := hlone.settled hpart htook.mode htook.resume horigin
  have hsegments : taken.segments = [t.active] := by
    rw [Sink.segments, hlone.begun, htook.origin, Load.firstSink, hready]
    rfl
  have hleft : t' = t.modifyCurrent fun _ => ⟨Load.loadedHeader t .insert name, g'⟩ :=
    hsettled.trans hdone
  rw [hready, howed] at hcontent
  refine ⟨?_, hsegments, by rw [hleft]; rfl, ?_⟩
  · have hactive : t'.active = t.active := by rw [hleft]; rfl
    rw [hsegments, ← hactive, SegmentTable.textOf_singleton, SegmentTable.document_active, hleft]
    exact hcontent
  · rw [hleft, Load.loadedHeader, hready]
    exact hpart

end ScreenEditor
