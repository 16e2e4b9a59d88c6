import Mathlib.Data.List.Basic
import ScreenEditor.Proofs.Transfer.Parts

/-!
# The parts that a sink fills

`Filling t rest text s` is the invariant of a load that began with the table `t`: the parts closed
so far and the active one up to its caret spell `text`, and `rest` is the text that still belongs
behind it.  The headers of the parts are those that any sink gives them (`Sink.Parts`).

A byte that is stored takes the invariant one byte further (`respected_filling`), and so, by the
theory of the sink, a whole file does.
-/

namespace ScreenEditor

/-- The text of segments, one after the other. -/
def SegmentTable.textOf (t : SegmentTable) (ids : List Nat) : List UInt8 :=
  ids.flatMap fun id => (t.document id).buffer.content

namespace SegmentTable

variable {t t' : SegmentTable}

/-- The text of some segments and of others is that of them all. -/
theorem textOf_append (t : SegmentTable) (ids ids' : List Nat) :
    t.textOf (ids ++ ids') = t.textOf ids ++ t.textOf ids' := List.flatMap_append

/-- The text of one segment is its content. -/
theorem textOf_singleton (t : SegmentTable) (id : Nat) :
    t.textOf [id] = (t.document id).buffer.content := List.flatMap_singleton ..

/-- Texts are the same where the contents are. -/
theorem textOf_congr {ids : List Nat} (h : ∀ id ∈ ids, (t'.document id).buffer.content
    = (t.document id).buffer.content) : t'.textOf ids = t.textOf ids := List.flatMap_congr h

end SegmentTable

namespace Sink

/-- The invariant of a load that began with the table `t`. -/
structure Filling (t : SegmentTable) (rest text : List UInt8) (s : Sink) : Prop where
  confined : Confined t s
  room : 0 < t.capacity
  named : s.mode = .replace → t.current.header.name ≠ ""
  nodup : s.segments.Nodup
  cut : s.mode = .replace ∨ s.begun ≠ [] → s.table.current.buffer.after = []
  text_eq : s.table.textOf s.segments.dropLast ++ s.table.current.buffer.before = text
  rest_eq : s.table.current.buffer.after ++ s.tail.getD [] = rest
  name : ∀ id ∈ s.segments, (s.table.document id).header.name = t.current.header.name
  awaits : ∀ id ∈ s.segments, (s.table.document id).header.awaitsOverwrite = true →
    t.current.header.awaitsOverwrite = true
  number : t.partNumber t.active ≤ maxSlots → ∀ i id, s.segments[i]? = some id →
    s.table.partNumber id = numberAt (t.partNumber t.active) s.begun.length i
  closedAs : ∀ id ∈ s.segments.dropLast, ClosedAs s.mode (s.table.document id)
  tail_begun : s.tail ≠ none → s.mode = .insert ∧ s.begun ≠ []
  begun_tail : s.mode = .insert → s.resume = none → s.begun ≠ [] → s.tail ≠ none

variable {t : SegmentTable} {rest text : List UInt8} {s s' : Sink}

/-- A sink that fills segments has its parts in order. -/
theorem Filling.parts (h : Filling t rest text s) : Parts t s :=
  ⟨h.confined, h.named, h.nodup, h.name, h.awaits, h.number, h.closedAs⟩

/-! ## Putting a byte -/

/-- A byte that is put is the next of the text. -/
theorem Filling.put (h : Filling t rest text s) (room : s.table.current.buffer.free ≠ 0)
    (b : UInt8) : Filling t rest (text ++ [b]) (s.put b) := by
  obtain ⟨hbefore, hafter⟩ := lists_putInto b room
  have hparts := h.parts.put b
  have hcurrent : (s.put b).table.current
      = ⟨s.table.current.header, putInto b s.table.current.buffer⟩ := rfl
  refine ⟨hparts.confined, h.room, hparts.named, hparts.nodup, ?_, ?_, ?_, hparts.name,
    hparts.awaits, hparts.number, hparts.closedAs, h.tail_begun, h.begun_tail⟩
  · intro hcut
    rw [hcurrent, hafter]
    exact h.cut hcut
  · have hearlier : (s.put b).table.textOf s.segments.dropLast
        = s.table.textOf s.segments.dropLast :=
      SegmentTable.textOf_congr fun id hid => by
        rw [put_eq, SegmentTable.document_modifyBuffer_of_ne _
          (h.confined.has_of_mem (mem_of_dropLast hid)) (h.parts.ne_active hid)]
    have hseg : (s.put b).segments = s.segments := rfl
    rw [hseg, hearlier, hcurrent, hbefore, ← List.append_assoc, h.text_eq]
  · rw [hcurrent, hafter]
    exact h.rest_eq

/-! ## Beginning a part -/

/-- Behind the caret of the active segment stands nothing once the tail is taken out. -/
theorem Filling.after_eq_nil (h : Filling t rest text s)
    (hcut : ¬ (s.mode = .insert ∧ s.tail = none)) : s.table.current.buffer.after = [] := by
  cases hm : s.mode with
  | replace => exact h.cut (.inl hm)
  | insert => exact h.cut (.inr (h.tail_begun fun ht => hcut ⟨hm, ht⟩).2)

/-- A part that is closed for the next one ends at the caret. -/
theorem Filling.closed_content (h : Filling t rest text s) :
    s.detachTail.finishPart.table.current.buffer.content = s.table.current.buffer.before := by
  rw [(closedPart_closed h.confined.wellFormed).content]
  split
  · exact List.append_nil _
  · next hcut => rw [h.after_eq_nil hcut, List.append_nil]

/-- What was behind the caret is kept for the end. -/
theorem Filling.closed_rest (h : Filling t rest text s) :
    s.detachTail.finishPart.tail.getD [] = rest := by
  rw [(closedPart_closed h.confined.wellFormed).tail, ← h.rest_eq]
  split
  · next hcut => simp [hcut.2]
  · next hcut => rw [h.after_eq_nil hcut, List.nil_append]

/-- **The next part** goes on with the text where the last one ended. -/
theorem Filling.began (h : Filling t rest text s) {id : Nat} (hb : s.Began id s') :
    Filling t rest text s' := by
  have hc := closedPart_closed h.confined.wellFormed
  have hn := h.parts.nextPart hb
  have hparts := h.parts.began hb
  have hdrop : s'.segments.dropLast = s.segments := by
    rw [hb.segments_eq, List.dropLast_concat]
  refine ⟨hparts.confined, h.room, hparts.named, hparts.nodup, fun _ => hn.after, ?_, ?_,
    hparts.name, hparts.awaits, hparts.number, hparts.closedAs, ?_, ?_⟩
  · rw [hdrop, hn.before, List.append_nil, ← h.text_eq]
    conv_lhs => rw [h.confined.segments_eq]
    have hearlier : s'.table.textOf s.segments.dropLast = s.table.textOf s.segments.dropLast :=
      SegmentTable.textOf_congr fun j hj => by rw [hn.closed j hj]
    rw [SegmentTable.textOf_append, SegmentTable.textOf_singleton, hn.left, hearlier,
      SegmentTable.continued, h.closed_content]
  · rw [hn.after, List.nil_append, hb.tail]
    exact h.closed_rest
  · rw [hb.tail, hc.tail, hb.same.mode, hb.begun]
    intro htail
    refine ⟨?_, List.cons_ne_nil _ _⟩
    by_cases hcut : s.mode = .insert ∧ s.tail = none
    · exact hcut.1
    · rw [if_neg hcut] at htail
      exact (h.tail_begun htail).1
  · rw [hb.tail, hc.tail, hb.same.mode]
    intro hm _ _
    split
    · exact Option.some_ne_none _
    · next hcut => exact fun hnone => hcut ⟨hm, hnone⟩

/-! ## Storing bytes -/

/-- It has room. -/
theorem Filling.free_began (h : Filling t rest text s) {id : Nat} (hb : s.Began id s') :
    s'.table.current.buffer.free ≠ 0 := by
  have hroom := h.room
  rw [(h.parts.nextPart hb).free, (h.began hb).confined.capacity]
  omega

/-- Column, count and marks do not matter for the text. -/
theorem Filling.marks (h : Filling t rest text s) (column stored : Nat) (ret due : Bool) :
    Filling t rest text { s with
      column := column, stored := stored, pendingReturn := ret, overflowDue := due } := by
  exact ⟨h.confined.congr rfl rfl rfl, h.room, h.named, h.nodup, h.cut, h.text_eq, h.rest_eq,
    h.name, h.awaits, h.number, h.closedAs, h.tail_begun, h.begun_tail⟩

/-- **A sink goes on filling the document, wherever it continues it.** -/
theorem respected_filling (t : SegmentTable) (rest : List UInt8) :
    Respected (Filling t rest) (Confined t) :=
  respected_of_steps (fun h => h.confined) (fun b h room => h.put room b)
    (fun h hb => ⟨h.began hb, h.free_began hb⟩)
    (fun column stored ret due h => h.marks column stored ret due)

/-! ## The finished document -/

/-- All parts are closed, and together they spell `text`. -/
structure Finished (t : SegmentTable) (text : List UInt8) (s : Sink) : Prop where
  confined : Confined t s
  nodup : s.segments.Nodup
  text_eq : s.table.textOf s.segments = text
  name : ∀ id ∈ s.segments, (s.table.document id).header.name = t.current.header.name
  awaits : ∀ id ∈ s.segments, (s.table.document id).header.awaitsOverwrite = true →
    t.current.header.awaitsOverwrite = true
  number : t.partNumber t.active ≤ maxSlots → ∀ i id, s.segments[i]? = some id →
    s.table.partNumber id = numberAt (t.partNumber t.active) s.begun.length i
  closedAs : ∀ id ∈ s.segments, ClosedAs s.mode (s.table.document id)

/-- A part is closed as its mode says. -/
theorem closedAs_finished (mode : LoadMode) (d : Document) : ClosedAs mode (finished mode d) := by
  cases mode with
  | replace => exact ⟨rfl, GapBuffer.caret_seek _ (Nat.zero_le _)⟩
  | insert => exact rfl

/-- Closing the last part finishes the document. -/
theorem Parts.finished (h : Parts t s) :
    Finished t (s.finishPart.table.textOf s.segments) s.finishPart := by
  have hcurrent : s.finishPart.table.document s.table.active
      = Sink.finished s.mode s.table.current := by
    rw [finishPart_eq]
    exact SegmentTable.document_active (s.table.modifyCurrent (Sink.finished s.mode))
  have hclosed : ∀ j ∈ s.segments.dropLast, s.finishPart.table.document j = s.table.document j :=
    fun j hj => document_finishPart s (h.confined.has_of_mem (mem_of_dropLast hj)) (h.ne_active hj)
  have hsame := sameReader_finishPart s
  have hbegun := begun_finishPart s
  have hseg := segments_finishPart s
  have hheader : ∀ id ∈ s.segments, (s.finishPart.table.document id).header
      = { (s.table.document id).header with
          modified := (s.finishPart.table.document id).header.modified } := by
    intro id hid
    rw [h.confined.segments_eq, List.mem_append, List.mem_singleton] at hid
    rcases hid with hid | rfl
    · rw [hclosed id hid]
    · rw [hcurrent, header_finished, SegmentTable.document_active]
  refine ⟨h.confined.finishPart, by rw [hseg]; exact h.nodup, by rw [hseg], ?_, ?_, ?_, ?_⟩
  · rw [hseg]
    intro id hid
    rw [hheader id hid]
    exact h.name id hid
  · rw [hseg]
    intro id hid
    rw [hheader id hid]
    exact h.awaits id hid
  · rw [hseg, hbegun]
    intro hp i id hi
    rw [SegmentTable.partNumber, hheader id (List.mem_of_getElem? hi)]
    exact h.number hp i id hi
  · rw [hseg, hsame.mode]
    intro id hid
    rw [h.confined.segments_eq, List.mem_append, List.mem_singleton] at hid
    rcases hid with hid | rfl
    · rw [hclosed id hid]
      exact h.closedAs id hid
    · rw [hcurrent]
      exact closedAs_finished s.mode s.table.current

/-- Once no tail is waiting, the finished document spells the whole text. -/
theorem Filling.finished (h : Filling t rest text s) (htail : s.tail.getD [] = []) :
    Finished t (text ++ rest) s.finishPart := by
  have hrest := h.rest_eq
  rw [htail, List.append_nil] at hrest
  have hearlier : s.finishPart.table.textOf s.segments.dropLast
      = s.table.textOf s.segments.dropLast :=
    SegmentTable.textOf_congr fun j hj => by
      rw [document_finishPart s (h.confined.has_of_mem (mem_of_dropLast hj)) (h.parts.ne_active hj)]
  have hlast : (s.finishPart.table.document s.table.active).buffer.content
      = s.table.current.buffer.before ++ rest := by
    rw [finishPart_eq, SegmentTable.document_modifyCurrent _ SegmentTable.has_active, if_pos rfl,
      content_finished, GapBuffer.content, hrest]
  have htext : s.finishPart.table.textOf s.segments = text ++ rest := by
    conv_lhs => rw [h.confined.segments_eq]
    rw [SegmentTable.textOf_append, SegmentTable.textOf_singleton, hearlier, hlast,
      ← List.append_assoc, h.text_eq]
  have hfinished := h.parts.finished
  rwa [htext] at hfinished

end Sink
end ScreenEditor
