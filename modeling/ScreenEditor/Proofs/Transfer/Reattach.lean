import ScreenEditor.Proofs.Transfer.Filling

/-!
# Putting the tail back

When a file is inserted, the text behind the caret is taken out with the first further part and put
back at the end.  The caret is to stand where the inserted text ends, wherever the tail goes:
`EndsAt` names such a place, and it stays where it is while the text grows behind it.
-/

namespace ScreenEditor.Sink

variable {p : SegmentTable} {text pre : List UInt8} {s s' : Sink} {id caret : Nat}

/-- Up to an offset in one of its segments the sink spells `pre`. -/
def EndsAt (s : Sink) (pre : List UInt8) (id caret : Nat) : Prop :=
  ∃ earlier later, s.segments = earlier ++ id :: later ∧
    s.table.textOf earlier ++ (s.table.document id).buffer.content.take caret = pre ∧
    caret ≤ (s.table.document id).buffer.length

/-- A place stays where it is while the text grows at its end. -/
theorem EndsAt.grow (h : s.EndsAt pre id caret) {active : Nat}
    (hlast : s.segments = s.segments.dropLast ++ [active])
    (hmore : ∃ more, s'.segments = s.segments ++ more)
    (hclosed : ∀ j ∈ s.segments.dropLast, (s'.table.document j).buffer.content
      = (s.table.document j).buffer.content)
    (hactive : ∃ bytes, (s'.table.document active).buffer.content
      = (s.table.document active).buffer.content ++ bytes) : s'.EndsAt pre id caret := by
  obtain ⟨earlier, later, hseg, hpre, hle⟩ := h
  obtain ⟨more, hmore⟩ := hmore
  have hdrop : s.segments.dropLast = earlier ++ (id :: later).dropLast := by
    rw [hseg, List.dropLast_append_of_ne_nil (List.cons_ne_nil _ _)]
  have hearlier : s'.table.textOf earlier = s.table.textOf earlier :=
    SegmentTable.textOf_congr fun j hj => hclosed j (by rw [hdrop]; exact List.mem_append_left _ hj)
  have hgrown : ∃ bytes, (s'.table.document id).buffer.content
      = (s.table.document id).buffer.content ++ bytes := by
    have hid : id ∈ s.segments := by
      rw [hseg]
      exact List.mem_append_right _ List.mem_cons_self
    rw [hlast, List.mem_append, List.mem_singleton] at hid
    rcases hid with hid | rfl
    · exact ⟨[], by rw [hclosed id hid, List.append_nil]⟩
    · exact hactive
  obtain ⟨bytes, hbytes⟩ := hgrown
  have hlen := congrArg List.length hbytes
  rw [List.length_append, GapBuffer.length_content, GapBuffer.length_content] at hlen
  refine ⟨earlier, later ++ more, ?_, ?_, by omega⟩
  · rw [hmore, hseg, List.append_assoc, List.cons_append]
  · rw [hearlier, hbytes, List.take_append_of_le_length (by rwa [GapBuffer.length_content]), hpre]

/-- The active part up to its caret is such a place. -/
theorem Filling.endsAt {rest : List UInt8} (h : Filling p rest text s) :
    s.EndsAt text s.table.active s.table.current.buffer.caret := by
  refine ⟨s.segments.dropLast, [], h.confined.segments_eq, ?_, ?_⟩
  · rw [SegmentTable.document_active, ← GapBuffer.before_eq_take, h.text_eq]
  · rw [SegmentTable.document_active]
    exact GapBuffer.caret_le_length _

/-- The text behind the caret is back, or on its way back, and the place is still known. -/
def Resuming (p : SegmentTable) (pre : List UInt8) (id caret : Nat) (text : List UInt8)
    (s : Sink) : Prop :=
  Filling p [] text s ∧ s.begun ≠ [] ∧ s.EndsAt pre id caret

/-- Every byte of the tail goes behind the place where the inserted text ends. -/
theorem Resuming.put (h : Resuming p pre id caret text s)
    (room : s.table.current.buffer.free ≠ 0) (b : UInt8) :
    Resuming p pre id caret (text ++ [b]) (s.put b) := by
  obtain ⟨hfill, hbegun, hends⟩ := h
  refine ⟨hfill.put room b, hbegun, ?_⟩
  refine hends.grow hfill.confined.segments_eq ⟨[], (List.append_nil _).symm⟩ ?_ ⟨[b], ?_⟩
  · intro j hj
    rw [put_eq, SegmentTable.document_modifyBuffer_of_ne _
      (hfill.confined.has_of_mem (mem_of_dropLast hj)) (hfill.parts.ne_active hj)]
  · have hactive : (s.put b).table.document s.table.active = (s.put b).table.current :=
      SegmentTable.document_active (s.put b).table
    have hcurrent : (s.put b).table.current.buffer = putInto b s.table.current.buffer := rfl
    obtain ⟨hbefore, hafter⟩ := lists_putInto b room
    rw [hactive, hcurrent, SegmentTable.document_active, GapBuffer.content, GapBuffer.content,
      hbefore, hafter, hfill.cut (.inr hbegun), List.append_nil, List.append_nil]

/-- That place stays where it is when the tail goes on in another segment. -/
theorem Resuming.began (h : Resuming p pre id caret text s) {next : Nat}
    (hb : s.Began next s') : Resuming p pre id caret text s' := by
  obtain ⟨hfill, hbegun, hends⟩ := h
  have hn := hfill.parts.nextPart hb
  refine ⟨hfill.began hb, by rw [hb.begun]; exact List.cons_ne_nil _ _, ?_⟩
  refine hends.grow hfill.confined.segments_eq ⟨[next], hb.segments_eq⟩ ?_ ⟨[], ?_⟩
  · intro j hj
    rw [hn.closed j hj]
  · rw [hn.left, SegmentTable.continued, hfill.closed_content, SegmentTable.document_active,
      GapBuffer.content, hfill.cut (.inr hbegun), List.append_nil, List.append_nil]

/-- So it stays through the whole tail, and a failure leaves the documents to be restored. -/
theorem respected_resuming (p : SegmentTable) (pre : List UInt8) (id caret : Nat) :
    Respected (Resuming p pre id caret) (Confined p) :=
  respected_of_steps (fun h => h.1.confined) (fun b h room => h.put room b)
    (fun h hb => ⟨h.began hb, h.1.free_began hb⟩)
    (fun column stored ret due h => ⟨h.1.marks column stored ret due, h.2.1, h.2.2⟩)

/-- What putting the tail back leaves: the whole text in place, and the end of the inserted text
known if further parts were begun. -/
structure Reattached (p : SegmentTable) (text whole : List UInt8) (s s' : Sink) : Prop where
  filling : ∃ text' rest', Filling p rest' text' s' ∧ text' ++ rest' = whole
  tail : s'.tail.getD [] = []
  mode : s'.mode = s.mode
  stored : s'.stored = s.stored
  resume : (s'.begun = [] ∧ s' = s) ∨
    (s'.begun ≠ [] ∧ ∃ id caret, s'.resume = some (id, caret) ∧ s'.EndsAt text id caret)

/-- A tail that found room stands behind the inserted text. -/
theorem Filling.reattached {rest : List UInt8} (h : Filling p rest text s) (hm : s.mode = .insert)
    (hr : s.resume = none) (hok : s.reattachTail = .ok s') :
    Reattached p text (text ++ rest) s s' := by
  unfold Sink.reattachTail at hok
  cases htail : s.tail with
  | none =>
      rw [htail] at hok
      obtain rfl := Except.ok.inj hok
      have hbegun : s.begun = [] := by
        by_contra hne
        exact h.begun_tail hm hr hne htail
      exact ⟨⟨text, rest, h, rfl⟩, by rw [htail]; rfl, rfl, rfl, .inl ⟨hbegun, rfl⟩⟩
  | some tail =>
      rw [htail] at hok
      have hbegun : s.begun ≠ [] := (h.tail_begun (by rw [htail]; exact Option.some_ne_none _)).2
      have hafter := h.cut (.inr hbegun)
      have hrest : tail = rest := by
        have hrest := h.rest_eq
        rwa [hafter, htail, List.nil_append] at hrest
      generalize hfresh : ({ s with
        tail := none
        overflowDue := false
        resume := some (s.table.active, s.table.current.buffer.caret) } : Sink) = s₁ at hok
      replace hok : tail.foldlM Sink.place s₁ = .ok s' := hok
      have hconf := h.confined
      have hstart : Filling p [] text s₁ := by
        rw [← hfresh]
        exact ⟨hconf.congr rfl rfl rfl, h.room, h.named, h.nodup, h.cut, h.text_eq,
          by rw [hafter]; rfl, h.name, h.awaits, h.number, h.closedAs,
          fun hne => absurd rfl hne, fun _ hne => absurd hne (Option.some_ne_none _)⟩
      have hbegin : Resuming p text s.table.active s.table.current.buffer.caret text s₁ := by
        refine ⟨hstart, by rw [← hfresh]; exact hbegun, ?_⟩
        have hends := hstart.endsAt
        rwa [← hfresh] at hends ⊢
      have hall := (respected_resuming p text s.table.active
        s.table.current.buffer.caret).placeAll hbegin tail
      rw [hok] at hall
      obtain ⟨⟨hfill, hbegun', hends⟩, hsame⟩ := hall
      have hempty := List.append_eq_nil_iff.mp hfill.rest_eq
      refine ⟨⟨text ++ tail, [], hfill, by rw [List.append_nil, hrest]⟩, hempty.2, ?_, ?_,
        .inr ⟨hbegun', s.table.active, s.table.current.buffer.caret, ?_, hends⟩⟩
      · rw [hsame.mode, ← hfresh]
      · rw [hsame.stored, ← hfresh]
      · rw [hsame.resume, ← hfresh]

end ScreenEditor.Sink
