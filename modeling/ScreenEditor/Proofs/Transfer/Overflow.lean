import ScreenEditor.Proofs.Segment.Operations
import ScreenEditor.Proofs.Transfer.Sink

/-!
# Going on in another segment

When the active segment is full or to be left, a sink takes out the text behind the caret (the first
time, when it inserts), closes the part, and continues the document in an unused segment.
`ClosedPart` says what closing leaves and `Began` what beginning the next part leaves, both in
terms of the documents of the table.

A sink is *confined* if it changed no document but that of the segment it began in and those of
unused segments.  Storing bytes keeps it confined, also when no segment is left
(`respected_confined`), so a failed load can be undone.
-/

namespace ScreenEditor.Sink

variable {s : Sink}

/-! ## Closing a part -/

/-- What closing the active part of a sink leaves. -/
structure ClosedPart (s s' : Sink) : Prop where
  wellFormed : s'.table.WellFormed
  capacity : s'.table.capacity = s.table.capacity
  count : s'.table.count = s.table.count
  active : s'.table.active = s.table.active
  document : ∀ j, s.table.has j = true → j ≠ s.table.active →
    s'.table.document j = s.table.document j
  header : s'.table.current.header = { s.table.current.header with modified := s.mode == .insert }
  content : s'.table.current.buffer.content = s.table.current.buffer.before
    ++ (if s.mode = .insert ∧ s.tail = none then [] else s.table.current.buffer.after)
  caret : s.mode = .replace → s'.table.current.buffer.caret = 0
  begun : s'.begun = s.begun
  origin : s'.origin = s.origin
  tail : s'.tail = if s.mode = .insert ∧ s.tail = none then some s.table.current.buffer.after
    else s.tail

/-- A document as it is left when its part is closed. -/
def finished (mode : LoadMode) (d : Document) : Document :=
  match mode with
  | .replace => ⟨{ d.header with modified := false }, d.buffer.seek 0⟩
  | .insert => d.markModified

/-- Closing a part changes its document. -/
theorem finishPart_eq (s : Sink) :
    s.finishPart = { s with table := s.table.modifyCurrent (finished s.mode) } := by
  unfold finishPart
  split
  · next hm =>
    rw [hm]
    rfl
  · next hm =>
    rw [hm]
    rfl

/-- It begins no segment. -/
theorem begun_finishPart (s : Sink) : s.finishPart.begun = s.begun := by
  rw [finishPart_eq]

theorem segments_finishPart (s : Sink) : s.finishPart.segments = s.segments := by
  rw [finishPart_eq]
  rfl

/-- No other document changes. -/
theorem document_finishPart (s : Sink) {j : Nat} (hj : s.table.has j = true)
    (hne : j ≠ s.table.active) : s.finishPart.table.document j = s.table.document j := by
  rw [finishPart_eq, SegmentTable.document_modifyCurrent _ hj, if_neg hne]

/-- A part that was inserted into counts as modified, one that was read does not. -/
theorem header_finished (mode : LoadMode) (d : Document) :
    (finished mode d).header = { d.header with modified := mode == .insert } := by
  cases mode <;> rfl

/-- Its text is as it was. -/
theorem content_finished (mode : LoadMode) (d : Document) :
    (finished mode d).buffer.content = d.buffer.content := by
  cases mode with
  | replace => exact GapBuffer.content_seek _ 0
  | insert => rfl

/-- It can be put away. -/
theorem storable_finished (mode : LoadMode) {d : Document} {capacity : Nat}
    (h : d.Storable capacity) : (finished mode d).Storable capacity := by
  cases mode with
  | replace => exact ⟨(GapBuffer.capacity_seek _ 0).trans h.capacity_eq, h.nameFits⟩
  | insert => exact ⟨h.capacity_eq, h.nameFits⟩

/-- Where no tail is taken out, closing leaves what it says. -/
theorem closedPart_finishPart (h : s.table.WellFormed)
    (hcut : ¬ (s.mode = .insert ∧ s.tail = none)) : s.ClosedPart s.finishPart := by
  rw [finishPart_eq]
  refine ⟨h.modifyCurrent (storable_finished s.mode h.current), rfl, rfl, rfl, ?_,
    header_finished s.mode s.table.current, ?_, ?_, rfl, rfl, ?_⟩
  · intro j hj hne
    rw [SegmentTable.document_modifyCurrent _ hj, if_neg hne]
  · rw [if_neg hcut]
    exact content_finished s.mode s.table.current
  · intro hm
    simp only [SegmentTable.current_modifyCurrent, hm, finished]
    exact GapBuffer.caret_seek _ (Nat.zero_le _)
  · rw [if_neg hcut]

/-- The text behind the caret is taken out before the first further segment of an insertion. -/
theorem detachTail_of_cut (hcut : s.mode = .insert ∧ s.tail = none) : s.detachTail =
    { s with
      tail := some s.table.current.buffer.after
      table := s.table.modifyBuffer fun g => g.deleteRange g.caret g.length } := by
  have hafter : s.table.current.buffer.contentRange s.table.current.buffer.caret
      s.table.current.buffer.length = s.table.current.buffer.after := by
    rw [GapBuffer.contentRange_eq, ← GapBuffer.length_content, List.take_length,
      ← GapBuffer.after_eq_drop]
  simp only [detachTail, if_pos hcut, hafter]

/-- **A part that is closed** for the next one has given up its tail. -/
theorem closedPart_closed (h : s.table.WellFormed) : s.ClosedPart s.detachTail.finishPart := by
  by_cases hcut : s.mode = .insert ∧ s.tail = none
  · rw [detachTail_of_cut hcut]
    generalize hcutTable : (s.table.modifyBuffer fun g => g.deleteRange g.caret g.length) = t
    have hcurrent : t.current = ⟨s.table.current.header,
        s.table.current.buffer.deleteRange s.table.current.buffer.caret
          s.table.current.buffer.length⟩ := by
      rw [← hcutTable]
      rfl
    have hle := s.table.current.buffer.caret_le_length
    have hbefore : t.current.buffer.before = s.table.current.buffer.before := by
      rw [hcurrent, GapBuffer.before_deleteRange _ hle (Nat.le_refl _), GapBuffer.before_eq_take]
    have hafter : t.current.buffer.after = [] := by
      rw [hcurrent, GapBuffer.after_deleteRange _ hle (Nat.le_refl _), ← GapBuffer.length_content,
        List.drop_length]
    have hwf : t.WellFormed := by
      rw [← hcutTable]
      exact h.modifyBuffer (GapBuffer.capacity_deleteRange _ _ _)
    have hframe : t.capacity = s.table.capacity ∧ t.count = s.table.count
        ∧ t.active = s.table.active := by
      rw [← hcutTable]
      exact ⟨rfl, rfl, rfl⟩
    have hdocs : ∀ j, s.table.has j = true → j ≠ s.table.active →
        t.document j = s.table.document j := by
      intro j hj hne
      rw [← hcutTable, SegmentTable.document_modifyBuffer_of_ne _ hj hne]
    have hfinish := closedPart_finishPart (s := { s with
      tail := some s.table.current.buffer.after, table := t }) hwf (by simp)
    refine ⟨hfinish.wellFormed, hfinish.capacity.trans hframe.1, hfinish.count.trans hframe.2.1,
      hfinish.active.trans hframe.2.2, ?_, ?_, ?_, ?_, hfinish.begun, hfinish.origin, ?_⟩
    · intro j hj hne
      rw [hfinish.document j (by rwa [SegmentTable.has_congr hframe.2.1])
        (by rwa [hframe.2.2]), hdocs j hj hne]
    · rw [hfinish.header]
      simp only [hcurrent]
    · rw [hfinish.content]
      simp only [hbefore, hafter, if_pos hcut, ite_self]
    · exact hfinish.caret
    · rw [hfinish.tail]
      simp only [if_pos hcut, reduceCtorEq, and_false, if_false]
  · have hsame : s.detachTail = s := by
      rw [detachTail, if_neg hcut]
    rw [hsame]
    exact closedPart_finishPart h hcut

/-! ## Beginning a part -/

/-- What beginning the next part, in segment `id`, leaves. -/
structure Began (s : Sink) (id : Nat) (s' : Sink) : Prop where
  same : s.SameReader s'
  begun : s'.begun = id :: s.begun
  tail : s'.tail = s.detachTail.finishPart.tail
  continued : s.detachTail.finishPart.table.Continued id s'.table

/-- The next segment comes after those before. -/
theorem Began.segments_eq {s' : Sink} {id : Nat} (hb : s.Began id s') :
    s'.segments = s.segments ++ [id] := by
  rw [segments, segments, hb.begun, hb.same.origin, List.reverse_cons, ← List.cons_append]

/-- Either the next part is begun, or the sink stays with its part closed. -/
theorem overflow_spec (h : s.table.WellFormed) :
    s.overflow.Spec (fun s' => ∃ id, s.Began id s') (fun s' => s' = s.detachTail.finishPart) := by
  have hsame := sameReader_overflow s
  have hclosed := closedPart_closed h
  unfold overflow at hsame ⊢
  cases hc : s.detachTail.finishPart.table.continueInNext with
  | none => simp only [hc, Filled.Spec]
  | some next =>
      simp only [hc, Filled.Spec] at hsame ⊢
      exact ⟨next.1, hsame, by rw [hclosed.begun], rfl,
        SegmentTable.continueInNext_spec hclosed.wellFormed hc⟩

/-- The documents once the next part is begun. -/
theorem Began.document {s' : Sink} {id : Nat} (hb : s.Began id s') (h : s.table.WellFormed)
    {j : Nat} (hj : s.table.has j = true) : s'.table.document j =
      if j = id then s'.table.current
      else if j = s.table.active then SegmentTable.continued s.detachTail.finishPart.table.current
      else s.table.document j := by
  have hc := closedPart_closed h
  have hk := hb.continued
  split
  · next he => rw [he, ← hk.active, SegmentTable.document_active]
  · next he =>
    rw [hk.document j ((SegmentTable.has_congr hc.count j).trans hj) he, hc.active]
    split
    · rfl
    · next hne => rw [hc.document j hj hne]

/-! ## Putting a byte -/

/-- The text of the active document with a byte put before the caret, if there is room. -/
def putInto (b : UInt8) (g : GapBuffer) : GapBuffer :=
  if room : g.gapBegin < g.gapEnd then g.insert b room else g

/-- A byte is put into the text of the active segment. -/
theorem put_eq (s : Sink) (b : UInt8) :
    s.put b = { s with table := s.table.modifyBuffer (putInto b) } := rfl

theorem capacity_putInto (b : UInt8) (g : GapBuffer) : (putInto b g).capacity = g.capacity := by
  unfold putInto
  split
  · rw [GapBuffer.capacity_insert]
  · rfl

/-- With room for it the byte stands before the caret. -/
theorem lists_putInto (b : UInt8) {g : GapBuffer} (room : g.free ≠ 0) :
    (putInto b g).before = g.before ++ [b] ∧ (putInto b g).after = g.after := by
  have hlt : g.gapBegin < g.gapEnd := by
    rw [GapBuffer.free] at room
    omega
  rw [putInto, dif_pos hlt]
  exact ⟨GapBuffer.before_insert g b hlt, GapBuffer.after_insert g b hlt⟩

/-- Putting a byte changes no header. -/
theorem header_put (s : Sink) (b : UInt8) {j : Nat} (hj : s.table.has j = true) :
    ((s.put b).table.document j).header = (s.table.document j).header := by
  rw [put_eq, SegmentTable.modifyBuffer, SegmentTable.document_modifyCurrent _ hj]
  split
  · next he =>
    rw [he, SegmentTable.document_active]
    rfl
  · rfl

/-! ## Confinement -/

/-- The sink changed no document of the table `t` but that of the active segment and those of unused
segments, and these are the ones it began. -/
structure Confined (t : SegmentTable) (s : Sink) : Prop where
  wellFormed : s.table.WellFormed
  capacity : s.table.capacity = t.capacity
  count : s.table.count = t.count
  origin : s.origin = t.active
  active : s.table.active = s.begun.headD t.active
  fresh : ∀ id ∈ s.begun, t.has id = true ∧ (id = t.active ∨ (t.document id).isUnused = true)
  others : ∀ id, t.has id = true → id ≠ t.active → id ∉ s.begun →
    s.table.document id = t.document id

variable {t : SegmentTable}

theorem Confined.has (h : Confined t s) (id : Nat) : s.table.has id = t.has id :=
  SegmentTable.has_congr h.count id

/-- The active segment is the one a sink began in or one that it began. -/
theorem Confined.active_cases (h : Confined t s) :
    s.table.active = t.active ∨ s.table.active ∈ s.begun := by
  rw [h.active]
  cases s.begun with
  | nil => exact .inl rfl
  | cons id earlier => exact .inr List.mem_cons_self

/-- Changing the active document of the sink keeps it confined. -/
theorem Confined.of_active (h : Confined t s) {s' : Sink} (hwf : s'.table.WellFormed)
    (hcap : s'.table.capacity = s.table.capacity) (hcount : s'.table.count = s.table.count)
    (hactive : s'.table.active = s.table.active) (hbegun : s'.begun = s.begun)
    (horigin : s'.origin = s.origin)
    (hdoc : ∀ j, s.table.has j = true → j ≠ s.table.active →
      s'.table.document j = s.table.document j) : Confined t s' where
  wellFormed := hwf
  capacity := hcap.trans h.capacity
  count := hcount.trans h.count
  origin := horigin.trans h.origin
  active := by rw [hactive, hbegun, h.active]
  fresh := by rw [hbegun]; exact h.fresh
  others := by
    intro id hid hne hnot
    rw [hbegun] at hnot
    have hother : id ≠ s.table.active := by
      rcases h.active_cases with ha | ha
      · rwa [ha]
      · intro he
        exact hnot (he ▸ ha)
    rw [hdoc id (by rwa [h.has]) hother, h.others id hid hne hnot]

/-- Closing the part for the next one keeps a sink confined. -/
theorem Confined.closed (h : Confined t s) : Confined t s.detachTail.finishPart := by
  have hc := closedPart_closed h.wellFormed
  exact h.of_active hc.wellFormed hc.capacity hc.count hc.active hc.begun hc.origin hc.document

/-- Closing the last part does too. -/
theorem Confined.finishPart (h : Confined t s) : Confined t s.finishPart := by
  have hwf : s.finishPart.table.WellFormed := by
    rw [finishPart_eq]
    exact h.wellFormed.modifyCurrent (storable_finished s.mode h.wellFormed.current)
  refine h.of_active hwf ?_ ?_ ?_ (begun_finishPart s) (sameReader_finishPart s).origin
    fun j hj hne => document_finishPart s hj hne
  all_goals rw [finishPart_eq]; rfl

/-- So does putting a byte. -/
theorem Confined.put (h : Confined t s) (b : UInt8) : Confined t (s.put b) := by
  rw [put_eq]
  refine h.of_active (h.wellFormed.modifyBuffer (capacity_putInto b _)) rfl rfl rfl rfl rfl ?_
  intro j hj hne
  exact SegmentTable.document_modifyBuffer_of_ne _ hj hne

/-- **So does beginning a segment**, since it was unused. -/
theorem Confined.began (h : Confined t s) {id : Nat} {s' : Sink} (hb : s.Began id s') :
    Confined t s' := by
  have hclosed := h.closed
  have hk := hb.continued
  have hbegun := (closedPart_closed h.wellFormed).begun
  have hid : t.has id = true := by rw [← hclosed.has]; exact hk.has_id
  refine ⟨hk.wellFormed, hk.capacity.trans hclosed.capacity, hk.count.trans hclosed.count,
    hb.same.origin.trans h.origin, ?_, ?_, ?_⟩
  · rw [hk.active, hb.begun]
    rfl
  · intro j hj
    rw [hb.begun] at hj
    rcases List.mem_cons.mp hj with rfl | hj
    · refine ⟨hid, ?_⟩
      by_cases ha : j = t.active
      · exact .inl ha
      · by_cases hmem : j ∈ s.begun
        · exact h.fresh j hmem |>.2
        · refine .inr ?_
          rw [← hclosed.others j hid ha (by rwa [hbegun])]
          exact hk.unused
    · exact h.fresh j hj
  · intro j hj hne hnot
    rw [hb.begun, List.mem_cons, not_or] at hnot
    have hother : j ≠ s.detachTail.finishPart.table.active := by
      rcases hclosed.active_cases with ha | ha
      · rwa [ha]
      · intro he
        rw [← he, hbegun] at ha
        exact hnot.2 ha
    rw [hk.document j (by rwa [hclosed.has]) hnot.1, if_neg hother,
      hclosed.others j hj hne (by rw [hbegun]; exact hnot.2)]

/-- A predicate on sinks that makes them confined is respected if putting a byte and beginning a
part keep it. -/
theorem respected_of_kept {P : Sink → Prop} (hconf : ∀ {s : Sink}, P s → Confined t s)
    (hput : ∀ {s : Sink} (b : UInt8), P s → P (s.put b))
    (hbegan : ∀ {s s' : Sink} {id : Nat}, P s → s.Began id s' → P s')
    (hmarks : ∀ {s : Sink} (column stored : Nat) (ret due : Bool), P s →
      P { s with column := column, stored := stored, pendingReturn := ret, overflowDue := due }) :
    Respected (fun _ => P) (Confined t) where
  place := by
    intro _ s b h
    unfold Sink.place
    split
    · have hover : s.overflow.Spec P (Confined t) := by
        refine (overflow_spec (hconf h).wellFormed).mono ?_ ?_
        · rintro s' ⟨id, hb⟩
          exact hbegan h hb
        · rintro s' rfl
          exact (hconf h).closed
      exact hover.map fun s' hs' => hput b hs'
    · exact hput b h
  marks := hmarks

/-- The documents and the segments that were begun decide whether a sink is confined. -/
theorem Confined.congr (h : Confined t s) {s' : Sink} (htable : s'.table = s.table)
    (hbegun : s'.begun = s.begun) (horigin : s'.origin = s.origin) : Confined t s' := by
  refine ⟨?_, ?_, ?_, horigin.trans h.origin, ?_, ?_, ?_⟩
  · rw [htable]
    exact h.wellFormed
  · rw [htable]
    exact h.capacity
  · rw [htable]
    exact h.count
  · rw [htable, hbegun]
    exact h.active
  · rw [hbegun]
    exact h.fresh
  · rw [htable, hbegun]
    exact h.others

/-- **Whatever a sink takes, and also when it gets stuck, it is confined.** -/
theorem respected_confined (t : SegmentTable) : Respected (fun _ => Confined t) (Confined t) :=
  respected_of_kept id (fun b h => h.put b) (fun h hb => h.began hb)
    (fun _ _ _ _ h => h.congr rfl rfl rfl)

/-! ## What lasts -/

/-- A predicate on confined sinks that outlasts a whole load: it speaks of the documents and of the
segments that were begun, and putting a byte and beginning a part keep it. -/
structure Lasting (t : SegmentTable) (P : Sink → Prop) : Prop where
  confined : ∀ {s : Sink}, P s → Confined t s
  congr : ∀ {s s' : Sink}, P s → s'.table = s.table → s'.begun = s.begun → s'.origin = s.origin →
    s'.mode = s.mode → P s'
  put : ∀ {s : Sink} (b : UInt8), P s → P (s.put b)
  began : ∀ {s s' : Sink} {id : Nat}, P s → s.Began id s' → P s'

/-- Two properties that last hold together. -/
theorem Lasting.and {P Q : Sink → Prop} (hP : Lasting t P) (hQ : Lasting t Q) :
    Lasting t fun s => P s ∧ Q s where
  confined h := hP.confined h.1
  congr h htable hbegun horigin hmode := ⟨hP.congr h.1 htable hbegun horigin hmode,
    hQ.congr h.2 htable hbegun horigin hmode⟩
  put b h := ⟨hP.put b h.1, hQ.put b h.2⟩
  began h hb := ⟨hP.began h.1 hb, hQ.began h.2 hb⟩

/-- Segments that were begun stay so. -/
theorem Lasting.and_mem {P : Sink → Prop} (hP : Lasting t P) (j : Nat) :
    Lasting t fun s => P s ∧ j ∈ s.segments where
  confined h := hP.confined h.1
  congr h htable hbegun horigin hmode := by
    refine ⟨hP.congr h.1 htable hbegun horigin hmode, ?_⟩
    rw [segments, hbegun, horigin]
    exact h.2
  put b h := ⟨hP.put b h.1, h.2⟩
  began h hb := by
    refine ⟨hP.began h.1 hb, ?_⟩
    rw [hb.segments_eq]
    exact List.mem_append_left _ h.2

/-- A load that replaces a document takes no tail out. -/
theorem Began.tail_eq_none {s' : Sink} {id : Nat} (hb : s.Began id s') (hwf : s.table.WellFormed)
    (h : s.mode = .replace → s.tail = none) : s'.mode = .replace → s'.tail = none := by
  intro hm
  rw [hb.same.mode] at hm
  have hcut : ¬ (s.mode = .insert ∧ s.tail = none) := fun hcut => by
    rw [hcut.1] at hm
    cases hm
  rw [hb.tail, (closedPart_closed hwf).tail, if_neg hcut]
  exact h hm

/-- What lasts is kept by every byte. -/
theorem Lasting.respected {P : Sink → Prop} (hP : Lasting t P) :
    Respected (fun _ s => P s ∧ (s.mode = .replace → s.tail = none)) (Confined t) :=
  respected_of_kept (fun h => hP.confined h.1) (fun b h => ⟨hP.put b h.1, h.2⟩)
    (fun h hb => ⟨hP.began h.1 hb, hb.tail_eq_none (hP.confined h.1).wellFormed h.2⟩)
    (fun _ _ _ _ h => ⟨hP.congr h.1 rfl rfl rfl rfl, h.2⟩)

/-- A family of predicates on confined sinks is respected if putting a byte where there is room
takes it one byte further, and beginning a part keeps it and makes room. -/
theorem respected_of_steps {F : List UInt8 → Sink → Prop}
    (hconf : ∀ {text : List UInt8} {s : Sink}, F text s → Confined t s)
    (hput : ∀ {text : List UInt8} {s : Sink} (b : UInt8), F text s →
      s.table.current.buffer.free ≠ 0 → F (text ++ [b]) (s.put b))
    (hbegan : ∀ {text : List UInt8} {s s' : Sink} {id : Nat}, F text s → s.Began id s' →
      F text s' ∧ s'.table.current.buffer.free ≠ 0)
    (hmarks : ∀ {text : List UInt8} {s : Sink} (column stored : Nat) (ret due : Bool), F text s →
      F text { s with
        column := column, stored := stored, pendingReturn := ret, overflowDue := due }) :
    Respected F (Confined t) where
  place := by
    intro text s b h
    unfold Sink.place
    split
    · have hover : s.overflow.Spec
          (fun s' => F text s' ∧ s'.table.current.buffer.free ≠ 0) (Confined t) := by
        refine (overflow_spec (hconf h).wellFormed).mono ?_ ?_
        · rintro s' ⟨id, hb⟩
          exact hbegan h hb
        · rintro s' rfl
          exact (hconf h).closed
      exact hover.map fun s' hs' => hput b hs'.1 hs'.2
    · next hstay =>
      refine hput b h ?_
      intro hfull
      simp [hfull] at hstay
  marks := hmarks

end ScreenEditor.Sink
