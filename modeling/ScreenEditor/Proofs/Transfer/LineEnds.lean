import Mathlib.Data.List.SplitBy
import ScreenEditor.Proofs.Transfer.Replace

/-!
# Where the parts of a file end

A document that is read from a file goes on in another segment when the active one has less room
than a chunk.  It looks at two places: behind a terminator, and where a read ended.  As long as no
line is longer than a chunk no other place comes up: while a line goes on, the room that is left and
the column together make at least a chunk (`Cuts.room_or_column`), so the segment does not become
full before the line ends.

A read may end anywhere in a line, though.  So every part but the last ends a line, or ends with
what the reads gave until then (`parts_end_lines_or_reads_of_load_ok`); the second happens in
mid-line (`not_endsLine_read_in_mid_line`).

## Main results

* `parts_end_lines_or_reads_of_load_ok`: where the parts of a file end.
-/

namespace ScreenEditor

/-! ## Lines -/

/-- The lines of a text, each with its terminator; the last one may have none. -/
def linesOf (text : List UInt8) : List (List UInt8) := text.splitBy fun b _ => b != lineFeed

/-- The text ends with a terminator. -/
def EndsLine (text : List UInt8) : Prop := text.getLast? = some lineFeed

instance (text : List UInt8) : Decidable (EndsLine text) :=
  inferInstanceAs (Decidable (text.getLast? = some lineFeed))

/-- A line that ends, an empty one, and one without a terminator. -/
example : linesOf [97, 98, 10, 10, 99] = [[97, 98, 10], [10], [99]] := by decide

theorem endsLine_append_singleton (text : List UInt8) (b : UInt8) :
    EndsLine (text ++ [b]) ↔ b = lineFeed := by
  rw [EndsLine, List.getLast?_concat, Option.some.injEq]

theorem endsLine_append {text more : List UInt8} (h : more ≠ []) :
    EndsLine (text ++ more) ↔ EndsLine more := by
  rw [EndsLine, EndsLine, List.getLast?_append_of_ne_nil _ h]

/-- Every line but the last ends with a terminator. -/
theorem isChain_linesOf (text : List UInt8) :
    (linesOf text).IsChain fun line _ => EndsLine line := by
  refine (List.isChain_getLast_head_splitBy _ text).imp ?_
  rintro line next ⟨hline, -, hlast⟩
  rw [EndsLine, List.getLast?_eq_some_getLast hline, Option.some.injEq]
  simpa using hlast

namespace Sink

theorem columnAfter_append (column : Nat) (xs ys : List UInt8) :
    columnAfter column (xs ++ ys) = columnAfter (columnAfter column xs) ys := by
  induction xs generalizing column with
  | nil => rfl
  | cons b xs ih => exact ih _

/-- A column never counts more bytes than were read. -/
theorem columnAfter_le (column : Nat) (text : List UInt8) :
    columnAfter column text ≤ column + text.length := by
  induction text generalizing column with
  | nil => exact Nat.le_refl _
  | cons b text ih =>
      have hrest := ih (if b = lineFeed then 0 else column + 1)
      rw [columnAfter, List.length_cons]
      split at hrest
      · next hb =>
        rw [if_pos hb]
        omega
      · next hb =>
        rw [if_neg hb]
        omega

/-- After a line end the column is zero again. -/
theorem columnAfter_of_endsLine {text : List UInt8} (h : EndsLine text) (column : Nat) :
    columnAfter column text = 0 := by
  obtain ⟨front, rfl⟩ := List.getLast?_eq_some_iff.mp h
  rw [columnAfter_append]
  rfl

/-- Before a byte of a line the column is less than the length of that line. -/
theorem columnAfter_lt_of_flatten {chunk : Nat} {lines : List (List UInt8)} {pre suf : List UInt8}
    {b : UInt8} (hends : lines.IsChain fun line _ => EndsLine line)
    (hshort : ∀ line ∈ lines, line.length ≤ chunk) (h : lines.flatten = pre ++ b :: suf) :
    columnAfter 0 pre < chunk := by
  induction lines generalizing pre with
  | nil => simp at h
  | cons line lines ih =>
      -- the byte stands in a later line, or in this one
      have hlater : ∀ more, pre = line ++ more → lines.flatten = more ++ b :: suf →
          columnAfter 0 pre < chunk := by
        rintro more rfl hmore
        have hline : EndsLine line := by
          cases lines with
          | nil => simp at hmore
          | cons next lines => exact (List.isChain_cons_cons.mp hends).1
        rw [columnAfter_append, columnAfter_of_endsLine hline]
        exact ih hends.of_cons (fun line hmem => hshort line (List.mem_cons_of_mem _ hmem)) hmore
      rw [List.flatten_cons] at h
      rcases List.append_eq_append_iff.mp h with ⟨more, hpre, hmore⟩ | ⟨rest, hline, hrest⟩
      · exact hlater more hpre hmore
      · cases rest with
        | nil => exact hlater [] (by simpa using hline.symm) (by simpa using hrest.symm)
        | cons c rest =>
            have hlen := hshort line List.mem_cons_self
            have hcolumn := columnAfter_le 0 pre
            rw [hline, List.length_append, List.length_cons] at hlen
            omega

/-- When no line is longer than a chunk, the column before a byte of the text is less. -/
theorem columnAfter_lt {chunk : Nat} {whole text : List UInt8} {b : UInt8}
    (hshort : ∀ line ∈ linesOf whole, line.length ≤ chunk) (h : text ++ [b] <+: whole) :
    columnAfter 0 text < chunk := by
  obtain ⟨suf, hwhole⟩ := h
  have hlines : (linesOf whole).flatten = text ++ b :: suf := by
    rw [linesOf, List.flatten_splitBy, ← hwhole, List.append_assoc, List.singleton_append]
  exact columnAfter_lt_of_flatten (isChain_linesOf whole) hshort hlines

end Sink

/-! ## Segments that were left -/

/-- Each of the segments but the last was left with room for less than `chunk`, where `stop` holds
of the text up to its end. -/
def SegmentTable.LeftAt (t : SegmentTable) (chunk : Nat) (stop : List UInt8 → Prop)
    (ids : List Nat) : Prop :=
  ∀ before id after, ids = before ++ id :: after → after ≠ [] →
    t.capacity < (t.document id).buffer.content.length + chunk ∧ stop (t.textOf (before ++ [id]))

namespace SegmentTable

variable {t t' : SegmentTable} {chunk : Nat} {stop : List UInt8 → Prop} {ids : List Nat}

/-- With one segment there is no place where one was left. -/
theorem leftAt_singleton (t : SegmentTable) (chunk : Nat) (stop : List UInt8 → Prop) (id : Nat) :
    t.LeftAt chunk stop [id] := by
  intro before j after hids hafter
  have hlen := congrArg List.length hids
  have hpos := List.length_pos_iff.mpr hafter
  simp only [List.length_append, List.length_cons, List.length_nil] at hlen
  omega

/-- The last of the segments does not matter. -/
theorem LeftAt.congr (h : t.LeftAt chunk stop ids) (hcap : t'.capacity = t.capacity)
    (hdoc : ∀ id ∈ ids.dropLast, (t'.document id).buffer.content = (t.document id).buffer.content) :
    t'.LeftAt chunk stop ids := by
  intro before id after hids hafter
  have hdrop : ids.dropLast = before ++ [id] ++ after.dropLast := by
    rw [hids, List.dropLast_append_of_ne_nil (List.cons_ne_nil _ _),
      List.dropLast_cons_of_ne_nil hafter, List.append_assoc, List.singleton_append]
  have hsame : ∀ j ∈ before ++ [id],
      (t'.document j).buffer.content = (t.document j).buffer.content := fun j hj =>
    hdoc j (hdrop ▸ List.mem_append_left _ hj)
  rw [hcap, hsame id (List.mem_append_right _ List.mem_cons_self), textOf_congr hsame]
  exact h before id after hids hafter

/-- One more segment is left. -/
theorem LeftAt.concat {last next : Nat} (h : t.LeftAt chunk stop (ids ++ [last]))
    (hroom : t.capacity < (t.document last).buffer.content.length + chunk)
    (hstop : stop (t.textOf (ids ++ [last]))) : t.LeftAt chunk stop (ids ++ [last] ++ [next]) := by
  intro before id after hids hafter
  obtain ⟨after, final, rfl⟩ := (List.eq_nil_or_concat after).resolve_left hafter
  rw [List.concat_eq_append, ← List.cons_append, ← List.append_assoc] at hids
  have hearlier : ids ++ [last] = before ++ id :: after := (List.append_inj' hids rfl).1
  by_cases hnone : after = []
  · subst hnone
    obtain ⟨rfl, hlast⟩ := List.append_inj' hearlier rfl
    obtain rfl : last = id := List.singleton_inj.mp hlast
    exact ⟨hroom, hstop⟩
  · exact h before id after hearlier hnone

end SegmentTable

namespace Sink

variable {t : SegmentTable} {chunk : Nat} {whole text : List UInt8} {ended : List UInt8 → Prop}
variable {s s' : Sink}

/-! ## Leaving a segment -/

/-- Where a document that is read may go on in another segment. -/
def MayLeave (ended : List UInt8 → Prop) (text : List UInt8) : Prop := EndsLine text ∨ ended text

/-- Where the closed parts of a sink end, and where the active one will: the sink goes on in another
segment only where it may, and until then the line at hand fits. -/
structure Cuts (chunk : Nat) (ended : List UInt8 → Prop) (text : List UInt8) (s : Sink) :
    Prop where
  closed : s.table.LeftAt chunk (MayLeave ended) s.segments
  room_or_column : s.overflowDue = false → chunk ≤ s.table.current.buffer.free + s.column
  due : s.overflowDue = true → s.table.current.buffer.free < chunk ∧ MayLeave ended text

/-- A sink that fills a document from a file, and cuts it as it should as long as its text is a
start of `whole`. -/
structure Cutting (t : SegmentTable) (chunk : Nat) (whole : List UInt8)
    (ended : List UInt8 → Prop) (text : List UInt8) (s : Sink) : Prop where
  filling : Filling t [] text s
  mode : s.mode = .replace
  threshold : s.threshold = chunk
  column : s.column = columnAfter 0 text
  cuts : text <+: whole → Cuts chunk ended text s

/-- A byte put in takes one byte of room. -/
theorem free_putInto (b : UInt8) {g : GapBuffer} (room : g.free ≠ 0) :
    (putInto b g).free + 1 = g.free := by
  obtain ⟨hbefore, hafter⟩ := lists_putInto b room
  have hlen : (putInto b g).length = g.length + 1 := by
    rw [← GapBuffer.length_content, ← GapBuffer.length_content, GapBuffer.content, hbefore, hafter,
      GapBuffer.content]
    simp only [List.length_append, List.length_singleton]
    omega
  have hadd := GapBuffer.length_add_free (putInto b g)
  rw [capacity_putInto, ← GapBuffer.length_add_free g] at hadd
  omega

/-- No part is due any more once the next one is begun. -/
theorem overflowDue_overflow (s : Sink) :
    s.overflow.Spec (fun s' => s'.overflowDue = false) fun _ => True := by
  unfold overflow
  cases hnext : s.detachTail.finishPart.table.continueInNext with
  | none => simp only [hnext, Filled.Spec]
  | some next => simp only [hnext, Filled.Spec]

/-- A byte is put into the active segment, or into the next one. -/
theorem place_cases (h : Filling t [] text s) (b : UInt8) :
    (s.place b).Spec
      (fun s' => (s.overflowDue = false ∧ s.table.current.buffer.free ≠ 0 ∧ s' = s.put b) ∨
        ((s.overflowDue = true ∨ s.table.current.buffer.free = 0) ∧
          ∃ id begun, s.Began id begun ∧ begun.overflowDue = false ∧ s' = begun.put b))
      fun _ => True := by
  unfold place
  split
  · next hgo =>
    have hover := ((overflow_spec h.confined.wellFormed).and (overflowDue_overflow s)).mono
      (fun _ => id) (fun _ _ => trivial)
    refine hover.map ?_
    rintro begun ⟨⟨id, hb⟩, hnot⟩
    exact .inr ⟨by simpa using hgo, id, begun, hb, hnot, rfl⟩
  · next hstay => exact .inl ⟨by simp_all, by simp_all, rfl⟩

/-- The active part is closed where it was due, and the next one begins. -/
theorem leftAt_began (h : Filling t [] text s) (hcuts : Cuts chunk ended text s)
    (hdue : s.overflowDue = true) {id : Nat} (hb : s.Began id s') :
    s'.table.LeftAt chunk (MayLeave ended) s'.segments := by
  obtain ⟨hlow, hstop⟩ := hcuts.due hdue
  have hn := h.parts.nextPart hb
  have hbegan := h.began hb
  have hcap : s'.table.capacity = s.table.capacity :=
    hbegan.confined.capacity.trans h.confined.capacity.symm
  have hclosed : s'.table.LeftAt chunk (MayLeave ended) s.segments :=
    hcuts.closed.congr hcap fun j hj => by rw [hn.closed j hj]
  have hleft : (s'.table.document s.table.active).buffer.content
      = s.table.current.buffer.before := by
    rw [hn.left, SegmentTable.continued, h.closed_content]
  have htext : s'.table.textOf s.segments = text := by
    have hspelled := hbegan.text_eq
    rwa [hb.segments_eq, List.dropLast_concat, hn.before, List.append_nil] at hspelled
  have hlen : s.table.current.buffer.before.length + s.table.current.buffer.free
      = s.table.capacity := by
    have hafter := h.rest_eq
    rw [List.append_eq_nil_iff] at hafter
    have hadd := GapBuffer.length_add_free s.table.current.buffer
    have hcurrent : s.table.current.buffer.capacity = s.table.capacity :=
      h.confined.wellFormed.current.capacity_eq
    rw [← GapBuffer.length_content, GapBuffer.content, hafter.1, List.append_nil] at hadd
    omega
  rw [hb.segments_eq]
  rw [h.confined.segments_eq] at hclosed htext ⊢
  refine hclosed.concat ?_ (htext.symm ▸ hstop)
  rw [hleft, hcap]
  omega

/-- Putting a byte leaves the closed parts alone. -/
theorem leftAt_put (h : Filling t [] text s)
    (hleft : s.table.LeftAt chunk (MayLeave ended) s.segments) (b : UInt8) :
    (s.put b).table.LeftAt chunk (MayLeave ended) (s.put b).segments := by
  refine hleft.congr rfl fun j hj => ?_
  rw [put_eq, SegmentTable.document_modifyBuffer_of_ne _
    (h.confined.has_of_mem (mem_of_dropLast hj)) (h.parts.ne_active hj)]

/-! ## Storing bytes -/

/-- While a line goes on the active segment does not become full, so a byte finds room there, or in
a segment that is begun because it was due. -/
theorem Cutting.place (h : Cutting t chunk whole ended text s) (hroom : chunk < t.capacity)
    (hshort : ∀ line ∈ linesOf whole, line.length ≤ chunk) (b : UInt8) :
    (s.place b).Spec
      (fun s' => text ++ [b] <+: whole → s'.overflowDue = false ∧
        s'.table.LeftAt chunk (MayLeave ended) s'.segments ∧
        chunk ≤ s'.table.current.buffer.free + (s.column + 1))
      fun _ => True := by
  refine (place_cases h.filling b).mono ?_ (fun _ => id)
  rintro s' hcases htext
  have hcuts := h.cuts ((List.prefix_append text [b]).trans htext)
  rcases hcases with ⟨hnot, hfree, rfl⟩ | ⟨hgo, id, begun, hb, hnot, rfl⟩
  · have hkept := hcuts.room_or_column hnot
    have hput := free_putInto b hfree
    refine ⟨hnot, leftAt_put h.filling hcuts.closed b, ?_⟩
    have hcurrent : (s.put b).table.current.buffer = putInto b s.table.current.buffer := rfl
    rw [hcurrent]
    omega
  · have hdue : s.overflowDue = true := by
      by_contra hstay
      have hkept := hcuts.room_or_column (Bool.eq_false_of_not_eq_true hstay)
      have hcolumn := columnAfter_lt hshort htext
      rw [hgo.resolve_left hstay, h.column] at hkept
      omega
    have hbegan := h.filling.began hb
    have hfree : begun.table.current.buffer.free = t.capacity :=
      (h.filling.parts.nextPart hb).free.trans hbegan.confined.capacity
    have hput := free_putInto b (h.filling.free_began hb)
    refine ⟨hnot, leftAt_put hbegan (leftAt_began h.filling hcuts hdue hb) b, ?_⟩
    have hcurrent : (begun.put b).table.current.buffer = putInto b begun.table.current.buffer := rfl
    rw [hcurrent]
    omega

theorem cuts_count {b : UInt8} (hmode : s.mode = .replace) (hthreshold : s.threshold = chunk)
    (hnot : s.overflowDue = false) (hleft : s.table.LeftAt chunk (MayLeave ended) s.segments)
    (hfree : chunk ≤ s.table.current.buffer.free + (s.column + 1)) :
    Cuts chunk ended (text ++ [b]) (s.count b) := by
  unfold count
  split
  · next hb =>
    have hdue : (s.overflowDue || (s.mode == .replace && s.lowOnSpace)) = true
        ↔ s.table.current.buffer.free < chunk := by
      rw [hnot, hmode, lowOnSpace, hthreshold]
      simp
    refine ⟨hleft, ?_, ?_⟩
    · intro hlow
      exact Nat.le_of_not_lt fun hlt => Bool.false_ne_true (hlow.symm.trans (hdue.mpr hlt))
    · intro hlow
      exact ⟨hdue.mp hlow, .inl ((endsLine_append_singleton text b).mpr hb)⟩
  · exact ⟨hleft, fun _ => hfree, fun hdue => absurd (hnot.symm.trans hdue) Bool.false_ne_true⟩

/-- The end of a read is a place to go on in another segment. -/
theorem Cuts.chunkEnd (h : Cuts chunk ended text s) (hthreshold : s.threshold = chunk)
    (hended : ended text) :
    Cuts chunk ended text { s with overflowDue := s.overflowDue || s.lowOnSpace } := by
  refine ⟨h.closed, ?_, ?_⟩
  · intro hnot
    exact h.room_or_column (Bool.or_eq_false_iff.mp hnot).1
  · intro hdue
    rcases Bool.or_eq_true_iff.mp hdue with hdue | hlow
    · exact h.due hdue
    · rw [lowOnSpace, hthreshold, decide_eq_true_eq] at hlow
      exact ⟨hlow, .inr hended⟩

/-- **A sink cuts a text of short lines only behind a terminator and where a read ended.** -/
theorem tracked_cutting (hroom : chunk < t.capacity)
    (hshort : ∀ line ∈ linesOf whole, line.length ≤ chunk) :
    Tracked (Cutting t chunk whole ended) ended fun _ => True where
  emit := by
    intro text s b h
    have hplace := (((respected_filling t []).place b h.filling).and
      ((sameReader_place s b).and (h.place hroom hshort b))).mono (fun _ => id) (fun _ _ => trivial)
    refine hplace.map ?_
    rintro s' ⟨hfilling, hsame, hkept⟩
    have hmode := hsame.mode.trans h.mode
    have hthreshold := hsame.threshold.trans h.threshold
    have hcounted := emitted_count hsame b
    refine ⟨(respected_filling t []).count hfilling b, hcounted.mode.trans h.mode, ?_, ?_, ?_⟩
    · rw [← hthreshold, count]
      split <;> rfl
    · rw [hcounted.column, h.column, columnAfter_append]
    · intro htext
      obtain ⟨hnot, hleft, hfree⟩ := hkept htext
      exact cuts_count hmode hthreshold hnot hleft (by rw [hsame.column]; exact hfree)
  remember {text s} ret h := by
    refine ⟨h.filling.marks s.column s.stored ret s.overflowDue, h.mode, h.threshold, h.column, ?_⟩
    intro htext
    have hcuts := h.cuts htext
    exact ⟨hcuts.closed, hcuts.room_or_column, hcuts.due⟩
  chunkEnd {text s} h hended :=
    ⟨h.filling.marks s.column s.stored s.pendingReturn _, h.mode, h.threshold, h.column,
      fun htext => (h.cuts htext).chunkEnd h.threshold hended⟩

/-- A file that replaces a document has a whole segment before it. -/
theorem cutting_firstSink (h : t.WellFormed) {name : String} (hname : name ≠ "")
    {settings : TransferSettings} (hroom : settings.readChunk < t.capacity) :
    Cutting (Load.ready t .replace name) settings.readChunk whole ended []
      (Load.firstSink t name .replace settings) := by
  have hfilling := Load.filling_firstSink_replace h (by omega) hname settings
  refine ⟨hfilling, rfl, rfl, rfl, fun _ => ⟨SegmentTable.leftAt_singleton _ _ _ _, ?_, ?_⟩⟩
  · intro _
    obtain ⟨-, hcap, -⟩ := Load.ready_frame h .replace name
    have hcurrent : (Load.firstSink t name .replace settings).table.current.buffer.capacity
        = (Load.ready t .replace name).capacity :=
      hfilling.confined.wellFormed.current.capacity_eq
    have hadd := GapBuffer.length_add_free
      (Load.firstSink t name .replace settings).table.current.buffer
    have hbefore := hfilling.text_eq
    have hafter := hfilling.rest_eq
    rw [List.append_eq_nil_iff] at hbefore hafter
    rw [← GapBuffer.length_content, GapBuffer.content, hbefore.2, hafter.1, List.append_nil,
      List.length_nil, Nat.zero_add] at hadd
    omega
  · intro hdue
    exact absurd hdue Bool.false_ne_true

end Sink

/-! ## The parts of a file -/

/-- The text is what the reads of a load have given up to a place where one of them ended. -/
def Load.EndsRead {σ : Type} [Storage σ] (store : σ) (name : String) (settings : TransferSettings)
    (text : List UInt8) : Prop :=
  ∃ front, Load.ReadsTo store name settings front ∧
    text = translate (max settings.tabWidth 1) 0 front

/-- **Where the parts of a file end.**  Let no line of the translated file, with its terminator, be
longer than a chunk, and a chunk be smaller than a segment.  When the file is loaded in place of the
active document, every part but the last leaves room for less than a chunk, and it ends with a
terminator unless the parts up to it end where a read ended. -/
theorem parts_end_lines_or_reads_of_load_ok {σ : Type} [HonestStorage σ] {t : SegmentTable}
    (h : t.WellFormed)
    (hunused : t.current.header.part ≠ 0 → ∀ id, t.has id = true → id ≠ t.active →
      (t.document id).header.part ≠ 0 → (t.document id).isUnused = false)
    {store : σ} {name : String} (hname : name ≠ "") {file : List UInt8}
    (hfile : HonestStorage.file? store name = some file) {settings : TransferSettings}
    (hroom : settings.readChunk < t.capacity)
    (hshort : ∀ line ∈ linesOf (translate (max settings.tabWidth 1) 0 file),
      line.length ≤ settings.readChunk)
    {report : LoadReport} (hload : (t.load store name .replace settings).1 = .ok report) :
    let t' := (t.load store name .replace settings).2.1
    ∀ before id after, report.segments = before ++ id :: after → after ≠ [] →
      t.capacity < (t'.document id).buffer.content.length + settings.readChunk ∧
      (EndsLine (t'.document id).buffer.content ∨
        Load.EndsRead store name settings (t'.textOf (before ++ [id]))) := by
  intro t' before id after hids hafter
  have hcapacity := (Load.ready_frame h .replace name).2.1
  have htracked : Sink.Tracked _ (Load.EndsRead store name settings) _ :=
    Sink.tracked_cutting (t := Load.ready t .replace name) (by rwa [hcapacity]) hshort
  obtain ⟨taken, hcutting, -, hreport, hfinished, hreplaced⟩ := tracked_replaced_of_load_ok h
    hunused hfile hload htracked (Sink.cutting_firstSink h hname hroom)
    (fun front hfront => ⟨front, hfront, rfl⟩) fun hs => hs.filling
  have hsegments : report.segments = taken.finishPart.segments := congrArg (·.segments) hreport
  have hclosed := (hcutting.cuts List.prefix_rfl).closed
  have hleft : taken.finishPart.table.LeftAt settings.readChunk _ taken.segments :=
    hclosed.congr (by rw [Sink.finishPart_eq]; rfl) fun j hj => by
      rw [Sink.document_finishPart _
        (hcutting.filling.confined.has_of_mem (Sink.mem_of_dropLast hj))
        (hcutting.filling.parts.ne_active hj)]
  obtain ⟨hless, hstop⟩ := hleft before id after
    ((Sink.segments_finishPart taken).symm.trans (hsegments.symm.trans hids)) hafter
  have hsame : ∀ j ∈ before ++ [id], (t'.document j).buffer.content
      = (taken.finishPart.table.document j).buffer.content := by
    intro j hj
    have hmem : j ∈ taken.finishPart.segments := by
      rw [← hsegments, hids, ← List.singleton_append, ← List.append_assoc]
      exact List.mem_append_left _ hj
    rw [hreplaced.document j hmem]
  have hid := hsame id (List.mem_append_right _ List.mem_cons_self)
  rw [← SegmentTable.textOf_congr hsame] at hstop
  rw [← hid, hfinished.confined.capacity, hcapacity] at hless
  have hne : (t'.document id).buffer.content ≠ [] := by
    intro hempty
    rw [hempty, List.length_nil] at hless
    omega
  have hends : EndsLine (t'.textOf (before ++ [id]))
      ↔ EndsLine (t'.document id).buffer.content := by
    rw [SegmentTable.textOf_append, SegmentTable.textOf_singleton, endsLine_append hne]
  exact ⟨hless, hstop.imp_left hends.mp⟩

/-- The first part ends where a read ended, in the second line, and the second part ends a line. -/
theorem parts_end_lines_or_reads_of_load_ok_both :
    let t := SegmentTable.unused 6 0 [1, 2]
    let store := Memory.empty.putFile "f" [97, 10, 98, 99, 100, 10, 101, 10, 102, 10]
    let settings : TransferSettings := ⟨8, 4, 4, .lf⟩
    let t' := (t.load store "f" .replace settings).2.1
    (t.load store "f" .replace settings).1 = .ok ⟨10, 10, [1, 2, 3]⟩ ∧
      Load.EndsRead store "f" settings (t'.textOf [1]) ∧
      (t'.document 2).buffer.content = [100, 10, 101, 10] ∧
      6 < (t'.document 2).buffer.content.length + 4 := by
  intro t store settings t'
  have hwf : t.WellFormed := SegmentTable.wellFormed_unused (by decide) (by decide)
  have hload : (t.load store "f" .replace settings).1 = .ok ⟨10, 10, [1, 2, 3]⟩ := by
    decide +kernel
  have hfile : HonestStorage.file? store "f"
      = some [97, 10, 98, 99, 100, 10, 101, 10, 102, 10] := by
    decide +kernel
  have hparts := parts_end_lines_or_reads_of_load_ok hwf (fun hpart => absurd rfl hpart)
    (by decide) hfile (by decide) (by decide +kernel) hload
  obtain ⟨-, hfirst⟩ := hparts [] 1 [2, 3] rfl (List.cons_ne_nil _ _)
  obtain ⟨hroom, -⟩ := hparts [1] 2 [3] rfl (List.cons_ne_nil _ _)
  exact ⟨hload, hfirst.resolve_left (by decide +kernel), by decide +kernel, hroom⟩

/-- A read that ends in mid-line is a place to go on too: the lines of this file are no longer than
a chunk and the chunk is smaller than a segment, but the second line is cut. -/
theorem not_endsLine_read_in_mid_line :
    let file : List UInt8 := [97, 10, 98, 99, 100, 10, 101, 10]
    let t := SegmentTable.unused 6 0 [1]
    let settings : TransferSettings := ⟨8, 4, 4, .lf⟩
    let loaded := t.load (Memory.empty.putFile "f" file) "f" .replace settings
    (∀ line ∈ linesOf (translate 8 0 file), line.length ≤ settings.readChunk) ∧
      settings.readChunk < t.capacity ∧ loaded.1 = .ok ⟨8, 8, [1, 2]⟩ ∧
      (loaded.2.1.document 1).buffer.content = [97, 10, 98, 99] ∧
      ¬ EndsLine (loaded.2.1.document 1).buffer.content := by
  decide +kernel

end ScreenEditor
