import Mathlib.Data.List.Find
import Mathlib.Data.List.Nodup
import ScreenEditor.Proofs.Gap.Refinement
import ScreenEditor.Proofs.Segment.Chain

/-!
# A segment table is a map with one active document

`DocumentMap` is the plain picture of a segment table: a document for every number, each a header, a
text and a caret, and which of them is active.  Switching moves bytes out of one slot and into
another and packs headers into control blocks; in the picture it changes one number.

`Pictured.perform` is the simulation of one operation, `performAll_refines` that of any sequence of
operations on a new table.

## Main results

* `SegmentTable.Pictured.perform`: one operation.
* `SegmentTable.performAll_refines`: every sequence of operations.
-/

namespace ScreenEditor

/-! ## Operations -/

/-- A change of what is known about a document's file. -/
inductive HeaderEdit where
  | rename (name : String)
  | modified (flag : Bool)
  | awaitsOverwrite (flag : Bool)
  | renumber (part : UInt8)
  deriving DecidableEq, Repr

/-- The header after a change. -/
def HeaderEdit.apply : HeaderEdit → Header → Header
  | .rename name, h => h.setName name
  | .modified flag, h => { h with modified := flag }
  | .awaitsOverwrite flag, h => { h with awaitsOverwrite := flag }
  | .renumber part, h => { h with part := part }

/-- No change of a header makes its name too long. -/
theorem HeaderEdit.nameFits_apply {header : Header} (hfits : header.NameFits) (edit : HeaderEdit) :
    (edit.apply header).NameFits := by
  cases edit with
  | rename name => exact Header.nameFits_setName header name
  | modified flag => exact hfits
  | awaitsOverwrite flag => exact hfits
  | renumber part => exact hfits

/-- What a listing in progress is asked for: its next line, or to begin again. -/
inductive ListingCall where
  | next
  | restart
  deriving DecidableEq, Repr

/-- What can be done with a segment table.  A listing is asked as often as one likes and then ended,
wherever it stands. -/
inductive TableOp where
  | activate (id : Nat)
  | edit (edit : GapEdit)
  | change (edit : HeaderEdit)
  | continueInNext
  | release (id : Nat)
  | parts (name : String)
  | list (calls : List ListingCall)
  deriving DecidableEq, Repr

/-- What an operation answers. -/
inductive TableAnswer where
  | done
  | edited (answer : EditAnswer)
  | begun (id : Nat)
  | found (ids : List Nat)
  | listed (lines : List (Option DocumentEntry))
  | refused (error : EditorError)
  deriving DecidableEq, Repr

/-- The answers of a sequence of operations, and what they leave. -/
def performAll {α : Type} (step : α → TableOp → TableAnswer × α) :
    α → List TableOp → List TableAnswer × α
  | a, [] => ([], a)
  | a, op :: ops =>
      let (answer, a) := step a op
      let (answers, a) := performAll step a ops
      (answer :: answers, a)

/-- The lines that a listing gives when it is asked. -/
def Listing.ask (l : Listing) : List ListingCall → List (Option DocumentEntry) × Listing
  | [] => ([], l)
  | .next :: calls =>
      let (line, l) := l.step
      let (lines, l) := l.ask calls
      (line :: lines, l)
  | .restart :: calls => l.restart.ask calls

namespace SegmentTable

/-- The answer to an operation that leaves a table or is refused. -/
def answerDone (t : SegmentTable) : Except EditorError SegmentTable → TableAnswer × SegmentTable
  | .ok t' => (.done, t')
  | .error e => (.refused e, t)

/-- An operation on a segment table. -/
def perform (t : SegmentTable) : TableOp → TableAnswer × SegmentTable
  | .activate id => t.answerDone (t.activate id)
  | .edit edit =>
      let (answer, g) := t.current.buffer.apply edit
      (.edited answer, t.modifyBuffer fun _ => g)
  | .change edit => (.done, t.modifyHeader edit.apply)
  | .continueInNext =>
      match t.continueInNext with
      | none => (.refused .outOfSegments, t)
      | some (id, t') => (.begun id, t')
  | .release id => t.answerDone (t.release id)
  | .parts name =>
      let (ids, t') := t.parts name
      (.found ids, t')
  | .list calls =>
      let (lines, l) := (Listing.start t).ask calls
      (.listed lines, l.finish)

/-- The segments whose slots lack their bytes. -/
def vacant (t : SegmentTable) : List Nat :=
  (List.range' 1 t.count).filter fun id => (t.slots[id - 1]?.bind (·.storage)).isNone

end SegmentTable

/-! ## The plain map -/

/-- A document without its gap. -/
structure PlainDocument where
  header : Header
  text : List UInt8
  caret : Nat
  deriving DecidableEq, Repr

namespace PlainDocument

/-- A document of its own without a name, a text and a change. -/
def blank : PlainDocument := ⟨Header.blank, [], 0⟩

/-- Whether there is nothing worth keeping. -/
def isUnused (d : PlainDocument) : Bool :=
  d.header.name.isEmpty && d.text.isEmpty && !d.header.modified

end PlainDocument

/-- The document without its gap. -/
def Document.plain (d : Document) : PlainDocument := ⟨d.header, d.buffer.content, d.buffer.caret⟩

/-- Documents numbered `1, …, count`, one of them active, with equal room for their texts. -/
structure DocumentMap where
  capacity : Nat
  count : Nat
  active : Nat
  document : Nat → PlainDocument

namespace DocumentMap

/-- Nothing but unused documents. -/
def unused (capacity count : Nat) : DocumentMap := ⟨capacity, count, 1, fun _ => .blank⟩

/-- Whether a document has this number. -/
def has (m : DocumentMap) (id : Nat) : Bool := 0 < id && id ≤ m.count

/-- Another document in the place of one. -/
def set (m : DocumentMap) (id : Nat) (d : PlainDocument) : DocumentMap :=
  { m with document := fun j => if j = id then d else m.document j }

/-- The active document. -/
def current (m : DocumentMap) : PlainDocument := m.document m.active

/-- An edit of the active text. -/
def edit (m : DocumentMap) (edit : GapEdit) : EditAnswer × DocumentMap :=
  let (answer, t) := CursorText.apply ⟨m.capacity, m.current.text, m.current.caret⟩ edit
  (answer, m.set m.active ⟨m.current.header, t.text, t.caret⟩)

/-- The next unused document, searched upward from the active one and then from the first. -/
def nextUnused? (m : DocumentMap) : Option Nat :=
  (List.range' (m.active + 1) (m.count - m.active) ++ List.range' 1 (m.active - 1)).find?
    fun id => (m.document id).isUnused

/-- The active document goes on as another one, which is empty and has its name and the next part
number. -/
def continueIn (m : DocumentMap) (id : Nat) : DocumentMap :=
  let part := if m.current.header.part = 0 then 1 else m.current.header.part
  let next : Header := ⟨m.current.header.name, false, false, SegmentTable.nextPart part⟩
  let left := m.set m.active { m.current with header := { m.current.header with part := part } }
  { left.set id ⟨next, [], 0⟩ with active := id }

/-- The line of a listing for a document. -/
def entry (m : DocumentMap) (id : Nat) : DocumentEntry where
  id := id
  size := (m.document id).text.length
  modified := (m.document id).header.modified
  part := (m.document id).header.part
  name := (m.document id).header.name

/-- The lines that a listing gives from a number on. -/
def lines (m : DocumentMap) : Nat → List ListingCall → List (Option DocumentEntry)
  | _, [] => []
  | next, .next :: calls =>
      if next ≤ m.count then some (m.entry next) :: m.lines (next + 1) calls
      else none :: m.lines next calls
  | _, .restart :: calls => m.lines 1 calls

/-- An operation on a map. -/
def perform (m : DocumentMap) : TableOp → TableAnswer × DocumentMap
  | .activate id =>
      if m.has id then (.done, { m with active := id }) else (.refused (.invalidSegment id), m)
  | .edit edit =>
      let (answer, m') := m.edit edit
      (.edited answer, m')
  | .change edit =>
      (.done, m.set m.active { m.current with header := edit.apply m.current.header })
  | .continueInNext =>
      match m.nextUnused? with
      | none => (.refused .outOfSegments, m)
      | some id => (.begun id, m.continueIn id)
  | .release id =>
      if m.has id then (.done, m.set id .blank) else (.refused (.invalidSegment id), m)
  | .parts name =>
      (.found (SegmentTable.chainIn m.count (fun id => (m.document id).header) name), m)
  | .list calls => (.listed (m.lines 1 calls), m)

end DocumentMap

/-! ## Documents and their pictures -/

namespace Document

/-- Whether a segment is unused can be told from its plain document. -/
theorem isUnused_plain (d : Document) : d.plain.isUnused = d.isUnused := by
  have hempty : d.buffer.content.isEmpty = d.buffer.isEmpty := by
    rw [GapBuffer.isEmpty, ← GapBuffer.length_content, Bool.eq_iff_iff, List.isEmpty_iff,
      beq_iff_eq, List.length_eq_zero_iff]
  rw [PlainDocument.isUnused, isUnused, plain, hempty]

/-- What is given up is blank. -/
theorem plain_released (d : Document) : d.released.plain = .blank := by
  have hcontent : d.buffer.reset.content = [] := by
    rw [GapBuffer.content, GapBuffer.before_reset, GapBuffer.after_reset, List.append_nil]
  rw [plain, released, hcontent]
  rfl

/-- The text of an unused document is empty, and its caret at the start. -/
theorem plain_of_isUnused {d : Document} (h : d.isUnused = true) (header : Header) :
    plain ⟨header, d.buffer⟩ = ⟨header, [], 0⟩ := by
  simp only [isUnused, Bool.and_eq_true, GapBuffer.isEmpty, beq_iff_eq] at h
  have hcontent : d.buffer.content = [] :=
    List.length_eq_zero_iff.mp ((GapBuffer.length_content _).trans h.1.2)
  have hcaret : d.buffer.caret = 0 :=
    Nat.le_zero.mp (h.1.2 ▸ GapBuffer.caret_le_length d.buffer)
  rw [plain, hcontent, hcaret]

end Document

namespace SegmentTable

variable {t t' : SegmentTable} {m : DocumentMap}

/-- The table shows the documents of the map. -/
structure Shows (t : SegmentTable) (m : DocumentMap) : Prop where
  capacity : t.capacity = m.capacity
  count : t.count = m.count
  active : t.active = m.active
  document : ∀ id, t.has id = true → (t.document id).plain = m.document id

/-- A well-formed table and its picture. -/
structure Pictured (t : SegmentTable) (m : DocumentMap) : Prop where
  wellFormed : t.WellFormed
  shows : t.Shows m

namespace Pictured

variable (h : t.Pictured m)

include h

/-- Table and map have the same segments. -/
theorem has (id : Nat) : t.has id = m.has id := by
  rw [SegmentTable.has, DocumentMap.has, h.shows.count]

/-- The document at hand is that of the map. -/
theorem current : t.current.plain = m.current := by
  rw [← document_active, h.shows.document _ has_active, h.shows.active, DocumentMap.current]

/-- So is every header. -/
theorem header_eq {id : Nat} (hid : t.has id = true) :
    (t.document id).header = (m.document id).header := by
  rw [← h.shows.document id hid]
  rfl

/-- A table with the same documents has the same picture, but for which one is active. -/
theorem of_agrees (hagrees : t.Agrees t') : t'.Pictured { m with active := t'.active } := by
  refine ⟨hagrees.wellFormed, hagrees.capacity.trans h.shows.capacity,
    hagrees.count.trans h.shows.count, rfl, ?_⟩
  intro id hid
  rw [hagrees.has] at hid
  rw [hagrees.document id hid]
  exact h.shows.document id hid

/-- With the same document active it has the same picture. -/
theorem of_agrees_active (hagrees : t.Agrees t') (hactive : t'.active = t.active) :
    t'.Pictured m := by
  have hpicture := h.of_agrees hagrees
  rwa [hactive, h.shows.active] at hpicture

/-- A change of the active document. -/
theorem modifyCurrent {f : Document → Document} (hf : (f t.current).Storable t.capacity) :
    (t.modifyCurrent f).Pictured (m.set m.active (f t.current).plain) := by
  refine ⟨h.wellFormed.modifyCurrent hf, h.shows.capacity, h.shows.count, h.shows.active, ?_⟩
  intro id hid
  replace hid : t.has id = true := hid
  rw [document_modifyCurrent f hid]
  simp only [DocumentMap.set, ← h.shows.active]
  split
  · rfl
  · exact h.shows.document id hid

/-! ## One operation -/

/-- **Making a segment active** shows its document, and an unknown number is refused. -/
theorem activate (id : Nat) :
    (t.perform (.activate id)).1 = (m.perform (.activate id)).1 ∧
      (t.perform (.activate id)).2.Pictured (m.perform (.activate id)).2 := by
  have hhas := h.has id
  simp only [SegmentTable.perform, DocumentMap.perform, SegmentTable.activate, ← hhas]
  by_cases hid : t.has id = true
  · rw [if_pos hid, if_pos hid]
    have hpicture := h.of_agrees (h.wellFormed.agrees_switch id)
    rw [active_switch hid] at hpicture
    exact ⟨rfl, hpicture⟩
  · rw [if_neg hid, if_neg hid]
    exact ⟨rfl, h⟩

/-- **An edit of the text** is one of the document at hand. -/
theorem edit (edit : GapEdit) :
    (t.perform (.edit edit)).1 = (m.perform (.edit edit)).1 ∧
      (t.perform (.edit edit)).2.Pictured (m.perform (.edit edit)).2 := by
  have hroom : t.current.buffer.capacity = m.capacity :=
    h.wellFormed.current.capacity_eq.trans h.shows.capacity
  have hpicture : t.current.buffer.cursorText
      = ⟨m.capacity, m.current.text, m.current.caret⟩ := by
    rw [← h.current, GapBuffer.cursorText, hroom]
    rfl
  have hedit := GapBuffer.cursorText_apply t.current.buffer edit
  have hcap := GapBuffer.CursorText.capacity_apply t.current.buffer.cursorText edit
  rw [← hedit] at hcap
  rw [hpicture] at hedit
  simp only [SegmentTable.perform, DocumentMap.perform, DocumentMap.edit, ← hedit]
  refine ⟨rfl, ?_⟩
  have hchanged := h.modifyCurrent (f := fun d => d.mapBuffer fun _ =>
    (t.current.buffer.apply edit).2) ⟨hcap.trans h.wellFormed.current.capacity_eq,
      h.wellFormed.current.nameFits⟩
  rw [← h.current]
  exact hchanged

/-- **A change of a header** is one of the document at hand. -/
theorem change (edit : HeaderEdit) :
    (t.perform (.change edit)).1 = (m.perform (.change edit)).1 ∧
      (t.perform (.change edit)).2.Pictured (m.perform (.change edit)).2 := by
  refine ⟨rfl, ?_⟩
  have hchanged := h.modifyCurrent (f := fun d => { d with header := edit.apply d.header })
    ⟨h.wellFormed.current.capacity_eq, edit.nameFits_apply h.wellFormed.current.nameFits⟩
  simp only [DocumentMap.perform, ← h.current]
  exact hchanged

/-- The same document is the next unused one. -/
theorem nextUnused?_eq : t.nextUnused? = m.nextUnused? := by
  rw [SegmentTable.nextUnused?, DocumentMap.nextUnused?, ← h.shows.count, ← h.shows.active]
  refine List.find?_congr ?_
  intro id hmem
  have hid := (mem_candidates.mp hmem).1
  rw [isUnused_eq h.wellFormed hid, ← h.shows.document id hid, Document.isUnused_plain]

/-- A document that goes on in another segment does so in the map. -/
theorem continued {id : Nat} (hc : t.Continued id t') : t'.Pictured (m.continueIn id) := by
  have hcurrent := h.current
  refine ⟨hc.wellFormed, hc.capacity.trans h.shows.capacity, hc.count.trans h.shows.count,
    hc.active, ?_⟩
  intro j hj
  rw [has_congr hc.count] at hj
  simp only [DocumentMap.continueIn, DocumentMap.set, ← h.shows.active, ← hcurrent]
  by_cases hji : j = id
  · subst hji
    have hdoc := document_active t'
    rw [hc.active] at hdoc
    rw [if_pos rfl, hdoc, hc.current, Document.plain_of_isUnused hc.unused]
    rfl
  · rw [if_neg hji, hc.document j hj hji]
    split
    · rfl
    · exact h.shows.document j hj

/-- **Going on in another segment** takes the first that is unused, or is refused. -/
theorem continueInNext :
    (t.perform .continueInNext).1 = (m.perform .continueInNext).1 ∧
      (t.perform .continueInNext).2.Pictured (m.perform .continueInNext).2 := by
  have hnext := h.nextUnused?_eq
  simp only [SegmentTable.perform, DocumentMap.perform, ← hnext]
  cases hn : t.nextUnused? with
  | none =>
      have hnone : t.continueInNext = none := by rw [SegmentTable.continueInNext, hn]; rfl
      rw [hnone]
      exact ⟨rfl, h⟩
  | some id =>
      obtain ⟨t', ht'⟩ : ∃ t', t.continueInNext = some (id, t') := by
        rw [SegmentTable.continueInNext, hn]
        exact ⟨_, rfl⟩
      rw [ht']
      exact ⟨rfl, h.continued (continueInNext_spec h.wellFormed ht')⟩

/-- **A segment that is given up** is blank in the map. -/
theorem release (id : Nat) :
    (t.perform (.release id)).1 = (m.perform (.release id)).1 ∧
      (t.perform (.release id)).2.Pictured (m.perform (.release id)).2 := by
  have hhas := h.has id
  simp only [SegmentTable.perform, DocumentMap.perform, ← hhas]
  by_cases hid : t.has id = true
  · have hgiven := giveUp_spec h.wellFormed hid
    have hdone : t.release id = .ok (t.giveUp id) := by
      unfold SegmentTable.giveUp SegmentTable.release
      rw [hid]
      split <;> rfl
    rw [hdone, if_pos hid]
    refine ⟨rfl, hgiven.wellFormed, hgiven.capacity.trans h.shows.capacity,
      hgiven.count.trans h.shows.count, hgiven.active.trans h.shows.active, ?_⟩
    intro j hj
    replace hj : t.has j = true := (has_congr hgiven.count j).symm.trans hj
    show ((t.giveUp id).document j).plain = (m.set id .blank).document j
    rw [hgiven.document j hj]
    simp only [List.mem_singleton, DocumentMap.set]
    split
    · exact Document.plain_released _
    · exact h.shows.document j hj
  · have hne : id ≠ t.active := by
      rintro rfl
      exact hid has_active
    rw [if_neg hid, SegmentTable.release, if_neg hne, if_neg hid]
    exact ⟨rfl, h⟩

/-- **The parts of a chain** come in the order of their numbers. -/
theorem parts (name : String) :
    (t.perform (.parts name)).1 = (m.perform (.parts name)).1 ∧
      (t.perform (.parts name)).2.Pictured (m.perform (.parts name)).2 := by
  obtain ⟨-, -, -, hagrees, hactive⟩ := parts_spec h.wellFormed name
  refine ⟨?_, h.of_agrees_active hagrees hactive⟩
  have hchain := parts_eq_chain h.wellFormed name
  simp only [SegmentTable.perform, DocumentMap.perform, hchain, chain, chainIn, h.shows.count]
  congr 2
  funext part
  refine List.filter_congr ?_
  intro id hid
  rw [List.mem_range'_1] at hid
  have hhas : t.has id = true := by
    rw [h.has, DocumentMap.has, Bool.and_eq_true, decide_eq_true_eq, decide_eq_true_eq]
    omega
  rw [h.header_eq hhas]

/-- Whatever a listing is asked, it reads the map and changes no document. -/
theorem ask {l : Listing} (hagrees : t.Agrees l.table) (hpos : 0 < l.next)
    (calls : List ListingCall) :
    (l.ask calls).1 = m.lines l.next calls ∧ t.Agrees (l.ask calls).2.table ∧
      (l.ask calls).2.origin = l.origin := by
  induction calls generalizing l with
  | nil => exact ⟨rfl, hagrees, rfl⟩
  | cons call calls ih =>
      cases call with
      | restart => exact ih (l := l.restart) hagrees Nat.one_pos
      | next =>
          by_cases hle : l.next ≤ t.count
          · obtain ⟨hstep, hswitched⟩ := step_spec hagrees hpos hle
            obtain ⟨hlines, htable, horigin⟩ :=
              ih (l := ⟨l.table.switch l.next, l.origin, l.next + 1⟩) hswitched (by simp)
            have hentry : t.entry l.next = m.entry l.next := by
              have hplain := h.shows.document l.next (has_iff.mpr ⟨hpos, hle⟩)
              rw [DocumentMap.entry, ← hplain, entry, ← GapBuffer.length_content]
              rfl
            simp only [Listing.ask, hstep, DocumentMap.lines, ← h.shows.count, if_pos hle]
            exact ⟨by rw [hlines, hentry], htable, horigin⟩
          · have hend : l.step = (none, l) := by
              rw [Listing.step, if_neg (by rwa [hagrees.count])]
            obtain ⟨hlines, htable, horigin⟩ := ih hagrees hpos
            simp only [Listing.ask, hend, DocumentMap.lines, ← h.shows.count, if_neg hle]
            exact ⟨by rw [hlines], htable, horigin⟩

/-- **A listing**, interrupted wherever it may be, tells the entries of the map and comes back. -/
theorem list (calls : List ListingCall) :
    (t.perform (.list calls)).1 = (m.perform (.list calls)).1 ∧
      (t.perform (.list calls)).2.Pictured (m.perform (.list calls)).2 := by
  obtain ⟨hlines, hagrees, horigin⟩ :=
    h.ask (l := Listing.start t) (Agrees.refl h.wellFormed) Nat.one_pos calls
  have horigin' : ((Listing.start t).ask calls).2.origin = t.active := horigin
  simp only [SegmentTable.perform, DocumentMap.perform, hlines]
  refine ⟨rfl, ?_⟩
  have hback := hagrees.trans (hagrees.wellFormed.agrees_switch t.active)
  have hactive : (((Listing.start t).ask calls).2.table.switch t.active).active = t.active :=
    active_switch (by rw [hagrees.has]; exact has_active)
  rw [Listing.finish, horigin']
  exact h.of_agrees_active hback hactive

/-- **Every operation on a table is the operation on its picture**, with the same answer. -/
theorem perform (op : TableOp) :
    (t.perform op).1 = (m.perform op).1 ∧ (t.perform op).2.Pictured (m.perform op).2 := by
  cases op with
  | activate id => exact h.activate id
  | edit edit => exact h.edit edit
  | change edit => exact h.change edit
  | continueInNext => exact h.continueInNext
  | release id => exact h.release id
  | parts name => exact h.parts name
  | list calls => exact h.list calls

/-- So is every sequence of operations. -/
theorem performAll (ops : List TableOp) :
    (performAll SegmentTable.perform t ops).1 = (performAll DocumentMap.perform m ops).1 ∧
      (performAll SegmentTable.perform t ops).2.Pictured
        (performAll DocumentMap.perform m ops).2 := by
  induction ops generalizing t m with
  | nil => exact ⟨rfl, h⟩
  | cons op ops ih =>
      obtain ⟨hanswer, hnext⟩ := h.perform op
      obtain ⟨hanswers, hend⟩ := ih hnext
      exact ⟨congrArg₂ List.cons hanswer hanswers, hend⟩

end Pictured

/-! ## Sequences of operations on a new table -/

/-- Every well-formed table has a picture. -/
theorem WellFormed.pictured (h : t.WellFormed) :
    t.Pictured ⟨t.capacity, t.count, t.active, fun id => (t.document id).plain⟩ :=
  ⟨h, rfl, rfl, rfl, fun _ _ => rfl⟩

/-- A run of operations keeps a table well formed. -/
theorem WellFormed.performAll (h : t.WellFormed) (ops : List TableOp) :
    (performAll perform t ops).2.WellFormed := (h.pictured.performAll ops).2.wellFormed

/-- A new table is pictured by a map of blank documents. -/
theorem pictured_ofLayout {capacity : Nat} {present : List Bool} (hcap : capacity < 2 ^ 32)
    (h : ofLayout capacity present = .ok t) :
    t.Pictured (DocumentMap.unused capacity (present.count true)) := by
  obtain ⟨first, rest, rfl, hcount, hlen⟩ := of_ofLayout h
  refine ⟨wellFormed_unused hcap hlen, rfl, ?_, rfl, ?_⟩
  · exact (count_unused capacity first rest).trans hcount
  intro id hid
  rw [document_unused hcap hid, Document.plain, newDocument, GapBuffer.content,
    GapBuffer.before_empty, GapBuffer.after_empty]
  rfl

/-- The bytes of the active segment and of no other are out of their slot. -/
theorem vacant_eq (t : SegmentTable) : t.vacant = [t.active] := by
  have hpos := t.active_pos
  have hle := t.active_le
  have hsame : t.vacant = (List.range' 1 t.count).filter (· == t.active) := by
    refine List.filter_congr ?_
    intro id hid
    rw [List.mem_range'_1, count] at hid
    have hi : id - 1 < t.slots.size := by omega
    have hsome := t.isSome_storage (id - 1) hi
    rw [Array.getElem?_eq_getElem hi, Option.bind_some, ← Option.not_isSome, hsome,
      Nat.sub_add_cancel hid.1]
    exact Bool.not_not _
  have hmem : t.active ∈ List.range' 1 t.count := by
    rw [List.mem_range'_1, count]
    omega
  have hone := List.count_eq_one_of_mem (List.nodup_range' 1) hmem
  rw [hsame, List.filter_beq, hone]
  rfl

/-- **A segment table is a map with one active document.**  Every sequence of operations on a new
table gets the answers that the map of unused documents gets, and leaves a table that shows what the
map has become.  All along, also while a listing is in progress, the active segment and no other has
its bytes moved out of its slot. -/
theorem performAll_refines {capacity : Nat} {present : List Bool} (hcap : capacity < 2 ^ 32)
    (hnew : ofLayout capacity present = .ok t) (ops : List TableOp) :
    let run := ScreenEditor.performAll perform t ops
    let plain := ScreenEditor.performAll DocumentMap.perform
      (DocumentMap.unused capacity (present.count true)) ops
    run.1 = plain.1 ∧ run.2.Shows plain.2 ∧
      ∀ calls, ((Listing.start run.2).ask calls).2.table.vacant
        = [((Listing.start run.2).ask calls).2.table.active] := by
  obtain ⟨hanswers, hpictured⟩ := (pictured_ofLayout hcap hnew).performAll ops
  exact ⟨hanswers, hpictured.shows, fun _ => vacant_eq _⟩

/-- Two of three slots are present: text in the first goes on in the second, a listing begins again
before its end, and the first is given up. -/
theorem performAll_refines_two_slots :
    let t := unused 4 0 [2]
    let ops : List TableOp := [.change (.rename "f"), .edit (.insertAll [97, 98]), .edit (.seek 1),
      .continueInNext, .activate 3, .parts "f", .list [.next, .restart, .next, .next, .next],
      .release 1, .list [.next]]
    ofLayout 4 [true, false, true] = .ok t ∧
      (ScreenEditor.performAll perform t ops).1 = [.done, .edited .done, .edited .done, .begun 2,
        .refused (.invalidSegment 3), .found [1, 2],
        .listed [some ⟨1, 2, false, 1, "f"⟩, some ⟨1, 2, false, 1, "f"⟩, some ⟨2, 0, false, 2, "f"⟩,
          none],
        .done, .listed [some ⟨1, 0, false, 0, ""⟩]] ∧
      (ScreenEditor.performAll perform t ops).2.active = 2 := by
  intro t ops
  have hnew : ofLayout 4 [true, false, true] = .ok t := rfl
  obtain ⟨hanswers, hshows, -⟩ := performAll_refines (by decide) hnew ops
  exact ⟨hnew, hanswers.trans (by decide +kernel), hshows.active.trans (by decide +kernel)⟩

end SegmentTable
end ScreenEditor
