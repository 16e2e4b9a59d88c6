import ScreenEditor.Proofs.Search.Replies
import ScreenEditor.Proofs.Session.Documents
import ScreenEditor.Storage.Memory

/-!
# Selections inside the text

A selection is recorded once and used later, so its ends must still be offsets of the text at hand
then.  Operations on a session treat it in one of three ways:

* an edit, a file that comes in and another document drop it;
* a motion, the toggle and a match that is found put its ends on offsets of the text;
* whatever else there is leaves both the selection and the text at hand.

So the ends lie inside the text all along a course (`Session.selectsInside_course`), and a range
that is cut or copied is neither clipped nor refused.

## Main results

* `Session.SelectsInside.cut_ok`, `Session.copy_ok`: what a range is cut and copied to.
* `Session.cut_removes_selection`: both, along every course of a new session.
-/

namespace ScreenEditor

/-! ## Selections -/

/-- Both ends of the selection are offsets of a text of that length. -/
def Selection.Within (selection : Selection) (length : Nat) : Prop :=
  ∀ anchor extent, selection.bounds = some (anchor, extent) → anchor ≤ length ∧ extent ≤ length

namespace Selection

variable {selection : Selection} {caret length : Nat}

/-- Where nothing is selected there are no ends to be outside. -/
theorem within_none (length : Nat) : Selection.none.Within length := by
  intro anchor extent hbounds
  cases hbounds

/-- A frozen selection lies where its ends do. -/
theorem within_span {anchor extent : Nat} (h : anchor ≤ length) (h' : extent ≤ length) :
    (span anchor extent).Within length := by
  intro a e hbounds
  obtain ⟨rfl, rfl⟩ := Prod.mk.inj (Option.some.inj hbounds)
  exact ⟨h, h'⟩

/-- An extent that goes to the caret. -/
theorem Within.extend (h : selection.Within length) (hcaret : caret ≤ length) (selecting : Bool) :
    Within ⟨selection.bounds.map fun b => (b.1, caret), selecting⟩ length := by
  intro anchor extent hbounds
  obtain ⟨b, hb, heq⟩ := Option.map_eq_some_iff.mp hbounds
  obtain ⟨rfl, rfl⟩ := Prod.mk.inj heq
  exact ⟨(h b.1 b.2 hb).1, hcaret⟩

/-- A selection that follows the caret stays in the text, as the caret does. -/
theorem Within.track (h : selection.Within length) (hcaret : caret ≤ length) :
    (selection.track caret).Within length := by
  rw [Selection.track]
  split
  · exact h.extend hcaret selection.selecting
  · exact h

/-- It is begun and frozen at the caret. -/
theorem Within.startOrExtend (h : selection.Within length) (hcaret : caret ≤ length) :
    (selection.startOrExtend caret).Within length := by
  rw [Selection.startOrExtend]
  split
  · exact h.extend hcaret false
  · intro anchor extent hbounds
    obtain ⟨rfl, rfl⟩ := Prod.mk.inj (Option.some.inj hbounds)
    exact ⟨hcaret, hcaret⟩

/-- A span that is shown as selected has a byte. -/
theorem lo_lt_hi_of_nonEmptyRange {span : Span} (hspan : selection.nonEmptyRange = some span) :
    span.lo < span.hi := by
  have hfull := (Option.filter_eq_some_iff.mp hspan).2
  simpa [Span.isEmpty] using hfull

/-- It lies where the ends of the selection lie. -/
theorem Within.span_bounds (h : selection.Within length) {span : Span}
    (hspan : selection.nonEmptyRange = some span) : span.lo < span.hi ∧ span.hi ≤ length := by
  refine ⟨lo_lt_hi_of_nonEmptyRange hspan, ?_⟩
  obtain ⟨hrange, -⟩ := Option.filter_eq_some_iff.mp hspan
  obtain ⟨b, hb, rfl⟩ := Option.map_eq_some_iff.mp hrange
  obtain ⟨hanchor, hextent⟩ := h b.1 b.2 hb
  exact Nat.max_le.mpr ⟨hanchor, hextent⟩

end Selection

/-! ## Texts under search -/

namespace Searched

/-- The selection of a text under search lies in the text. -/
def Inside (s : Searched) : Prop := s.selection.Within s.buffer.length

/-- A match that is found lies in the text. -/
theorem inside_showMatch {s : Searched} {needle : List UInt8} {offset : Nat}
    (h : offset + needle.length ≤ s.buffer.length) : (s.showMatch needle offset).Inside := by
  rw [Inside, showMatch, GapBuffer.length_seek]
  exact Selection.within_span (Nat.le_trans (Nat.le_add_right _ _) h) h

/-- A search leaves the selection where it is, or on the match that it found. -/
theorem Inside.search {s : Searched} (h : s.Inside) (needle : List UInt8) :
    (s.search needle).1.Inside := by
  rw [Searched.search]
  split
  · next offset wrapped hfound =>
    apply inside_showMatch
    rw [GapBuffer.findWrapping] at hfound
    split at hfound
    · next hfind =>
      obtain ⟨rfl, -⟩ := Prod.mk.inj (Option.some.inj hfound)
      exact (GapBuffer.find_bounds hfind).2.1
    · obtain ⟨k, hfind, heq⟩ := Option.map_eq_some_iff.mp hfound
      obtain ⟨rfl, -⟩ := Prod.mk.inj heq
      exact (GapBuffer.find_bounds hfind).2.1
  · exact h

end Searched

namespace ReplaceRun

variable {run : ReplaceRun} {s : Searched}

/-- A run without questions selects nothing, or the match that did not fit. -/
theorem inside_all (h : s.Inside) : (run.all s).2.Inside := by
  fun_induction ReplaceRun.all run s with
  | case1 => exact h
  | case2 run s offset next hnext shown fit hdec ih => exact ih (Selection.within_none _)
  | case3 run s offset next hnext shown full =>
      exact Searched.inside_showMatch (next?_bounds hnext).2.1

/-- The match that a question shows lies in the text. -/
theorem inside_offer? {offer : Offer} (h : run.offer? s = some offer) : offer.shown.Inside := by
  obtain ⟨found, hfound, rfl⟩ := Option.map_eq_some_iff.mp h
  obtain ⟨-, hle, -⟩ := next?_bounds hfound
  rw [needle_next hfound] at hle
  exact Searched.inside_showMatch hle

/-- An answer drops the selection with the match that it replaces, or leaves it. -/
theorem inside_answer (h : s.Inside) (offset : Nat) (decision : ReplaceDecision) :
    (run.answer s offset decision).searched.Inside := by
  cases decision with
  | abort => exact h
  | skip => exact h
  | replace =>
      rw [answer]
      split
      · exact Selection.within_none _
      · exact h

end ReplaceRun

/-! ## Sessions -/

namespace Session

variable {σ : Type} {s s' : Session σ}

/-- The ends of the selection lie in the text at hand. -/
def SelectsInside (s : Session σ) : Prop := s.selection.Within s.buffer.length

/-- Nothing is selected. -/
theorem selectsInside_of_none (h : s.selection = Selection.none) : s.SelectsInside := by
  rw [SelectsInside, h]
  exact Selection.within_none _

/-- The selection and the text at hand stay. -/
theorem SelectsInside.of_same (h : s.SelectsInside) (hselection : s'.selection = s.selection)
    (hcontent : s'.buffer.content = s.buffer.content) : s'.SelectsInside := by
  rw [SelectsInside, ← GapBuffer.length_content] at h ⊢
  rwa [hselection, hcontent]

/-! ### Edits and motions -/

/-- A refusal changes no selection that is left. -/
theorem selection_refuseEdit (s : Session σ) (wasShown : Bool) :
    (s.refuseEdit wasShown).2.selection = s.selection := by
  cases wasShown <;> rfl

/-- Nor does showing an edit. -/
theorem selection_finishEdit (s : Session σ) (wasShown : Bool)
    (patch : View → GapBuffer → Repainted) :
    (s.finishEdit wasShown patch).2.selection = s.selection := by
  cases wasShown <;> rfl

/-- Typing drops the selection, also when the byte is refused. -/
theorem selection_insertByte (s : Session σ) (byte : UInt8) :
    (s.insertByte byte).2.selection = Selection.none := by
  rw [insertByte, dropSelection]
  simp only
  split
  · exact selection_refuseEdit _ _
  · exact selection_finishEdit _ _ _

/-- So does typing several bytes, if there are any. -/
theorem SelectsInside.insertBytes (h : s.SelectsInside) (bytes : List UInt8) :
    (s.insertBytes bytes).2.SelectsInside :=
  insertBytes_induction
    (fun s _ byte => selectsInside_of_none (s.selection_insertByte byte)) h bytes

/-- A tab stop is reached by typing blanks. -/
theorem SelectsInside.insertBlanks (h : s.SelectsInside) (n : Nat) :
    (s.insertBlanks n).2.SelectsInside := by
  rw [insertBlanks_eq]
  exact h.insertBytes _

/-- Deleting drops the selection, also when there is nothing to delete. -/
theorem selection_deleteLeft (s : Session σ) : s.deleteLeft.2.selection = Selection.none := by
  rw [deleteLeft, dropSelection]
  simp only
  split
  · exact selection_refuseEdit _ _
  · exact selection_finishEdit _ _ _

/-- The same on the other side of the caret. -/
theorem selection_deleteRight (s : Session σ) : s.deleteRight.2.selection = Selection.none := by
  rw [deleteRight, dropSelection]
  simp only
  split
  · exact selection_refuseEdit _ _
  · exact selection_finishEdit _ _ _

/-- The extent follows the caret, which stays in the text. -/
theorem SelectsInside.moveTo (h : s.SelectsInside) (target : Option Nat) :
    (s.moveTo target).2.SelectsInside := by
  rw [Session.moveTo]
  split
  · exact h
  · next offset hoffset =>
    have hlength : (s.buffer.seek offset).length = s.buffer.length :=
      GapBuffer.length_seek s.buffer offset
    have hcaret := (s.buffer.seek offset).caret_le_length
    have htrack : (s.selection.track (s.buffer.seek offset).caret).Within
        (s.buffer.seek offset).length := by
      rw [hlength] at hcaret ⊢
      exact Selection.Within.track h hcaret
    exact htrack

/-! ### Searching -/

/-- A report leaves selection and text. -/
theorem SelectsInside.reportSearch (h : s.SelectsInside) (outcome : SearchOutcome) :
    (s.reportSearch outcome).SelectsInside := by
  cases outcome with
  | notFound => exact h
  | found offset wrapped => cases wrapped <;> exact h
  | finished summary =>
      rw [Session.reportSearch]
      simp only
      split <;> split <;> exact h

/-- **A search** selects an occurrence of the needle in the text at hand. -/
theorem SelectsInside.find (h : s.SelectsInside) (needle : List UInt8) :
    (s.find needle).2.SelectsInside := by
  have hinside : (s.searched.search needle).1.Inside :=
    Searched.Inside.search (s := s.searched) h needle
  have hshown : (s.withSearched (s.searched.search needle).1).SelectsInside := hinside
  exact hshown.reportSearch _

/-- **A run without questions** leaves the selection in the text that it made. -/
theorem SelectsInside.replaceAll (h : s.SelectsInside) (needle replacement : List UInt8) :
    (s.replaceAll needle replacement).2.SelectsInside := by
  have hinside : (s.searched.replaceAll needle replacement).1.Inside :=
    ReplaceRun.inside_all (s := s.searched) h
  have hshown : (s.withSearched (s.searched.replaceAll needle replacement).1).SelectsInside :=
    hinside
  exact hshown.reportSearch _

/-- A question selects the match that it asks about. -/
theorem SelectsInside.askNext (h : s.SelectsInside) (run : ReplaceRun) :
    (s.askNext run).2.SelectsInside := by
  rw [Session.askNext]
  split
  · next offer hoffer =>
    have hinside : (s.withSearched offer.shown).SelectsInside := ReplaceRun.inside_offer? hoffer
    exact hinside
  · exact h.reportSearch _

/-- Its answer leads to the next question or to the report. -/
theorem SelectsInside.answer (h : s.SelectsInside) (question : Question)
    (decision : ReplaceDecision) : (s.answer question decision).2.SelectsInside := by
  have hsearched : s.searched.Inside := h
  have hinside : (question.run.answer s.searched question.offset decision).searched.Inside :=
    ReplaceRun.inside_answer hsearched question.offset decision
  rw [Session.answer]
  split
  · next run found heq =>
    rw [heq] at hinside
    have hfound : (s.withSearched found).SelectsInside := hinside
    exact hfound.askNext run
  · next run found heq =>
    rw [heq] at hinside
    have hfound : (s.withSearched found).SelectsInside := hinside
    exact hfound.reportSearch _

/-- So the selection lies in the text at every question of a run and at its end. -/
theorem SelectsInside.queryReplace (h : s.SelectsInside) (needle replacement : List UInt8)
    (decisions : List ReplaceDecision) :
    (s.queryReplace needle replacement decisions).2.1.SelectsInside ∧
      ∀ asked ∈ (s.queryReplace needle replacement decisions).2.2, asked.SelectsInside :=
  queryReplace_induction (fun _ hs run => hs.askNext run)
    (fun _ hs question decision => hs.answer question decision) h needle replacement decisions

/-! ### Documents and files -/

/-- A selection begins or ends at the caret. -/
theorem SelectsInside.toggleSelection (h : s.SelectsInside) : s.toggleSelection.SelectsInside :=
  Selection.Within.startOrExtend h s.buffer.caret_le_length

/-- Another document comes without a selection. -/
theorem SelectsInside.switchTo (h : s.SelectsInside) (id : Nat) :
    (s.switchTo id).2.SelectsInside := by
  rw [Session.switchTo]
  split
  · exact h
  · exact selectsInside_of_none rfl

/-- A listing comes back to the same text, if control blocks can keep it. -/
theorem SelectsInside.listDocuments (h : s.SelectsInside) (hwf : s.table.WellFormed) :
    s.listDocuments.2.SelectsInside := by
  obtain ⟨-, hagrees, hactive⟩ := SegmentTable.list_spec hwf
  exact h.of_same rfl (congrArg (fun d : Document => d.buffer.content) (hagrees.current_eq hactive))

variable [Storage σ]

/-- Writing a span changes neither the text nor the selection. -/
theorem SelectsInside.exportRange (h : s.SelectsInside) (name : String) (range : Span) :
    (s.exportRange name range).2.SelectsInside :=
  h.of_same rfl (congrArg (·.current.buffer.content) (s.table_exportRange name range))

/-- A copy that succeeds drops the selection. -/
theorem SelectsInside.copy (h : s.SelectsInside) : s.copy.2.SelectsInside :=
  copy_induction h (h.exportRange s.clipboardFile) fun _ _ _ => selectsInside_of_none rfl

/-- So does a cut, with the bytes. -/
theorem SelectsInside.cut (h : s.SelectsInside) : s.cut.2.SelectsInside :=
  cut_induction h (h.exportRange s.clipboardFile) fun _ _ _ _ => selectsInside_of_none rfl

/-- An insertion drops the selection before the file is read. -/
theorem selection_insertFile (s : Session σ) (name : String) :
    (s.insertFile name).2.selection = Selection.none := by
  rw [insertFile]
  simp only
  split <;> rfl

/-- A file that is opened comes without one; one that is not leaves the text as it was. -/
theorem SelectsInside.openFile (h : s.SelectsInside) (hwf : s.table.WellFormed) (name : String) :
    (s.openFile name).2.SelectsInside := by
  rw [Session.openFile]
  split
  · next e table storage heq =>
    have hrestored := load_error hwf (congrArg Prod.fst heq)
    rw [heq] at hrestored
    exact h.of_same rfl hrestored.content_eq
  · exact selectsInside_of_none rfl

/-- A save renames the document and changes no text. -/
theorem SelectsInside.saveAs (h : s.SelectsInside) (hwf : s.table.WellFormed) (name : String)
    (force : Bool) : (s.saveAs name force).2.SelectsInside := by
  rw [Session.saveAs]
  simp only
  split
  · exact h
  · obtain ⟨htexts, hactive⟩ := save_spec hwf s.storage name none s.transfer
    have hsaved : SelectsInside { s with
        table := (s.table.save s.storage name none s.transfer).2.1
        storage := (s.table.save s.storage name none s.transfer).2.2
        pendingOverwrite := none } :=
      h.of_same rfl (congrArg GapBuffer.content (htexts.current_buffer hactive))
    split <;> exact hsaved

/-- The same holds under the name that the document has. -/
theorem SelectsInside.save (h : s.SelectsInside) (hwf : s.table.WellFormed) :
    s.save.2.SelectsInside := by
  rw [Session.save]
  split
  · exact h
  · exact h.saveAs hwf s.document.header.name true

/-- A selection that is saved is kept. -/
theorem SelectsInside.saveSelection (h : s.SelectsInside) (name : String) :
    (s.saveSelection name).2.SelectsInside := by
  rw [Session.saveSelection]
  split
  · exact h
  · next range hrange => exact h.exportRange name range

/-! ## Step and run -/

/-- **Every operation leaves the selection inside the text.** -/
theorem SelectsInside.perform (h : s.SelectsInside) (hwf : s.table.WellFormed) (op : SessionOp) :
    (s.perform op).SelectsInside := by
  cases op with
  | insertByte byte => exact selectsInside_of_none (s.selection_insertByte byte)
  | insertChar c => exact h.insertBytes (String.utf8EncodeChar c)
  | insertTab => exact h.insertBlanks _
  | deleteLeft => exact selectsInside_of_none s.selection_deleteLeft
  | deleteRight => exact selectsInside_of_none s.selection_deleteRight
  | moveLeft => exact h.moveTo _
  | moveRight => exact h.moveTo _
  | moveUp => exact h.moveTo _
  | moveDown => exact h.moveTo _
  | pageUp => exact h.moveTo _
  | pageDown => exact h.moveTo _
  | moveRowStart => exact h.moveTo _
  | moveRowEnd => exact h.moveTo _
  | moveDocumentStart => exact h.moveTo _
  | moveDocumentEnd => exact h.moveTo _
  | seek offset => exact h.moveTo _
  | toggleSelection => exact h.toggleSelection
  | copy => exact h.copy
  | cut => exact h.cut
  | paste => exact selectsInside_of_none (s.selection_insertFile s.clipboardFile)
  | find needle => exact h.find needle
  | replaceAll needle replacement => exact h.replaceAll needle replacement
  | queryReplace needle replacement decisions =>
      exact (h.queryReplace needle replacement decisions).1
  | openFile name => exact h.openFile hwf name
  | insertFile name => exact selectsInside_of_none (s.selection_insertFile name)
  | save => exact h.save hwf
  | saveAs name force => exact h.saveAs hwf name force
  | saveSelection name => exact h.saveSelection name
  | switchTo id => exact h.switchTo id
  | cycle forward => exact h.switchTo (s.neighbour forward)
  | listDocuments => exact h.listDocuments hwf
  | hasUnsavedChanges => exact h.listDocuments hwf
  | resize rows cols => exact h
  | takeAlert => exact h
  | setStatus text => exact h
  | clearStatus => exact h

/-- A new session has nothing selected. -/
theorem selectsInside_create {σ : Type} {s : Session σ} {options : SessionOptions} {storage : σ}
    {rows cols : Nat} (h : create options storage rows cols = .ok s) : s.SelectsInside := by
  obtain ⟨table, -, rfl⟩ := exists_of_map_ok h
  exact selectsInside_of_none rfl

/-- **The selection is inside the text all along a course.** -/
theorem selectsInside_course {options : SessionOptions} {storage : σ} {rows cols : Nat}
    (hcap : options.capacity < 2 ^ 32) (h : create options storage rows cols = .ok s)
    (ops : List SessionOp) : ∀ s' ∈ s.course ops, s'.table.WellFormed ∧ s'.SelectsInside := by
  have hops : s.Along (fun _ _ => True) ops := along_of_forall fun _ _ => trivial
  exact forall_mem_course
    (fun _ op hs _ => ⟨wellFormed_perform hs.1 op, hs.2.perform hs.1 op⟩)
    ⟨SegmentTable.wellFormed_ofLayout hcap (ofLayout_of_create h), selectsInside_create h⟩ hops

end Session

/-! ## Copying and cutting -/

/-- A range that lies in the text is deleted, and the caret is left where it was. -/
theorem GapBuffer.of_cutRange {g : GapBuffer} {range : Span} (h : range.lo ≤ range.hi)
    (h' : range.hi ≤ g.length) :
    ((g.deleteRange? range.lo range.hi).getD g).content
        = g.content.take range.lo ++ g.content.drop range.hi ∧
      ((g.deleteRange? range.lo range.hi).getD g).caret = range.lo := by
  rw [deleteRange?, if_pos ⟨h, h'⟩, Option.getD_some, content, before_deleteRange g h h',
    after_deleteRange g h h', deleteRange, caret_dropRight, caret_seek g (Nat.le_trans h h')]
  exact ⟨rfl, rfl⟩

namespace Session

variable {σ : Type} [FaithfulStorage σ] {s : Session σ}

/-- What a file takes of a span of the text at hand: the bytes, their terminators converted. -/
def exported (s : Session σ) (span : Span) : List UInt8 :=
  s.transfer.lineEnding.convert ((s.buffer.content.take span.hi).drop span.lo)

/-- The span was copied: the clipboard file holds it, and every document is as it was. -/
structure CopiedTo (s s' : Session σ) (span : Span) : Prop where
  file : HonestStorage.file? s'.storage s.clipboardFile = some (s.exported span)
  active : s'.active = s.active
  documents : ∀ id, s.table.has id = true → s'.table.document id = s.table.document id

/-- The span was cut: the clipboard file holds it, and of all documents the one at hand has changed.
It is without the span, with the caret where that was, and counts as modified; nothing is
selected. -/
structure CutTo (s s' : Session σ) (span : Span) : Prop where
  file : HonestStorage.file? s'.storage s.clipboardFile = some (s.exported span)
  content : s'.buffer.content = s.buffer.content.take span.lo ++ s.buffer.content.drop span.hi
  caret : s'.buffer.caret = span.lo
  selection : s'.selection = Selection.none
  header : s'.document.header = s.document.markModified.header
  active : s'.active = s.active
  others : ∀ id, s.table.has id = true → id ≠ s.active →
    s'.table.document id = s.table.document id

/-- A range that was written is in the file. -/
theorem file?_of_exportRange_ok {name : String} {range : Span} {written : Nat}
    (hok : (s.exportRange name range).1 = .ok written) :
    HonestStorage.file? (s.exportRange name range).2.storage name = some (s.exported range) :=
  save_written_alone (Save.alone_range s.table range) hok

/-- **A copy that succeeds** writes the selected bytes. -/
theorem copy_ok {span : Span} (hspan : s.highlight = some span) {copied : Bool}
    (hcopy : s.copy.1 = .ok copied) : s.CopiedTo s.copy.2 span := by
  rw [copy, hspan] at hcopy ⊢
  simp only at hcopy ⊢
  cases hexport : (s.exportRange s.clipboardFile span) with
  | mk result s₁ =>
      cases result with
      | error e =>
          rw [hexport] at hcopy
          cases hcopy
      | ok written =>
          have hfile := file?_of_exportRange_ok (congrArg Prod.fst hexport)
          have htable := s.table_exportRange s.clipboardFile span
          rw [hexport] at hfile htable
          exact ⟨hfile, congrArg (·.active) htable, fun id _ => congrArg (·.document id) htable⟩

/-- **A cut that succeeds** writes the selected bytes and removes just these. -/
theorem cut_ok {span : Span} (hspan : s.highlight = some span) (hle : span.lo ≤ span.hi)
    (hle' : span.hi ≤ s.buffer.length) {cut : Bool} (hcut : s.cut.1 = .ok cut) :
    s.CutTo s.cut.2 span := by
  rw [Session.cut, hspan] at hcut ⊢
  simp only at hcut ⊢
  cases hexport : (s.exportRange s.clipboardFile span) with
  | mk result s₁ =>
      cases result with
      | error e =>
          rw [hexport] at hcut
          cases hcut
      | ok written =>
          have hfile := file?_of_exportRange_ok (congrArg Prod.fst hexport)
          have htable := s.table_exportRange s.clipboardFile span
          rw [hexport] at hfile htable
          have hbuffer : s₁.buffer = s.buffer := congrArg (·.current.buffer) htable
          rw [← hbuffer] at hle'
          obtain ⟨hcontent, hcaret⟩ := GapBuffer.of_cutRange hle hle'
          rw [hbuffer] at hcontent
          refine ⟨hfile, ?_, hcaret, rfl, congrArg (·.current.markModified.header) htable,
            congrArg (·.active) htable, ?_⟩
          · rw [← hcontent, ← hbuffer]
            rfl
          · intro id hid hne
            have hsame := SegmentTable.document_modifyCurrent (fun d => (d.mapBuffer fun g =>
              (g.deleteRange? span.lo span.hi).getD g).markModified) (htable ▸ hid)
            rw [if_neg (htable ▸ hne), htable] at hsame
            rw [← hsame, ← htable]
            rfl

/-- **The selection is always valid, and a cut removes just what it exports.**  Wherever a course of
operations leads, whichever of them fail, the ends of the selection lie in the text at hand, also at
every question of a replace run.  So a span that is shown as selected is neither clipped when it is
written nor refused when it is deleted: a cut that succeeds moves its bytes into the clipboard file,
and a copy that succeeds writes the same file and changes no document. -/
theorem cut_removes_selection {options : SessionOptions} {storage : σ} {rows cols : Nat}
    (hcap : options.capacity < 2 ^ 32) (h : create options storage rows cols = .ok s)
    (ops : List SessionOp) : ∀ s' ∈ s.course ops,
      s'.selection.Within s'.buffer.content.length ∧
      (∀ needle replacement decisions,
        ∀ asked ∈ (s'.queryReplace needle replacement decisions).2.2,
          asked.selection.Within asked.buffer.content.length) ∧
      ∀ span, s'.highlight = some span →
        span.lo < span.hi ∧ span.hi ≤ s'.buffer.content.length ∧
        (∀ cut, s'.cut.1 = .ok cut → s'.CutTo s'.cut.2 span) ∧
        ∀ copied, s'.copy.1 = .ok copied → s'.CopiedTo s'.copy.2 span := by
  intro s' hs'
  obtain ⟨hwf, hinside⟩ := selectsInside_course hcap h ops s' hs'
  have hasked := fun needle replacement decisions =>
    (hinside.queryReplace needle replacement decisions).2
  simp only [SelectsInside, ← GapBuffer.length_content] at hasked
  have hwithin := hinside
  rw [SelectsInside, ← GapBuffer.length_content] at hwithin
  refine ⟨hwithin, hasked, ?_⟩
  intro span hspan
  obtain ⟨hlt, hle⟩ := hwithin.span_bounds hspan
  refine ⟨hlt, hle, fun _ hcut => cut_ok hspan (Nat.le_of_lt hlt) ?_ hcut,
    fun _ hcopy => copy_ok hspan hcopy⟩
  rwa [GapBuffer.length_content] at hle

/-- A selection over a terminator, made backwards and cut with another line ending. -/
theorem cut_removes_selection_backwards :
    let config := { Config.standard "" with
      segmentCapacity := 8, loadChunkSize := 4, lineEnding := .crlf }
    let ops : List SessionOp :=
      [.insertByte 97, .insertByte 98, .insertByte 10, .insertByte 99, .moveLeft, .toggleSelection,
        .seek 1, .toggleSelection]
    config.complaint? = none ∧
      ∃ s : Session Memory, create config.sessionOptions Memory.empty 2 3 = .ok s ∧
        ∃ s' ∈ s.course ops, s'.highlight = some ⟨1, 3⟩ ∧ s'.cut.1 = .ok true ∧
          s'.cut.2.storage.file? s'.clipboardFile = some [98, 13, 10] ∧
          s'.cut.2.buffer.content = [97, 99] ∧ s'.cut.2.buffer.caret = 1 ∧
          s'.CutTo s'.cut.2 ⟨1, 3⟩ := by
  intro config ops
  have hnone : config.complaint? = none := by decide
  obtain ⟨s, hcreate, s', hs', hspan, hcut, hrest⟩ : ∃ s : Session Memory,
      create config.sessionOptions Memory.empty 2 3 = .ok s ∧
        ∃ s' ∈ s.course ops, s'.highlight = some ⟨1, 3⟩ ∧ s'.cut.1 = .ok true ∧
          s'.cut.2.storage.file? s'.clipboardFile = some [98, 13, 10] ∧
          s'.cut.2.buffer.content = [97, 99] ∧ s'.cut.2.buffer.caret = 1 :=
    ⟨_, rfl, _, List.mem_of_getElem? (i := 8) rfl, by decide +kernel, by decide +kernel,
      by decide +kernel⟩
  obtain ⟨hfile, hcontent, hcaret⟩ := hrest
  obtain ⟨-, -, hspans⟩ :=
    cut_removes_selection (capacity_sessionOptions_lt hnone) hcreate ops s' hs'
  obtain ⟨-, -, hcuts, -⟩ := hspans ⟨1, 3⟩ hspan
  exact ⟨hnone, s, hcreate, s', hs', hspan, hcut, hfile, hcontent, hcaret, hcuts true hcut⟩

/-- In segments of 2^32 bytes, which a configuration may not ask for, a listing keeps the selection
and drops the text that it was made in. -/
theorem not_selection_within_oversized :
    let config := { Config.standard "" with segmentCapacity := 2 ^ 32, segmentCount := 2 }
    let ops : List SessionOp :=
      [.insertByte 97, .insertByte 98, .seek 0, .toggleSelection, .seek 2, .listDocuments]
    config.complaint? = some "segment_capacity must fit in 32 bits" ∧
      ∃ s : Session Memory, create config.sessionOptions Memory.empty 2 4 = .ok s ∧
        ∃ s' ∈ s.course ops, s'.highlight = some ⟨0, 2⟩ ∧ s'.buffer.content = [] ∧
          ¬ s'.selection.Within s'.buffer.content.length := by
  intro config ops
  obtain ⟨s, hcreate, s', hs', hspan, hcontent⟩ : ∃ s : Session Memory,
      create config.sessionOptions Memory.empty 2 4 = .ok s ∧
        ∃ s' ∈ s.course ops, s'.highlight = some ⟨0, 2⟩ ∧ s'.buffer.content = [] :=
    ⟨_, rfl, _, List.mem_of_getElem? (i := 6) rfl, by decide +kernel, by decide +kernel⟩
  refine ⟨by decide, s, hcreate, s', hs', hspan, hcontent, fun h => ?_⟩
  obtain ⟨-, hle⟩ := h.span_bounds hspan
  rw [hcontent] at hle
  cases hle

end Session
end ScreenEditor
