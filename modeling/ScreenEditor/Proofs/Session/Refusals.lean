import ScreenEditor.Proofs.Session.Documents
import ScreenEditor.Storage.Memory

/-!
# Refused operations

An operation is refused if it answers `false` or an error.  What is refused leaves the documents as
they were (`SegmentTable.SameDocuments`), whether it stopped before it changed anything, in the
middle of a file, or with part of a document written.

There is one exception.  Characters of several bytes and the blanks of a tab are typed byte by byte.
If there is room for some of these bytes but not for all (`Session.FitsInPart`), those that fit stay
although the operation answers `false`.

## Main results

* `Session.insertBytes_spec`: what typing several bytes answers and leaves.
* `Session.sameDocuments_iff_of_refused`: along every course of a new session, what is refused
  changes no document just if it is not such an insertion.
-/

namespace ScreenEditor

/-! ## The same documents -/

/-- The document `d'` has the text, the caret, the name and the mark of `d`. -/
structure Document.Alike (d d' : Document) : Prop where
  content : d'.buffer.content = d.buffer.content
  caret : d'.buffer.caret = d.buffer.caret
  name : d'.header.name = d.header.name
  modified : d'.header.modified = d.header.modified

theorem Document.Alike.refl (d : Document) : d.Alike d := ⟨rfl, rfl, rfl, rfl⟩

/-- Unused documents are alike, whatever is left in their cells. -/
theorem Document.Alike.of_isUnused {d d' : Document} (h : d.isUnused = true)
    (h' : d'.isUnused = true) : d.Alike d' := by
  obtain ⟨hname, hcontent, hmod⟩ := Document.isUnused_iff.mp h
  obtain ⟨hname', hcontent', hmod'⟩ := Document.isUnused_iff.mp h'
  have hcaret := d.buffer.caret_le_length
  have hcaret' := d'.buffer.caret_le_length
  rw [← d.buffer.length_content, hcontent, List.length_nil] at hcaret
  rw [← d'.buffer.length_content, hcontent', List.length_nil] at hcaret'
  exact ⟨hcontent'.trans hcontent.symm, by omega, hname'.trans hname.symm, hmod'.trans hmod.symm⟩

/-- The table `t'` has the same segment active as `t`, and all its documents are like those of
`t`. -/
structure SegmentTable.SameDocuments (t t' : SegmentTable) : Prop where
  active : t'.active = t.active
  count : t'.count = t.count
  documents : ∀ id, t.has id = true → (t.document id).Alike (t'.document id)

namespace SegmentTable.SameDocuments

variable {t t' : SegmentTable}

theorem refl (t : SegmentTable) : t.SameDocuments t := ⟨rfl, rfl, fun _ _ => .refl _⟩

theorem of_agrees (h : t.Agrees t') (hactive : t'.active = t.active) : t.SameDocuments t' :=
  ⟨hactive, h.count, fun id hid => h.document id hid ▸ .refl _⟩

/-- Documents that were put back are the same. -/
theorem of_restored (h : Restored t t') : t.SameDocuments t' := by
  refine ⟨h.active, h.count, fun id hid => ?_⟩
  by_cases hne : id = t.active
  · have hdoc : t'.document t.active = t'.current := by rw [← h.active, document_active]
    rw [hne, hdoc, document_active]
    exact ⟨h.content_eq, h.caret_eq, by rw [h.header], by rw [h.header]⟩
  · rcases h.others id hid hne with hsame | ⟨hunused, hunused'⟩
    · exact hsame ▸ .refl _
    · exact .of_isUnused hunused hunused'

/-- Whether a question about overwriting is open makes no difference. -/
theorem awaitOverwrite (t : SegmentTable) :
    t.SameDocuments (t.modifyHeader fun h => { h with awaitsOverwrite := true }) := by
  refine ⟨rfl, rfl, fun id hid => ?_⟩
  rw [modifyHeader, document_modifyCurrent _ hid]
  split
  · next hactive =>
    rw [hactive, document_active]
    exact ⟨rfl, rfl, rfl, rfl⟩
  · exact .refl _

end SegmentTable.SameDocuments

namespace Session

variable {σ : Type} {s : Session σ}

/-! ## Typing several bytes -/

/-- A full segment refuses a byte and stays as it is. -/
theorem insertByte_of_full (h : s.buffer.free = 0) (byte : UInt8) :
    (s.insertByte byte).1 = false ∧ (s.insertByte byte).2.table = s.table := by
  have hfull : ({ s with selection := Selection.none } : Session σ).buffer.free = 0 := h
  rw [insertByte, dropSelection]
  simp only [if_pos hfull]
  exact ⟨rfl, table_refuseEdit _ _⟩

/-- Where there is room the byte goes before the caret. -/
theorem insertByte_of_room (h : s.buffer.free ≠ 0) (byte : UInt8) :
    (s.insertByte byte).1 = true ∧ (s.insertByte byte).2.buffer = s.buffer.insertAll [byte] := by
  have hroom : ({ s with selection := Selection.none } : Session σ).buffer.free ≠ 0 := h
  rw [insertByte, dropSelection]
  simp only [if_neg hroom]
  refine ⟨rfl, ?_⟩
  rw [buffer, table_finishEdit]
  rfl

/-- A byte takes one cell of the room. -/
theorem free_insertAll_singleton (g : GapBuffer) (h : g.free ≠ 0) (byte : UInt8) :
    (g.insertAll [byte]).free + 1 = g.free := by
  have hroom : g.gapBegin < g.gapEnd := Nat.lt_of_sub_ne_zero h
  rw [GapBuffer.insertAll, dif_pos hroom, GapBuffer.insertAll]
  simp only [GapBuffer.insert, GapBuffer.free]
  omega

/-- **Typing several bytes** puts those that fit before the caret, and answers whether all did. -/
theorem insertBytes_spec (s : Session σ) (bytes : List UInt8) :
    (s.insertBytes bytes).1 = decide (bytes.length ≤ s.buffer.free) ∧
      (s.insertBytes bytes).2.buffer.before = s.buffer.before ++ bytes.take s.buffer.free ∧
      (s.insertBytes bytes).2.buffer.after = s.buffer.after := by
  induction bytes generalizing s with
  | nil => exact ⟨by simp [insertBytes], by simp [insertBytes], rfl⟩
  | cons byte rest ih =>
      by_cases hfree : s.buffer.free = 0
      · obtain ⟨hanswer, htable⟩ := insertByte_of_full hfree byte
        rw [insertBytes]
        split
        · next s' heq => rw [heq] at hanswer; cases hanswer
        · next s' heq =>
          rw [heq] at htable
          have hbuffer : s'.buffer = s.buffer := congrArg (·.current.buffer) htable
          rw [hbuffer, hfree]
          exact ⟨by simp, by simp, rfl⟩
      · obtain ⟨hanswer, hbuffer⟩ := insertByte_of_room hfree byte
        have hroom := free_insertAll_singleton s.buffer hfree byte
        have hbefore : (s.buffer.insertAll [byte]).before = s.buffer.before ++ [byte] :=
          GapBuffer.before_insertAll s.buffer (Nat.one_le_iff_ne_zero.mpr hfree)
        rw [insertBytes]
        split
        · next s' heq =>
          rw [heq] at hbuffer
          obtain ⟨hall, hbefore', hafter'⟩ := ih s'
          rw [hbuffer] at hall hbefore' hafter'
          refine ⟨?_, ?_, ?_⟩
          · rw [hall, ← hroom]
            simp
          · rw [hbefore', hbefore, ← hroom, List.take_succ_cons, List.append_assoc]
            rfl
          · rw [hafter', GapBuffer.after_insertAll]
        · next s' heq => rw [heq] at hanswer; cases hanswer

/-- The bytes that an operation types. -/
def typedBytes (s : Session σ) : SessionOp → List UInt8
  | .insertByte byte => [byte]
  | .insertChar c => String.utf8EncodeChar c
  | .insertTab =>
    let width := max s.transfer.tabWidth 1
    List.replicate (width - s.view.cursor.2 % width) blankByte
  | _ => []

/-- There is room for some of the bytes that an operation types, but not for all. -/
def FitsInPart (s : Session σ) (op : SessionOp) : Prop :=
  0 < s.buffer.free ∧ s.buffer.free < (s.typedBytes op).length

instance (s : Session σ) (op : SessionOp) : Decidable (s.FitsInPart op) :=
  inferInstanceAs (Decidable (_ ∧ _))

/-- An insertion that is refused changes nothing if no byte fits. -/
theorem table_insertBytes_of_full {bytes : List UInt8} (h : s.buffer.free = 0) :
    (s.insertBytes bytes).2.table = s.table := by
  cases bytes with
  | nil => rfl
  | cons byte rest =>
      obtain ⟨hanswer, htable⟩ := insertByte_of_full h byte
      rw [insertBytes]
      split
      · next s' heq => rw [heq] at hanswer; cases hanswer
      · next s' heq => rwa [heq] at htable

/-- An insertion of which only a part fits changes the text, and is refused. -/
theorem insertBytes_of_part {bytes : List UInt8} (hlt : s.buffer.free < bytes.length) :
    (s.insertBytes bytes).1 = false ∧
      (s.insertBytes bytes).2.buffer.content.length = s.buffer.content.length + s.buffer.free := by
  obtain ⟨hanswer, hbefore, hafter⟩ := s.insertBytes_spec bytes
  refine ⟨by simpa [hanswer] using hlt, ?_⟩
  rw [GapBuffer.content, GapBuffer.content, hbefore, hafter]
  simp only [List.length_append, List.length_take]
  omega

/-- A single byte is typed like several. -/
theorem insertBytes_singleton (s : Session σ) (byte : UInt8) :
    s.insertBytes [byte] = s.insertByte byte := by
  rw [insertBytes]
  split
  · next s' heq => rw [insertBytes, heq]
  · next s' heq => rw [heq]

/-- A tab types the blanks up to the next tab stop. -/
theorem insertTab_eq (s : Session σ) : s.insertTab = s.insertBytes (s.typedBytes .insertTab) :=
  insertBlanks_eq s _

/-- **Bytes that are refused** leave the document, if there was room for none of them. -/
theorem sameDocuments_insertBytes {bytes : List UInt8} (hrefused : (s.insertBytes bytes).1 = false)
    (hpart : ¬ (0 < s.buffer.free ∧ s.buffer.free < bytes.length)) :
    s.table.SameDocuments (s.insertBytes bytes).2.table := by
  rw [(s.insertBytes_spec bytes).1, decide_eq_false_iff_not] at hrefused
  have hfull : s.buffer.free = 0 := by omega
  exact table_insertBytes_of_full hfull ▸ .refl _

/-! ## Refusals -/

/-- Nothing is deleted before the start of the text. -/
theorem sameDocuments_deleteLeft (hrefused : s.deleteLeft.1 = false) :
    s.table.SameDocuments s.deleteLeft.2.table := by
  rw [deleteLeft, dropSelection] at hrefused ⊢
  simp only at hrefused ⊢
  split
  · rw [table_refuseEdit]
    exact .refl _
  · next heq =>
    rw [heq] at hrefused
    cases hrefused

/-- Nor behind its end. -/
theorem sameDocuments_deleteRight (hrefused : s.deleteRight.1 = false) :
    s.table.SameDocuments s.deleteRight.2.table := by
  rw [deleteRight, dropSelection] at hrefused ⊢
  simp only at hrefused ⊢
  split
  · rw [table_refuseEdit]
    exact .refl _
  · next heq =>
    rw [heq] at hrefused
    cases hrefused

/-- A motion without a place to go to changes nothing. -/
theorem sameDocuments_moveTo {target : Option Nat} (hrefused : (s.moveTo target).1 = false) :
    s.table.SameDocuments (s.moveTo target).2.table := by
  rw [moveTo] at hrefused ⊢
  split at hrefused
  · exact .refl _
  · cases hrefused

/-- A segment that is not there is not switched to. -/
theorem sameDocuments_switchTo {id : Nat} (hrefused : (s.switchTo id).1.isOk = false) :
    s.table.SameDocuments (s.switchTo id).2.table := by
  rw [switchTo] at hrefused ⊢
  split
  · exact .refl _
  · next table heq =>
    rw [heq] at hrefused
    cases hrefused

/-! ## Refusals about files -/

variable [Storage σ]

/-- Nothing is cut unless the clipboard file is written. -/
theorem sameDocuments_cut (hrefused : s.cut.1.toOption.getD false = false) :
    s.table.SameDocuments s.cut.2.table := by
  rcases s.table_cut with hsame | ⟨range, hdone, -⟩
  · exact hsame ▸ .refl _
  · rw [hdone] at hrefused
    cases hrefused

theorem exists_error_of_not_isOk {ε α : Type} {r : Except ε α} (h : r.isOk = false) :
    ∃ e, r = .error e := by
  cases r with
  | error e => exact ⟨e, rfl⟩
  | ok a => cases h

/-- A file that cannot be inserted is taken back, however much of it was read. -/
theorem sameDocuments_insertFile (h : s.table.WellFormed) {name : String}
    (hrefused : (s.insertFile name).1.isOk = false) :
    s.table.SameDocuments (s.insertFile name).2.table := by
  obtain ⟨e, herror⟩ := exists_error_of_not_isOk hrefused
  obtain ⟨hresult, htable⟩ := s.insertFile_eq name
  rw [hresult] at herror
  exact htable ▸ .of_restored (load_error h herror)

/-- A file that cannot be opened leaves the document that it would have replaced. -/
theorem sameDocuments_openFile (h : s.table.WellFormed) {name : String}
    (hrefused : (s.openFile name).1.isOk = false) :
    s.table.SameDocuments (s.openFile name).2.table := by
  obtain ⟨e, herror⟩ := exists_error_of_not_isOk hrefused
  obtain ⟨hresult, htable⟩ := s.openFile_eq name
  rw [hresult] at herror
  exact htable ▸ .of_restored (load_error h herror)

/-- A document that cannot be saved keeps its name and its mark, also when part of it was
written. -/
theorem sameDocuments_saveAs (h : s.table.WellFormed) {name : String} {force : Bool}
    (hrefused : (s.saveAs name force).1.isOk = false) :
    s.table.SameDocuments (s.saveAs name force).2.table := by
  obtain ⟨e, herror⟩ := exists_error_of_not_isOk hrefused
  rcases s.saveAs_cases name force with ⟨-, -, htable⟩ | ⟨hresult, htable⟩
  · exact htable ▸ .awaitOverwrite s.table
  · rw [hresult] at herror
    exact htable ▸ .of_agrees (agrees_of_save_error h herror)
      (save_spec h s.storage name none s.transfer).2

/-- **A save that fails** leaves every document, but for the mark that it may be asked for again. -/
theorem sameDocuments_save (h : s.table.WellFormed) (hrefused : s.save.1.isOk = false) :
    s.table.SameDocuments s.save.2.table := by
  by_cases hnamed : s.document.header.name = ""
  · rw [save_of_unnamed hnamed]
    exact .refl _
  · rw [save_of_named hnamed] at hrefused ⊢
    exact sameDocuments_saveAs h hrefused

/-! ## Operations -/

/-- Whether an operation answers neither `false` nor an error.  Some have no such answer. -/
def succeeds (s : Session σ) : SessionOp → Bool
  | .insertByte byte => (s.insertByte byte).1
  | .insertChar c => (s.insertChar c).1
  | .insertTab => s.insertTab.1
  | .deleteLeft => s.deleteLeft.1
  | .deleteRight => s.deleteRight.1
  | .moveLeft => s.moveLeft.1
  | .moveRight => s.moveRight.1
  | .moveUp => s.moveUp.1
  | .moveDown => s.moveDown.1
  | .pageUp => s.pageUp.1
  | .pageDown => s.pageDown.1
  | .moveRowStart => s.moveRowStart.1
  | .moveRowEnd => s.moveRowEnd.1
  | .moveDocumentStart => s.moveDocumentStart.1
  | .moveDocumentEnd => s.moveDocumentEnd.1
  | .seek offset => (s.seek offset).1
  | .copy => s.copy.1.toOption.getD false
  | .cut => s.cut.1.toOption.getD false
  | .paste => s.paste.1.isOk
  | .insertFile name => (s.insertFile name).1.isOk
  | .openFile name => (s.openFile name).1.isOk
  | .save => s.save.1.isOk
  | .saveAs name force => (s.saveAs name force).1.isOk
  | .saveSelection name => (s.saveSelection name).1.isOk
  | .switchTo id => (s.switchTo id).1.isOk
  | .cycle forward => (s.cycle forward).1.isOk
  | _ => true

/-- **What is refused leaves the documents as they were**, unless it is an insertion of which only a
part fits. -/
theorem sameDocuments_of_refused (h : s.table.WellFormed) {op : SessionOp}
    (hrefused : s.succeeds op = false) (hpart : ¬ s.FitsInPart op) :
    s.table.SameDocuments (s.perform op).table := by
  cases op with
  | insertByte byte =>
      rw [succeeds, ← insertBytes_singleton] at hrefused
      rw [perform, ← insertBytes_singleton]
      exact sameDocuments_insertBytes hrefused hpart
  | insertChar c => exact sameDocuments_insertBytes hrefused hpart
  | insertTab =>
      rw [succeeds, insertTab_eq] at hrefused
      rw [perform, insertTab_eq]
      exact sameDocuments_insertBytes hrefused hpart
  | deleteLeft => exact sameDocuments_deleteLeft hrefused
  | deleteRight => exact sameDocuments_deleteRight hrefused
  | moveLeft => exact sameDocuments_moveTo hrefused
  | moveRight => exact sameDocuments_moveTo hrefused
  | moveUp => exact sameDocuments_moveTo hrefused
  | moveDown => exact sameDocuments_moveTo hrefused
  | pageUp => exact sameDocuments_moveTo hrefused
  | pageDown => exact sameDocuments_moveTo hrefused
  | moveRowStart => exact sameDocuments_moveTo hrefused
  | moveRowEnd => exact sameDocuments_moveTo hrefused
  | moveDocumentStart => exact sameDocuments_moveTo hrefused
  | moveDocumentEnd => exact sameDocuments_moveTo hrefused
  | seek offset => exact sameDocuments_moveTo hrefused
  | copy => exact s.table_copy ▸ .refl _
  | cut => exact sameDocuments_cut hrefused
  | paste => exact sameDocuments_insertFile h hrefused
  | insertFile name => exact sameDocuments_insertFile h hrefused
  | openFile name => exact sameDocuments_openFile h hrefused
  | save => exact sameDocuments_save h hrefused
  | saveAs name force => exact sameDocuments_saveAs h hrefused
  | saveSelection name => exact s.table_saveSelection name ▸ .refl _
  | switchTo id => exact sameDocuments_switchTo hrefused
  | cycle forward => exact sameDocuments_switchTo hrefused
  | toggleSelection => cases hrefused
  | find needle => cases hrefused
  | replaceAll needle replacement => cases hrefused
  | queryReplace needle replacement decisions => cases hrefused
  | listDocuments => cases hrefused
  | hasUnsavedChanges => cases hrefused
  | resize rows cols => cases hrefused
  | takeAlert => cases hrefused
  | setStatus text => cases hrefused
  | clearStatus => cases hrefused

/-- An insertion of which only a part fits is refused, and makes the text longer. -/
theorem of_fitsInPart {op : SessionOp} (hpart : s.FitsInPart op) : s.succeeds op = false ∧
    (s.perform op).buffer.content.length = s.buffer.content.length + s.buffer.free := by
  obtain ⟨hroom, hlt⟩ := hpart
  cases op with
  | insertByte byte =>
      have hone : s.buffer.free < 1 := hlt
      omega
  | insertChar c => exact insertBytes_of_part hlt
  | insertTab =>
      rw [succeeds, perform, insertTab_eq]
      exact insertBytes_of_part hlt
  | _ => exact absurd hlt (Nat.not_lt_zero _)

/-- **Bytes that fit in part** are taken as far as they fit, and the text has changed. -/
theorem not_sameDocuments_of_fitsInPart {op : SessionOp} (hpart : s.FitsInPart op) :
    ¬ s.table.SameDocuments (s.perform op).table := by
  intro hsame
  have hlen := (of_fitsInPart hpart).2
  have hcontent := (hsame.documents s.table.active SegmentTable.has_active).content
  rw [← hsame.active, SegmentTable.document_active, hsame.active, SegmentTable.document_active]
    at hcontent
  rw [buffer, hcontent] at hlen
  have hroom := hpart.1
  rw [buffer] at hlen hroom
  omega

/-- **A refused operation leaves the documents as they were, but for insertions in part.**  Wherever
a course of operations leads, an operation that answers `false` or an error there leaves the same
segment active, and every text, caret, name and mark, just if it is no insertion of several bytes
for which there is room in part. -/
theorem sameDocuments_iff_of_refused {options : SessionOptions} {storage : σ} {rows cols : Nat}
    (hcap : options.capacity < 2 ^ 32) (h : create options storage rows cols = .ok s)
    (ops : List SessionOp) : ∀ s' ∈ s.course ops, ∀ op, s'.succeeds op = false →
      (s'.table.SameDocuments (s'.perform op).table ↔ ¬ s'.FitsInPart op) := by
  intro s' hs' op hrefused
  have hwf := wellFormed_course hcap h ops s' hs'
  exact ⟨fun hsame hpart => not_sameDocuments_of_fitsInPart hpart hsame,
    sameDocuments_of_refused hwf hrefused⟩

/-- A file that is too long for the segments there are is taken back after it has filled both of
them. -/
theorem sameDocuments_iff_of_refused_inserting :
    let config := { Config.standard "" with
      segmentCapacity := 2, segmentCount := 2, loadChunkSize := 1 }
    let storage := Memory.empty.putFile "f" [97, 98, 99, 100, 101]
    let ops : List SessionOp := [.insertByte 120]
    config.complaint? = none ∧
      ∃ s : Session Memory, create config.sessionOptions storage 2 3 = .ok s ∧
        ∃ s' ∈ s.course ops, s'.succeeds (.insertFile "f") = false ∧
          s'.buffer.content = [120] ∧
            s'.table.SameDocuments (s'.perform (.insertFile "f")).table := by
  intro config storage ops
  have hnone : config.complaint? = none := by decide
  obtain ⟨s, hcreate, s', hs', hrefused, hcontent, hpart⟩ : ∃ s : Session Memory,
      create config.sessionOptions storage 2 3 = .ok s ∧
        ∃ s' ∈ s.course ops, s'.succeeds (.insertFile "f") = false ∧
          s'.buffer.content = [120] ∧ ¬ s'.FitsInPart (.insertFile "f") :=
    ⟨_, rfl, _, List.mem_of_getElem? (i := 1) rfl, by decide +kernel, by decide +kernel,
      by decide +kernel⟩
  exact ⟨hnone, s, hcreate, s', hs', hrefused, hcontent,
    (sameDocuments_iff_of_refused (capacity_sessionOptions_lt hnone) hcreate ops s' hs' _
      hrefused).mpr hpart⟩

/-- The exception is needed: with room for one byte, a character of two bytes is refused and leaves
its first byte. -/
theorem not_sameDocuments_inserting_in_part :
    let config := { Config.standard "" with segmentCapacity := 8, loadChunkSize := 4 }
    let ops := "abcdefg".toList.map SessionOp.insertChar
    config.complaint? = none ∧
      ∃ s : Session Memory, create config.sessionOptions Memory.empty 2 12 = .ok s ∧
        ∃ s' ∈ s.course ops, s'.succeeds (.insertChar 'é') = false ∧
          s'.buffer.content = "abcdefg".toUTF8.toList ∧
          (s'.perform (.insertChar 'é')).buffer.content = "abcdefg".toUTF8.toList ++ [0xC3] ∧
            ¬ s'.table.SameDocuments (s'.perform (.insertChar 'é')).table := by
  intro config ops
  obtain ⟨s, hcreate, s', hs', hrefused, hcontent, hcontent', hpart⟩ : ∃ s : Session Memory,
      create config.sessionOptions Memory.empty 2 12 = .ok s ∧
        ∃ s' ∈ s.course ops, s'.succeeds (.insertChar 'é') = false ∧
          s'.buffer.content = "abcdefg".toUTF8.toList ∧
          (s'.perform (.insertChar 'é')).buffer.content = "abcdefg".toUTF8.toList ++ [0xC3] ∧
            s'.FitsInPart (.insertChar 'é') :=
    ⟨_, rfl, _, List.mem_of_getElem? (i := 7) rfl, by decide +kernel, by decide +kernel,
      by decide +kernel, by decide +kernel⟩
  exact ⟨by decide, s, hcreate, s', hs', hrefused, hcontent, hcontent',
    not_sameDocuments_of_fitsInPart hpart⟩

end Session
end ScreenEditor
