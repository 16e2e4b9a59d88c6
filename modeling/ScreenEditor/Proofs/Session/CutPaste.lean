import ScreenEditor.Proofs.Session.Chains
import ScreenEditor.Proofs.Session.Oversized
import ScreenEditor.Proofs.Session.SelectionBounds
import ScreenEditor.Proofs.Transfer.Insert
import ScreenEditor.Proofs.Transfer.RoundTrip

/-!
# Cutting and pasting

A cut writes the selected bytes to the clipboard file and leaves the caret where they were; a paste
inserts the file there.  Writing and reading undo each other on bytes that are neither carriage
returns nor tabs, so the document has its text again.  Its parts may be cut in other places then:
the file can come in with more parts than the bytes went out from, and the text behind the caret can
be moved to a part of its own.  In segments too large for their control blocks neither can happen,
and the text comes back into the one segment that it was cut from.

## Main results

* `Session.CutTo.textOf_paste`, `Session.CutTo.textOf_paste_oversized`: a paste after a cut.
* `Session.paste_restores_cut`: along every course of a new session.
-/

namespace ScreenEditor

namespace SegmentTable

variable {t t' : SegmentTable} {name : String} {ids : List Nat}

/-- What spells a document depends on names and part numbers only. -/
theorem SpelledBy.congr (h : t.SpelledBy name ids) (hcount : t'.count = t.count)
    (hname : ∀ id, t.has id = true → (t'.document id).header.name = (t.document id).header.name)
    (hpart : ∀ id, t.has id = true →
      (t'.document id).header.part = (t.document id).header.part) : t'.SpelledBy name ids where
  has id hid := (has_congr hcount id).trans (h.has id hid)
  named id hid := (hname id (h.has id hid)).trans (h.named id hid)
  number := by
    have hnumber : ∀ id ∈ ids, t'.partNumber id = t.partNumber id := fun id hid =>
      congrArg UInt8.toNat (hpart id (h.has id hid))
    rcases h.number with ⟨id, rfl, hzero⟩ | hplace
    · exact .inl ⟨id, rfl, (hnumber id List.mem_cons_self).trans hzero⟩
    · exact .inr fun i id hid => (hnumber id (List.mem_of_getElem? hid)).trans (hplace i id hid)
  whole := by
    rintro id ⟨hid, hne, hnamed⟩
    rw [has_congr hcount] at hid
    rw [hpart id hid] at hne
    rw [hname id hid] at hnamed
    exact h.whole id ⟨hid, hne, hnamed⟩

/-- The parts around one of them are others. -/
theorem SpelledBy.of_mem_sides {id other : Nat} {l r : List Nat}
    (h : t.SpelledBy name (l ++ id :: r)) (hother : other ∈ l ++ r) :
    t.has other = true ∧ other ≠ id := by
  have hmem : other ∈ id :: (l ++ r) := List.mem_cons_of_mem id hother
  refine ⟨h.has other (List.perm_middle.mem_iff.mpr hmem), ?_⟩
  rintro rfl
  exact (List.nodup_cons.mp (List.nodup_middle.mp h.nodup)).1 hother

theorem active_mem_wholeDocument (t : SegmentTable) : t.active ∈ t.wholeDocument := by
  rw [wholeDocument]
  split
  · exact List.mem_cons_self
  · next hpart => exact mem_chain.mpr (isPart_active.mpr ⟨hpart, rfl⟩)

/-- The parts of the document at hand are those that spell it. -/
theorem SpelledBy.wholeDocument_eq (h : t.SpelledBy name ids) (hactive : t.active ∈ ids) :
    t.wholeDocument = ids := by
  have hname := h.named t.active hactive
  have hpart : t.partNumber t.active = t.current.header.part.toNat := by
    rw [partNumber, document_active]
  rw [document_active] at hname
  rw [wholeDocument, hname]
  rcases h.number with ⟨id, rfl, hzero⟩ | hplace
  · obtain rfl := List.mem_singleton.mp hactive
    have hblank : t.current.header.part = 0 := UInt8.toNat_inj.mp (hpart.symm.trans hzero)
    rw [if_pos hblank]
  · obtain ⟨i, hi⟩ := List.mem_iff_getElem?.mp hactive
    have hnumber := hplace i t.active hi
    rw [if_neg, chain_eq (fun _ => h.isPart hplace) hplace]
    intro hzero
    rw [hpart, hzero] at hnumber
    exact absurd hnumber (by simp)

/-- The text of the parts around the active one. -/
theorem textOf_middle (t : SegmentTable) (l r : List Nat) :
    t.textOf (l ++ t.active :: r) = t.textOf l ++ t.current.buffer.content ++ t.textOf r := by
  rw [textOf_split, GapBuffer.content]
  simp only [List.append_assoc]

end SegmentTable

/-- A span inside a text is what stands between two stretches of it. -/
theorem Span.exists_stretch {text : List UInt8} {span : Span} (hlt : span.lo < span.hi)
    (hle : span.hi ≤ text.length) :
    ∃ before selected after : List UInt8, text = before ++ selected ++ after ∧
      span = ⟨before.length, before.length + selected.length⟩ := by
  have hlo : (text.take span.lo).length = span.lo := List.length_take_of_le (by omega)
  have hmiddle : ((text.take span.hi).drop span.lo).length = span.hi - span.lo := by
    rw [List.length_drop, List.length_take_of_le hle]
  refine ⟨text.take span.lo, (text.take span.hi).drop span.lo, text.drop span.hi, ?_, ?_⟩
  · have hinner : (text.take span.hi).take span.lo = text.take span.lo := by
      rw [List.take_take, Nat.min_eq_left (Nat.le_of_lt hlt)]
    rw [← hinner, List.take_append_drop, List.take_append_drop]
  · rw [hlo, hmiddle, Nat.add_sub_of_le (Nat.le_of_lt hlt)]

namespace Session

/-- The clipboard stays in the same file. -/
theorem clipboardFile_cut {σ : Type} [Storage σ] (s : Session σ) :
    s.cut.2.clipboardFile = s.clipboardFile :=
  cut_induction (P := fun s' => s'.clipboardFile = s.clipboardFile) rfl (fun _ => rfl)
    fun _ _ _ h => h

/-- Segments keep their size. -/
theorem capacity_cut {σ : Type} [Storage σ] (s : Session σ) :
    s.cut.2.table.capacity = s.table.capacity := by
  rcases s.table_cut with hsame | ⟨range, -, hcut⟩
  · rw [hsame]
  · rw [hcut]
    rfl

variable {σ : Type} [FaithfulStorage σ] {s s' : Session σ} {span : Span}
  {before selected after : List UInt8}

namespace CutTo

/-- A cut keeps names and part numbers. -/
theorem header_eq (h : s.CutTo s' span) {id : Nat} (hid : s.table.has id = true) :
    (s'.table.document id).header.name = (s.table.document id).header.name ∧
      (s'.table.document id).header.part = (s.table.document id).header.part := by
  by_cases hne : id = s.active
  · have hold : s.table.document id = s.document := by
      rw [hne]
      exact SegmentTable.document_active s.table
    have hnew : s'.table.document id = s'.document := by
      rw [hne, ← h.active]
      exact SegmentTable.document_active s'.table
    rw [hold, hnew, h.header]
    exact ⟨rfl, rfl⟩
  · rw [h.others id hid hne]
    exact ⟨rfl, rfl⟩

/-- The caret stands between what was before the span and what was behind it, and the clipboard file
holds the span. -/
theorem sides (h : s.CutTo s' ⟨before.length, before.length + selected.length⟩)
    (hsplit : s.buffer.content = before ++ selected ++ after) :
    s'.buffer.before = before ∧ s'.buffer.after = after ∧
      HonestStorage.file? s'.storage s.clipboardFile
        = some (s.transfer.lineEnding.convert selected) := by
  have hcontent := h.content
  have hfile := h.file
  rw [exported] at hfile
  simp only [hsplit, List.append_assoc, List.take_left, ← List.length_append] at hcontent hfile
  rw [← List.append_assoc, List.take_left, List.drop_left] at hfile
  rw [← List.append_assoc, List.drop_left] at hcontent
  rw [GapBuffer.before_eq_take, GapBuffer.after_eq_drop, hcontent, h.caret]
  exact ⟨List.take_left, List.drop_left, hfile⟩

/-- What a paste puts between the two sides is what was cut. -/
theorem translate_convert_selected
    (hplain : ∀ b ∈ selected, b ≠ LineEnding.carriageReturn ∧ b ≠ tabByte)
    (ending : LineEnding) (width column : Nat) :
    translate width column (ending.convert selected) = selected :=
  translate_convert ending (fun b hb => (hplain b hb).1) (fun b hb => (hplain b hb).2) width column

/-- **A paste after a cut** brings the text of the document back, in the parts that it fills. -/
theorem textOf_paste (h : s.CutTo s' ⟨before.length, before.length + selected.length⟩)
    (hsplit : s.buffer.content = before ++ selected ++ after) (hwf : s'.table.WellFormed)
    (hcap : 0 < s'.table.capacity) (hcount : s'.table.count = s.table.count)
    (hclipboard : s'.clipboardFile = s.clipboardFile) {l r : List Nat}
    (hdoc : s.table.SpelledBy s.document.header.name (l ++ s.active :: r))
    (hunused : ∀ id ∈ l ++ r, (s.table.document id).isUnused = false)
    (hplain : ∀ b ∈ selected, b ≠ LineEnding.carriageReturn ∧ b ≠ tabByte)
    {report : LoadReport} (hpaste : s'.paste.1 = .ok report) :
    s'.paste.2.table.textOf (l ++ report.segments ++ r)
        = s.table.textOf (l ++ s.active :: r) ∧
      s'.paste.2.table.wholeDocument = l ++ report.segments ++ r := by
  obtain ⟨hresult, htable⟩ := s'.insertFile_eq s'.clipboardFile
  have hload := hresult.symm.trans hpaste
  obtain ⟨hbefore, hafter, hfile⟩ := h.sides hsplit
  rw [← hclipboard] at hfile
  have hactive : s'.table.active = s.table.active := h.active
  have hname : s'.table.current.header.name = s.document.header.name :=
    (congrArg Header.name h.header :)
  -- the document has the same parts as before the cut
  have hdoc' : s'.table.SpelledBy s'.table.current.header.name (l ++ s'.table.active :: r) := by
    rw [hactive, hname]
    exact hdoc.congr hcount (fun id hid => (h.header_eq hid).1) fun id hid => (h.header_eq hid).2
  have hothers : ∀ id ∈ l ++ r, s'.table.document id = s.table.document id := fun id hid =>
    h.others id (hdoc.of_mem_sides hid).1 (hdoc.of_mem_sides hid).2
  have hunused' : ∀ id ∈ l ++ r, (s'.table.document id).isUnused = false := fun id hid =>
    (congrArg Document.isUnused (hothers id hid)).trans (hunused id hid)
  obtain ⟨htext, hactive', hmem⟩ := textOf_load_insert hwf hcap hdoc' hunused' hfile hload
  have hspelled := spelledBy_of_load_ok hwf hdoc' hunused' hload
  rw [← htable] at htext hactive' hspelled
  refine ⟨?_, hspelled.wholeDocument_eq ?_⟩
  · have hl : s'.table.textOf l = s.table.textOf l := SegmentTable.textOf_congr fun id hid => by
      rw [hothers id (List.mem_append_left _ hid)]
    have hr : s'.table.textOf r = s.table.textOf r := SegmentTable.textOf_congr fun id hid => by
      rw [hothers id (List.mem_append_right _ hid)]
    rw [buffer] at hbefore hafter hsplit
    rw [translate_convert_selected hplain, hl, hr, hbefore, hafter] at htext
    calc s'.paste.2.table.textOf (l ++ report.segments ++ r)
        = s.table.textOf l ++ before ++ selected ++ (after ++ s.table.textOf r) := htext
      _ = s.table.textOf l ++ s.table.current.buffer.content ++ s.table.textOf r := by
          rw [hsplit]
          simp only [List.append_assoc]
      _ = s.table.textOf (l ++ s.active :: r) := (s.table.textOf_middle l r).symm
  · have hplace : (s'.insertFile s'.clipboardFile).2.table.active = s'.table.active := hactive'
    rw [hplace]
    exact List.mem_append_left _ (List.mem_append_right _ hmem)

/-- So it does in segments too large for their control blocks, where the document stays in its
one segment. -/
theorem textOf_paste_oversized (h : s.CutTo s' ⟨before.length, before.length + selected.length⟩)
    (hsplit : s.buffer.content = before ++ selected ++ after) (hover : s'.table.Oversized)
    (hclipboard : s'.clipboardFile = s.clipboardFile)
    (hplain : ∀ b ∈ selected, b ≠ LineEnding.carriageReturn ∧ b ≠ tabByte)
    {report : LoadReport} (hpaste : s'.paste.1 = .ok report) :
    s'.paste.2.table.textOf report.segments = s.buffer.content ∧
      s'.paste.2.table.wholeDocument = report.segments := by
  obtain ⟨hresult, htable⟩ := s'.insertFile_eq s'.clipboardFile
  have hload := hresult.symm.trans hpaste
  obtain ⟨hbefore, hafter, hfile⟩ := h.sides hsplit
  rw [← hclipboard] at hfile
  obtain ⟨htext, hsegments, hactive, hpart⟩ :=
    textOf_load_oversized hover.le_capacity hover.current.part hfile hload
  rw [← htable] at htext hactive hpart
  rw [buffer] at hbefore hafter
  rw [translate_convert_selected hplain, hbefore, hafter, ← hsplit] at htext
  exact ⟨htext, (if_pos hpart).trans (hsegments ▸ congrArg (fun id => [id]) hactive)⟩

end CutTo

end Session
end ScreenEditor
