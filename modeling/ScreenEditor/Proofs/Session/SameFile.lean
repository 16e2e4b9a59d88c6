import ScreenEditor.Proofs.Session.Documents

/-!
# The file at hand

Which file a session is about: the active segment, the name of its document, and the name that a
repeated save may overwrite.  Typing, moving and searching leave all three as they are, also when
they are refused: they change at most the text at hand and its mark (`Session.SameFile`).

What may be overwritten is left alone by every other operation too, but for saving and switching
(`Session.pendingOverwrite_openFile` and the like).
-/

namespace ScreenEditor

/-- The table `t'` is `t`, but for the text at hand and its mark. -/
def SegmentTable.Edited (t t' : SegmentTable) : Prop :=
  ∃ (g : GapBuffer) (modified : Bool),
    t' = t.modifyCurrent fun d => ⟨{ d.header with modified := modified }, g⟩

/-- Edits of the same document are one edit. -/
theorem SegmentTable.Edited.trans {t t' t'' : SegmentTable} (h : t.Edited t')
    (h' : t'.Edited t'') : t.Edited t'' := by
  obtain ⟨_, _, rfl⟩ := h
  obtain ⟨g, modified, rfl⟩ := h'
  exact ⟨g, modified, rfl⟩

namespace Session

variable {σ : Type}

/-- The session `s'` differs from `s` in the text at hand and its mark at most, and may overwrite
the same file. -/
structure SameFile (s s' : Session σ) : Prop where
  edited : s.table.Edited s'.table
  pending : s'.pendingOverwrite = s.pendingOverwrite

namespace SameFile

variable {s s' s'' : Session σ}

/-- No edit is one. -/
theorem refl (s : Session σ) : s.SameFile s := ⟨⟨_, _, rfl⟩, rfl⟩

/-- One edit after another is an edit as well. -/
theorem trans (h : s.SameFile s') (h' : s'.SameFile s'') : s.SameFile s'' :=
  ⟨h.edited.trans h'.edited, h'.pending.trans h.pending⟩

end SameFile

/-- A new session may overwrite nothing. -/
theorem pendingOverwrite_create {options : SessionOptions} {storage : σ} {rows cols : Nat}
    {s : Session σ} (h : create options storage rows cols = .ok s) :
    s.pendingOverwrite = none := by
  obtain ⟨table, -, rfl⟩ := exists_of_map_ok h
  rfl

/-! ## Typing and deleting -/

/-- A refusal raises an alert and shows what is no longer selected. -/
theorem SameFile.refuseEdit {s s' : Session σ} (h : s.SameFile s') (wasShown : Bool) :
    s.SameFile (s'.refuseEdit wasShown).2 := by
  cases wasShown <;> exact h.trans ⟨⟨_, _, rfl⟩, rfl⟩

/-- An edit that is done marks the document and shows it. -/
theorem SameFile.finishEdit {s s' : Session σ} (h : s.SameFile s') (wasShown : Bool)
    (patch : View → GapBuffer → Repainted) : s.SameFile (s'.finishEdit wasShown patch).2 := by
  cases wasShown <;> exact h.trans ⟨⟨_, _, rfl⟩, rfl⟩

variable (s : Session σ)

/-- A byte goes into the text at hand, or is refused. -/
theorem sameFile_insertByte (byte : UInt8) : s.SameFile (s.insertByte byte).2 := by
  rw [insertByte, dropSelection]
  simp only
  split
  · refine SameFile.refuseEdit ?_ _
    exact ⟨⟨_, _, rfl⟩, rfl⟩
  · refine SameFile.finishEdit ?_ _ _
    exact ⟨⟨_, _, rfl⟩, rfl⟩

/-- So do several, up to the first that is refused. -/
theorem sameFile_insertBytes (bytes : List UInt8) : s.SameFile (s.insertBytes bytes).2 :=
  insertBytes_induction (P := s.SameFile) (fun s' hs byte => hs.trans (sameFile_insertByte s' byte))
    (.refl s) bytes

/-- A tab stop is reached by typing blanks. -/
theorem sameFile_insertBlanks (n : Nat) : s.SameFile (s.insertBlanks n).2 := by
  rw [insertBlanks_eq]
  exact sameFile_insertBytes s _

/-- A byte is taken from the text at hand, or there is none to take. -/
theorem sameFile_deleteLeft : s.SameFile s.deleteLeft.2 := by
  rw [deleteLeft, dropSelection]
  simp only
  split
  · refine SameFile.refuseEdit ?_ _
    exact ⟨⟨_, _, rfl⟩, rfl⟩
  · refine SameFile.finishEdit ?_ _ _
    exact ⟨⟨_, _, rfl⟩, rfl⟩

/-- The same on the other side of the caret. -/
theorem sameFile_deleteRight : s.SameFile s.deleteRight.2 := by
  rw [deleteRight, dropSelection]
  simp only
  split
  · refine SameFile.refuseEdit ?_ _
    exact ⟨⟨_, _, rfl⟩, rfl⟩
  · refine SameFile.finishEdit ?_ _ _
    exact ⟨⟨_, _, rfl⟩, rfl⟩

/-! ## Moving -/

/-- A motion changes where the gap is and no more. -/
theorem sameFile_moveTo (target : Option Nat) : s.SameFile (s.moveTo target).2 := by
  rw [moveTo]
  split
  · exact ⟨⟨_, _, rfl⟩, rfl⟩
  · exact ⟨⟨_, _, rfl⟩, rfl⟩

/-! ## Searching -/

/-- A search works on the text at hand. -/
theorem sameFile_withSearched (found : Searched) : s.SameFile (s.withSearched found) :=
  ⟨⟨_, _, rfl⟩, rfl⟩

/-- Its report marks the document when something was replaced in it. -/
theorem sameFile_reportSearch (outcome : SearchOutcome) : s.SameFile (s.reportSearch outcome) := by
  cases outcome with
  | notFound => exact ⟨⟨_, _, rfl⟩, rfl⟩
  | found offset wrapped => cases wrapped <;> exact ⟨⟨_, _, rfl⟩, rfl⟩
  | finished summary =>
      rw [reportSearch]
      simp only
      split <;> split <;> exact ⟨⟨_, _, rfl⟩, rfl⟩

/-- Finding the next occurrence. -/
theorem sameFile_find (needle : List UInt8) : s.SameFile (s.find needle).2 :=
  (sameFile_withSearched s _).trans (sameFile_reportSearch _ _)

/-- Replacing every occurrence. -/
theorem sameFile_replaceAll (needle replacement : List UInt8) :
    s.SameFile (s.replaceAll needle replacement).2 :=
  (sameFile_withSearched s _).trans (sameFile_reportSearch _ _)

/-- Asking about the next occurrence. -/
theorem sameFile_askNext (run : ReplaceRun) : s.SameFile (s.askNext run).2 := by
  rw [askNext]
  split
  · exact ⟨⟨_, _, rfl⟩, rfl⟩
  · exact sameFile_reportSearch s _

/-- Answering such a question. -/
theorem sameFile_answer (question : Question) (decision : ReplaceDecision) :
    s.SameFile (s.answer question decision).2 := by
  rw [answer]
  split
  · exact (sameFile_withSearched s _).trans (sameFile_askNext _ _)
  · exact (sameFile_withSearched s _).trans (sameFile_reportSearch _ _)

/-- A whole run of questions and answers. -/
theorem sameFile_queryReplace (needle replacement : List UInt8)
    (decisions : List ReplaceDecision) :
    s.SameFile (s.queryReplace needle replacement decisions).2.1 :=
  (queryReplace_induction (P := s.SameFile) (fun s' hs run => hs.trans (sameFile_askNext s' run))
    (fun s' hs question decision => hs.trans (sameFile_answer s' question decision)) (.refl s)
    needle replacement decisions).1

/-! ## Files -/

variable [Storage σ]

/-- The clipboard file is written without a question, and none is left open by it. -/
theorem pendingOverwrite_copy : s.copy.2.pendingOverwrite = s.pendingOverwrite :=
  copy_induction (P := fun s' => s'.pendingOverwrite = s.pendingOverwrite) rfl (fun _ => rfl)
    fun _ _ h => h

/-- The same holds for a cut. -/
theorem pendingOverwrite_cut : s.cut.2.pendingOverwrite = s.pendingOverwrite :=
  cut_induction (P := fun s' => s'.pendingOverwrite = s.pendingOverwrite) rfl (fun _ => rfl)
    fun _ _ _ h => h

/-- Reading a file into the document at hand allows no other to be overwritten. -/
theorem pendingOverwrite_insertFile (name : String) :
    (s.insertFile name).2.pendingOverwrite = s.pendingOverwrite := by
  rw [insertFile]
  simp only
  split <;> rfl

/-- Nor does opening one. -/
theorem pendingOverwrite_openFile (name : String) :
    (s.openFile name).2.pendingOverwrite = s.pendingOverwrite := by
  rw [openFile]
  split <;> rfl

/-- A selection is written without a question too. -/
theorem pendingOverwrite_saveSelection (name : String) :
    (s.saveSelection name).2.pendingOverwrite = s.pendingOverwrite := by
  rw [saveSelection]
  split <;> rfl

end Session
end ScreenEditor
