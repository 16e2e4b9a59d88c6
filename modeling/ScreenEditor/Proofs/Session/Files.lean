import ScreenEditor.Proofs.Session.Synced
import ScreenEditor.Proofs.Transfer.OneSegment

/-!
# Sessions in step with their files

What goes to a file changes no text, and a file that cannot be read leaves none changed, so neither
needs painting; what was read is shown again as a whole.
-/

namespace ScreenEditor.Session

variable {σ : Type} [Storage σ] {s : Session σ}

/-! ## Selection and clipboard -/

/-- Writing a range to a file leaves the segments, whether it succeeds or not. -/
theorem table_exportRange (s : Session σ) (name : String) (range : Span) :
    (s.exportRange name range).2.table = s.table :=
  table_save_range s.table s.storage name range s.transfer

/-- **What holds after a copy** holds when nothing is selected, when the file is written or not, and
when the selection is dropped behind that. -/
theorem copy_induction {P : Session σ → Prop} (halert : P s.alert)
    (hexport : ∀ range, P (s.exportRange s.clipboardFile range).2)
    (hdrop : ∀ s' text, P s' →
      P ((refresh { s' with selection := Selection.none }).setStatus text)) : P s.copy.2 := by
  rw [copy]
  split
  · exact halert
  · next range _ =>
    have hwritten := hexport range
    split
    · next heq => rwa [heq] at hwritten
    · next heq =>
      rw [heq] at hwritten
      exact hdrop _ _ hwritten

/-- **What holds after a cut**: the same, with the span deleted before the selection is dropped. -/
theorem cut_induction {P : Session σ → Prop} (halert : P s.alert)
    (hexport : ∀ range, P (s.exportRange s.clipboardFile range).2)
    (hdelete : ∀ s' text (range : Span), P s' → P ((refresh { s' with
        table := s'.table.modifyCurrent fun d =>
          (d.mapBuffer fun g => (g.deleteRange? range.lo range.hi).getD g).markModified
        selection := Selection.none }).setStatus text)) : P s.cut.2 := by
  rw [cut]
  split
  · exact halert
  · next range _ =>
    have hwritten := hexport range
    split
    · next heq => rwa [heq] at hwritten
    · next heq =>
      rw [heq] at hwritten
      exact hdelete _ _ range hwritten

/-- Writing a span takes it from the text at hand, which stays on the screen. -/
theorem Synced.exportRange (h : s.Synced) (name : String) (range : Span) :
    (s.exportRange name range).2.Synced := by
  have htable := s.table_exportRange name range
  have hbuffer : (s.exportRange name range).2.buffer = s.buffer :=
    congrArg (·.current.buffer) htable
  exact h.of_sameText (htable ▸ h.wellFormed) (congrArg GapBuffer.content hbuffer)
    (congrArg GapBuffer.caret hbuffer) rfl rfl

/-- A copy drops the selection and shows the text without it; one that fails shows nothing. -/
theorem Synced.copy (h : s.Synced) : s.copy.2.Synced := by
  refine copy_induction h.alert (fun range => h.exportRange s.clipboardFile range) ?_
  intro s' text h'
  have hshown : (refresh { s' with selection := Selection.none }).Synced :=
    synced_refresh h'.wellFormed h'.view.fits
  exact hshown.setStatus text

/-- A cut leaves the segment its size, also when the span is refused. -/
theorem capacity_cutRange (g : GapBuffer) (range : Span) :
    ((g.deleteRange? range.lo range.hi).getD g).capacity = g.capacity := by
  unfold GapBuffer.deleteRange?
  split
  · exact GapBuffer.capacity_deleteRange g range.lo range.hi
  · rfl

omit [Storage σ] in
/-- The text without a span is shown as after any other change. -/
theorem Synced.deleteSpan (h : s.Synced) (range : Span) :
    (refresh { s with
      table := s.table.modifyCurrent fun d =>
        (d.mapBuffer fun g => (g.deleteRange? range.lo range.hi).getD g).markModified
      selection := Selection.none }).Synced := by
  have hstor : Document.Storable ((s.table.current.mapBuffer fun g =>
      (g.deleteRange? range.lo range.hi).getD g).markModified) s.table.capacity :=
    ⟨(capacity_cutRange _ range).trans h.wellFormed.current.capacity_eq,
      h.wellFormed.current.nameFits⟩
  have hwf := h.wellFormed.modifyCurrent (f := fun d => (d.mapBuffer fun g =>
    (g.deleteRange? range.lo range.hi).getD g).markModified) hstor
  exact synced_refresh hwf h.view.fits

/-- **A cut** is shown in the same way, once the file is written. -/
theorem Synced.cut (h : s.Synced) : s.cut.2.Synced := by
  refine cut_induction h.alert (fun range => h.exportRange s.clipboardFile range) ?_
  intro s' text range h'
  exact (h'.deleteSpan range).setStatus text

/-! ## Files -/

/-- A load that fails puts the text at hand back, and shows nothing new. -/
theorem Synced.of_load_error (h : s.Synced) {name : String} {mode : LoadMode} {e : EditorError}
    (hload : (s.table.load s.storage name mode s.transfer).1 = .error e) {s' : Session σ}
    (htable : s'.table = (s.table.load s.storage name mode s.transfer).2.1)
    (hview : s'.view = s.view) (hscreen : s'.screen = s.screen) : s'.Synced := by
  have hrestored := load_error h.wellFormed hload
  rw [← htable] at hrestored
  exact h.of_sameText hrestored.wellFormed hrestored.content_eq hrestored.caret_eq hview hscreen

/-- **A file that is inserted** is shown in a window around the caret; one that is not changes
nothing on the screen. -/
theorem Synced.insertFile (h : s.Synced) (name : String) : (s.insertFile name).2.Synced := by
  have hwf := wellFormed_load h.wellFormed s.storage name .insert s.transfer
  rw [Session.insertFile]
  simp only
  split
  · next e table storage heq =>
    have hload : (s.table.load s.storage name .insert s.transfer).1 = .error e := by rw [heq]
    refine h.of_load_error hload ?_ rfl rfl
    rw [heq]
  · next report table storage heq =>
    rw [heq] at hwf
    exact synced_reformat hwf h.view.fits

/-- **A file that is opened** is shown from its start; one that is not changes nothing there. -/
theorem Synced.openFile (h : s.Synced) (name : String) : (s.openFile name).2.Synced := by
  have hwf := wellFormed_load h.wellFormed s.storage name .replace s.transfer
  rw [Session.openFile]
  split
  · next e table storage heq =>
    have hload : (s.table.load s.storage name .replace s.transfer).1 = .error e := by rw [heq]
    refine h.of_load_error hload ?_ rfl rfl
    rw [heq]
  · next report table storage heq =>
    rw [heq] at hwf
    have hshown : (reformat { s with
        table := table, storage := storage, selection := Selection.none }).Synced :=
      synced_reformat hwf h.view.fits
    exact hshown.setStatus _

/-- **A save** renames the document and changes no text. -/
theorem Synced.saveAs (h : s.Synced) (name : String) (force : Bool) :
    (s.saveAs name force).2.Synced := by
  rw [Session.saveAs]
  simp only
  split
  · have hheader := h.wellFormed.sameTexts_modifyHeader
      (f := fun h => { h with awaitsOverwrite := true }) h.wellFormed.current.nameFits
    exact h.of_sameText hheader.wellFormed rfl rfl rfl rfl
  · obtain ⟨htexts, hactive⟩ := save_spec h.wellFormed s.storage name none s.transfer
    have hbuffer := htexts.current_buffer hactive
    have hsaved : Session.Synced { s with
        table := (s.table.save s.storage name none s.transfer).2.1
        storage := (s.table.save s.storage name none s.transfer).2.2
        pendingOverwrite := none } :=
      h.of_sameText htexts.wellFormed (congrArg GapBuffer.content hbuffer)
        (congrArg GapBuffer.caret hbuffer) rfl rfl
    split
    · exact hsaved
    · exact hsaved.setStatus _

/-- The same holds under the name that the document has. -/
theorem Synced.save (h : s.Synced) : s.save.2.Synced := by
  rw [Session.save]
  split
  · exact h
  · exact h.saveAs s.document.header.name true

/-- A selection that is saved stays as it is. -/
theorem Synced.saveSelection (h : s.Synced) (name : String) : (s.saveSelection name).2.Synced := by
  rw [Session.saveSelection]
  split
  · exact h.alert
  · next range hrange => exact h.exportRange name range

end ScreenEditor.Session
