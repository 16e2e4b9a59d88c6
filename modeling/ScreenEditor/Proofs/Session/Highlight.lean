import ScreenEditor.Proofs.Session.Course
import ScreenEditor.Proofs.View.Highlight

/-!
# The highlight of a session

The highlight matches the selection if the cells in reverse video are those that show a byte of it
(`Session.HighlightMatches`).  Two operations can take a selection back without showing that
(`Session.ForgetsHighlight`): a motion that brings the caret back to the anchor inside the window,
since rows are painted after a motion only if something is selected, and an insertion that fails,
since the selection is dropped before the file is read.  Cells then stay in reverse video
(`Session.ForgetsHighlight.stale`).  A course without such an operation keeps the highlight in step
(`Session.highlightMatches_course`).

What carries the induction is `Session.Highlighted`: besides the highlight itself, the session is in
step, and the extent of a selection that is being made is the caret.
-/

namespace ScreenEditor

/-! ## Selections -/

namespace Selection

variable {selection : Selection} {caret : Nat}

/-- An offset is selected if it lies between anchor and extent, whichever comes first. -/
theorem marked_nonEmptyRange (selection : Selection) (offset : Nat) :
    marked selection.nonEmptyRange offset
      = selection.bounds.any fun b => min b.1 b.2 ≤ offset && offset < max b.1 b.2 := by
  rw [nonEmptyRange, range]
  cases selection.bounds with
  | none => rfl
  | some b =>
      rw [Option.map_some, Option.filter_some, Option.any_some]
      split
      · rfl
      · next hempty =>
        simp only [Span.isEmpty, Bool.not_eq_true', decide_eq_false_iff_not, Decidable.not_not]
          at hempty
        symm
        simp only [marked, Option.any_none, Bool.and_eq_false_iff, decide_eq_false_iff_not]
        omega

/-- Following the caret changes the selection between the old place of the caret and the new one
only. -/
theorem Tracks.marked_track (h : selection.Tracks caret) {caret' offset : Nat}
    (hbetween : offset < min caret caret' ∨ max caret caret' ≤ offset) :
    marked (selection.track caret').nonEmptyRange offset
      = marked selection.nonEmptyRange offset := by
  rw [track]
  split
  · next hselecting =>
    obtain ⟨anchor, hbounds⟩ := h hselecting
    simp only [marked_nonEmptyRange, hbounds, Option.map_some, Option.any_some]
    rw [Bool.eq_iff_iff]
    simp only [Bool.and_eq_true, decide_eq_true_eq]
    omega
  · rfl

/-- A selection that is being made goes on to follow the caret. -/
theorem Tracks.track (h : selection.Tracks caret) (caret' : Nat) :
    (selection.track caret').Tracks caret' := by
  intro hselecting
  rw [Selection.track] at hselecting ⊢
  split
  · next hon =>
    obtain ⟨anchor, hbounds⟩ := h hon
    exact ⟨anchor, by simp only [hbounds, Option.map_some]⟩
  · next hoff =>
    rw [if_neg hoff] at hselecting
    exact absurd hselecting hoff

/-- One that is begun starts at the caret; one that is frozen follows nothing. -/
theorem tracks_startOrExtend (selection : Selection) (caret : Nat) :
    (selection.startOrExtend caret).Tracks caret := by
  rw [startOrExtend]
  split
  · exact tracks_of_not_selecting rfl caret
  · exact fun _ => ⟨caret, rfl⟩

/-- Nor does it when there is none. -/
theorem tracks_none (caret : Nat) : Selection.none.Tracks caret := tracks_of_not_selecting rfl caret

end Selection

namespace Session

variable {σ : Type}

/-! ## What is seen -/

/-- The offset of the byte that a cell of the screen shows, if it shows one. -/
def shownOffset? (s : Session σ) (row col : Nat) : Option Nat :=
  ScreenEditor.shownOffset? s.screen.grid.cols s.buffer.content s.view.windowStart row col

/-- **The highlight matches the selection**: a cell is in reverse video if and only if it shows a
byte of the selected span. -/
def HighlightMatches (s : Session σ) : Prop :=
  ∀ row < s.screen.grid.rows, ∀ col < s.screen.grid.cols,
    s.screen.grid.isReversed row col = true ↔
      ∃ offset, s.shownOffset? row col = some offset ∧
        ∃ span, s.highlight = some span ∧ span.lo ≤ offset ∧ offset < span.hi

/-- What an operation keeps: the session is in step, the extent of a selection that is being made is
the caret, and the highlight is that of the selection. -/
structure Highlighted (s : Session σ) : Prop where
  synced : s.Synced
  tracks : s.selection.Tracks s.buffer.caret
  marks : s.view.Marks s.screen.grid s.buffer s.highlight

/-- What is highlighted is seen to be so. -/
theorem Highlighted.highlightMatches {s : Session σ} (h : s.Highlighted) :
    s.HighlightMatches := by
  have hsized := h.synced.view.fits.sized
  intro row hrow col hcol
  rw [h.marks row (hsized.rows_eq ▸ hrow) col (hsized.cols_eq ▸ hcol), ← hsized.cols_eq]
  simp only [shownOffset?, Option.any_eq_true, marked, Span.contains, Bool.and_eq_true,
    decide_eq_true_eq]

variable {s : Session σ}

/-! ## Showing -/

/-- Showing the window again brings the highlight in step. -/
theorem highlighted_refresh (hwf : s.table.WellFormed) (hfits : s.view.Fits s.screen.grid)
    (htracks : s.selection.Tracks s.buffer.caret) : s.refresh.Highlighted :=
  ⟨synced_refresh hwf hfits, htracks, View.marks_refresh hfits⟩

/-- So does showing another window. -/
theorem highlighted_reformat (hwf : s.table.WellFormed) (hfits : s.view.Fits s.screen.grid)
    (htracks : s.selection.Tracks s.buffer.caret) : s.reformat.Highlighted :=
  ⟨synced_reformat hwf hfits, htracks, View.marks_reformat hfits⟩

/-- A new session has its highlight in step. -/
theorem highlighted_create {options : SessionOptions} {storage : σ} {rows cols : Nat}
    (hcap : options.capacity < 2 ^ 32) (hrows : 0 < coordinate rows) (hcols : 0 < coordinate cols)
    (h : create options storage rows cols = .ok s) : s.Highlighted := by
  have hsynced := synced_create hcap hrows hcols h
  obtain ⟨table, -, rfl⟩ := exists_of_map_ok h
  exact ⟨hsynced, Selection.tracks_none _,
    View.marks_reformat (fits_blank hrows hcols options.preferredRow)⟩

/-- A change that leaves the text at hand, its caret and the selection alone needs no painting. -/
theorem Highlighted.of_sameText {s' : Session σ} (h : s.Highlighted) (hwf : s'.table.WellFormed)
    (hcontent : s'.table.current.buffer.content = s.table.current.buffer.content)
    (hcaret : s'.table.current.buffer.caret = s.table.current.buffer.caret)
    (hview : s'.view = s.view) (hscreen : s'.screen = s.screen)
    (hselection : s'.selection = s.selection) : s'.Highlighted := by
  have htracks := h.tracks
  have hmarks := h.marks
  simp only [buffer, highlight, View.Marks] at htracks hmarks
  refine ⟨h.synced.of_sameText hwf hcontent hcaret hview hscreen, ?_, ?_⟩
  · rw [hselection, buffer, hcaret]
    exact htracks
  · rw [View.Marks, highlight, buffer, hview, hscreen, hselection, hcontent]
    exact hmarks

/-- Nothing is to be painted when a selection is dropped that was not shown. -/
theorem Highlighted.dropSelection (h : s.Highlighted) (hnone : s.highlight = none) :
    Highlighted { s with selection := Selection.none } := by
  have hmarks := h.marks
  rw [hnone] at hmarks
  exact ⟨⟨h.synced.wellFormed, h.synced.view⟩, Selection.tracks_none _, hmarks⟩

/-- An alert paints nothing. -/
theorem Highlighted.alert (h : s.Highlighted) : s.alert.Highlighted :=
  ⟨h.synced.alert, h.tracks, h.marks⟩

/-- Nor does a text on the status line. -/
theorem Highlighted.setStatus (h : s.Highlighted) (text : String) :
    (s.setStatus text).Highlighted := ⟨h.synced.setStatus text, h.tracks, h.marks⟩

/-! ## Typing and deleting -/

/-- An edit that is refused drops the selection, and shows that if it was shown. -/
theorem Highlighted.refuseEdit (h : s.Highlighted) :
    (Session.refuseEdit { s with selection := Selection.none }
      s.highlight.isSome).2.Highlighted := by
  cases hshown : s.highlight with
  | some span =>
      have hrefreshed : (refresh { s with selection := Selection.none }).Highlighted :=
        highlighted_refresh h.synced.wellFormed h.synced.view.fits (Selection.tracks_none _)
      exact hrefreshed.alert
  | none => exact (h.dropSelection hshown).alert

/-- An edit paints in plain video, or shows everything again if a selection was shown. -/
theorem Highlighted.finishEdit (h : s.Highlighted) {f : GapBuffer → GapBuffer}
    (hcap : (f s.table.current.buffer).capacity = s.table.current.buffer.capacity)
    {patch : View → GapBuffer → Repainted}
    (hpatch : (patch s.view (f s.table.current.buffer)).InStep s.screen.grid
      (f s.table.current.buffer))
    (hplain : ∀ p ∈ (patch s.view (f s.table.current.buffer)).2, p.Plain) :
    (Session.finishEdit { s with
      table := s.table.modifyBuffer f, selection := Selection.none }
      s.highlight.isSome patch).2.Highlighted := by
  have hsynced := h.synced.finishEdit hcap hpatch s.highlight.isSome
  have hmarks := h.marks
  cases hshown : s.highlight with
  | some span =>
      rw [hshown] at hsynced
      exact ⟨hsynced, Selection.tracks_none _, View.marks_refresh h.synced.view.fits⟩
  | none =>
      rw [hshown] at hsynced hmarks
      exact ⟨hsynced, Selection.tracks_none _,
        View.marks_of_plain h.synced.view.fits hpatch.fits hplain hmarks⟩

/-- **Typing a byte** keeps the highlight in step, also when it is refused. -/
theorem Highlighted.insertByte (h : s.Highlighted) (byte : UInt8) :
    (s.insertByte byte).2.Highlighted := by
  rw [Session.insertByte, Session.dropSelection]
  simp only
  split
  · exact h.refuseEdit
  · next hroom =>
    have hmakes := GapBuffer.makes_insertAll (g := s.table.current.buffer) byte
      (Nat.pos_of_ne_zero hroom)
    exact h.finishEdit (f := (·.insertAll [byte])) (GapBuffer.capacity_insertAll _ [byte])
      (View.synced_afterInsert h.synced.view hmakes) (View.plain_patch _ _ _ _)

/-- So does typing several. -/
theorem Highlighted.insertBytes (h : s.Highlighted) (bytes : List UInt8) :
    (s.insertBytes bytes).2.Highlighted :=
  insertBytes_induction (fun _ hs byte => hs.insertByte byte) h bytes

/-- A tab stop is reached by typing blanks. -/
theorem Highlighted.insertBlanks (h : s.Highlighted) (n : Nat) :
    (s.insertBlanks n).2.Highlighted := by
  rw [insertBlanks_eq]
  exact h.insertBytes _

/-- **Deleting to the left** keeps it in step. -/
theorem Highlighted.deleteLeft (h : s.Highlighted) : s.deleteLeft.2.Highlighted := by
  rw [Session.deleteLeft, Session.dropSelection]
  simp only
  split
  · exact h.refuseEdit
  · next b g hdelete =>
    obtain ⟨hmakes, hcaret⟩ := GapBuffer.makes_deleteLeft hdelete
    obtain ⟨-, -, hcap⟩ := GapBuffer.of_deleteLeft? hdelete
    exact h.finishEdit (f := fun _ => g) hcap
      (View.synced_afterDeleteLeft h.synced.view hmakes hcaret) (View.plain_afterDeleteLeft _)

/-- **Deleting to the right** keeps it in step. -/
theorem Highlighted.deleteRight (h : s.Highlighted) : s.deleteRight.2.Highlighted := by
  rw [Session.deleteRight, Session.dropSelection]
  simp only
  split
  · exact h.refuseEdit
  · next b g hdelete =>
    have hmakes := GapBuffer.makes_deleteRight hdelete
    obtain ⟨-, -, hcap⟩ := GapBuffer.of_deleteRight? hdelete
    exact h.finishEdit (f := fun _ => g) hcap
      (View.synced_afterDeleteRight h.synced.view hmakes) (View.plain_patch _ _ _ _)

/-! ## Moving -/

/-- A motion takes a selection back without showing that. -/
def MovesBack (s moved : Session σ) : Prop :=
  s.highlight ≠ none ∧ moved.highlight = none ∧ s.view.showsCaret moved.buffer = true

/-- **A motion** paints the rows between the old place of the caret and the new one, outside of
which the selection stays; so it is in step unless it moves back. -/
theorem Highlighted.moveTo (h : s.Highlighted) {target : Option Nat}
    (hkept : ¬ s.MovesBack (s.moveTo target).2) : (s.moveTo target).2.Highlighted := by
  refine ⟨h.synced.moveTo target, ?_, ?_⟩
  · rw [Session.moveTo]
    split
    · exact h.tracks
    · next offset hoffset => exact h.tracks.track _
  · rw [Session.moveTo] at hkept ⊢
    split
    · exact h.marks
    · next offset hoffset =>
      simp only [hoffset] at hkept
      refine View.marks_afterMotion h.synced.view (GapBuffer.content_seek _ offset) h.marks
        (fun k hk => h.tracks.marked_track hk) ?_
      intro hcaret hnone
      cases hshown : s.highlight with
      | none => rfl
      | some span =>
          have hsome : s.highlight ≠ none := by
            rw [hshown]
            exact Option.some_ne_none span
          exact absurd ⟨hsome, hnone, hcaret⟩ hkept

/-- After a motion back no cell changes its video. -/
theorem MovesBack.isReversed_eq {target : Option Nat} (h : s.MovesBack (s.moveTo target).2)
    (row col : Nat) :
    (s.moveTo target).2.screen.grid.isReversed row col = s.screen.grid.isReversed row col := by
  obtain ⟨-, hnone, hcaret⟩ := h
  rw [Session.moveTo] at hnone hcaret ⊢
  split
  · rfl
  · next offset hoffset =>
    simp only [hoffset] at hnone hcaret
    have hselected : (s.selection.track (s.table.modifyBuffer (·.seek offset)).current.buffer.caret
        ).nonEmptyRange = none := hnone
    have hcells := @View.isReversed_afterMotion_none s.view s.screen.grid _ hcaret row col
    rw [← hselected] at hcells
    exact hcells

/-! ## Searching -/

/-- A report shows the window again, with the selection that the search left. -/
theorem highlighted_reportSearch (hwf : s.table.WellFormed) (hfits : s.view.Fits s.screen.grid)
    (htracks : s.selection.Tracks s.buffer.caret) (outcome : SearchOutcome) :
    (s.reportSearch outcome).Highlighted := by
  have hsynced := synced_reportSearch hwf hfits outcome
  cases outcome with
  | notFound => exact ⟨hsynced, htracks, View.marks_refresh hfits⟩
  | found offset wrapped =>
      cases wrapped with
      | true => exact ⟨hsynced, htracks, View.marks_refresh hfits⟩
      | false => exact ⟨hsynced, htracks, View.marks_refresh hfits⟩
  | finished summary =>
      refine ⟨hsynced, ?_, ?_⟩
      · simp only [reportSearch]
        split <;> split <;> exact htracks
      · simp only [reportSearch]
        split <;> split <;> exact View.marks_refresh hfits

/-- **A match** that is found is shown as selected. -/
theorem Highlighted.find (h : s.Highlighted) (needle : List UInt8) :
    (s.find needle).2.Highlighted := by
  obtain ⟨hwf, hfits⟩ := fits_withSearched h.synced (Searched.capacity_search s.searched needle)
  have htracks : (s.searched.search needle).1.Tracks :=
    Searched.Tracks.search (s := s.searched) h.tracks needle
  exact highlighted_reportSearch hwf hfits htracks _

/-- **A run without questions** shows what it selected last, if anything. -/
theorem Highlighted.replaceAll (h : s.Highlighted) (needle replacement : List UInt8) :
    (s.replaceAll needle replacement).2.Highlighted := by
  obtain ⟨hwf, hfits⟩ := fits_withSearched h.synced
    (Searched.capacity_replaceAll s.searched needle replacement)
  have htracks : (s.searched.replaceAll needle replacement).1.Tracks :=
    ReplaceRun.tracks_all (s := s.searched) h.tracks
  exact highlighted_reportSearch hwf hfits htracks _

/-- **A question** shows the match that it asks about. -/
theorem highlighted_askNext (hwf : s.table.WellFormed) (hfits : s.view.Fits s.screen.grid)
    (htracks : s.selection.Tracks s.buffer.caret) (run : ReplaceRun) :
    (s.askNext run).2.Highlighted := by
  rw [askNext]
  split
  · next offer hoffer =>
    have hcap := ReplaceRun.capacity_offer? hoffer
    have hwf' := hwf.modifyBuffer (f := fun _ => offer.shown.buffer) hcap
    exact highlighted_refresh (s := s.withSearched offer.shown) hwf' hfits
      (ReplaceRun.tracks_offer? hoffer)
  · exact highlighted_reportSearch hwf hfits htracks _

/-- An answer leads to the next question or to the report. -/
theorem Highlighted.answer (h : s.Highlighted) (question : Question) (decision : ReplaceDecision) :
    (s.answer question decision).2.Highlighted := by
  have hcap := ReplaceRun.capacity_answer question.run s.searched question.offset decision
  have htracks := ReplaceRun.tracks_answer question.run (s := s.searched) h.tracks question.offset
    decision
  rw [Session.answer]
  split
  · next run found heq =>
    rw [heq] at hcap htracks
    obtain ⟨hwf, hfits⟩ := fits_withSearched h.synced hcap
    exact highlighted_askNext hwf hfits htracks run
  · next run found heq =>
    rw [heq] at hcap htracks
    obtain ⟨hwf, hfits⟩ := fits_withSearched h.synced hcap
    exact highlighted_reportSearch hwf hfits htracks _

/-- So the highlight is in step when a run with questions ends. -/
theorem Highlighted.queryReplace (h : s.Highlighted) (needle replacement : List UInt8)
    (decisions : List ReplaceDecision) :
    (s.queryReplace needle replacement decisions).2.1.Highlighted :=
  (queryReplace_induction (fun _ hs run =>
      highlighted_askNext hs.synced.wellFormed hs.synced.view.fits hs.tracks run)
    (fun _ hs question decision => hs.answer question decision) h needle replacement decisions).1

/-! ## Selection and documents -/

/-- Beginning or freezing a selection shows the window again. -/
theorem Highlighted.toggleSelection (h : s.Highlighted) : s.toggleSelection.Highlighted :=
  highlighted_refresh h.synced.wellFormed h.synced.view.fits (Selection.tracks_startOrExtend _ _)

/-- Another document is shown without a selection. -/
theorem Highlighted.switchTo (h : s.Highlighted) (id : Nat) : (s.switchTo id).2.Highlighted := by
  have hsynced := h.synced.switchTo id
  rw [Session.switchTo] at hsynced ⊢
  split
  · exact h
  · next table hactivate =>
    rw [hactivate] at hsynced
    exact ⟨hsynced, Selection.tracks_none _, View.marks_reformat h.synced.view.fits⟩

/-- A listing goes through all documents and comes back to the text and the caret at hand. -/
theorem Highlighted.listDocuments (h : s.Highlighted) : s.listDocuments.2.Highlighted := by
  obtain ⟨-, hagrees, hactive⟩ := SegmentTable.list_spec h.synced.wellFormed
  have hcurrent := hagrees.current_eq hactive
  exact h.of_sameText hagrees.wellFormed
    (congrArg (fun d : Document => d.buffer.content) hcurrent)
    (congrArg (fun d : Document => d.buffer.caret) hcurrent) rfl rfl rfl

/-- A screen of another size is painted as a whole. -/
theorem Highlighted.resize (h : s.Highlighted) {rows cols : Nat} (hrows : 0 < coordinate rows)
    (hcols : 0 < coordinate cols) : (s.resize rows cols).Highlighted :=
  highlighted_reformat h.synced.wellFormed (fits_blank hrows hcols s.preferredRow) h.tracks

/-! ## Files -/

variable [Storage σ]

/-- Writing a span changes nothing that is shown. -/
theorem Highlighted.exportRange (h : s.Highlighted) (name : String) (range : Span) :
    (s.exportRange name range).2.Highlighted := by
  have hbuffer := congrArg (·.current.buffer) (s.table_exportRange name range)
  exact h.of_sameText (h.synced.exportRange name range).wellFormed
    (congrArg GapBuffer.content hbuffer) (congrArg GapBuffer.caret hbuffer) rfl rfl rfl

/-- **A copy** takes the selection back and shows that; one that fails leaves it. -/
theorem Highlighted.copy (h : s.Highlighted) : s.copy.2.Highlighted := by
  refine copy_induction h.alert (fun range => h.exportRange s.clipboardFile range) ?_
  intro s' text h'
  have hshown : (refresh { s' with selection := Selection.none }).Highlighted :=
    highlighted_refresh h'.synced.wellFormed h'.synced.view.fits (Selection.tracks_none _)
  exact hshown.setStatus text

/-- **A cut** shows the text without the span. -/
theorem Highlighted.cut (h : s.Highlighted) : s.cut.2.Highlighted := by
  refine cut_induction h.alert (fun range => h.exportRange s.clipboardFile range) ?_
  intro s' text range h'
  have hshown : (refresh { s' with
      table := s'.table.modifyCurrent fun d =>
        (d.mapBuffer fun g => (g.deleteRange? range.lo range.hi).getD g).markModified
      selection := Selection.none }).Highlighted :=
    ⟨h'.synced.deleteSpan range, Selection.tracks_none _,
      View.marks_refresh h'.synced.view.fits⟩
  exact hshown.setStatus text

/-- An insertion drops the selection first, so one that fails must not find a selection shown. -/
theorem Highlighted.insertFile (h : s.Highlighted) {name : String}
    (hkept : (!(s.insertFile name).1.isOk) = true → s.highlight = none) :
    (s.insertFile name).2.Highlighted := by
  have hsynced := h.synced.insertFile name
  rw [Session.insertFile] at hsynced hkept ⊢
  simp only at hsynced hkept ⊢
  cases hload : s.table.load s.storage name .insert s.transfer with
  | mk result rest =>
      obtain ⟨table, storage⟩ := rest
      cases result with
      | error e =>
          simp only [hload] at hsynced hkept ⊢
          have hnone := hkept rfl
          have hmarks := h.marks
          rw [hnone, View.marks_none_iff] at hmarks
          exact ⟨hsynced, Selection.tracks_none _, View.marks_none_iff.mpr hmarks⟩
      | ok report =>
          simp only [hload] at hsynced ⊢
          exact ⟨hsynced, Selection.tracks_none _, View.marks_reformat h.synced.view.fits⟩

/-- An insertion that fails repaints no cell. -/
theorem of_insertFile_fails {name : String} (h : (!(s.insertFile name).1.isOk) = true) :
    (s.insertFile name).2.highlight = none ∧ (s.insertFile name).2.screen = s.screen := by
  rw [Session.insertFile] at h ⊢
  simp only at h ⊢
  cases hload : s.table.load s.storage name .insert s.transfer with
  | mk result rest =>
      obtain ⟨table, storage⟩ := rest
      cases result with
      | error e => exact ⟨rfl, rfl⟩
      | ok report =>
          simp only [hload] at h
          cases h

/-- **A file that is opened** is shown without a selection; one that is not leaves text, caret and
selection. -/
theorem Highlighted.openFile (h : s.Highlighted) (name : String) :
    (s.openFile name).2.Highlighted := by
  have hsynced := h.synced.openFile name
  rw [Session.openFile] at hsynced ⊢
  cases hload : s.table.load s.storage name .replace s.transfer with
  | mk result rest =>
      obtain ⟨table, storage⟩ := rest
      cases result with
      | error e =>
          have hrestored := load_error h.synced.wellFormed (by rw [hload])
          simp only [hload] at hsynced hrestored ⊢
          exact h.of_sameText hsynced.wellFormed hrestored.content_eq hrestored.caret_eq rfl rfl rfl
      | ok report =>
          simp only [hload] at hsynced ⊢
          exact ⟨hsynced, Selection.tracks_none _, View.marks_reformat h.synced.view.fits⟩

/-- **A save** changes nothing that is shown. -/
theorem Highlighted.saveAs (h : s.Highlighted) (name : String) (force : Bool) :
    (s.saveAs name force).2.Highlighted := by
  rw [Session.saveAs]
  simp only
  split
  · have hheader := h.synced.wellFormed.sameTexts_modifyHeader
      (f := fun h => { h with awaitsOverwrite := true }) h.synced.wellFormed.current.nameFits
    exact h.of_sameText hheader.wellFormed rfl rfl rfl rfl rfl
  · obtain ⟨htexts, hactive⟩ := save_spec h.synced.wellFormed s.storage name none s.transfer
    have hbuffer := htexts.current_buffer hactive
    have hsaved : Session.Highlighted { s with
        table := (s.table.save s.storage name none s.transfer).2.1
        storage := (s.table.save s.storage name none s.transfer).2.2
        pendingOverwrite := none } :=
      h.of_sameText htexts.wellFormed (congrArg GapBuffer.content hbuffer)
        (congrArg GapBuffer.caret hbuffer) rfl rfl rfl
    split
    · exact hsaved
    · exact hsaved.setStatus _

/-- The same holds under the name that the document has. -/
theorem Highlighted.save (h : s.Highlighted) : s.save.2.Highlighted := by
  rw [Session.save]
  split
  · exact h
  · exact h.saveAs s.document.header.name true

/-- A selection that is saved stays on the screen. -/
theorem Highlighted.saveSelection (h : s.Highlighted) (name : String) :
    (s.saveSelection name).2.Highlighted := by
  rw [Session.saveSelection]
  split
  · exact h.alert
  · next range hrange => exact h.exportRange name range

/-! ## Step and run -/

end Session

/-- Whether the operation moves the caret. -/
def SessionOp.isMotion : SessionOp → Bool
  | .moveLeft | .moveRight | .moveUp | .moveDown | .pageUp | .pageDown => true
  | .moveRowStart | .moveRowEnd | .moveDocumentStart | .moveDocumentEnd | .seek _ => true
  | _ => false

namespace Session

variable {σ : Type} [Storage σ] {s : Session σ}

/-- Whether the operation inserts a file and fails. -/
def insertFails (s : Session σ) : SessionOp → Bool
  | .insertFile name => !(s.insertFile name).1.isOk
  | .paste => !s.paste.1.isOk
  | _ => false

/-- The operation takes a selection back without showing that. -/
def ForgetsHighlight (s : Session σ) (op : SessionOp) : Prop :=
  op.isMotion = true ∧ s.MovesBack (s.perform op) ∨
    s.highlight ≠ none ∧ s.insertFails op = true

instance (s : Session σ) (op : SessionOp) : Decidable (s.ForgetsHighlight op) :=
  inferInstanceAs (Decidable (_ ∧ (_ ∧ _ ∧ _) ∨ _))

/-- **Every other operation keeps the highlight in step.** -/
theorem Highlighted.perform (h : s.Highlighted) {op : SessionOp} (hop : op.Sized)
    (hkept : ¬ s.ForgetsHighlight op) : (s.perform op).Highlighted := by
  obtain ⟨hmotion, hinsert⟩ := not_or.mp hkept
  cases op with
  | insertByte byte => exact h.insertByte byte
  | insertChar c => exact h.insertBytes (String.utf8EncodeChar c)
  | insertTab => exact h.insertBlanks _
  | deleteLeft => exact h.deleteLeft
  | deleteRight => exact h.deleteRight
  | moveLeft => exact h.moveTo fun hback => hmotion ⟨rfl, hback⟩
  | moveRight => exact h.moveTo fun hback => hmotion ⟨rfl, hback⟩
  | moveUp => exact h.moveTo fun hback => hmotion ⟨rfl, hback⟩
  | moveDown => exact h.moveTo fun hback => hmotion ⟨rfl, hback⟩
  | pageUp => exact h.moveTo fun hback => hmotion ⟨rfl, hback⟩
  | pageDown => exact h.moveTo fun hback => hmotion ⟨rfl, hback⟩
  | moveRowStart => exact h.moveTo fun hback => hmotion ⟨rfl, hback⟩
  | moveRowEnd => exact h.moveTo fun hback => hmotion ⟨rfl, hback⟩
  | moveDocumentStart => exact h.moveTo fun hback => hmotion ⟨rfl, hback⟩
  | moveDocumentEnd => exact h.moveTo fun hback => hmotion ⟨rfl, hback⟩
  | seek offset => exact h.moveTo fun hback => hmotion ⟨rfl, hback⟩
  | toggleSelection => exact h.toggleSelection
  | copy => exact h.copy
  | cut => exact h.cut
  | paste => exact h.insertFile fun hfails => not_not.mp fun hsome => hinsert ⟨hsome, hfails⟩
  | find needle => exact h.find needle
  | replaceAll needle replacement => exact h.replaceAll needle replacement
  | queryReplace needle replacement decisions => exact h.queryReplace needle replacement decisions
  | openFile name => exact h.openFile name
  | insertFile name =>
      exact h.insertFile fun hfails => not_not.mp fun hsome => hinsert ⟨hsome, hfails⟩
  | save => exact h.save
  | saveAs name force => exact h.saveAs name force
  | saveSelection name => exact h.saveSelection name
  | switchTo id => exact h.switchTo id
  | cycle forward => exact h.switchTo (s.neighbour forward)
  | listDocuments => exact h.listDocuments
  | hasUnsavedChanges => exact h.listDocuments
  | resize rows cols => exact h.resize hop.1 hop.2
  | takeAlert => exact ⟨⟨h.synced.wellFormed, h.synced.view⟩, h.tracks, h.marks⟩
  | setStatus text => exact h.setStatus text
  | clearStatus => exact ⟨⟨h.synced.wellFormed, h.synced.view⟩, h.tracks, h.marks⟩

/-- The selection is gone after such an operation, and every cell is as it was. -/
theorem ForgetsHighlight.stale {op : SessionOp} (h : s.ForgetsHighlight op) :
    (s.perform op).highlight = none ∧ ∀ row col,
      (s.perform op).screen.grid.isReversed row col = s.screen.grid.isReversed row col := by
  rcases h with ⟨hmotion, hback⟩ | ⟨-, hfails⟩
  · refine ⟨hback.2.1, ?_⟩
    cases op <;> first | exact absurd hmotion Bool.false_ne_true | exact hback.isReversed_eq
  · cases op with
    | insertFile name =>
        obtain ⟨hnone, hscreen⟩ := of_insertFile_fails hfails
        exact ⟨hnone, fun row col => congrArg (·.grid.isReversed row col) hscreen⟩
    | paste =>
        obtain ⟨hnone, hscreen⟩ := of_insertFile_fails hfails
        exact ⟨hnone, fun row col => congrArg (·.grid.isReversed row col) hscreen⟩
    | _ => exact absurd hfails Bool.false_ne_true

/-- **The highlight matches the selection all along a course** on which no operation takes a
selection back without showing that. -/
theorem highlightMatches_course {options : SessionOptions} {storage : σ} {rows cols : Nat}
    {ops : List SessionOp} (hcap : options.capacity < 2 ^ 32) (hrows : 0 < coordinate rows)
    (hcols : 0 < coordinate cols)
    (hops : s.Along (fun s op => op.Sized ∧ ¬ s.ForgetsHighlight op) ops)
    (h : create options storage rows cols = .ok s) : ∀ s' ∈ s.course ops, s'.HighlightMatches := by
  have hstep : ∀ (s : Session σ) (op : SessionOp), s.Highlighted →
      op.Sized ∧ ¬ s.ForgetsHighlight op → (s.perform op).Highlighted :=
    fun _ _ hs hop => hs.perform hop.1 hop.2
  have hall := forall_mem_course hstep (highlighted_create hcap hrows hcols h) hops
  exact fun s' hs' => (hall s' hs').highlightMatches

/-- Selecting, copying and pasting over two rows of a small screen. -/
theorem highlightMatches_course_copying :
    let config := { Config.standard "" with segmentCapacity := 8, loadChunkSize := 4 }
    let ops : List SessionOp :=
      [.insertByte 97, .insertByte 98, .insertByte 99, .seek 1, .toggleSelection, .moveRight,
        .moveRight, .toggleSelection, .copy, .paste]
    config.complaint? = none ∧
      ∃ s : Session Memory, create config.sessionOptions Memory.empty 2 2 = .ok s ∧
        s.Along (fun s op => op.Sized ∧ ¬ s.ForgetsHighlight op) ops ∧
        (s.course ops).map (fun s' => s'.highlight.map fun span => (span.lo, span.hi))
          = [none, none, none, none, none, none, some (1, 2), some (1, 3), some (1, 3), none,
            none] ∧
        ∀ s' ∈ s.course ops, s'.HighlightMatches := by
  intro config ops
  have hnone : config.complaint? = none := by decide
  obtain ⟨s, hcreate, hops, hspans⟩ : ∃ s : Session Memory,
      create config.sessionOptions Memory.empty 2 2 = .ok s ∧
        s.Along (fun s op => op.Sized ∧ ¬ s.ForgetsHighlight op) ops ∧
        (s.course ops).map (fun s' => s'.highlight.map fun span => (span.lo, span.hi))
          = [none, none, none, none, none, none, some (1, 2), some (1, 3), some (1, 3), none,
            none] :=
    ⟨_, rfl, by decide +kernel, by decide +kernel⟩
  exact ⟨hnone, s, hcreate, hops, hspans, highlightMatches_course (capacity_sessionOptions_lt hnone)
    (by decide) (by decide) hops hcreate⟩

/-- The condition is needed: when the caret comes back to the anchor, the cell of the byte that was
selected stays in reverse video. -/
theorem not_highlightMatches_back :
    let config := { Config.standard "" with segmentCapacity := 16, loadChunkSize := 4 }
    let ops : List SessionOp :=
      [.insertByte 97, .insertByte 98, .moveDocumentStart, .toggleSelection, .moveRight, .moveLeft]
    config.complaint? = none ∧
      ∃ s : Session Memory, create config.sessionOptions Memory.empty 2 4 = .ok s ∧
        ∃ s' ∈ s.course ops, s'.highlight = none ∧ s'.screen.grid.isReversed 0 0 = true ∧
          ¬ s'.HighlightMatches := by
  intro config ops
  obtain ⟨s, hcreate, s', hs', hnone, hreversed, hrows, hcols⟩ : ∃ s : Session Memory,
      create config.sessionOptions Memory.empty 2 4 = .ok s ∧
        ∃ s' ∈ s.course ops, s'.highlight = none ∧ s'.screen.grid.isReversed 0 0 = true ∧
          0 < s'.screen.grid.rows ∧ 0 < s'.screen.grid.cols :=
    ⟨_, rfl, by decide +kernel⟩
  refine ⟨by decide, s, hcreate, s', hs', hnone, hreversed, ?_⟩
  intro hmatches
  obtain ⟨offset, -, span, hspan, -⟩ := (hmatches 0 hrows 0 hcols).mp hreversed
  rw [hnone] at hspan
  cases hspan

end Session
end ScreenEditor
