import ScreenEditor.Proofs.Session.Highlight
import ScreenEditor.Proofs.Session.Refusals
import ScreenEditor.Proofs.View.Strokes

/-!
# What a session paints

Every operation shows its changes by some repaints of the view, one after the other
(`Session.showings`), and they are all that it paints (`Session.screen_perform`).  A repaint is safe
if the view was in step with the text before the change; so an operation that is not shown at once
must leave the view in step (`Session.ready_showings`).

Sessions may be resized to a screen without cells and back again.  On the way the view is in step
with nothing, but no more than well-formed documents are needed to show them on the next screen
(`Session.Presentable`).

## Main results

* `Session.screen_perform`: the screen after an operation, from its repaints.
* `Session.paintedInside_course`: wherever operations lead, each reads cells of the text only and
  keeps to the grid.
-/

namespace ScreenEditor

/-! ## Showings -/

/-- One repaint: how, by which view, of which text and selection. -/
structure Showing where
  how : Repaint
  view : View
  buffer : GapBuffer
  selected : Option Span

namespace Showing

/-- The view after the repaint, and what was put on the grid. -/
def result (k : Showing) : Repainted := k.how.result k.view k.buffer k.selected

/-- The strokes that the repaint makes. -/
def strokes (k : Showing) : List Stroke := k.how.strokes k.view k.buffer k.selected

/-- The repaint can rely on its view, which has the size of the grid. -/
structure Ready (k : Showing) (rows cols : Nat) : Prop where
  how : k.how.Ready k.view k.buffer
  rows_eq : k.view.rows = rows
  cols_eq : k.view.cols = cols

/-- A repaint that can rely on its view reads cells of the text only and keeps to the grid. -/
theorem Ready.inside {k : Showing} {rows cols : Nat} (h : k.Ready rows cols) :
    ∀ stroke ∈ k.strokes, stroke.Inside rows cols := by
  rw [← h.rows_eq, ← h.cols_eq]
  exact h.how.inside k.selected

end Showing

/-- Show changes one after the other. -/
def Screen.showAll (screen : Screen) (showings : List Showing) : Screen :=
  showings.foldl (fun screen k => screen.paint k.result.2) screen

/-- Showing some changes and then more shows them all. -/
theorem Screen.showAll_append (screen : Screen) (showings more : List Showing) :
    screen.showAll (showings ++ more) = (screen.showAll showings).showAll more :=
  List.foldl_append

/-- Nothing that is shown changes the size of the grid. -/
theorem Screen.sized_showAll {screen : Screen} {rows cols : Nat} (h : screen.grid.Sized rows cols)
    (showings : List Showing) : (screen.showAll showings).grid.Sized rows cols := by
  induction showings generalizing screen with
  | nil => exact h
  | cons k rest ih => exact ih (Grid.sized_paintAll h k.result.2)

/-- **Painted inside.**  The screen comes from a canvas by showing changes, all that they put on the
grid comes from strokes, and every stroke reads cells of the text only and keeps to the canvas. -/
structure PaintedInside (canvas screen : Screen) (showings : List Showing) : Prop where
  screen_eq : screen = canvas.showAll showings
  made : ∀ k ∈ showings, k.result.MadeOf k.strokes
  inside : ∀ k ∈ showings, ∀ stroke ∈ k.strokes,
    stroke.Inside canvas.grid.rows canvas.grid.cols

/-- It is enough that every repaint can rely on its view. -/
theorem PaintedInside.of_ready {canvas screen : Screen} {showings : List Showing}
    (hscreen : screen = canvas.showAll showings)
    (hready : ∀ k ∈ showings, k.Ready canvas.grid.rows canvas.grid.cols) :
    PaintedInside canvas screen showings :=
  ⟨hscreen, fun k _ => Repaint.madeOf_strokes k.view k.buffer k.selected k.how,
    fun k hk => (hready k hk).inside⟩

namespace Session

variable {σ : Type} {s s' : Session σ} {rows cols : Nat}

/-- A change that leads to the session `s'`, shown by the view of `s`. -/
def showing (s s' : Session σ) (how : Repaint) : Showing := ⟨how, s.view, s'.buffer, s'.highlight⟩

/-- A view in step has the size of the screen, so only the change itself is in question. -/
theorem Synced.ready (h : s.Synced) (hsized : s.screen.grid.Sized rows cols) {how : Repaint}
    (hready : how.Ready s.view s'.buffer) : (s.showing s' how).Ready rows cols := by
  have hfits := h.view.fits.sized
  exact ⟨hready, hfits.rows_eq.symm.trans hsized.rows_eq, hfits.cols_eq.symm.trans hsized.cols_eq⟩

/-- A change is shown if it was done. -/
def showingIf (s : Session σ) (done : Bool) (s' : Session σ) (how : Repaint) : List Showing :=
  if done then [s.showing s' how] else []

/-- A change that was not done is not shown, and need not be ready. -/
theorem Synced.ready_showingIf (h : s.Synced) (hsized : s.screen.grid.Sized rows cols)
    {done : Bool} {how : Repaint} (hready : done = true → how.Ready s.view s'.buffer) :
    ∀ k ∈ s.showingIf done s' how, k.Ready rows cols := by
  rw [showingIf]
  split
  · next hdone => exact List.forall_mem_singleton.mpr (h.ready hsized (hready hdone))
  · exact List.forall_mem_nil _

/-! ## Typing and deleting -/

/-- What an edit of one byte comes to.  Either it is refused, or it is done; then the text was
changed in a way that a patch can rely on. -/
inductive Edits (s : Session σ) (how : Repaint) : Bool × Session σ → Prop
  | refused : Edits s how (s.dropSelection.2.refuseEdit s.dropSelection.1)
  | done (f : GapBuffer → GapBuffer) (patch : View → GapBuffer → Repainted)
      (hpatch : ∀ v g selected, how.result v g selected = patch v g)
      (hready : s.Synced → how.Ready s.view (f s.buffer)) :
      Edits s how (Session.finishEdit { s with
        table := s.table.modifyBuffer f, selection := Selection.none } s.highlight.isSome patch)

/-- Typing a byte is such an edit; it is refused when the segment is full. -/
theorem edits_insertByte (s : Session σ) (byte : UInt8) :
    s.Edits .afterInsert (s.insertByte byte) := by
  by_cases hfull : s.buffer.free = 0
  · have hrefused : s.insertByte byte = s.dropSelection.2.refuseEdit s.dropSelection.1 := by
      rw [insertByte]
      exact if_pos hfull
    exact hrefused ▸ .refused
  · have hdone : s.insertByte byte = Session.finishEdit { s with
        table := s.table.modifyBuffer (·.insertAll [byte]), selection := Selection.none }
        s.highlight.isSome View.afterInsert := by
      rw [insertByte]
      exact if_neg hfull
    rw [hdone]
    refine .done (·.insertAll [byte]) _ (fun _ _ _ => rfl) fun h => ?_
    exact .afterInsert h.view (s.buffer.makes_insertAll byte (Nat.pos_of_ne_zero hfull))

/-- So is deleting to the left, which is refused at the start of the text. -/
theorem edits_deleteLeft (s : Session σ) : s.Edits .afterDeleteLeft s.deleteLeft := by
  rw [deleteLeft]
  cases hdelete : s.buffer.deleteLeft? with
  | none =>
      have hdrop : s.dropSelection.2.buffer.deleteLeft? = none := hdelete
      simp only [hdrop]
      exact .refused
  | some deleted =>
      have hdrop : s.dropSelection.2.buffer.deleteLeft? = some deleted := hdelete
      obtain ⟨hmakes, hcaret⟩ := GapBuffer.makes_deleteLeft hdelete
      simp only [hdrop]
      exact .done (fun _ => deleted.2) _ (fun _ _ _ => rfl) fun h =>
        .afterDeleteLeft h.view hmakes hcaret

/-- And so is deleting to the right, which is refused at its end. -/
theorem edits_deleteRight (s : Session σ) : s.Edits .afterDeleteRight s.deleteRight := by
  rw [deleteRight]
  cases hdelete : s.buffer.deleteRight? with
  | none =>
      have hdrop : s.dropSelection.2.buffer.deleteRight? = none := hdelete
      simp only [hdrop]
      exact .refused
  | some deleted =>
      have hdrop : s.dropSelection.2.buffer.deleteRight? = some deleted := hdelete
      simp only [hdrop]
      exact .done (fun _ => deleted.2) _ (fun _ _ _ => rfl) fun h =>
        .afterDeleteRight h.view (GapBuffer.makes_deleteRight hdelete)

/-- An edit shows everything again if a selection was shown, and otherwise what it changed. -/
def editShowings (s : Session σ) (how : Repaint) (r : Bool × Session σ) : List Showing :=
  if s.highlight.isSome then [s.showing r.2 .refresh] else s.showingIf r.1 r.2 how

/-- The screen after an edit comes from its repaint alone. -/
theorem Edits.screen_eq {how : Repaint} {r : Bool × Session σ} (h : s.Edits how r) :
    r.2.screen = s.screen.showAll (s.editShowings how r) := by
  rw [editShowings]
  cases h with
  | refused =>
      rw [dropSelection]
      cases s.highlight.isSome <;> rfl
  | done f patch hpatch hready =>
      cases hshown : s.highlight.isSome with
      | true => rfl
      | false =>
          have hpaint : ∀ s' : Session σ, s.screen.showAll [s.showing s' how]
              = s.screen.paint (patch s.view s'.buffer).2 := fun s' =>
            congrArg (fun r : Repainted => s.screen.paint r.2)
              (hpatch s.view s'.buffer s'.highlight)
          rw [if_neg Bool.false_ne_true]
          exact (hpaint _).symm

/-- The repaint of an edit can rely on a view that was in step before it. -/
theorem Edits.ready {how : Repaint} {r : Bool × Session σ} (h : s.Edits how r) (hs : s.Synced)
    (hsized : s.screen.grid.Sized rows cols) : ∀ k ∈ s.editShowings how r, k.Ready rows cols := by
  rw [editShowings]
  split
  · exact List.forall_mem_singleton.mpr (hs.ready hsized .refresh)
  · refine hs.ready_showingIf hsized fun hdone => ?_
    cases h with
    | refused => cases hdone
    | done f patch hpatch hready =>
        have hbuffer : (Session.finishEdit { s with
            table := s.table.modifyBuffer f, selection := Selection.none } s.highlight.isSome
            patch).2.buffer = f s.buffer := by
          rw [buffer, table_finishEdit]
          rfl
        rw [hbuffer]
        exact hready hs

/-- Bytes are typed and shown one by one. -/
def typingShowings (s : Session σ) : List UInt8 → List Showing
  | [] => []
  | byte :: rest =>
    s.editShowings .afterInsert (s.insertByte byte)
      ++ if (s.insertByte byte).1 then (s.insertByte byte).2.typingShowings rest else []

/-- **Typing** shows every byte that was taken, up to the first that was refused. -/
theorem screen_insertBytes (s : Session σ) (bytes : List UInt8) :
    (s.insertBytes bytes).2.screen = s.screen.showAll (s.typingShowings bytes) := by
  induction bytes generalizing s with
  | nil => rfl
  | cons byte rest ih =>
      rw [insertBytes, typingShowings, Screen.showAll_append,
        ← (s.edits_insertByte byte).screen_eq]
      split
      · next s' heq =>
        rw [heq, if_pos rfl]
        exact ih s'
      · next s' heq =>
        rw [heq, if_neg Bool.false_ne_true]
        rfl

/-- Each byte leaves the view in step for the next. -/
theorem ready_typingShowings (h : s.Synced) (hsized : s.screen.grid.Sized rows cols)
    (bytes : List UInt8) : ∀ k ∈ s.typingShowings bytes, k.Ready rows cols := by
  induction bytes generalizing s with
  | nil => exact List.forall_mem_nil _
  | cons byte rest ih =>
      have hedit := s.edits_insertByte byte
      have hsized' := Screen.sized_showAll hsized (s.editShowings .afterInsert (s.insertByte byte))
      rw [← hedit.screen_eq] at hsized'
      refine List.forall_mem_append.mpr ⟨hedit.ready h hsized, ?_⟩
      split
      · exact ih (h.insertByte byte) hsized'
      · exact List.forall_mem_nil _

/-! ## Moving -/

/-- A motion that has a place to go to shows the rows on the way. -/
theorem screen_moveTo (s : Session σ) (target : Option Nat) : (s.moveTo target).2.screen
    = s.screen.showAll (s.showingIf (s.moveTo target).1 (s.moveTo target).2 .afterMotion) := by
  rw [moveTo]
  split <;> rfl

/-- It changes no text, so the view is in step with the text behind it as well. -/
theorem ready_moveTo (h : s.Synced) (hsized : s.screen.grid.Sized rows cols)
    (target : Option Nat) : ∀ k ∈ s.showingIf (s.moveTo target).1 (s.moveTo target).2 .afterMotion,
      k.Ready rows cols := by
  refine h.ready_showingIf hsized fun hdone => .afterMotion h.view ?_
  rw [moveTo] at hdone ⊢
  split at hdone
  · cases hdone
  · exact GapBuffer.content_seek s.table.current.buffer _

/-! ## Whole windows -/

/-- The session `s'` comes from `s` by changes that leave screen and view alone, and a repaint. -/
def ShownBy (s s' : Session σ) (how : Repaint) : Prop :=
  s'.screen = s.screen.showAll [s.showing s' how]

/-- A report shows the window again, whatever the search came to. -/
theorem shownBy_reportSearch (hview : s'.view = s.view) (hscreen : s'.screen = s.screen)
    (outcome : SearchOutcome) : s.ShownBy (s'.reportSearch outcome) .refresh := by
  rw [ShownBy, showing, ← hview, ← hscreen]
  cases outcome with
  | notFound => rfl
  | found offset wrapped => cases wrapped <;> rfl
  | finished summary =>
      rw [reportSearch]
      simp only
      split <;> split <;> rfl

/-- So does a question, and the end of a run that has no further one. -/
theorem shownBy_askNext (hview : s'.view = s.view) (hscreen : s'.screen = s.screen)
    (run : ReplaceRun) : s.ShownBy (s'.askNext run).2 .refresh := by
  rw [askNext]
  split
  · rw [ShownBy, showing, ← hview, ← hscreen]
    rfl
  · exact shownBy_reportSearch hview hscreen run.outcome

/-- An answer shows the next question or the end. -/
theorem shownBy_answer (s : Session σ) (question : Question) (decision : ReplaceDecision) :
    s.ShownBy (s.answer question decision).2 .refresh := by
  rw [answer]
  split
  · exact shownBy_askNext rfl rfl _
  · exact shownBy_reportSearch rfl rfl _

/-- Sessions that are shown one after the other. -/
def refreshings (s : Session σ) : List (Session σ) → List Showing
  | [] => []
  | s' :: rest => s.showing s' .refresh :: s'.refreshings rest

/-- The questions of a run behind the first one, and its end, are shown one after the other. -/
theorem screen_answerAll (s : Session σ) (question : Question) (decisions : List ReplaceDecision) :
    ∃ asked, (s.answerAll question decisions).2.2 = s :: asked ∧
      (s.answerAll question decisions).2.1.screen
        = s.screen.showAll (s.refreshings (asked ++ [(s.answerAll question decisions).2.1])) := by
  induction decisions generalizing s question with
  | nil => exact ⟨[], rfl, s.shownBy_answer question .abort⟩
  | cons decision rest ih =>
      have hanswer := s.shownBy_answer question decision
      rw [answerAll]
      split
      · next outcome ended heq =>
        rw [heq] at hanswer
        exact ⟨[], rfl, hanswer⟩
      · next next shown heq =>
        rw [heq] at hanswer
        obtain ⟨asked, hasked, hscreen⟩ := ih shown next
        refine ⟨shown :: asked, ?_, ?_⟩
        · simp only
          rw [hasked]
        · simp only
          rw [hscreen, hanswer]
          rfl

/-- The session at every question of a run, and at its end. -/
def replaceStages (s : Session σ) (needle replacement : List UInt8)
    (decisions : List ReplaceDecision) : List (Session σ) :=
  (s.queryReplace needle replacement decisions).2.2
    ++ [(s.queryReplace needle replacement decisions).2.1]

/-- **A replace run** shows the session at every question and at the end. -/
theorem screen_queryReplace (s : Session σ) (needle replacement : List UInt8)
    (decisions : List ReplaceDecision) :
    (s.queryReplace needle replacement decisions).2.1.screen
      = s.screen.showAll (s.refreshings (s.replaceStages needle replacement decisions)) := by
  have hbegin : s.ShownBy (s.beginQuery needle replacement).2 .refresh :=
    shownBy_askNext rfl rfl _
  rw [replaceStages, queryReplace]
  split
  · next outcome ended heq =>
    rw [heq] at hbegin
    exact hbegin
  · next question shown heq =>
    rw [heq] at hbegin
    obtain ⟨asked, hasked, hscreen⟩ := shown.screen_answerAll question decisions
    rw [hasked, hscreen, hbegin]
    rfl

/-- Sessions in step can be shown one after the other. -/
theorem ready_refreshings {stages : List (Session σ)}
    (hall : ∀ s' ∈ s :: stages, s'.Synced ∧ s'.screen.grid.Sized rows cols) :
    ∀ k ∈ s.refreshings stages, k.Ready rows cols := by
  induction stages generalizing s with
  | nil => exact List.forall_mem_nil _
  | cons s' rest ih =>
      obtain ⟨hs, hrest⟩ := List.forall_mem_cons.mp hall
      exact List.forall_mem_cons.mpr ⟨hs.1.ready hs.2 .refresh, ih hrest⟩

/-- What is shown so has the size of the screen before. -/
theorem ShownBy.sized {how : Repaint} (h : s.ShownBy s' how)
    (hsized : s.screen.grid.Sized rows cols) : s'.screen.grid.Sized rows cols :=
  h ▸ Screen.sized_showAll hsized _

/-- A session is in step at every question of a run and at its end. -/
theorem ready_queryReplace (h : s.Synced) (hsized : s.screen.grid.Sized rows cols)
    (needle replacement : List UInt8) (decisions : List ReplaceDecision) :
    ∀ k ∈ s.refreshings (s.replaceStages needle replacement decisions), k.Ready rows cols := by
  have hrun := queryReplace_induction (P := fun s => s.Synced ∧ s.screen.grid.Sized rows cols)
    (fun _ hs run => ⟨synced_askNext hs.1.wellFormed hs.1.view.fits run,
      (shownBy_askNext rfl rfl run).sized hs.2⟩)
    (fun s hs question decision => ⟨hs.1.answer question decision,
      (s.shownBy_answer question decision).sized hs.2⟩)
    ⟨h, hsized⟩ needle replacement decisions
  refine ready_refreshings (List.forall_mem_cons.mpr ⟨⟨h, hsized⟩, ?_⟩)
  exact List.forall_mem_append.mpr ⟨hrun.2, List.forall_mem_singleton.mpr hrun.1⟩

/-- A segment that was made active is shown. -/
theorem screen_switchTo (s : Session σ) (id : Nat) : (s.switchTo id).2.screen
    = s.screen.showAll (s.showingIf (s.switchTo id).1.isOk (s.switchTo id).2 .reformat) := by
  rw [switchTo]
  split <;> rfl

/-! ## New screens -/

/-- What is shown on a blank screen, by a view that was not used before. -/
def firstShowing (s : Session σ) (rows cols preferredRow : Nat) : Showing :=
  ⟨.reformat, View.new (coordinate rows) (coordinate cols) preferredRow, s.buffer, s.highlight⟩

/-- A new view has the size of the blank screen that it is made for. -/
theorem ready_firstShowing {rows cols : Nat} (hrows : 0 < coordinate rows)
    (hcols : 0 < coordinate cols) (preferredRow : Nat) :
    (s.firstShowing rows cols preferredRow).Ready (coordinate rows) (coordinate cols) :=
  ⟨.reformat, Nat.max_eq_left hrows, Nat.max_eq_left hcols⟩

/-- A new session shows its empty text on a blank screen. -/
theorem screen_create {options : SessionOptions} {storage : σ} {rows cols : Nat}
    (h : create options storage rows cols = .ok s) :
    s.screen = (Screen.blank rows cols).showAll
      [s.firstShowing rows cols options.preferredRow] := by
  obtain ⟨table, -, rfl⟩ := exists_of_map_ok h
  rfl

/-- The screen that an operation paints on: a blank one after a resize. -/
def canvas (s : Session σ) : SessionOp → Screen
  | .resize rows cols => { Screen.blank rows cols with painted := s.screen.painted }
  | _ => s.screen

/-- The canvas has the size that it says. -/
theorem sized_canvas
    (h : s.screen.grid.Sized s.screen.grid.rows s.screen.grid.cols) (op : SessionOp) :
    (s.canvas op).grid.Sized (s.canvas op).grid.rows (s.canvas op).grid.cols := by
  cases op with
  | resize rows cols => exact Grid.sized_blank rows cols
  | _ => exact h

/-- What every operation keeps, on screens without cells as well: documents that can be put away and
taken out, a grid that coordinates can address, and to be in step if the grid has a cell at all. -/
structure Presentable (s : Session σ) : Prop where
  wellFormed : s.table.WellFormed
  sized : s.screen.grid.Sized s.screen.grid.rows s.screen.grid.cols
  synced : 0 < s.screen.grid.rows → 0 < s.screen.grid.cols → s.Synced

/-- A new session is presentable, also on a screen without cells. -/
theorem presentable_create {options : SessionOptions} {storage : σ} {rows cols : Nat}
    (hcap : options.capacity < 2 ^ 32) (h : create options storage rows cols = .ok s) :
    s.Presentable := by
  have hsized : s.screen.grid.Sized (coordinate rows) (coordinate cols) := by
    rw [screen_create h]
    exact Screen.sized_showAll (Grid.sized_blank rows cols) _
  refine ⟨SegmentTable.wellFormed_ofLayout hcap (ofLayout_of_create h), ?_, ?_⟩
  · rwa [hsized.rows_eq, hsized.cols_eq]
  · rw [hsized.rows_eq, hsized.cols_eq]
    exact fun hrows hcols => synced_create hcap hrows hcols h

/-! ## Files -/

variable [Storage σ]

/-- The selection is gone from the screen once it is copied. -/
theorem screen_copy (s : Session σ) : s.copy.2.screen
    = s.screen.showAll (s.showingIf (s.copy.1.toOption.getD false) s.copy.2 .refresh) := by
  rw [copy]
  split
  · rfl
  · next range hrange =>
    rw [exportRange]
    obtain ⟨result, table, storage⟩ :=
      s.table.save s.storage s.clipboardFile (some range) s.transfer
    cases result <;> rfl

/-- The selection is gone from the text once it is cut. -/
theorem screen_cut (s : Session σ) : s.cut.2.screen
    = s.screen.showAll (s.showingIf (s.cut.1.toOption.getD false) s.cut.2 .refresh) := by
  rw [cut]
  split
  · rfl
  · next range hrange =>
    rw [exportRange]
    obtain ⟨result, table, storage⟩ :=
      s.table.save s.storage s.clipboardFile (some range) s.transfer
    cases result <;> rfl

/-- A file is shown if it could be inserted. -/
theorem screen_insertFile (s : Session σ) (name : String) :
    (s.insertFile name).2.screen = s.screen.showAll
      (s.showingIf (s.insertFile name).1.isOk (s.insertFile name).2 .reformat) := by
  rw [insertFile]
  simp only
  split <;> rfl

/-- A file is shown if it could be opened. -/
theorem screen_openFile (s : Session σ) (name : String) : (s.openFile name).2.screen
    = s.screen.showAll (s.showingIf (s.openFile name).1.isOk (s.openFile name).2 .reformat) := by
  rw [openFile]
  split <;> rfl

/-- A save shows nothing but the status. -/
theorem screen_saveAs (s : Session σ) (name : String) (force : Bool) :
    (s.saveAs name force).2.screen = s.screen := by
  rw [saveAs]
  simp only
  split
  · rfl
  · split <;> rfl

/-- Under its own name a document is saved without a repaint too. -/
theorem screen_save (s : Session σ) : s.save.2.screen = s.screen := by
  rw [save]
  split
  · rfl
  · exact s.screen_saveAs _ _

/-- Nor does saving a selection show anything. -/
theorem screen_saveSelection (s : Session σ) (name : String) :
    (s.saveSelection name).2.screen = s.screen := by
  rw [saveSelection]
  split <;> rfl

/-! ## Operations -/

/-- The repaints of an operation, in order. -/
def showings (s : Session σ) (op : SessionOp) : List Showing :=
  match op with
  | .insertByte _ | .insertChar _ | .insertTab => s.typingShowings (s.typedBytes op)
  | .deleteLeft => s.editShowings .afterDeleteLeft s.deleteLeft
  | .deleteRight => s.editShowings .afterDeleteRight s.deleteRight
  | .toggleSelection | .find _ | .replaceAll _ _ => [s.showing (s.perform op) .refresh]
  | .copy | .cut => s.showingIf (s.succeeds op) (s.perform op) .refresh
  | .queryReplace needle replacement decisions =>
    s.refreshings (s.replaceStages needle replacement decisions)
  | .paste | .openFile _ | .insertFile _ | .switchTo _ | .cycle _ =>
    s.showingIf (s.succeeds op) (s.perform op) .reformat
  | .resize rows cols => [s.firstShowing rows cols s.preferredRow]
  | _ => s.showingIf (op.isMotion && s.succeeds op) (s.perform op) .afterMotion

/-- **An operation paints its repaints and nothing else.** -/
theorem screen_perform (s : Session σ) (op : SessionOp) :
    (s.perform op).screen = (s.canvas op).showAll (s.showings op) := by
  cases op with
  | insertByte byte =>
      rw [perform, ← insertBytes_singleton]
      exact s.screen_insertBytes _
  | insertChar c => exact s.screen_insertBytes _
  | insertTab =>
      rw [perform, insertTab_eq]
      exact s.screen_insertBytes _
  | deleteLeft => exact s.edits_deleteLeft.screen_eq
  | deleteRight => exact s.edits_deleteRight.screen_eq
  | moveLeft | moveRight | moveUp | moveDown | pageUp | pageDown | moveRowStart | moveRowEnd
  | moveDocumentStart | moveDocumentEnd | seek _ => exact s.screen_moveTo _
  | toggleSelection => rfl
  | copy => exact s.screen_copy
  | cut => exact s.screen_cut
  | paste => exact s.screen_insertFile s.clipboardFile
  | find needle => exact shownBy_reportSearch rfl rfl _
  | replaceAll needle replacement => exact shownBy_reportSearch rfl rfl _
  | queryReplace needle replacement decisions =>
      exact s.screen_queryReplace needle replacement decisions
  | openFile name => exact s.screen_openFile name
  | insertFile name => exact s.screen_insertFile name
  | save => exact s.screen_save
  | saveAs name force => exact s.screen_saveAs name force
  | saveSelection name => exact s.screen_saveSelection name
  | switchTo id => exact s.screen_switchTo id
  | cycle forward => exact s.screen_switchTo (s.neighbour forward)
  | listDocuments | hasUnsavedChanges | resize _ _ | takeAlert | setStatus _ | clearStatus => rfl

/-! ## Step and run -/

/-- **Every operation keeps a session presentable.** -/
theorem Presentable.perform (h : s.Presentable) (op : SessionOp) : (s.perform op).Presentable := by
  have hsized := Screen.sized_showAll (sized_canvas h.sized op) (s.showings op)
  rw [← screen_perform] at hsized
  refine ⟨wellFormed_perform h.wellFormed op, ?_, ?_⟩
  · rwa [hsized.rows_eq, hsized.cols_eq]
  · rw [hsized.rows_eq, hsized.cols_eq]
    intro hrows hcols
    cases op with
    | resize rows cols =>
        exact synced_reformat h.wellFormed (fits_blank hrows hcols s.preferredRow)
    | _ => exact (h.synced hrows hcols).perform trivial

/-- The repaints of an operation can rely on their views. -/
theorem Presentable.ready_showings (h : s.Presentable) {op : SessionOp}
    (hrows : 0 < (s.canvas op).grid.rows) (hcols : 0 < (s.canvas op).grid.cols) :
    ∀ k ∈ s.showings op, k.Ready (s.canvas op).grid.rows (s.canvas op).grid.cols := by
  have hsized := h.sized
  cases op with
  | insertByte _ | insertChar _ | insertTab =>
      exact ready_typingShowings (h.synced hrows hcols) hsized _
  | deleteLeft => exact s.edits_deleteLeft.ready (h.synced hrows hcols) hsized
  | deleteRight => exact s.edits_deleteRight.ready (h.synced hrows hcols) hsized
  | moveLeft | moveRight | moveUp | moveDown | pageUp | pageDown | moveRowStart | moveRowEnd
  | moveDocumentStart | moveDocumentEnd | seek _ =>
      exact ready_moveTo (h.synced hrows hcols) hsized _
  | toggleSelection | find _ | replaceAll _ _ =>
      exact List.forall_mem_singleton.mpr ((h.synced hrows hcols).ready hsized .refresh)
  | copy | cut => exact (h.synced hrows hcols).ready_showingIf hsized fun _ => .refresh
  | queryReplace needle replacement decisions =>
      exact ready_queryReplace (h.synced hrows hcols) hsized needle replacement decisions
  | paste | openFile _ | insertFile _ | switchTo _ | cycle _ =>
      exact (h.synced hrows hcols).ready_showingIf hsized fun _ => .reformat
  | resize rows cols =>
      exact List.forall_mem_singleton.mpr (ready_firstShowing hrows hcols s.preferredRow)
  | save | saveAs _ _ | saveSelection _ | listDocuments | hasUnsavedChanges | takeAlert
  | setStatus _ | clearStatus => exact List.forall_mem_nil _

/-- **Painting never reads outside the text.**  A new session is painted inside, and wherever
operations lead from it, the next one is painted inside as well, if it paints on a screen of at
least one row and one column. -/
theorem paintedInside_course {options : SessionOptions} {storage : σ} {rows cols : Nat}
    (hcap : options.capacity < 2 ^ 32) (h : create options storage rows cols = .ok s)
    (ops : List SessionOp) :
    (0 < coordinate rows → 0 < coordinate cols → PaintedInside (Screen.blank rows cols) s.screen
      [s.firstShowing rows cols options.preferredRow]) ∧
    ∀ s' ∈ s.course ops, ∀ op, 0 < (s'.canvas op).grid.rows → 0 < (s'.canvas op).grid.cols →
      PaintedInside (s'.canvas op) (s'.perform op).screen (s'.showings op) := by
  refine ⟨?_, ?_⟩
  · intro hrows hcols
    exact .of_ready (screen_create h)
      (List.forall_mem_singleton.mpr (ready_firstShowing hrows hcols options.preferredRow))
  · have hops : s.Along (fun _ _ => True) ops := along_of_forall fun _ _ => trivial
    have hall := forall_mem_course (fun _ op hs _ => hs.perform op) (presentable_create hcap h) hops
    intro s' hs' op hrows hcols
    exact .of_ready (s'.screen_perform op) ((hall s' hs').ready_showings hrows hcols)

/-- Typing and selecting on a small screen and a smaller one.  Behind every operation the caret is
moved to the start; while something is selected this reads the cells of the rows on the way. -/
theorem paintedInside_course_selecting :
    let config := { Config.standard "" with segmentCapacity := 8, loadChunkSize := 4 }
    let ops : List SessionOp :=
      [.insertByte 97, .insertByte 10, .insertByte 98, .toggleSelection, .moveLeft, .moveLeft,
        .resize 1 2]
    config.complaint? = none ∧
      ∃ s : Session Memory, create config.sessionOptions Memory.empty 2 3 = .ok s ∧
        (s.course ops).map (fun s' => (s'.showings .moveDocumentStart).flatMap fun k =>
            k.strokes.flatMap Stroke.reads) = [[], [], [], [], [5, 7], [5, 7], [5], [5]] ∧
        PaintedInside (Screen.blank 2 3) s.screen [s.firstShowing 2 3 config.preferredRow] ∧
        ∀ s' ∈ s.course ops, PaintedInside s'.screen (s'.perform .moveDocumentStart).screen
          (s'.showings .moveDocumentStart) := by
  intro config ops
  have hnone : config.complaint? = none := by decide
  obtain ⟨s, hcreate, hreads, hsizes⟩ : ∃ s : Session Memory,
      create config.sessionOptions Memory.empty 2 3 = .ok s ∧
        (s.course ops).map (fun s' => (s'.showings .moveDocumentStart).flatMap fun k =>
            k.strokes.flatMap Stroke.reads) = [[], [], [], [], [5, 7], [5, 7], [5], [5]] ∧
        ∀ s' ∈ s.course ops, 0 < s'.screen.grid.rows ∧ 0 < s'.screen.grid.cols :=
    ⟨_, rfl, by decide +kernel, by decide +kernel⟩
  obtain ⟨hfirst, hcourse⟩ := paintedInside_course (capacity_sessionOptions_lt hnone) hcreate ops
  refine ⟨hnone, s, hcreate, hreads, hfirst (by decide) (by decide), fun s' hs' => ?_⟩
  exact hcourse s' hs' .moveDocumentStart (hsizes s' hs').1 (hsizes s' hs').2

/-- In segments of 2^32 bytes, which a configuration may not ask for, it does read outside.  The
listing finds the end of the gap written as 0 and drops the text, the rows keep their lengths, and
a motion that repaints the selected one reads its two bytes past the last cell. -/
theorem not_paintedInside_oversized :
    let config := { Config.standard "" with segmentCapacity := 2 ^ 32, segmentCount := 2 }
    let ops : List SessionOp :=
      [.insertByte 97, .insertByte 98, .toggleSelection, .listDocuments]
    config.complaint? = some "segment_capacity must fit in 32 bits" ∧
      ∃ s : Session Memory, create config.sessionOptions Memory.empty 2 4 = .ok s ∧
        ∃ s' ∈ s.course ops,
          (s'.showings (.seek 0)).flatMap (fun k => k.strokes.flatMap Stroke.reads)
            = [2 ^ 32, 2 ^ 32 + 1] ∧
          ¬ PaintedInside (s'.canvas (.seek 0)) (s'.perform (.seek 0)).screen
            (s'.showings (.seek 0)) := by
  intro config ops
  obtain ⟨s, hcreate, s', hs', hreads, hcapacity⟩ : ∃ s : Session Memory,
      create config.sessionOptions Memory.empty 2 4 = .ok s ∧
        ∃ s' ∈ s.course ops,
          (s'.showings (.seek 0)).flatMap (fun k => k.strokes.flatMap Stroke.reads)
            = [2 ^ 32, 2 ^ 32 + 1] ∧
          ∀ k ∈ s'.showings (.seek 0), ∀ stroke ∈ k.strokes, stroke.buffer.capacity = 2 ^ 32 :=
    ⟨_, rfl, _, List.mem_of_getElem? (i := 4) rfl, by decide +kernel, by decide +kernel⟩
  refine ⟨by decide, s, hcreate, s', hs', hreads, fun h => ?_⟩
  have hread : 2 ^ 32 ∈ (s'.showings (.seek 0)).flatMap fun k => k.strokes.flatMap Stroke.reads :=
    hreads ▸ List.mem_cons_self
  obtain ⟨k, hk, hread⟩ := List.mem_flatMap.mp hread
  obtain ⟨stroke, hstroke, hread⟩ := List.mem_flatMap.mp hread
  have hlt := ((h.inside k hk stroke hstroke).reads_text _ hread).1
  rw [hcapacity k hk stroke hstroke] at hlt
  exact Nat.lt_irrefl _ hlt

end Session
end ScreenEditor
