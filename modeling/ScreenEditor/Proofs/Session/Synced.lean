import ScreenEditor.Proofs.Search.Replace
import ScreenEditor.Proofs.Segment.Operations
import ScreenEditor.Proofs.View.Patch
import ScreenEditor.Session.Editing
import ScreenEditor.Session.Files
import ScreenEditor.Session.Motion
import ScreenEditor.Session.Query

/-!
# Sessions in step

A session is in step if its table is well-formed and its view and screen are in step with the active
text (`Session.Synced`).  Every operation keeps it so.  There are three ways to see that:

* an operation that shows everything again needs no more than a view of the right size;
* an operation on one byte, or a motion, patches a view that was in step;
* an operation that changes no text at hand leaves a view in step that was.
-/

namespace ScreenEditor

/-- What is worked out of a result was worked out of something. -/
theorem exists_of_map_ok {ε α β : Type} {f : α → β} {x : Except ε α} {b : β}
    (h : x.map f = .ok b) : ∃ a, x = .ok a ∧ f a = b := by
  cases x with
  | error e => cases h
  | ok a => exact ⟨a, rfl, Except.ok.inj h⟩

namespace Session

variable {σ : Type}

/-- **In step.**  The documents can be put away and taken out, and what is seen is the text at
hand. -/
structure Synced (s : Session σ) : Prop where
  wellFormed : s.table.WellFormed
  view : s.view.Synced s.screen.grid s.table.current.buffer

variable {s : Session σ}

/-! ## Showing -/

/-- What a repaint leaves in step is a session in step. -/
theorem synced_showWith (hwf : s.table.WellFormed) {f : View → GapBuffer → Repainted}
    (h : (f s.view s.table.current.buffer).InStep s.screen.grid s.table.current.buffer) :
    (s.showWith f).Synced := ⟨hwf, h⟩

/-- Showing the window again needs a view that fits the screen and no more. -/
theorem synced_refresh (hwf : s.table.WellFormed) (hfits : s.view.Fits s.screen.grid) :
    s.refresh.Synced := synced_showWith hwf (View.synced_refresh hfits)

/-- Nor does showing another window. -/
theorem synced_reformat (hwf : s.table.WellFormed) (hfits : s.view.Fits s.screen.grid) :
    s.reformat.Synced := synced_showWith hwf (View.synced_reformat hfits)

/-- A change that leaves the text at hand and its caret alone needs no painting. -/
theorem Synced.of_sameText {s' : Session σ} (h : s.Synced) (hwf : s'.table.WellFormed)
    (hcontent : s'.table.current.buffer.content = s.table.current.buffer.content)
    (hcaret : s'.table.current.buffer.caret = s.table.current.buffer.caret)
    (hview : s'.view = s.view) (hscreen : s'.screen = s.screen) : s'.Synced := by
  refine ⟨hwf, ?_⟩
  rw [hview, hscreen]
  exact h.view.congr hcontent hcaret

/-- An alert shows nothing. -/
theorem Synced.alert (h : s.Synced) : s.alert.Synced := ⟨h.wellFormed, h.view⟩

/-- The status line is not part of the text. -/
theorem Synced.setStatus (h : s.Synced) (text : String) : (s.setStatus text).Synced :=
  ⟨h.wellFormed, h.view⟩

/-! ## Bytes and questions one after the other -/

section Runs

variable {P : Session σ → Prop}

/-- Text is typed byte by byte, so what every byte keeps is kept. -/
theorem insertBytes_induction (hbyte : ∀ s, P s → ∀ byte, P (s.insertByte byte).2) (h : P s)
    (bytes : List UInt8) : P (s.insertBytes bytes).2 := by
  induction bytes generalizing s with
  | nil => exact h
  | cons byte rest ih =>
      have hnext := hbyte s h byte
      rw [insertBytes]
      split
      · next s' heq =>
        rw [heq] at hnext
        exact ih hnext
      · next s' heq =>
        rw [heq] at hnext
        exact hnext

/-- A tab is typed as blanks. -/
theorem insertBlanks_eq (s : Session σ) (n : Nat) :
    s.insertBlanks n = s.insertBytes (List.replicate n blankByte) := by
  induction n generalizing s with
  | zero => rfl
  | succ n ih =>
      rw [insertBlanks, List.replicate_succ, insertBytes]
      split
      · next s' heq => exact ih s'
      · rfl

/-- What every answer keeps holds at every question and at the end.  A question that is left without
an answer is as good as aborted. -/
theorem answerAll_induction (hanswer : ∀ s, P s → ∀ question decision,
      P (s.answer question decision).2) (h : P s) (question : Question)
    (decisions : List ReplaceDecision) : P (s.answerAll question decisions).2.1 ∧
      ∀ asked ∈ (s.answerAll question decisions).2.2, P asked := by
  induction decisions generalizing s question with
  | nil => exact ⟨hanswer s h question .abort, List.forall_mem_singleton.mpr h⟩
  | cons decision rest ih =>
      have hnext := hanswer s h question decision
      rw [answerAll]
      split
      · next outcome ended heq =>
        rw [heq] at hnext
        exact ⟨hnext, List.forall_mem_singleton.mpr h⟩
      · next question' shown heq =>
        rw [heq] at hnext
        obtain ⟨hended, hall⟩ := ih hnext question'
        exact ⟨hended, List.forall_mem_cons.mpr ⟨h, hall⟩⟩

/-- **A replace run** keeps what the first question and every answer keep. -/
theorem queryReplace_induction (hask : ∀ s, P s → ∀ run, P (s.askNext run).2)
    (hanswer : ∀ s, P s → ∀ question decision, P (s.answer question decision).2) (h : P s)
    (needle replacement : List UInt8) (decisions : List ReplaceDecision) :
    P (s.queryReplace needle replacement decisions).2.1 ∧
      ∀ asked ∈ (s.queryReplace needle replacement decisions).2.2, P asked := by
  have hbegin : P (s.beginQuery needle replacement).2 := hask s h _
  rw [queryReplace]
  split
  · next outcome ended heq =>
    rw [heq] at hbegin
    exact ⟨hbegin, List.forall_mem_nil _⟩
  · next question shown heq =>
    rw [heq] at hbegin
    exact answerAll_induction hanswer hbegin question decisions

end Runs

/-! ## Sizes -/

/-- A view made for a blank screen fits it. -/
theorem fits_blank {rows cols : Nat} (hrows : 0 < coordinate rows) (hcols : 0 < coordinate cols)
    (preferredRow : Nat) :
    (View.new (Screen.blank rows cols).grid.rows (Screen.blank rows cols).grid.cols
      preferredRow).Fits (Screen.blank rows cols).grid := by
  have hsized := Grid.sized_blank rows cols
  have hrows' : max (coordinate rows) 1 = coordinate rows := Nat.max_eq_left hrows
  have hcols' : max (coordinate cols) 1 = coordinate cols := Nat.max_eq_left hcols
  refine ⟨?_, Nat.le_max_right _ 1, Nat.le_max_right _ 1, ?_⟩
  · have hview : (Grid.blank rows cols).Sized (max (coordinate rows) 1)
        (max (coordinate cols) 1) := by rwa [hrows', hcols']
    exact hview
  · have hlt : min preferredRow (max (coordinate rows) 1 - 1) < max (coordinate rows) 1 := by omega
    exact hlt

/-- **A new session is in step.**  The configuration refuses capacities of 2³² bytes and more, which
the control blocks cannot address. -/
theorem synced_create {options : SessionOptions} {storage : σ} {rows cols : Nat}
    (hcap : options.capacity < 2 ^ 32) (hrows : 0 < coordinate rows)
    (hcols : 0 < coordinate cols) (h : create options storage rows cols = .ok s) : s.Synced := by
  obtain ⟨table, htable, rfl⟩ := exists_of_map_ok h
  exact synced_reformat (SegmentTable.wellFormed_ofLayout hcap htable)
    (fits_blank hrows hcols options.preferredRow)

/-- So is a session of another size. -/
theorem Synced.resize (h : s.Synced) {rows cols : Nat} (hrows : 0 < coordinate rows)
    (hcols : 0 < coordinate cols) : (s.resize rows cols).Synced :=
  synced_reformat h.wellFormed (fits_blank hrows hcols s.preferredRow)

/-! ## Typing and deleting -/

/-- A refusal shows the window again if the selection was shown. -/
theorem Synced.refuseEdit (h : s.Synced) (wasShown : Bool) : (s.refuseEdit wasShown).2.Synced := by
  cases wasShown with
  | true => exact (synced_refresh h.wellFormed h.view.fits).alert
  | false => exact h.alert

/-- An edit of one byte patches the view, or shows everything again if a selection was shown. -/
theorem Synced.finishEdit (h : s.Synced) {f : GapBuffer → GapBuffer}
    (hcap : (f s.table.current.buffer).capacity = s.table.current.buffer.capacity)
    {patch : View → GapBuffer → Repainted}
    (hpatch : (patch s.view (f s.table.current.buffer)).InStep s.screen.grid
      (f s.table.current.buffer)) (wasShown : Bool) :
    (Session.finishEdit { s with
      table := s.table.modifyBuffer f, selection := Selection.none } wasShown patch).2.Synced := by
  have hwf := h.wellFormed.modifyBuffer hcap
  have hmark := hwf.modifyCurrent (f := Document.markModified)
    ⟨hwf.current.capacity_eq, hwf.current.nameFits⟩
  cases wasShown with
  | true => exact synced_refresh hmark h.view.fits
  | false => exact synced_showWith hmark hpatch

/-- **Typing a byte** is patched into the rows from the caret on. -/
theorem Synced.insertByte (h : s.Synced) (byte : UInt8) : (s.insertByte byte).2.Synced := by
  have hdrop : Session.Synced { s with selection := Selection.none } := ⟨h.wellFormed, h.view⟩
  rw [Session.insertByte, dropSelection]
  simp only
  split
  · exact hdrop.refuseEdit _
  · next hroom =>
    have hmakes := GapBuffer.makes_insertAll (g := s.table.current.buffer) byte
      (Nat.pos_of_ne_zero hroom)
    exact h.finishEdit (f := (·.insertAll [byte])) (GapBuffer.capacity_insertAll _ [byte])
      (View.synced_afterInsert h.view hmakes) _

/-- Several bytes are patched in one after the other. -/
theorem Synced.insertBytes (h : s.Synced) (bytes : List UInt8) : (s.insertBytes bytes).2.Synced :=
  insertBytes_induction (fun _ hs byte => hs.insertByte byte) h bytes

/-- A tab stop is reached by typing blanks. -/
theorem Synced.insertBlanks (h : s.Synced) (n : Nat) : (s.insertBlanks n).2.Synced := by
  rw [insertBlanks_eq]
  exact h.insertBytes _

/-- **Deleting to the left** is patched from the row of the byte on. -/
theorem Synced.deleteLeft (h : s.Synced) : s.deleteLeft.2.Synced := by
  have hdrop : Session.Synced { s with selection := Selection.none } := ⟨h.wellFormed, h.view⟩
  rw [Session.deleteLeft, dropSelection]
  simp only
  split
  · exact hdrop.refuseEdit _
  · next b g hdelete =>
    obtain ⟨hmakes, hcaret⟩ := GapBuffer.makes_deleteLeft hdelete
    obtain ⟨-, -, hcap⟩ := GapBuffer.of_deleteLeft? hdelete
    exact h.finishEdit (f := fun _ => g) hcap
      (View.synced_afterDeleteLeft h.view hmakes hcaret) _

/-- **Deleting to the right** is patched from the caret on. -/
theorem Synced.deleteRight (h : s.Synced) : s.deleteRight.2.Synced := by
  have hdrop : Session.Synced { s with selection := Selection.none } := ⟨h.wellFormed, h.view⟩
  rw [Session.deleteRight, dropSelection]
  simp only
  split
  · exact hdrop.refuseEdit _
  · next b g hdelete =>
    have hmakes := GapBuffer.makes_deleteRight hdelete
    obtain ⟨-, -, hcap⟩ := GapBuffer.of_deleteRight? hdelete
    exact h.finishEdit (f := fun _ => g) hcap (View.synced_afterDeleteRight h.view hmakes) _

/-! ## Moving -/

/-- Every motion is a move to a target. -/
theorem Synced.moveTo (h : s.Synced) (target : Option Nat) : (s.moveTo target).2.Synced := by
  rw [Session.moveTo]
  split
  · exact h.alert
  · next offset hoffset =>
    have hwf := h.wellFormed.modifyBuffer (f := (·.seek offset)) (GapBuffer.capacity_seek _ offset)
    exact ⟨hwf, View.synced_afterMotion h.view (GapBuffer.content_seek _ offset)⟩

/-! ## Searching -/

/-- What a search leaves can still be put away, and fits the screen. -/
theorem fits_withSearched (h : s.Synced) {found : Searched}
    (hcap : found.buffer.capacity = s.table.current.buffer.capacity) :
    (s.withSearched found).table.WellFormed ∧
      (s.withSearched found).view.Fits (s.withSearched found).screen.grid :=
  ⟨h.wellFormed.modifyBuffer (f := fun _ => found.buffer) hcap, h.view.fits⟩

/-- Whatever a search came to, everything is shown again. -/
theorem synced_reportSearch (hwf : s.table.WellFormed) (hfits : s.view.Fits s.screen.grid)
    (outcome : SearchOutcome) : (s.reportSearch outcome).Synced := by
  have hmark := hwf.modifyCurrent (f := Document.markModified)
    ⟨hwf.current.capacity_eq, hwf.current.nameFits⟩
  cases outcome with
  | notFound => exact synced_refresh hwf hfits
  | found offset wrapped =>
      cases wrapped with
      | true => exact synced_refresh hwf hfits
      | false => exact synced_refresh hwf hfits
  | finished summary =>
      apply synced_refresh
      · simp only
        split <;> split
        · exact hwf
        · exact hmark
        · exact hwf
        · exact hmark
      · simp only
        split <;> split <;> exact hfits

/-- **A search** shows the window again, or one around the match. -/
theorem Synced.find (h : s.Synced) (needle : List UInt8) : (s.find needle).2.Synced := by
  obtain ⟨hwf, hfits⟩ := fits_withSearched h (Searched.capacity_search s.searched needle)
  exact synced_reportSearch hwf hfits _

/-- **A run without questions** shows what it made of the text. -/
theorem Synced.replaceAll (h : s.Synced) (needle replacement : List UInt8) :
    (s.replaceAll needle replacement).2.Synced := by
  obtain ⟨hwf, hfits⟩ := fits_withSearched h
    (Searched.capacity_replaceAll s.searched needle replacement)
  exact synced_reportSearch hwf hfits _

/-- A question shows the match that it asks about. -/
theorem synced_askNext (hwf : s.table.WellFormed) (hfits : s.view.Fits s.screen.grid)
    (run : ReplaceRun) : (s.askNext run).2.Synced := by
  rw [askNext]
  split
  · next offer hoffer =>
    have hcap := ReplaceRun.capacity_offer? hoffer
    have hwf' := hwf.modifyBuffer (f := fun _ => offer.shown.buffer) hcap
    exact synced_refresh hwf' hfits
  · exact synced_reportSearch hwf hfits _

/-- Every answer leaves the session in step, at the next question or at the end of the run. -/
theorem Synced.answer (h : s.Synced) (question : Question) (decision : ReplaceDecision) :
    (s.answer question decision).2.Synced := by
  have hcap := ReplaceRun.capacity_answer question.run s.searched question.offset decision
  rw [Session.answer]
  split
  · next run found heq =>
    rw [heq] at hcap
    obtain ⟨hwf, hfits⟩ := fits_withSearched h hcap
    exact synced_askNext hwf hfits run
  · next run found heq =>
    rw [heq] at hcap
    obtain ⟨hwf, hfits⟩ := fits_withSearched h hcap
    exact synced_reportSearch hwf hfits _

/-- **Replacing with questions is in step at every question and at the end.** -/
theorem Synced.queryReplace (h : s.Synced) (needle replacement : List UInt8)
    (decisions : List ReplaceDecision) :
    (s.queryReplace needle replacement decisions).2.1.Synced ∧
      ∀ asked ∈ (s.queryReplace needle replacement decisions).2.2, asked.Synced :=
  queryReplace_induction (fun _ hs run => synced_askNext hs.wellFormed hs.view.fits run)
    (fun _ hs question decision => hs.answer question decision) h needle replacement decisions

/-! ## Selection and documents -/

/-- Beginning or freezing a selection changes no text. -/
theorem Synced.toggleSelection (h : s.Synced) : s.toggleSelection.Synced :=
  synced_refresh h.wellFormed h.view.fits

/-- **Another document** is shown in a window of its own. -/
theorem Synced.switchTo (h : s.Synced) (id : Nat) : (s.switchTo id).2.Synced := by
  rw [Session.switchTo]
  split
  · exact h
  · next table hactivate =>
    have hwf : table.WellFormed := by
      rw [SegmentTable.activate] at hactivate
      split at hactivate
      · obtain rfl := Except.ok.inj hactivate
        exact h.wellFormed.switch id
      · cases hactivate
    exact synced_reformat hwf h.view.fits

/-- Listing the documents makes one after the other active, and the first one again. -/
theorem Synced.listDocuments (h : s.Synced) : s.listDocuments.2.Synced := by
  obtain ⟨-, hagrees, hactive⟩ := SegmentTable.list_spec h.wellFormed
  have hcurrent := hagrees.current_eq hactive
  exact h.of_sameText hagrees.wellFormed
    (congrArg (fun d : Document => d.buffer.content) hcurrent)
    (congrArg (fun d : Document => d.buffer.caret) hcurrent) rfl rfl

end Session
end ScreenEditor
