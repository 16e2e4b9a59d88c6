import ScreenEditor.Config.Basic
import ScreenEditor.Proofs.Session.Files
import ScreenEditor.Storage.Memory

/-!
# The course of a session

`SessionOp` lists what a front end can ask of a session, and `course` is the sessions that a list of
operations leads through.  Each operation keeps a session in step (`Session.Synced.perform`), so a
session is in step all along its course.

To be in step is said here as a user would see it (`Session.InStep`): the screen and the view are
those that a view that was not used before shows of the same text from the same start.

## Main results

* `Session.Synced.perform`: one operation.
* `Session.inStep_course`: every course of a new session.
-/

namespace ScreenEditor

namespace Session

variable {σ : Type}

/-! ## What is seen -/

/-- The text at hand shown by a view that was not used before, on a blank grid of the same size and
from the same start. -/
def shownAfresh (s : Session σ) (preferredRow : Nat) : View × Grid :=
  let (view, paints) := (View.new s.screen.grid.rows s.screen.grid.cols preferredRow).redrawAt
    s.buffer none s.view.windowStart
  (view, (Grid.blank s.screen.grid.rows s.screen.grid.cols).paintAll paints)

/-- The screen and the view of the session are as if shown afresh; the caret is on the screen. -/
structure InStep (s : Session σ) : Prop where
  lines : ∀ preferredRow, s.screen.grid.lines = (s.shownAfresh preferredRow).2.lines
  lengths : ∀ preferredRow,
    s.view.layout.map Row.length = (s.shownAfresh preferredRow).1.layout.map Row.length
  cursor : ∀ preferredRow, s.view.cursor = (s.shownAfresh preferredRow).1.cursor
  start_le : s.view.windowStart ≤ s.buffer.length
  row_lt : s.view.cursor.1 < s.screen.grid.rows
  screen_cursor : s.screen.grid.cursor = s.view.cursor

/-- What is in step is seen to be so. -/
theorem Synced.inStep {s : Session σ} (h : s.Synced) : s.InStep := by
  have hsized := h.view.fits.sized
  have hfresh := fun preferredRow => h.view.eq_fresh preferredRow none
  rw [← hsized.rows_eq, ← hsized.cols_eq] at hfresh
  have hrow : s.view.cursor.1 < s.view.rows := (h.view.laidOut.standsAt h.view.locate_eq).1
  refine ⟨?_, ?_, ?_, h.view.laidOut.start_le, ?_, h.view.cursor_eq⟩
  · exact fun preferredRow => (hfresh preferredRow).1
  · exact fun preferredRow => congrArg (List.map Row.length) (hfresh preferredRow).2.1
  · exact fun preferredRow => (hfresh preferredRow).2.2
  · rwa [hsized.rows_eq]

end Session

/-! ## Operations -/

/-- What a front end can ask of a session.  Questions of a replace run are answered from a list, and
the run is aborted at the first question past its end. -/
inductive SessionOp where
  | insertByte (byte : UInt8)
  | insertChar (c : Char)
  | insertTab
  | deleteLeft
  | deleteRight
  | moveLeft
  | moveRight
  | moveUp
  | moveDown
  | pageUp
  | pageDown
  | moveRowStart
  | moveRowEnd
  | moveDocumentStart
  | moveDocumentEnd
  | seek (offset : Nat)
  | toggleSelection
  | copy
  | cut
  | paste
  | find (needle : List UInt8)
  | replaceAll (needle replacement : List UInt8)
  | queryReplace (needle replacement : List UInt8) (decisions : List ReplaceDecision)
  | openFile (name : String)
  | insertFile (name : String)
  | save
  | saveAs (name : String) (force : Bool)
  | saveSelection (name : String)
  | switchTo (id : Nat)
  | cycle (forward : Bool)
  | listDocuments
  | hasUnsavedChanges
  | resize (rows cols : Nat)
  | takeAlert
  | setStatus (text : String)
  | clearStatus

/-- A screen is resized to at least one row and one column. -/
def SessionOp.Sized : SessionOp → Prop
  | .resize rows cols => 0 < coordinate rows ∧ 0 < coordinate cols
  | _ => True

instance : DecidablePred SessionOp.Sized := fun op => by
  cases op <;> first | exact isTrue trivial | exact inferInstanceAs (Decidable (_ ∧ _))

namespace Session

variable {σ : Type} [Storage σ] {s : Session σ}

/-- The session after an operation, whatever that answered. -/
def perform (s : Session σ) : SessionOp → Session σ
  | .insertByte byte => (s.insertByte byte).2
  | .insertChar c => (s.insertChar c).2
  | .insertTab => s.insertTab.2
  | .deleteLeft => s.deleteLeft.2
  | .deleteRight => s.deleteRight.2
  | .moveLeft => s.moveLeft.2
  | .moveRight => s.moveRight.2
  | .moveUp => s.moveUp.2
  | .moveDown => s.moveDown.2
  | .pageUp => s.pageUp.2
  | .pageDown => s.pageDown.2
  | .moveRowStart => s.moveRowStart.2
  | .moveRowEnd => s.moveRowEnd.2
  | .moveDocumentStart => s.moveDocumentStart.2
  | .moveDocumentEnd => s.moveDocumentEnd.2
  | .seek offset => (s.seek offset).2
  | .toggleSelection => s.toggleSelection
  | .copy => s.copy.2
  | .cut => s.cut.2
  | .paste => s.paste.2
  | .find needle => (s.find needle).2
  | .replaceAll needle replacement => (s.replaceAll needle replacement).2
  | .queryReplace needle replacement decisions =>
      (s.queryReplace needle replacement decisions).2.1
  | .openFile name => (s.openFile name).2
  | .insertFile name => (s.insertFile name).2
  | .save => s.save.2
  | .saveAs name force => (s.saveAs name force).2
  | .saveSelection name => (s.saveSelection name).2
  | .switchTo id => (s.switchTo id).2
  | .cycle forward => (s.cycle forward).2
  | .listDocuments => s.listDocuments.2
  | .hasUnsavedChanges => s.hasUnsavedChanges.2
  | .resize rows cols => s.resize rows cols
  | .takeAlert => s.takeAlert.2
  | .setStatus text => s.setStatus text
  | .clearStatus => s.clearStatus

/-- The sessions that operations lead through, the first and the last included. -/
def course (s : Session σ) : List SessionOp → List (Session σ)
  | [] => [s]
  | op :: ops => s :: (s.perform op).course ops

/-- A condition on every operation of a course, at the session that the operation finds. -/
def Along (P : Session σ → SessionOp → Prop) : Session σ → List SessionOp → Prop
  | _, [] => True
  | s, op :: ops => P s op ∧ Along P (s.perform op) ops

instance decidableAlong {P : Session σ → SessionOp → Prop} [∀ s op, Decidable (P s op)] :
    ∀ (s : Session σ) (ops : List SessionOp), Decidable (Along P s ops)
  | _, [] => isTrue trivial
  | s, op :: ops =>
      have := decidableAlong (P := P) (s.perform op) ops
      inferInstanceAs (Decidable (P s op ∧ Along P (s.perform op) ops))

/-- A condition on the operations alone. -/
theorem along_of_forall {P : SessionOp → Prop} {ops : List SessionOp} (h : ∀ op ∈ ops, P op) :
    Along (fun _ op => P op) s ops := by
  induction ops generalizing s with
  | nil => trivial
  | cons op ops ih =>
      exact ⟨h op List.mem_cons_self, ih fun op' hop' => h op' (List.mem_cons_of_mem op hop')⟩

/-- **What every operation keeps holds all along a course**, if the operations meet the condition
under which they keep it. -/
theorem forall_mem_course {P : Session σ → SessionOp → Prop} {Inv : Session σ → Prop}
    (hstep : ∀ s op, Inv s → P s op → Inv (s.perform op)) {ops : List SessionOp} (h : Inv s)
    (hops : Along P s ops) : ∀ s' ∈ s.course ops, Inv s' := by
  induction ops generalizing s with
  | nil =>
      intro s' hs'
      obtain rfl := List.mem_singleton.mp hs'
      exact h
  | cons op ops ih =>
      intro s' hs'
      rcases List.mem_cons.mp hs' with rfl | hs'
      · exact h
      · exact ih (hstep s op h hops.1) hops.2 s' hs'

/-- The sessions of a course, each with what is remembered of the operations before it. -/
def courseWith {α : Type} (remember : α → Session σ → SessionOp → α) (memory : α) (s : Session σ) :
    List SessionOp → List (Session σ × α)
  | [] => [(s, memory)]
  | op :: ops => (s, memory) :: (s.perform op).courseWith remember (remember memory s op) ops

theorem map_fst_courseWith {α : Type} (remember : α → Session σ → SessionOp → α) (memory : α)
    (s : Session σ) (ops : List SessionOp) :
    (s.courseWith remember memory ops).map Prod.fst = s.course ops := by
  induction ops generalizing s memory with
  | nil => rfl
  | cons op ops ih => rw [courseWith, List.map_cons, ih, course]

/-- What every operation keeps, of a session and of what is remembered, holds all along a course. -/
theorem forall_mem_courseWith {α : Type} {remember : α → Session σ → SessionOp → α}
    {P : Session σ → SessionOp → Prop} {Inv : Session σ → α → Prop}
    (hstep : ∀ s memory op, Inv s memory → P s op → Inv (s.perform op) (remember memory s op))
    {memory : α} {ops : List SessionOp} (h : Inv s memory) (hops : Along P s ops) :
    ∀ p ∈ s.courseWith remember memory ops, Inv p.1 p.2 := by
  induction ops generalizing s memory with
  | nil =>
      intro p hp
      obtain rfl := List.mem_singleton.mp hp
      exact h
  | cons op ops ih =>
      intro p hp
      rcases List.mem_cons.mp hp with rfl | hp
      · exact h
      · exact ih (hstep s memory op h hops.1) hops.2 p hp

/-! ## Step and run -/

/-- **Every operation keeps a session in step.** -/
theorem Synced.perform (h : s.Synced) {op : SessionOp} (hop : op.Sized) :
    (s.perform op).Synced := by
  cases op with
  | insertByte byte => exact h.insertByte byte
  | insertChar c => exact h.insertBytes (String.utf8EncodeChar c)
  | insertTab => exact h.insertBlanks _
  | deleteLeft => exact h.deleteLeft
  | deleteRight => exact h.deleteRight
  | moveLeft => exact h.moveTo _
  | moveRight => exact h.moveTo _
  | moveUp => exact h.moveTo _
  | moveDown => exact h.moveTo _
  | pageUp => exact h.moveTo _
  | pageDown => exact h.moveTo _
  | moveRowStart => exact h.moveTo _
  | moveRowEnd => exact h.moveTo _
  | moveDocumentStart => exact h.moveTo _
  | moveDocumentEnd => exact h.moveTo _
  | seek offset => exact h.moveTo _
  | toggleSelection => exact h.toggleSelection
  | copy => exact h.copy
  | cut => exact h.cut
  | paste => exact h.insertFile s.clipboardFile
  | find needle => exact h.find needle
  | replaceAll needle replacement => exact h.replaceAll needle replacement
  | queryReplace needle replacement decisions =>
      exact (h.queryReplace needle replacement decisions).1
  | openFile name => exact h.openFile name
  | insertFile name => exact h.insertFile name
  | save => exact h.save
  | saveAs name force => exact h.saveAs name force
  | saveSelection name => exact h.saveSelection name
  | switchTo id => exact h.switchTo id
  | cycle forward => exact h.switchTo (s.neighbour forward)
  | listDocuments => exact h.listDocuments
  | hasUnsavedChanges => exact h.listDocuments
  | resize rows cols => exact h.resize hop.1 hop.2
  | takeAlert => exact ⟨h.wellFormed, h.view⟩
  | setStatus text => exact h.setStatus text
  | clearStatus => exact ⟨h.wellFormed, h.view⟩

/-- So does a course of operations. -/
theorem Synced.course (h : s.Synced) {ops : List SessionOp} (hops : ∀ op ∈ ops, op.Sized) :
    ∀ s' ∈ s.course ops, s'.Synced :=
  forall_mem_course (fun _ _ hs hop => hs.perform hop) h (along_of_forall hops)

/-- Options that nothing is wrong with ask for segments that control blocks can address. -/
theorem capacity_sessionOptions_lt {c : Config} (h : c.complaint? = none) :
    c.sessionOptions.capacity < 2 ^ 32 := by
  rw [Config.complaint?] at h
  rcases Nat.lt_or_ge c.segmentCapacity (2 ^ 32) with hlt | hge
  · exact hlt
  · have hge' : Nat.pow 2 32 ≤ c.segmentCapacity := hge
    rw [if_pos hge'] at h
    split at h
    · cases h
    · split at h
      · cases h
      · split at h
        · cases h
        · cases h

/-- **A session is in step all along its course**, on a screen of at least one row and one column.
The bound on the capacity is the one that the configuration is checked for
(`capacity_sessionOptions_lt`). -/
theorem inStep_course {options : SessionOptions} {storage : σ} {rows cols : Nat}
    {ops : List SessionOp} (hcap : options.capacity < 2 ^ 32) (hrows : 0 < coordinate rows)
    (hcols : 0 < coordinate cols) (hops : ∀ op ∈ ops, op.Sized)
    (h : create options storage rows cols = .ok s) : ∀ s' ∈ s.course ops, s'.InStep := by
  intro s' hs'
  exact ((synced_create hcap hrows hcols h).course hops s' hs').inStep

/-- Typing, deleting and resizing on a small screen, with segments of eight bytes. -/
theorem inStep_course_typing :
    let config := { Config.standard "" with segmentCapacity := 8, loadChunkSize := 4 }
    let ops : List SessionOp :=
      [.insertByte 97, .insertByte 10, .insertByte 98, .seek 1, .deleteLeft, .resize 1 2]
    config.complaint? = none ∧
      ∃ s : Session Memory, create config.sessionOptions Memory.empty 2 3 = .ok s ∧
        (s.course ops).map (fun s' => s'.buffer.content)
          = [[], [97], [97, 10], [97, 10, 98], [97, 10, 98], [10, 98], [10, 98]] ∧
        ∀ s' ∈ s.course ops, s'.InStep := by
  intro config ops
  have hnone : config.complaint? = none := by decide
  have hcreate : create config.sessionOptions Memory.empty 2 3 = .ok _ := rfl
  have hsized : ∀ op ∈ ops, op.Sized := by simp [ops, SessionOp.Sized, coordinate]
  exact ⟨hnone, _, hcreate, by decide +kernel,
    inStep_course (capacity_sessionOptions_lt hnone) (by decide) (by decide) hsized hcreate⟩

/-- In segments of 2^32 bytes, which a configuration may not ask for, a listing drops the text at
hand: its gap ends at 2^32, of which the control block keeps 0.  Nothing is shown again, so the
cursor stays behind a text that is gone. -/
theorem not_inStep_oversized :
    let config := { Config.standard "" with segmentCapacity := 2 ^ 32, segmentCount := 2 }
    let ops : List SessionOp := [.insertByte 97, .insertByte 98, .listDocuments]
    config.complaint? = some "segment_capacity must fit in 32 bits" ∧
      ∃ s : Session Memory, create config.sessionOptions Memory.empty 2 4 = .ok s ∧
        ∃ s' ∈ s.course ops, s'.buffer.content = [] ∧ s'.view.cursor = (0, 2) ∧ ¬ s'.InStep := by
  intro config ops
  obtain ⟨s, hcreate, s', hs', hcontent, hcursor, hfresh⟩ : ∃ s : Session Memory,
      create config.sessionOptions Memory.empty 2 4 = .ok s ∧
        ∃ s' ∈ s.course ops, s'.buffer.content = [] ∧ s'.view.cursor = (0, 2) ∧
          (s'.shownAfresh 0).1.cursor = (0, 0) :=
    ⟨_, rfl, _, List.mem_of_getElem? (i := 3) rfl, by decide +kernel, by decide +kernel,
      by decide +kernel⟩
  refine ⟨by decide, s, hcreate, s', hs', hcontent, hcursor, fun h => ?_⟩
  have hsame := h.cursor 0
  rw [hcursor, hfresh] at hsame
  cases hsame

end Session
end ScreenEditor
