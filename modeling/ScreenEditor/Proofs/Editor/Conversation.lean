import ScreenEditor.Editor.Run
import ScreenEditor.Proofs.Session.SameFile
import ScreenEditor.Proofs.Transfer.Saving

/-!
# The conversation about saving

A Save-as prompt may name a file that is there already and is not the document's own.  The editor
then puts a question, and the user agrees to overwrite the file or declines.  `Editor.exchanges` is
what an event adds to this conversation, the saves themselves included.

A save is told of whether it succeeds or not; one that is put off is not.  Switching to another
document is part of the conversation because it puts an end to what was said before.

## Main results

* `Editor.asksToSave_of_saved`: a document is saved only when that is asked for.
* `Editor.storage_handle`: when it is asked for, the conversation tells what becomes of the storage.
-/

namespace ScreenEditor

/-- A part of the conversation about saving. -/
inductive Exchange where
  /-- A Save-as prompt was answered by a name. -/
  | named (name : String)
  /-- The question whether to overwrite a file was answered by yes. -/
  | agreed (name : String)
  /-- The question was answered by anything else, or taken back. -/
  | declined (name : String)
  /-- The document was saved under a name. -/
  | saved (name : String)
  /-- A document was made active. -/
  | switched
  deriving DecidableEq, Repr

namespace Editor

variable {σ : Type} [Storage σ] {e : Editor σ}

/-! ## Exchanges -/

/-- A save under a name, unless it is put off. -/
def saveExchanges (s : Session σ) (name : String) : List Exchange :=
  if s.PutsOff name false then [] else [.saved name]

/-- A switch that came to the given result. -/
def switchExchanges (result : Except EditorError Unit) : List Exchange :=
  if result.isOk then [.switched] else []

/-- What an action adds to the conversation. -/
def actionExchanges (s : Session σ) : Action → List Exchange
  | .save =>
    if s.document.header.name = "" then [] else [.saved s.document.header.name]
  | .nextDocument => switchExchanges (s.cycle true).1
  | .previousDocument => switchExchanges (s.cycle false).1
  | _ => []

/-- What the answer to a prompt adds. -/
def answerExchanges (s : Session σ) (text : String) : PromptPurpose → List Exchange
  | .saveAs => saveExchanges s text ++ [.named text]
  | .confirmOverwrite name =>
    if saysYes text then saveExchanges s name ++ [.agreed name] else [.declined name]
  | .switchDocument =>
    match segmentNumber? (trimBlanks text.toList) with
    | some id => switchExchanges (s.switchTo id).1
    | none => []
  | _ => []

/-- What a prompt adds that is taken back. -/
def cancelExchanges : PromptPurpose → List Exchange
  | .confirmOverwrite name => [.declined name]
  | _ => []

/-- What an event adds to the conversation, the latest part first. -/
def exchanges (e : Editor σ) : Event → List Exchange
  | .press press =>
    match e.mode with
    | .editing =>
      match e.keymap.resolve press with
      | some action => actionExchanges e.session.clearStatus action
      | none => []
    | .prompting prompt =>
      if cancels press then cancelExchanges prompt.purpose
      else if press.code = .enter then answerExchanges e.session prompt.text prompt.purpose
      else []
    | .asking .. => []
  | _ => []

/-- A key that is bound says what its action does. -/
theorem exchanges_editing {key : KeyPress} {action : Action} (hmode : e.mode = .editing)
    (hkey : e.keymap.resolve key = some action) :
    e.exchanges (.press key) = actionExchanges e.session.clearStatus action := by
  simp only [exchanges, hmode, hkey]

/-- The enter key gives the answer that stands in the prompt. -/
theorem exchanges_enter {key : KeyPress} {prompt : Prompt} (hmode : e.mode = .prompting prompt)
    (hgoes : cancels key = false) (henter : key.code = .enter) :
    e.exchanges (.press key) = answerExchanges e.session prompt.text prompt.purpose := by
  simp only [exchanges, hmode, hgoes, if_pos henter, Bool.false_eq_true, if_false]

/-- The event asks for the document to be saved: by the command, by a name, or by an answer to the
question whether to overwrite. -/
def AsksToSave (e : Editor σ) : Event → Prop
  | .press press =>
    match e.mode with
    | .editing => e.keymap.resolve press = some .save
    | .prompting prompt => cancels press = false ∧ press.code = .enter ∧
        (prompt.purpose = .saveAs ∨ ∃ name, prompt.purpose = .confirmOverwrite name)
    | .asking .. => False
  | _ => False

/-- The storage that exchanges say there is after them: that of the save that came last. -/
def storageAfter (s : Session σ) : List Exchange → σ
  | .saved name :: _ => (s.table.save s.storage name none s.transfer).2.2
  | _ => s.storage

/-! ## Saving -/

omit [Storage σ] in
/-- A report changes no file. -/
theorem storage_report {α : Type} (e : Editor σ) (result : Except EditorError α × Session σ) :
    (e.report result).session.storage = result.2.storage := by
  rw [report]
  split <;> rfl

/-- A save that fails never asks for leave to overwrite: it says which file failed. -/
theorem saveAs_of_not_putsOff {name : String} (h : ¬ e.session.PutsOff name false) :
    e.saveAs name = e.report (e.session.saveAs name false) := by
  obtain ⟨status, hsaved⟩ := Session.saveAs_of_not_putsOff h
  rw [saveAs]
  split
  · next asked s heq =>
    rw [hsaved] at heq
    have hfile := fileName?_of_save_error (congrArg Prod.fst heq)
    cases hfile
  · rfl

theorem saveAs_of_putsOff {name : String} (h : e.session.PutsOff name false) :
    e.saveAs name = { e with session := (e.session.saveAs name false).2 }.ask
      (name ++ " exists. Overwrite? (y/n) ") (.confirmOverwrite name) "" := by
  rw [saveAs, Session.saveAs_of_putsOff h]

/-- A document without a name is asked for one. -/
theorem save_of_unnamed (h : e.session.document.header.name = "") :
    e.save = e.ask "Save as: " .saveAs "" := by
  rw [save, Session.save_of_unnamed h]

/-- A document with a name is saved without a question. -/
theorem save_of_named (h : e.session.document.header.name ≠ "") :
    e.save = e.report (e.session.saveAs e.session.document.header.name true) := by
  obtain ⟨status, hsaved⟩ := Session.saveAs_of_not_putsOff
    (e.session.not_putsOff_forced e.session.document.header.name)
  rw [save, Session.save_of_named h]
  split
  · next s heq =>
    rw [hsaved] at heq
    have hfile := fileName?_of_save_error (congrArg Prod.fst heq)
    cases hfile
  · rfl

/-- The files behind a save are those that its exchanges tell. -/
theorem storage_save (e : Editor σ) :
    e.save.session.storage = storageAfter e.session (actionExchanges e.session .save) := by
  rw [actionExchanges]
  split
  · next hunnamed =>
    rw [save_of_unnamed hunnamed]
    rfl
  · next hnamed =>
    obtain ⟨status, hsaved⟩ := Session.saveAs_of_not_putsOff
      (e.session.not_putsOff_forced e.session.document.header.name)
    rw [save_of_named hnamed, storage_report, hsaved]
    rfl

/-- So are those behind a save under another name. -/
theorem storage_saveAs (name : String) :
    (e.saveAs name).session.storage
      = storageAfter e.session (saveExchanges e.session name ++ [.named name]) := by
  rw [saveExchanges]
  split
  · next hputs =>
    rw [saveAs_of_putsOff hputs, Session.saveAs_of_putsOff hputs]
    rfl
  · next hgoes =>
    obtain ⟨status, hsaved⟩ := Session.saveAs_of_not_putsOff hgoes
    rw [saveAs_of_not_putsOff hgoes, storage_report, hsaved]
    rfl

/-- The answer to the question whether to overwrite a file. -/
theorem storage_overwrite (name text : String) :
    (e.confirm (.confirmOverwrite name) text).session.storage
      = storageAfter e.session (answerExchanges e.session text (.confirmOverwrite name)) := by
  rw [confirm, answerExchanges, saveExchanges]
  split
  · rw [storage_report]
    split
    · next hputs =>
      rw [Session.saveAs_of_putsOff hputs]
      rfl
    · next hgoes =>
      obtain ⟨status, hsaved⟩ := Session.saveAs_of_not_putsOff hgoes
      rw [hsaved]
      rfl
  · rfl

/-- **The conversation tells of every save of a document.**  When a save is asked for, the storage
becomes what the exchanges say. -/
theorem storage_handle {event : Event} (h : e.AsksToSave event) :
    (e.handle event).session.storage = storageAfter e.session (e.exchanges event) := by
  cases event with
  | press key =>
      cases hmode : e.mode with
      | editing =>
          simp only [AsksToSave, hmode] at h
          rw [exchanges_editing hmode h]
          simp only [handle, press, pressWhileEditing, hmode, h]
          exact storage_save { e with session := e.session.clearStatus, mode := .editing }
      | prompting prompt =>
          simp only [AsksToSave, hmode] at h
          obtain ⟨hgoes, henter, hpurpose⟩ := h
          rw [exchanges_enter hmode hgoes henter]
          simp only [handle, press, pressAtPrompt, hmode, hgoes, if_pos henter]
          rcases hpurpose with hpurpose | ⟨name, hpurpose⟩
          · rw [hpurpose]
            exact storage_saveAs prompt.text
          · rw [hpurpose]
            exact storage_overwrite name prompt.text
      | asking question text =>
          simp only [AsksToSave, hmode] at h
  | release key => exact h.elim
  | resize rows cols => exact h.elim
  | paste text => exact h.elim

/-- To switch saves nothing. -/
theorem not_saved_mem_switchExchanges {result : Except EditorError Unit} {name : String} :
    .saved name ∉ switchExchanges result := by
  rw [switchExchanges]
  split <;> simp

/-- Nor does taking a question back. -/
theorem not_saved_mem_cancelExchanges {purpose : PromptPurpose} {name : String} :
    .saved name ∉ cancelExchanges purpose := by
  cases purpose <;> simp [cancelExchanges]

omit [Storage σ] in
/-- Of all actions only a save saves at once. -/
theorem eq_save_of_saved_mem {s : Session σ} {action : Action} {name : String}
    (h : .saved name ∈ actionExchanges s action) : action = .save := by
  cases action with
  | save => rfl
  | nextDocument => exact (not_saved_mem_switchExchanges h).elim
  | previousDocument => exact (not_saved_mem_switchExchanges h).elim
  | _ => cases h

omit [Storage σ] in
/-- The command to save goes by the own name. -/
theorem eq_own_of_saved_mem {s : Session σ} {action : Action} {name : String}
    (h : .saved name ∈ actionExchanges s action) : name = s.document.header.name := by
  obtain rfl := eq_save_of_saved_mem h
  rw [actionExchanges] at h
  split at h
  · cases h
  · exact Exchange.saved.inj (List.mem_singleton.mp h)

/-- An answer saves if it was a name to save under, or a yes to overwriting. -/
theorem purpose_of_saved_mem {s : Session σ} {text : String} {purpose : PromptPurpose}
    {name : String} (h : .saved name ∈ answerExchanges s text purpose) :
    purpose = .saveAs ∨ ∃ other, purpose = .confirmOverwrite other := by
  cases purpose with
  | saveAs => exact .inl rfl
  | confirmOverwrite other => exact .inr ⟨other, rfl⟩
  | switchDocument =>
      rw [answerExchanges] at h
      split at h
      · exact (not_saved_mem_switchExchanges h).elim
      · cases h
  | _ => cases h

/-- A document is saved only when that is asked for. -/
theorem asksToSave_of_saved {event : Event} {name : String} (h : .saved name ∈ e.exchanges event) :
    e.AsksToSave event := by
  cases event with
  | press key =>
      cases hmode : e.mode with
      | editing =>
          simp only [exchanges, hmode] at h
          simp only [AsksToSave, hmode]
          split at h
          · next action hkey => exact hkey.trans (congrArg some (eq_save_of_saved_mem h))
          · cases h
      | prompting prompt =>
          simp only [exchanges, hmode] at h
          simp only [AsksToSave, hmode]
          split at h
          · exact (not_saved_mem_cancelExchanges h).elim
          · next hgoes =>
            split at h
            · next henter =>
              exact ⟨Bool.eq_false_iff.mpr hgoes, henter, purpose_of_saved_mem h⟩
            · cases h
      | asking question text =>
          simp only [exchanges, hmode] at h
          cases h
  | release key => cases h
  | resize rows cols => cases h
  | paste text => cases h

end Editor
end ScreenEditor
