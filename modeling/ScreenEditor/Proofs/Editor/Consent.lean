import ScreenEditor.Proofs.Editor.Conversation
import ScreenEditor.Storage.Memory

/-!
# Consent to overwriting

Whether the user agreed to overwrite a file, after it was last named, can be read off the
conversation (`Consented`).  The editor goes by something else: the session keeps the name that it
asked about, and does not put off a save under that name again.  Only a save and a switch to another
document forget the name; declining does not (`Editor.Dialogue`).

So a file is overwritten without consent just when it is named again right after the user declined
to overwrite it.

## Main results

* `Editor.Dialogue.handle`: what one event leaves of the name that the session keeps.
* `Editor.events_moments`: the moments of a run are the events that it reads.
* `Editor.dialogue_of_mem_moments`: what is left of it all along a run.
* `Editor.consents_iff_of_writesOver`: which overwriting saves the user consented to.
-/

namespace ScreenEditor

/-- In a conversation, the latest part first, the user agreed to overwrite a file, and neither named
it nor declined since. -/
def Consented (name : String) : List Exchange → Prop
  | [] => False
  | .agreed other :: older => other = name ∨ Consented name older
  | .named other :: older => other ≠ name ∧ Consented name older
  | .declined other :: older => other ≠ name ∧ Consented name older
  | .saved _ :: older => Consented name older
  | .switched :: older => Consented name older

instance decidableConsented (name : String) : ∀ log, Decidable (Consented name log)
  | [] => isFalse id
  | .agreed other :: older =>
      have := decidableConsented name older
      inferInstanceAs (Decidable (other = name ∨ Consented name older))
  | .named other :: older =>
      have := decidableConsented name older
      inferInstanceAs (Decidable (other ≠ name ∧ Consented name older))
  | .declined other :: older =>
      have := decidableConsented name older
      inferInstanceAs (Decidable (other ≠ name ∧ Consented name older))
  | .saved _ :: older => decidableConsented name older
  | .switched :: older => decidableConsented name older

/-- The file that the user just declined to overwrite. -/
def lastDeclined? : List Exchange → Option String
  | .declined name :: _ => some name
  | _ => none

/-- The file that an answer says whether to overwrite. -/
def PromptPurpose.overwrites? : PromptPurpose → Option String
  | .confirmOverwrite name => some name
  | _ => none

namespace Editor

/-- The file that is asked about at the moment. -/
def Mode.overwrites? : Mode → Option String
  | .prompting prompt => prompt.purpose.overwrites?
  | _ => none

variable {σ : Type} {e e' : Editor σ} {log : List Exchange}

/-! ## The name that is kept -/

/-- The session may overwrite what it asks about; when it asks about nothing, what the user just
declined to overwrite. -/
def Dialogue (e : Editor σ) (log : List Exchange) : Prop :=
  e.session.pendingOverwrite = e.mode.overwrites?.or (lastDeclined? log)

/-- The editor `e'` has kept the same name as `e`, and asks about the same file. -/
structure Quiet (e e' : Editor σ) : Prop where
  pending : e'.session.pendingOverwrite = e.session.pendingOverwrite
  question : e'.mode.overwrites? = e.mode.overwrites?

/-- Nothing done says nothing. -/
theorem Quiet.refl (e : Editor σ) : e.Quiet e := ⟨rfl, rfl⟩

/-- What is quiet may follow what is quiet. -/
theorem Quiet.trans {e'' : Editor σ} (h : e.Quiet e') (h' : e'.Quiet e'') : e.Quiet e'' :=
  ⟨h'.pending.trans h.pending, h'.question.trans h.question⟩

/-- A quiet step adds nothing to what was asked and answered. -/
theorem Dialogue.of_quiet (h : e.Dialogue log) (hquiet : e.Quiet e') :
    e'.Dialogue log := by
  rw [Dialogue, hquiet.pending, hquiet.question]
  exact h

/-- A report is quiet if no name was remembered. -/
theorem quiet_report {α : Type} {result : Except EditorError α × Session σ}
    (h : result.2.pendingOverwrite = e.session.pendingOverwrite) : e.Quiet (e.report result) := by
  rw [report]
  split
  · exact ⟨h, rfl⟩
  · exact ⟨h, rfl⟩

/-- An operation that stays with its file is quiet. -/
theorem quiet_apply (e : Editor σ) {operation : Session σ → Bool × Session σ}
    (h : ∀ s : Session σ, s.SameFile (operation s).2) : e.Quiet (e.apply operation) :=
  ⟨(h e.session).pending, rfl⟩

/-- So is a question about something else. -/
theorem quiet_ask (hmode : e.mode.overwrites? = none) {purpose : PromptPurpose}
    (hpurpose : purpose.overwrites? = none) (message initial : String) :
    e.Quiet (e.ask message purpose initial) :=
  ⟨rfl, hpurpose.trans hmode.symm⟩

/-- So is going on with a replace run. -/
theorem quiet_follow (hmode : e.mode.overwrites? = none) (text : String)
    {step : Session.QueryStep × Session σ}
    (h : step.2.pendingOverwrite = e.session.pendingOverwrite) : e.Quiet (e.follow text step) := by
  obtain ⟨step, s⟩ := step
  cases step with
  | ask question => exact ⟨h, hmode.symm⟩
  | done outcome =>
      refine ⟨?_, hmode.symm⟩
      cases outcome with
      | finished summary =>
          simp only [follow, tellOutcome]
          split <;> exact h
      | _ => exact h

/-- Drawing a frame is quiet. -/
theorem quiet_show (e : Editor σ) : e.Quiet e.show.2 := by
  have hring : e.Quiet e.ringAlert := by
    rw [ringAlert]
    simp only
    split <;> exact ⟨rfl, rfl⟩
  rw [«show»]
  split
  · exact ⟨rfl, rfl⟩
  · exact hring.trans ⟨rfl, rfl⟩

/-- So is a change of the size of the terminal. -/
theorem quiet_resize (e : Editor σ) (rows cols : Nat) : e.Quiet (e.resize rows cols) := by
  rw [resize]
  simp only
  split <;> exact ⟨rfl, rfl⟩

/-- So is a search. -/
theorem quiet_find (e : Editor σ) (text : String) : e.Quiet (e.find text) := by
  rw [find]
  split
  · exact .refl e
  · exact ⟨(Session.sameFile_find e.session _).pending, rfl⟩

/-- So is beginning a replace run. -/
theorem quiet_queryReplace (hmode : e.mode.overwrites? = none) (needle replacement : String) :
    e.Quiet (e.queryReplace needle replacement) := by
  have hfollow : Quiet { e with lastSearch := some needle } (e.queryReplace needle replacement) :=
    quiet_follow (e := { e with lastSearch := some needle }) hmode _
      (Session.sameFile_askNext e.session _).pending
  exact ⟨hfollow.pending, hfollow.question⟩

/-- So is asking whether to quit. -/
theorem quiet_quit (hmode : e.mode.overwrites? = none) : e.Quiet e.quit := by
  rw [quit]
  simp only
  split
  · exact ⟨rfl, hmode.symm⟩
  · exact ⟨rfl, rfl⟩

/-- A session that the editor takes over asks about nothing more and may overwrite nothing. -/
theorem dialogue_report_none {α : Type} {result : Except EditorError α × Session σ}
    (hmode : e.mode.overwrites? = none) (hpending : result.2.pendingOverwrite = none)
    (hlog : lastDeclined? log = none) : (e.report result).Dialogue log := by
  have hquiet : Quiet { e with session := result.2 } (e.report result) := quiet_report rfl
  refine Dialogue.of_quiet ?_ hquiet
  rw [Dialogue, hmode, hlog]
  exact hpending

/-! ## What an event leaves of the name -/

variable [Storage σ]

omit [Storage σ] in
/-- Another document takes back what was remembered. -/
theorem Dialogue.switch (h : e.Dialogue log) (hmode : e.mode.overwrites? = none) (id : Nat) :
    (e.report (e.session.switchTo id)).Dialogue
      (switchExchanges (e.session.switchTo id).1 ++ log) := by
  rw [Session.switchTo]
  split
  · exact h.of_quiet (quiet_report rfl)
  · exact dialogue_report_none hmode rfl rfl

/-- **A save under its own name** asks nothing. -/
theorem Dialogue.save (h : e.Dialogue log) (hmode : e.mode.overwrites? = none) :
    e.save.Dialogue (actionExchanges e.session .save ++ log) := by
  rw [actionExchanges]
  split
  · next hunnamed =>
    rw [save_of_unnamed hunnamed]
    exact h.of_quiet (quiet_ask hmode rfl _ _)
  · next hnamed =>
    obtain ⟨status, hsaved⟩ := Session.saveAs_of_not_putsOff
      (e.session.not_putsOff_forced e.session.document.header.name)
    rw [save_of_named hnamed, hsaved]
    exact dialogue_report_none hmode rfl rfl

/-- A save under a name either is put off, and the editor asks, or takes place. -/
theorem Dialogue.saveAs (hmode : e.mode.overwrites? = none) (name : String) :
    (e.saveAs name).Dialogue (saveExchanges e.session name ++ [.named name] ++ log) := by
  rw [saveExchanges]
  split
  · next hputs =>
    rw [saveAs_of_putsOff hputs, Session.saveAs_of_putsOff hputs]
    rfl
  · next hgoes =>
    obtain ⟨status, hsaved⟩ := Session.saveAs_of_not_putsOff hgoes
    rw [saveAs_of_not_putsOff hgoes, hsaved]
    exact dialogue_report_none hmode rfl rfl

/-- An answer to the question: a yes has the document saved, since the session has kept the name;
any other answer leaves the name with the session. -/
theorem Dialogue.overwrite {name : String} (hpending : e.session.pendingOverwrite = some name)
    (hmode : e.mode.overwrites? = none) (text : String) :
    (e.confirm (.confirmOverwrite name) text).Dialogue
      (answerExchanges e.session text (.confirmOverwrite name) ++ log) := by
  rw [confirm, answerExchanges, saveExchanges]
  split
  · -- the session has kept the name, so this save is not put off a second time
    have hgoes : ¬ e.session.PutsOff name false := fun hputs => by
      have hleave := hputs.2.1
      rw [hpending] at hleave
      simp at hleave
    obtain ⟨status, hsaved⟩ := Session.saveAs_of_not_putsOff hgoes
    rw [if_neg hgoes, hsaved]
    exact dialogue_report_none hmode rfl rfl
  · rw [Dialogue, say, hmode]
    exact hpending

/-- What a command leaves. -/
theorem Dialogue.obey (h : e.Dialogue log) (hmode : e.mode.overwrites? = none) (action : Action) :
    (e.obey action).Dialogue (actionExchanges e.session action ++ log) := by
  cases action with
  | insertChar c => exact h.of_quiet (quiet_apply e fun s => Session.sameFile_insertBytes s _)
  | insertNewline => exact h.of_quiet (quiet_apply e fun s => Session.sameFile_insertByte s _)
  | insertTab => exact h.of_quiet (quiet_apply e fun s => Session.sameFile_insertBlanks s _)
  | moveLeft => exact h.of_quiet (quiet_apply e fun s => Session.sameFile_moveTo s _)
  | moveRight => exact h.of_quiet (quiet_apply e fun s => Session.sameFile_moveTo s _)
  | moveUp => exact h.of_quiet (quiet_apply e fun s => Session.sameFile_moveTo s _)
  | moveDown => exact h.of_quiet (quiet_apply e fun s => Session.sameFile_moveTo s _)
  | moveLineStart => exact h.of_quiet (quiet_apply e fun s => Session.sameFile_moveTo s _)
  | moveLineEnd => exact h.of_quiet (quiet_apply e fun s => Session.sameFile_moveTo s _)
  | movePageUp => exact h.of_quiet (quiet_apply e fun s => Session.sameFile_moveTo s _)
  | movePageDown => exact h.of_quiet (quiet_apply e fun s => Session.sameFile_moveTo s _)
  | moveDocumentStart => exact h.of_quiet (quiet_apply e fun s => Session.sameFile_moveTo s _)
  | moveDocumentEnd => exact h.of_quiet (quiet_apply e fun s => Session.sameFile_moveTo s _)
  | deleteBackward => exact h.of_quiet (quiet_apply e Session.sameFile_deleteLeft)
  | deleteForward => exact h.of_quiet (quiet_apply e Session.sameFile_deleteRight)
  | toggleSelection => exact h.of_quiet ⟨rfl, rfl⟩
  | copy => exact h.of_quiet (quiet_report (Session.pendingOverwrite_copy e.session))
  | cut => exact h.of_quiet (quiet_report (Session.pendingOverwrite_cut e.session))
  | paste => exact h.of_quiet (quiet_report (Session.pendingOverwrite_insertFile e.session _))
  | find => exact h.of_quiet (quiet_ask hmode rfl _ _)
  | findNext =>
      rw [Editor.obey]
      split
      · exact h.of_quiet (quiet_find e _)
      · exact h.of_quiet (quiet_ask hmode rfl _ _)
  | replace => exact h.of_quiet (quiet_ask hmode rfl _ _)
  | queryReplace => exact h.of_quiet (quiet_ask hmode rfl _ _)
  | save => exact h.save hmode
  | saveAs => exact h.of_quiet (quiet_ask hmode rfl _ _)
  | saveSelection =>
      rw [Editor.obey]
      split
      · exact h.of_quiet (quiet_ask hmode rfl _ _)
      · exact h.of_quiet ⟨rfl, rfl⟩
  | openFile => exact h.of_quiet (quiet_ask hmode rfl _ _)
  | insertFile => exact h.of_quiet (quiet_ask hmode rfl _ _)
  | quit => exact h.of_quiet (quiet_quit hmode)
  | nextDocument => exact h.switch hmode _
  | previousDocument => exact h.switch hmode _
  | listDocuments => exact h.of_quiet ⟨rfl, hmode.symm⟩
  | cancel => exact h

/-- What an answer leaves, but for one to the question. -/
theorem Dialogue.confirm (h : e.Dialogue log) (hmode : e.mode.overwrites? = none)
    {purpose : PromptPurpose} (hpurpose : purpose.overwrites? = none) (text : String) :
    (e.confirm purpose text).Dialogue (answerExchanges e.session text purpose ++ log) := by
  cases purpose with
  | openFile => exact h.of_quiet (quiet_report (Session.pendingOverwrite_openFile e.session text))
  | insertFile =>
      exact h.of_quiet (quiet_report (Session.pendingOverwrite_insertFile e.session text))
  | saveAs => exact Dialogue.saveAs hmode text
  | confirmOverwrite name => cases hpurpose
  | saveSelection =>
      exact h.of_quiet (quiet_report (Session.pendingOverwrite_saveSelection e.session text))
  | search => exact h.of_quiet (quiet_find e text)
  | replaceSearch =>
      rw [Editor.confirm]
      split
      · exact h
      · exact h.of_quiet (quiet_ask hmode rfl _ _)
  | replaceWith needle =>
      exact h.of_quiet ⟨(Session.sameFile_replaceAll e.session _ _).pending, rfl⟩
  | queryReplaceSearch =>
      rw [Editor.confirm]
      split
      · exact h
      · exact h.of_quiet (quiet_ask hmode rfl _ _)
  | queryReplaceWith needle => exact h.of_quiet (quiet_queryReplace hmode needle text)
  | switchDocument =>
      rw [Editor.confirm, answerExchanges]
      split
      · next hblank =>
        rw [hblank]
        exact h
      · rw [switchDocument]
        cases segmentNumber? (trimBlanks text.toList) with
        | some id => exact h.switch hmode id
        | none => exact h
  | confirmQuit => exact h.of_quiet ⟨rfl, rfl⟩

/-- Whatever is typed, a prompt stays what it is for. -/
theorem purpose_editAnswer (prompt : Prompt) (key : KeyPress) :
    (editAnswer prompt key).purpose = prompt.purpose := by
  rw [editAnswer]
  split
  · rfl
  · rfl
  · rw [Prompt.cursorLeft]
    split <;> rfl
  · rw [Prompt.cursorRight]
    split <;> rfl
  · rfl
  · rfl
  · split
    · rfl
    · split
      · split <;> rfl
      · rfl
  · rfl

/-- Only the question whether to overwrite names a file to be overwritten. -/
theorem eq_confirmOverwrite {purpose : PromptPurpose} {name : String}
    (h : purpose.overwrites? = some name) : purpose = .confirmOverwrite name := by
  cases purpose with
  | confirmOverwrite other => exact congrArg PromptPurpose.confirmOverwrite (Option.some.inj h)
  | _ => cases h

/-- A question that is taken back is declined. -/
theorem lastDeclined?_cancel (purpose : PromptPurpose) (log : List Exchange) :
    lastDeclined? (cancelExchanges purpose ++ log)
      = purpose.overwrites?.or (lastDeclined? log) := by
  cases purpose <;> rfl

/-- What a key leaves at a prompt. -/
theorem Dialogue.pressAtPrompt {prompt : Prompt}
    (h : e.session.pendingOverwrite = prompt.purpose.overwrites?.or (lastDeclined? log))
    (key : KeyPress) : (e.pressAtPrompt prompt key).Dialogue
      ((if cancels key then cancelExchanges prompt.purpose
        else if key.code = .enter then answerExchanges e.session prompt.text prompt.purpose
        else []) ++ log) := by
  rw [Editor.pressAtPrompt]
  split
  · exact h.trans (lastDeclined?_cancel prompt.purpose log).symm
  · split
    · -- the prompt is put away before its answer is obeyed, so nothing is asked about any more
      cases hpurpose : prompt.purpose.overwrites? with
      | some name =>
          rw [hpurpose] at h
          rw [eq_confirmOverwrite hpurpose]
          exact Dialogue.overwrite (e := { e with mode := .editing }) h rfl prompt.text
      | none =>
          rw [hpurpose] at h
          exact Dialogue.confirm (e := { e with mode := .editing }) h rfl hpurpose prompt.text
    · rw [Dialogue, Mode.overwrites?, purpose_editAnswer]
      exact h

/-- **What one event leaves of the name that the session keeps.** -/
theorem Dialogue.handle (h : e.Dialogue log) (event : Event) :
    (e.handle event).Dialogue (e.exchanges event ++ log) := by
  cases event with
  | press key =>
      cases hmode : e.mode with
      | editing =>
          simp only [Editor.handle, press, pressWhileEditing, exchanges, hmode]
          rw [Dialogue, hmode] at h
          have hcleared :
              Dialogue { e with session := e.session.clearStatus, mode := .editing } log := h
          cases e.keymap.resolve key with
          | some action => exact hcleared.obey rfl action
          | none => exact hcleared
      | prompting prompt =>
          simp only [Editor.handle, press, exchanges, hmode]
          rw [Dialogue, hmode] at h
          exact Dialogue.pressAtPrompt h key
      | asking question text =>
          simp only [Editor.handle, press, pressAtQuestion, exchanges, hmode]
          cases decisionOfKey? key.code with
          | some decision =>
              have hnone : e.mode.overwrites? = none := by rw [hmode]; rfl
              exact h.of_quiet (quiet_follow hnone text (Session.sameFile_answer _ _ _).pending)
          | none => exact h
  | release key => exact h
  | resize rows cols => exact h.of_quiet (quiet_resize e rows cols)
  | paste text => exact h

/-! ## Starting -/

omit [Storage σ] in
/-- A switch forgets the name; here there is none. -/
theorem quiet_switchTo (h : e.session.pendingOverwrite = none) (id : Nat) :
    e.Quiet { e with session := (e.session.switchTo id).2 } := by
  rw [Session.switchTo]
  split
  · exact ⟨rfl, rfl⟩
  · exact ⟨h.symm, rfl⟩

/-- A file named on the command line is opened without a question. -/
theorem quiet_openOrBegin (e : Editor σ) (name : String) : e.Quiet (e.openOrBegin name) := by
  have hopen := Session.pendingOverwrite_openFile e.session name
  rw [openOrBegin]
  split
  · next s heq =>
    rw [heq] at hopen
    exact ⟨hopen, rfl⟩
  · exact quiet_report hopen

/-- So are several, each in a segment of its own. -/
theorem quiet_openEach (h : e.session.pendingOverwrite = none) (first : Option Nat)
    (names : List String) : e.Quiet (e.openEach first names).1 := by
  induction names generalizing e first with
  | nil => exact .refl e
  | cons name rest ih =>
      rw [openEach]
      simp only
      split
      · exact ⟨rfl, rfl⟩
      · next entry hentry =>
        -- the switch would forget a name, but there is none to forget
        have hlist : e.Quiet { e with session := e.session.listDocuments.2 } := ⟨rfl, rfl⟩
        have hswitch := hlist.trans (quiet_switchTo (hlist.pending.trans h) entry.id)
        have hopen := hswitch.trans (quiet_openOrBegin _ name)
        exact hopen.trans (ih (hopen.pending.trans h) _)

/-- **Opening the files at the start** asks nothing. -/
theorem quiet_openFiles (h : e.session.pendingOverwrite = none) (names : List String) :
    e.Quiet (e.openFiles names) := by
  have hopen := quiet_openEach h none names
  rw [openFiles]
  split
  · next e' heq =>
    rw [heq] at hopen
    exact hopen
  · next e' id heq =>
    rw [heq] at hopen
    exact hopen.trans (quiet_switchTo (hopen.pending.trans h) id)

/-- A new editor puts no question and may overwrite nothing. -/
theorem create_asks_nothing {config : Config} {storage : σ} {rows cols : Nat}
    (h : create config storage rows cols = .ok e) :
    e.session.pendingOverwrite = none ∧ e.mode.overwrites? = none := by
  obtain ⟨s, hs, rfl⟩ := exists_of_map_ok h
  exact ⟨Session.pendingOverwrite_create hs, rfl⟩

/-- Nor does it once the files are open. -/
theorem dialogue_launch {config : Config} {storage : σ} {rows cols : Nat} {files : List String}
    (h : launch config storage rows cols files = .ok e) : e.Dialogue [] := by
  rw [launch] at h
  split at h
  · next created hcreate =>
    obtain rfl := Except.ok.inj h
    obtain ⟨hpending, hmode⟩ := create_asks_nothing hcreate
    have hcreated : created.Dialogue [] := by
      rw [Dialogue, hpending, hmode]
      rfl
    exact hcreated.of_quiet (quiet_openFiles hpending files)
  · cases h

/-! ## Runs -/

/-- An event of a run, with the editor that handles it and the conversation before. -/
structure Moment (σ : Type) where
  log : List Exchange
  editor : Editor σ
  event : Event

/-- The events that a run handles. -/
def moments (e : Editor σ) (log : List Exchange) : List Event → List (Moment σ)
  | [] => []
  | event :: rest =>
    if e.quitting then []
    else
      let e := e.show.2
      ⟨log, e, event⟩ :: (e.handle event).moments (e.exchanges event ++ log) rest

/-- The moments of a run are the events that it reads; as many as it says are left. -/
theorem events_moments (e : Editor σ) (log : List Exchange) (events : List Event) :
    ∃ left, events = (e.moments log events).map (·.event) ++ left ∧
      left.length = (e.run events).1.unread := by
  induction events generalizing e log with
  | nil =>
      refine ⟨[], rfl, ?_⟩
      rw [run]
      split <;> rfl
  | cons event rest ih =>
      rw [moments, run]
      split
      · exact ⟨event :: rest, rfl, rfl⟩
      · obtain ⟨left, hevents, hleft⟩ := ih (e.show.2.handle event)
          (e.show.2.exchanges event ++ log)
        exact ⟨left, congrArg (event :: ·) hevents, hleft⟩

/-- **What the user may have overwritten unasked**, all along a run. -/
theorem dialogue_of_mem_moments {events : List Event} (h : e.Dialogue log) :
    ∀ m ∈ e.moments log events, m.editor.Dialogue m.log := by
  induction events generalizing e log with
  | nil => exact fun m hm => nomatch hm
  | cons event rest ih =>
      intro m hm
      have hshown : e.show.2.Dialogue log := h.of_quiet (quiet_show e)
      rw [moments] at hm
      split at hm
      · cases hm
      · rcases List.mem_cons.mp hm with rfl | hm
        · exact hshown
        · exact ih (hshown.handle event) m hm

namespace Moment

/-- The document is saved over a file that is there and is not its own. -/
def WritesOver (m : Moment σ) (name : String) : Prop :=
  .saved name ∈ m.editor.exchanges m.event ∧
    Storage.contains m.editor.session.storage name = true ∧
    name ≠ m.editor.session.document.header.name

/-- A Save-as prompt is answered by the name of the file that the user just declined to
overwrite. -/
def RepeatsDeclined (m : Moment σ) (name : String) : Prop :=
  .named name ∈ m.editor.exchanges m.event ∧ lastDeclined? m.log = some name

/-- The user agreed to overwrite a file, and neither named it nor declined since, up to now. -/
def Consents (m : Moment σ) (name : String) : Prop :=
  Consented name (m.editor.exchanges m.event ++ m.log)

instance (m : Moment σ) (name : String) : Decidable (m.WritesOver name) :=
  inferInstanceAs (Decidable (_ ∧ _ ∧ _))

instance (m : Moment σ) (name : String) : Decidable (m.RepeatsDeclined name) :=
  inferInstanceAs (Decidable (_ ∧ _))

instance (m : Moment σ) (name : String) : Decidable (m.Consents name) :=
  inferInstanceAs (Decidable (Consented _ _))

end Moment

/-! ## Overwriting -/

/-- A save under a name that takes place, though it is over a file that is there and not its own,
has the leave of the session. -/
theorem of_saved_mem_saveExchanges {s : Session σ} {name other : String}
    (h : .saved other ∈ saveExchanges s name) :
    other = name ∧ saveExchanges s name = [.saved name] ∧
      (Storage.contains s.storage name = true → name ≠ s.document.header.name →
        s.pendingOverwrite = some name) := by
  rw [saveExchanges] at h
  split at h
  · cases h
  · next hgoes =>
    refine ⟨Exchange.saved.inj (List.mem_singleton.mp h), if_neg hgoes, ?_⟩
    intro hcontains hforeign
    by_contra hleave
    exact hgoes ⟨hforeign, by simp [hleave], hcontains⟩

/-- An answer that has the document saved over a foreign file is a name for which the session has
leave, or a yes. -/
theorem answerExchanges_of_saved {s : Session σ} {text : String} {purpose : PromptPurpose}
    {name : String} (hsaved : .saved name ∈ answerExchanges s text purpose)
    (hcontains : Storage.contains s.storage name = true)
    (hforeign : name ≠ s.document.header.name) :
    purpose = .saveAs ∧ answerExchanges s text purpose = [.saved name, .named name] ∧
        s.pendingOverwrite = some name ∨
      answerExchanges s text purpose = [.saved name, .agreed name] := by
  rcases purpose_of_saved_mem hsaved with rfl | ⟨asked, rfl⟩
  · rw [answerExchanges, List.mem_append] at hsaved
    rcases hsaved with hsaved | hnamed
    · obtain ⟨rfl, hexchanges, hleave⟩ := of_saved_mem_saveExchanges hsaved
      rw [answerExchanges, hexchanges]
      exact .inl ⟨rfl, rfl, hleave hcontains hforeign⟩
    · simp at hnamed
  · by_cases hyes : saysYes text = true
    · rw [answerExchanges, if_pos hyes, List.mem_append] at hsaved
      rcases hsaved with hsaved | hagreed
      · obtain ⟨rfl, hexchanges, -⟩ := of_saved_mem_saveExchanges hsaved
        rw [answerExchanges, if_pos hyes, hexchanges]
        exact .inr rfl
      · simp at hagreed
    · rw [answerExchanges, if_neg hyes] at hsaved
      simp at hsaved

/-- A document is saved over a foreign file in two ways: a prompt is answered by the name of the
file that the user just declined to overwrite, or the user agrees. -/
theorem exchanges_of_writesOver {m : Moment σ} (hdialogue : m.editor.Dialogue m.log)
    {name : String} (h : m.WritesOver name) :
    m.editor.exchanges m.event = [.saved name, .named name] ∧ lastDeclined? m.log = some name ∨
      m.editor.exchanges m.event = [.saved name, .agreed name] := by
  obtain ⟨log, e, event⟩ := m
  obtain ⟨hsaved, hcontains, hforeign⟩ := h
  simp only at hsaved hcontains hforeign hdialogue ⊢
  have hasks := asksToSave_of_saved hsaved
  cases event with
  | press key =>
      cases hmode : e.mode with
      | editing =>
          simp only [AsksToSave, hmode] at hasks
          rw [exchanges_editing hmode hasks] at hsaved
          exact absurd (eq_own_of_saved_mem hsaved) hforeign
      | prompting prompt =>
          simp only [AsksToSave, hmode] at hasks
          obtain ⟨hgoes, henter, -⟩ := hasks
          rw [exchanges_enter hmode hgoes henter] at hsaved ⊢
          rw [Dialogue, hmode, Mode.overwrites?] at hdialogue
          rcases answerExchanges_of_saved hsaved hcontains hforeign with
            ⟨hpurpose, hexchanges, hleave⟩ | hexchanges
          · rw [hpurpose] at hdialogue
            exact .inl ⟨hexchanges, hdialogue.symm.trans hleave⟩
          · exact .inr hexchanges
      | asking question text =>
          simp only [AsksToSave, hmode] at hasks
  | release key => exact hasks.elim
  | resize rows cols => exact hasks.elim
  | paste text => exact hasks.elim

/-- Keys pressed one after the other, none held. -/
def presses (codes : List KeyCode) : List Event := codes.map fun code => .press ⟨code, .none⟩

/-- What is computed to hold at some moment of a run holds at a moment of a run. -/
theorem exists_moment {P : Moment σ → Prop} [DecidablePred P]
    (launched : Except String (Editor σ)) (events : List Event) (i : Nat)
    (h : (launched.toOption.bind fun e => (e.moments [] events)[i]?.map fun m => decide (P m))
      = some true) : ∃ e m, launched = .ok e ∧ m ∈ e.moments [] events ∧ P m := by
  cases launched with
  | error message => cases h
  | ok e =>
      obtain ⟨m, hm, hdecided⟩ := Option.map_eq_some_iff.mp h
      exact ⟨e, m, rfl, List.mem_of_getElem? hm, of_decide_eq_true hdecided⟩

/-- **Which overwriting saves the user consented to**: all but those that repeat a name right after
the user declined. -/
theorem consents_iff_of_writesOver {config : Config} {storage : σ} {rows cols : Nat}
    {files : List String} (hlaunch : launch config storage rows cols files = .ok e)
    (events : List Event) : ∀ m ∈ e.moments [] events, ∀ name, m.WritesOver name →
      (m.Consents name ↔ ¬ m.RepeatsDeclined name) := by
  intro m hm name hwrites
  have hdialogue := dialogue_of_mem_moments (dialogue_launch hlaunch) m hm
  rw [Moment.Consents, Moment.RepeatsDeclined]
  rcases exchanges_of_writesOver hdialogue hwrites with ⟨hexchanges, hdeclined⟩ | hexchanges
  · simp [hexchanges, hdeclined, Consented]
  · simp [hexchanges, Consented]

/-- A file is overwritten after a yes. -/
theorem consents_overwriting_agreed :
    let config := { Config.standard "" with segmentCapacity := 16, loadChunkSize := 4 }
    let storage := Memory.empty.putFile "f" [111, 108, 100]
    let saveAs : Event := .press ⟨.char 's', .altOnly⟩
    let events := presses [.char 'a'] ++ saveAs :: presses [.char 'f', .enter, .char 'y', .enter]
    ∃ (e : Editor Memory) (m : Moment Memory), launch config storage 4 30 [] = .ok e ∧
      m ∈ e.moments [] events ∧ m.WritesOver "f" ∧ m.Consents "f" ∧
      (m.editor.handle m.event).session.storage.file? "f" = some [97] := by
  intro config storage saveAs events
  obtain ⟨e, m, hlaunch, hm, hwrites, hrepeats, hfile⟩ := exists_moment
    (P := fun m => m.WritesOver "f" ∧ ¬ m.RepeatsDeclined "f" ∧
      (m.editor.handle m.event).session.storage.file? "f" = some [97])
    (launch config storage 4 30 []) events 5 (by decide +kernel)
  have hconsents := consents_iff_of_writesOver hlaunch events m hm "f" hwrites
  exact ⟨e, m, hlaunch, hm, hwrites, hconsents.mpr hrepeats, hfile⟩

/-- Another is overwritten after a no: the name is given again, and the editor does not ask. -/
theorem not_consents_overwriting_declined :
    let config := { Config.standard "" with segmentCapacity := 16, loadChunkSize := 4 }
    let storage := Memory.empty.putFile "f" [111, 108, 100]
    let saveAs : Event := .press ⟨.char 's', .altOnly⟩
    let events := presses [.char 'a'] ++ saveAs :: presses [.char 'f', .enter, .char 'n', .enter] ++
      saveAs :: presses [.char 'f', .enter]
    ∃ (e : Editor Memory) (m : Moment Memory), launch config storage 4 30 [] = .ok e ∧
      m ∈ e.moments [] events ∧ m.WritesOver "f" ∧ ¬ m.Consents "f" ∧
      (m.editor.handle m.event).session.storage.file? "f" = some [97] := by
  intro config storage saveAs events
  exact exists_moment (launch config storage 4 30 []) events 8 (by decide +kernel)

end Editor
end ScreenEditor
