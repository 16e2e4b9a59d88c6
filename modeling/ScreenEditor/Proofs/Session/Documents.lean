import ScreenEditor.Proofs.Session.Course
import ScreenEditor.Proofs.Transfer.Settling
import ScreenEditor.Proofs.Transfer.Written

/-!
# What operations do to the documents

Only three things done with files rewrite whole documents or their numbers: a file is opened, a file
is inserted, or a document is saved (`FileEvent`).  What these do is said by `Load.Spread` and
`Save.Renamed`.  Every other operation, also one of these that fails, keeps names and part
numbers, and changes no text that does not count as modified afterwards (`Kept`).

A replace run is one operation.  While it asks, its text may be changed without the mark; the mark
is set when it ends, if it has replaced anything (`Underway`).

## Main results

* `Session.makes_fileEvent`: what an operation makes of the table.
-/

namespace ScreenEditor

/-! ## Tables that were kept -/

/-- The table `t'` has the names and part numbers of `t`, and the texts of the documents that do not
count as modified.  A segment that was unused may have lost its number. -/
structure Kept (t t' : SegmentTable) : Prop where
  wellFormed : t'.WellFormed
  count : t'.count = t.count
  name : ∀ id, t.has id = true → (t'.document id).header.name = (t.document id).header.name
  part : ∀ id, t.has id = true → (t'.document id).header.part = (t.document id).header.part ∨
    (t'.document id).header.part = 0 ∧ (t.document id).isUnused = true
  unmodified : ∀ id, t.has id = true → (t'.document id).header.modified = false →
    (t.document id).header.modified = false ∧
      (t'.document id).buffer.content = (t.document id).buffer.content

namespace Kept

variable {t t' t'' : SegmentTable}

theorem has (h : Kept t t') (id : Nat) : t'.has id = t.has id := SegmentTable.has_congr h.count id

/-- Nothing done keeps the documents. -/
theorem refl (h : t.WellFormed) : Kept t t :=
  ⟨h, rfl, fun _ _ => rfl, fun _ _ => .inl rfl, fun _ _ hmod => ⟨hmod, rfl⟩⟩

end Kept

/-- A document is unused if it has no name and no text, and was not changed. -/
theorem Document.isUnused_iff {d : Document} : d.isUnused = true ↔
    d.header.name = "" ∧ d.buffer.content = [] ∧ d.header.modified = false := by
  have hempty : d.buffer.isEmpty = true ↔ d.buffer.content = [] := by
    rw [GapBuffer.isEmpty, beq_iff_eq, ← GapBuffer.length_content, List.length_eq_zero_iff]
  simp only [isUnused, Bool.and_eq_true, String.isEmpty_iff, hempty, Bool.not_eq_true', and_assoc]

namespace Kept

variable {t t' t'' : SegmentTable}

/-- No segment becomes unused. -/
theorem isUnused (h : Kept t t') {id : Nat} (hid : t.has id = true)
    (hunused : (t'.document id).isUnused = true) : (t.document id).isUnused = true := by
  obtain ⟨hname, hcontent, hmod⟩ := Document.isUnused_iff.mp hunused
  obtain ⟨hmod', hsame⟩ := h.unmodified id hid hmod
  exact Document.isUnused_iff.mpr
    ⟨(h.name id hid).symm.trans hname, hsame.symm.trans hcontent, hmod'⟩

/-- Operations that keep them can follow each other. -/
theorem trans (h : Kept t t') (h' : Kept t' t'') : Kept t t'' := by
  have hhas : ∀ id, t.has id = true → t'.has id = true := fun id hid => (h.has id).trans hid
  refine ⟨h'.wellFormed, h'.count.trans h.count, ?_, ?_, ?_⟩
  · intro id hid
    exact (h'.name id (hhas id hid)).trans (h.name id hid)
  · intro id hid
    rcases h'.part id (hhas id hid) with hsame | ⟨hzero, hunused⟩
    · rw [hsame]
      exact h.part id hid
    · exact .inr ⟨hzero, h.isUnused hid hunused⟩
  · intro id hid hmod
    obtain ⟨hmod', hsame'⟩ := h'.unmodified id (hhas id hid) hmod
    obtain ⟨hmod₀, hsame⟩ := h.unmodified id hid hmod'
    exact ⟨hmod₀, hsame'.trans hsame⟩

/-- The same documents are kept. -/
theorem of_agrees (h : t.Agrees t') : Kept t t' where
  wellFormed := h.wellFormed
  count := h.count
  name id hid := by rw [h.document id hid]
  part id hid := .inl (by rw [h.document id hid])
  unmodified id hid hmod := by
    rw [h.document id hid] at hmod ⊢
    exact ⟨hmod, rfl⟩

/-- A change of the document at hand keeps the table if it keeps the name and the number, and the
text too unless it leaves the mark. -/
theorem of_modifyCurrent (h : t.WellFormed) {f : Document → Document}
    (hstor : (f t.current).Storable t.capacity)
    (hname : (f t.current).header.name = t.current.header.name)
    (hpart : (f t.current).header.part = t.current.header.part)
    (hmod : (f t.current).header.modified = false → t.current.header.modified = false ∧
      (f t.current).buffer.content = t.current.buffer.content) : Kept t (t.modifyCurrent f) := by
  refine ⟨h.modifyCurrent hstor, rfl, ?_, ?_, ?_⟩
  · intro id hid
    rw [SegmentTable.document_modifyCurrent _ hid]
    split
    · next he => rw [he, SegmentTable.document_active, hname]
    · rfl
  · intro id hid
    rw [SegmentTable.document_modifyCurrent _ hid]
    split
    · next he => rw [he, SegmentTable.document_active, hpart]; exact .inl rfl
    · exact .inl rfl
  · intro id hid
    rw [SegmentTable.document_modifyCurrent _ hid]
    split
    · next he =>
      rw [he, SegmentTable.document_active]
      exact hmod
    · exact fun hunmod => ⟨hunmod, rfl⟩

/-- An edit that leaves the mark. -/
theorem edit (h : t.WellFormed) {f : GapBuffer → GapBuffer}
    (hcap : (f t.current.buffer).capacity = t.current.buffer.capacity) :
    Kept t (t.modifyCurrent fun d => (d.mapBuffer f).markModified) :=
  of_modifyCurrent h ⟨hcap.trans h.current.capacity_eq, h.current.nameFits⟩ rfl rfl
    fun hmod => by cases hmod

/-- Documents that were put back are kept. -/
theorem of_restored (h : Restored t t') : Kept t t' := by
  have hdoc : t'.document t.active = t'.current := by
    rw [← h.active, SegmentTable.document_active]
  refine ⟨h.wellFormed, h.count, ?_, ?_, ?_⟩
  · intro id hid
    by_cases hne : id = t.active
    · rw [hne, hdoc, SegmentTable.document_active, h.header]
    · rcases h.others id hid hne with hsame | ⟨hunused, hunused'⟩
      · rw [hsame]
      · rw [(Document.isUnused_iff.mp hunused).1, (Document.isUnused_iff.mp hunused').1]
  · intro id hid
    by_cases hne : id = t.active
    · rw [hne, hdoc, SegmentTable.document_active, h.header]
      exact .inl rfl
    · rcases h.others id hid hne with hsame | ⟨hunused, -⟩
      · exact .inl (by rw [hsame])
      · rcases h.headers id hid hne with hsame | hblank
        · exact .inl (by rw [hsame])
        · exact .inr ⟨by rw [hblank]; rfl, hunused⟩
  · intro id hid hmod
    by_cases hne : id = t.active
    · rw [hne, hdoc] at hmod ⊢
      rw [h.header] at hmod
      rw [SegmentTable.document_active]
      exact ⟨hmod, h.content_eq⟩
    · rcases h.others id hid hne with hsame | ⟨hunused, hunused'⟩
      · rw [hsame] at hmod ⊢
        exact ⟨hmod, rfl⟩
      · obtain ⟨-, hcontent, hmod₀⟩ := Document.isUnused_iff.mp hunused
        obtain ⟨-, hcontent', -⟩ := Document.isUnused_iff.mp hunused'
        exact ⟨hmod₀, hcontent'.trans hcontent.symm⟩

end Kept

namespace Session

variable {σ : Type} {s : Session σ}

/-! ## New sessions -/

/-- A new session has a new table. -/
theorem ofLayout_of_create {options : SessionOptions} {storage : σ} {rows cols : Nat}
    (h : create options storage rows cols = .ok s) :
    SegmentTable.ofLayout options.capacity options.present = .ok s.table := by
  obtain ⟨table, htable, rfl⟩ := exists_of_map_ok h
  exact htable

/-! ## Typing and deleting -/

/-- A refusal leaves the table. -/
theorem table_refuseEdit (s : Session σ) (wasShown : Bool) :
    (s.refuseEdit wasShown).2.table = s.table := by
  cases wasShown <;> rfl

/-- An edit that is done marks the document. -/
theorem table_finishEdit (s : Session σ) (wasShown : Bool) (patch : View → GapBuffer → Repainted) :
    (s.finishEdit wasShown patch).2.table = s.table.modifyCurrent Document.markModified := by
  cases wasShown <;> rfl

/-- **Typing a byte** keeps the documents, but for the text at hand and its mark. -/
theorem kept_insertByte (h : s.table.WellFormed) (byte : UInt8) :
    Kept s.table (s.insertByte byte).2.table := by
  rw [insertByte, dropSelection]
  simp only
  split
  · rw [table_refuseEdit]
    exact Kept.refl h
  · rw [table_finishEdit]
    exact Kept.edit h (f := (·.insertAll [byte])) (GapBuffer.capacity_insertAll _ [byte])

/-- So does typing several, up to the first that is refused. -/
theorem kept_insertBytes (h : s.table.WellFormed) (bytes : List UInt8) :
    Kept s.table (s.insertBytes bytes).2.table :=
  insertBytes_induction (P := fun s' => Kept s.table s'.table)
    (fun _ hs byte => hs.trans (kept_insertByte hs.wellFormed byte)) (Kept.refl h) bytes

/-- A tab stop is reached by typing blanks. -/
theorem kept_insertBlanks (h : s.table.WellFormed) (n : Nat) :
    Kept s.table (s.insertBlanks n).2.table := by
  rw [insertBlanks_eq]
  exact kept_insertBytes h _

/-- **Deleting to the left** keeps them so as well. -/
theorem kept_deleteLeft (h : s.table.WellFormed) : Kept s.table s.deleteLeft.2.table := by
  rw [deleteLeft, dropSelection]
  simp only
  split
  · rw [table_refuseEdit]
    exact Kept.refl h
  · next b g hdelete =>
    obtain ⟨-, -, hcap⟩ := GapBuffer.of_deleteLeft? hdelete
    rw [table_finishEdit]
    exact Kept.edit h (f := fun _ => g) hcap

/-- **Deleting to the right** does the same. -/
theorem kept_deleteRight (h : s.table.WellFormed) : Kept s.table s.deleteRight.2.table := by
  rw [deleteRight, dropSelection]
  simp only
  split
  · rw [table_refuseEdit]
    exact Kept.refl h
  · next b g hdelete =>
    obtain ⟨-, -, hcap⟩ := GapBuffer.of_deleteRight? hdelete
    rw [table_finishEdit]
    exact Kept.edit h (f := fun _ => g) hcap

/-! ## Moving -/

/-- A text with the same bytes in the same room. -/
theorem kept_modifyBuffer (h : s.table.WellFormed) {f : GapBuffer → GapBuffer}
    (hcap : (f s.table.current.buffer).capacity = s.table.current.buffer.capacity)
    (hcontent : (f s.table.current.buffer).content = s.table.current.buffer.content) :
    Kept s.table (s.table.modifyBuffer f) :=
  Kept.of_modifyCurrent h ⟨hcap.trans h.current.capacity_eq, h.current.nameFits⟩ rfl rfl
    fun hmod => ⟨hmod, hcontent⟩

/-- **A motion** changes where the gap is. -/
theorem kept_moveTo (h : s.table.WellFormed) (target : Option Nat) :
    Kept s.table (s.moveTo target).2.table := by
  rw [moveTo]
  split
  · exact Kept.refl h
  · next offset hoffset =>
    exact kept_modifyBuffer h (f := (·.seek offset)) (GapBuffer.capacity_seek _ offset)
      (GapBuffer.content_seek _ offset)

/-! ## Searching -/

/-- A replace run that began with the table `t` has come to the table `t'`. -/
def Underway (t : SegmentTable) (run : ReplaceRun) (t' : SegmentTable) : Prop :=
  ∃ g : GapBuffer, t' = (t.modifyBuffer fun _ => g) ∧
    g.capacity = t.current.buffer.capacity ∧ run.Counts t.current.buffer.content g

variable {t : SegmentTable} {run : ReplaceRun}

/-- A run begins with the text at hand. -/
theorem underway_start (s : Session σ) (needle replacement : List UInt8) :
    Underway s.table (ReplaceRun.start s.searched needle replacement) s.table :=
  ⟨s.table.current.buffer, rfl, rfl, ReplaceRun.counts_start s.searched needle replacement⟩

/-- The text that the run comes to is put in the place of the text at hand. -/
theorem Underway.withSearched (h : Underway t run s.table) {next : ReplaceRun} {found : Searched}
    (hcap : found.buffer.capacity = s.table.current.buffer.capacity)
    (hcounts : next.Counts t.current.buffer.content found.buffer) :
    Underway t next (s.withSearched found).table := by
  obtain ⟨g, htable, hroom, -⟩ := h
  rw [htable] at hcap
  refine ⟨found.buffer, ?_, hcap.trans hroom, hcounts⟩
  rw [Session.withSearched, htable]
  rfl

/-- A run counts the changes of the text at hand. -/
theorem Underway.counts (h : Underway t run s.table) :
    run.Counts t.current.buffer.content s.searched.buffer := by
  obtain ⟨g, htable, -, hcounts⟩ := h
  rw [searched, buffer, htable]
  exact hcounts

/-- Reporting the end of a run marks the document if anything was replaced. -/
theorem kept_reportSearch (h : t.WellFormed) (hrun : Underway t run s.table) :
    Kept t (s.reportSearch run.outcome).table := by
  obtain ⟨g, htable, hcap, hcounts⟩ := hrun
  have hsame : run.summary.replaced = 0 → Kept t s.table := by
    intro hnone
    rw [htable]
    exact Kept.of_modifyCurrent h ⟨hcap.trans h.current.capacity_eq, h.current.nameFits⟩ rfl rfl
      fun hmod => ⟨hmod, hcounts.content_eq hnone⟩
  have hmarked : Kept t (s.table.modifyCurrent Document.markModified) := by
    rw [htable]
    exact Kept.edit h (f := fun _ => g) hcap
  have hle := hcounts.replaced_le
  rw [ReplaceRun.outcome]
  split
  · exact hsame (by omega)
  · rw [reportSearch]
    by_cases hnone : run.summary.replaced = 0
    · simp only [if_pos hnone]
      split
      · exact hsame hnone
      · exact hsame hnone
    · simp only [if_neg hnone]
      split
      · exact hmarked
      · exact hmarked

/-- **A search** moves the caret to what it finds. -/
theorem kept_find (h : s.table.WellFormed) (needle : List UInt8) :
    Kept s.table (s.find needle).2.table := by
  have hcap := Searched.capacity_search s.searched needle
  have hfound : Kept s.table (s.withSearched (s.searched.search needle).1).table ∧
      ((s.withSearched (s.searched.search needle).1).reportSearch
        (s.searched.search needle).2).table
        = (s.withSearched (s.searched.search needle).1).table := by
    rw [Searched.search]
    split
    · next offset wrapped hfind =>
      refine ⟨kept_modifyBuffer h (f := fun _ => s.table.current.buffer.seek offset)
        (GapBuffer.capacity_seek _ offset) (GapBuffer.content_seek _ offset), ?_⟩
      cases wrapped <;> rfl
    · exact ⟨kept_modifyBuffer h (f := fun _ => s.table.current.buffer) rfl rfl, rfl⟩
  rw [Session.find]
  exact hfound.2 ▸ hfound.1

/-- **A run without questions** marks the document if it replaced anything. -/
theorem kept_replaceAll (h : s.table.WellFormed) (needle replacement : List UInt8) :
    Kept s.table (s.replaceAll needle replacement).2.table :=
  kept_reportSearch h ((underway_start s needle replacement).withSearched
    (Searched.capacity_replaceAll s.searched needle replacement)
    (ReplaceRun.counts_start s.searched needle replacement).all)

/-- A run with questions, which began with the table `t`, has come to its end and kept the table, or
it asks about one match more than it has replaced. -/
def Asked (t : SegmentTable) (r : QueryStep × Session σ) : Prop :=
  match r with
  | (.done _, ended) => Kept t ended.table
  | (.ask question, shown) => Underway t question.run shown.table ∧
      question.run.summary.replaced < question.run.summary.offered

/-- A question leaves the run underway. -/
theorem asked_askNext (h : t.WellFormed) (hrun : Underway t run s.table) :
    Asked t (s.askNext run) := by
  rw [askNext]
  split
  · next offer hoffer =>
    obtain ⟨hcounts, hlt⟩ := hrun.counts.offer hoffer
    exact ⟨hrun.withSearched (ReplaceRun.capacity_offer? hoffer) hcounts, hlt⟩
  · exact kept_reportSearch h hrun

/-- So does its answer, unless the run ends there. -/
theorem asked_answer (h : t.WellFormed) {question : Question}
    (hrun : Underway t question.run s.table)
    (hlt : question.run.summary.replaced < question.run.summary.offered)
    (decision : ReplaceDecision) : Asked t (s.answer question decision) := by
  have hcap := ReplaceRun.capacity_answer question.run s.searched question.offset decision
  have hcounts := hrun.counts.answer hlt question.offset decision
  rw [Session.answer]
  split
  · next next found heq =>
    rw [heq] at hcap hcounts
    exact asked_askNext h (hrun.withSearched hcap hcounts)
  · next next found heq =>
    rw [heq] at hcap hcounts
    exact kept_reportSearch h (hrun.withSearched hcap hcounts)

/-- A run that was underway ends with the documents kept. -/
theorem kept_answerAll (h : t.WellFormed) {question : Question}
    (hrun : Underway t question.run s.table)
    (hlt : question.run.summary.replaced < question.run.summary.offered)
    (decisions : List ReplaceDecision) : Kept t (s.answerAll question decisions).2.1.table := by
  induction decisions generalizing s question with
  | nil => exact asked_answer h hrun hlt .abort
  | cons decision rest ih =>
      have hanswer := asked_answer h hrun hlt decision
      rw [answerAll]
      split
      · next outcome ended heq =>
        rw [heq] at hanswer
        exact hanswer
      · next question' shown heq =>
        rw [heq] at hanswer
        exact ih hanswer.1 hanswer.2

/-- **A run with questions** keeps them, whatever the answers are. -/
theorem kept_queryReplace (h : s.table.WellFormed) (needle replacement : List UInt8)
    (decisions : List ReplaceDecision) :
    Kept s.table (s.queryReplace needle replacement decisions).2.1.table := by
  have hbegin : Asked s.table (s.beginQuery needle replacement) :=
    asked_askNext h (underway_start s needle replacement)
  rw [queryReplace]
  split
  · next outcome ended heq =>
    rw [heq] at hbegin
    exact hbegin
  · next question shown heq =>
    rw [heq] at hbegin
    exact kept_answerAll h hbegin.1 hbegin.2 decisions

/-! ## Documents -/

/-- A switch to a segment that does not exist leaves the table, as it leaves the session. -/
theorem table_switchTo (s : Session σ) (id : Nat) :
    (s.switchTo id).2.table = s.table.switch id := by
  rw [switchTo, SegmentTable.activate]
  by_cases hid : s.table.has id = true
  · rw [if_pos hid]
    rfl
  · rw [if_neg hid, SegmentTable.switch_of_not_has hid]

/-- **Another document** at hand is one that was there before. -/
theorem kept_switchTo (h : s.table.WellFormed) (id : Nat) :
    Kept s.table (s.switchTo id).2.table :=
  s.table_switchTo id ▸ Kept.of_agrees (h.agrees_switch id)

/-- **A listing** goes through all of them and comes back. -/
theorem kept_listDocuments (h : s.table.WellFormed) : Kept s.table s.listDocuments.2.table :=
  Kept.of_agrees (SegmentTable.list_spec h).2.1

/-! ## Files -/

variable [Storage σ]

/-- Copying leaves the segments, whether it succeeds or not. -/
theorem table_copy (s : Session σ) : s.copy.2.table = s.table :=
  copy_induction (P := fun s' => s'.table = s.table) rfl (s.table_exportRange s.clipboardFile)
    fun _ _ h => h

/-- Cutting deletes the range, once the clipboard file is written. -/
theorem table_cut (s : Session σ) : s.cut.2.table = s.table ∨
    ∃ range : Span, s.cut.1 = .ok true ∧ s.cut.2.table = s.table.modifyCurrent fun d =>
      (d.mapBuffer fun g => (g.deleteRange? range.lo range.hi).getD g).markModified := by
  rw [cut]
  split
  · exact .inl rfl
  · next range _ =>
    have htable := s.table_exportRange s.clipboardFile range
    split
    · next heq =>
      rw [heq] at htable
      exact .inl htable
    · next heq =>
      rw [heq] at htable
      rw [← htable]
      exact .inr ⟨range, rfl, rfl⟩

/-- Saving a selection leaves the table. -/
theorem table_saveSelection (s : Session σ) (name : String) :
    (s.saveSelection name).2.table = s.table := by
  rw [saveSelection]
  split
  · rfl
  · next range hrange => exact s.table_exportRange name range

/-- **A cut** changes the text at hand and marks it, once the clipboard file is written. -/
theorem kept_cut (h : s.table.WellFormed) : Kept s.table s.cut.2.table := by
  rcases s.table_cut with hsame | ⟨range, -, hcut⟩
  · rw [hsame]
    exact Kept.refl h
  · rw [hcut]
    exact Kept.edit h (f := fun g => (g.deleteRange? range.lo range.hi).getD g)
      (capacity_cutRange _ range)

end Session

/-! ## Saved documents -/

/-- The document at hand is saved under a name: all its parts have it, and count as unmodified. -/
structure Save.Renamed (t : SegmentTable) (name : String) (t' : SegmentTable) : Prop where
  wellFormed : t'.WellFormed
  count : t'.count = t.count
  active : t'.active = t.active
  document : ∀ id, t.has id = true → t'.document id =
    if id ∈ t.wholeDocument then (t.document id).savedAs name else t.document id

/-- What a save that succeeds does to the documents. -/
theorem renamed_of_save_ok {σ : Type} [Storage σ] {t : SegmentTable} {name : String}
    (h : t.WellFormed) {store : σ} {settings : TransferSettings} {written : Nat}
    (hsave : (t.save store name none settings).1 = .ok written) :
    Save.Renamed t name (t.save store name none settings).2.1 := by
  obtain ⟨htexts, hactive⟩ := save_spec h store name none settings
  refine ⟨htexts.wellFormed, htexts.count, hactive, fun id hid => ?_⟩
  have hdoc := save_documents h hsave hid
  simpa only [true_and] using hdoc

/-! ## File events -/

/-- What an operation that succeeded did with a file, if it changed documents by it: the file was
opened or inserted, taking the given segments, or the document was saved under a name. -/
inductive FileEvent where
  | none
  | opened (name : String) (ids : List Nat)
  | inserted (name : String) (ids : List Nat)
  | saved (name : String)
  deriving DecidableEq

namespace Session

variable {σ : Type} [Storage σ] {s : Session σ}

/-- What an operation does with a file. -/
def fileEvent (s : Session σ) : SessionOp → FileEvent
  | .openFile name =>
    match (s.openFile name).1 with
    | .ok report => .opened name report.segments
    | .error _ => .none
  | .insertFile name =>
    match (s.insertFile name).1 with
    | .ok report => .inserted name report.segments
    | .error _ => .none
  | .paste =>
    match s.paste.1 with
    | .ok report => .inserted s.clipboardFile report.segments
    | .error _ => .none
  | .saveAs name force =>
    match (s.saveAs name force).1 with
    | .ok _ => .saved name
    | .error _ => .none
  | .save =>
    match s.save.1 with
    | .ok _ => .saved s.document.header.name
    | .error _ => .none
  | _ => .none

/-- The load behind an opened file. -/
theorem openFile_eq (s : Session σ) (name : String) :
    (s.openFile name).1 = (s.table.load s.storage name .replace s.transfer).1 ∧
      (s.openFile name).2.table = (s.table.load s.storage name .replace s.transfer).2.1 := by
  rw [openFile]
  split
  · next e table storage heq =>
    rw [heq]
    exact ⟨rfl, rfl⟩
  · next report table storage heq =>
    rw [heq]
    exact ⟨rfl, rfl⟩

/-- The load behind an inserted file. -/
theorem insertFile_eq (s : Session σ) (name : String) :
    (s.insertFile name).1 = (s.table.load s.storage name .insert s.transfer).1 ∧
      (s.insertFile name).2.table = (s.table.load s.storage name .insert s.transfer).2.1 := by
  rw [insertFile]
  simp only
  split
  · next e table storage heq =>
    rw [heq]
    exact ⟨rfl, rfl⟩
  · next report table storage heq =>
    rw [heq]
    exact ⟨rfl, rfl⟩

/-- A save under a name is put off: there is a file of that name, it is not the document's own, and
nothing gives leave to overwrite it. -/
def PutsOff (s : Session σ) (name : String) (force : Bool) : Prop :=
  name ≠ s.document.header.name ∧ !(force || s.pendingOverwrite == some name) ∧
    Storage.contains s.storage name

instance (s : Session σ) (name : String) (force : Bool) : Decidable (s.PutsOff name force) :=
  inferInstanceAs (Decidable (_ ∧ _ ∧ _))

/-- A save that is put off marks the header and asks. -/
theorem saveAs_of_putsOff {s : Session σ} {name : String} {force : Bool}
    (h : s.PutsOff name force) : s.saveAs name force
      = (.error (.overwriteConfirmationRequired name), { s with
          table := s.table.modifyHeader fun h => { h with awaitsOverwrite := true }
          pendingOverwrite := some name }) := if_pos h

/-- A save that is not put off is one of the table, and takes back the leave to overwrite. -/
theorem saveAs_of_not_putsOff {s : Session σ} {name : String} {force : Bool}
    (h : ¬ s.PutsOff name force) : ∃ status, s.saveAs name force
      = ((s.table.save s.storage name none s.transfer).1, { s with
          table := (s.table.save s.storage name none s.transfer).2.1
          storage := (s.table.save s.storage name none s.transfer).2.2
          pendingOverwrite := none
          status := status }) := by
  have heq : s.saveAs name force = _ := if_neg h
  rw [heq]
  simp only
  split
  · next e hsave => exact ⟨s.status, Prod.ext hsave.symm rfl⟩
  · next written hsave => exact ⟨_, Prod.ext hsave.symm rfl⟩

/-- A save that is forced is not put off. -/
theorem not_putsOff_forced (s : Session σ) (name : String) : ¬ s.PutsOff name true := fun h => by
  have hleave := h.2.1
  simp at hleave

/-- The save behind a document saved under its own name. -/
theorem save_of_named {s : Session σ} (h : s.document.header.name ≠ "") :
    s.save = s.saveAs s.document.header.name true :=
  if_neg (by rwa [String.isEmpty_iff])

/-- A document without a name is not saved. -/
theorem save_of_unnamed {s : Session σ} (h : s.document.header.name = "") :
    s.save = (.error .unnamed, s) :=
  if_pos (by rwa [String.isEmpty_iff])

/-- A document that was saved has a name. -/
theorem named_of_save_ok {s : Session σ} {written : Nat} (hok : s.save.1 = .ok written) :
    s.document.header.name ≠ "" := by
  intro hempty
  rw [save_of_unnamed hempty] at hok
  cases hok

/-- The save behind a document that was saved, unless the session asks first. -/
theorem saveAs_cases (s : Session σ) (name : String) (force : Bool) :
    (∃ e, (s.saveAs name force).1 = .error e ∧ (s.saveAs name force).2.table
      = s.table.modifyHeader fun h => { h with awaitsOverwrite := true }) ∨
    ((s.saveAs name force).1 = (s.table.save s.storage name none s.transfer).1 ∧
      (s.saveAs name force).2.table = (s.table.save s.storage name none s.transfer).2.1) := by
  by_cases hputs : s.PutsOff name force
  · rw [saveAs_of_putsOff hputs]
    exact .inl ⟨_, rfl, rfl⟩
  · obtain ⟨status, hsaved⟩ := saveAs_of_not_putsOff hputs
    rw [hsaved]
    exact .inr ⟨rfl, rfl⟩

/-- **An opening that fails** puts the documents back. -/
theorem kept_openFile (h : s.table.WellFormed) {name : String} {e : EditorError}
    (herror : (s.openFile name).1 = .error e) : Kept s.table (s.openFile name).2.table := by
  obtain ⟨hresult, htable⟩ := s.openFile_eq name
  rw [hresult] at herror
  rw [htable]
  exact Kept.of_restored (load_error h herror)

/-- **An insertion that fails** puts them back too. -/
theorem kept_insertFile (h : s.table.WellFormed) {name : String} {e : EditorError}
    (herror : (s.insertFile name).1 = .error e) : Kept s.table (s.insertFile name).2.table := by
  obtain ⟨hresult, htable⟩ := s.insertFile_eq name
  rw [hresult] at herror
  rw [htable]
  exact Kept.of_restored (load_error h herror)

/-- **A save that fails** renames nothing. -/
theorem kept_saveAs (h : s.table.WellFormed) {name : String} {force : Bool} {e : EditorError}
    (herror : (s.saveAs name force).1 = .error e) : Kept s.table (s.saveAs name force).2.table := by
  rcases s.saveAs_cases name force with ⟨-, -, htable⟩ | ⟨hresult, htable⟩
  · rw [htable]
    exact Kept.of_modifyCurrent h ⟨h.current.capacity_eq, h.current.nameFits⟩ rfl rfl
      fun hmod => ⟨hmod, rfl⟩
  · rw [hresult] at herror
    rw [htable]
    exact Kept.of_agrees (agrees_of_save_error h herror)

/-- The same holds under the name that the document has. -/
theorem kept_save (h : s.table.WellFormed) {e : EditorError} (herror : s.save.1 = .error e) :
    Kept s.table s.save.2.table := by
  by_cases hnamed : s.document.header.name = ""
  · rw [save_of_unnamed hnamed]
    exact Kept.refl h
  · rw [save_of_named hnamed] at herror ⊢
    exact kept_saveAs h herror

/-- What a save that succeeds leaves is what writing the file left. -/
theorem saved_of_saveAs_ok {name : String} {force : Bool} {written : Nat}
    (hok : (s.saveAs name force).1 = .ok written) :
    (s.table.save s.storage name none s.transfer).1 = .ok written ∧
      (s.saveAs name force).2.table = (s.table.save s.storage name none s.transfer).2.1 := by
  rcases s.saveAs_cases name force with ⟨e, herror, -⟩ | ⟨hresult, htable⟩
  · rw [herror] at hok
    cases hok
  · exact ⟨hresult.symm.trans hok, htable⟩

/-- The same holds under the name that the document has. -/
theorem saved_of_save_ok {written : Nat} (hok : s.save.1 = .ok written) :
    (s.table.save s.storage s.document.header.name none s.transfer).1 = .ok written ∧
      s.save.2.table = (s.table.save s.storage s.document.header.name none s.transfer).2.1 := by
  have hnamed := named_of_save_ok hok
  rw [save_of_named hnamed] at hok ⊢
  exact saved_of_saveAs_ok hok

/-- What a file event makes of the table. -/
def Makes (s : Session σ) (t' : SegmentTable) : FileEvent → Prop
  | .none => Kept s.table t'
  | .opened name ids => ∃ report,
      (s.table.load s.storage name .replace s.transfer).1 = .ok report ∧ report.segments = ids ∧
        t' = (s.table.load s.storage name .replace s.transfer).2.1
  | .inserted name ids => ∃ report,
      (s.table.load s.storage name .insert s.transfer).1 = .ok report ∧ report.segments = ids ∧
        t' = (s.table.load s.storage name .insert s.transfer).2.1
  | .saved name => ∃ written,
      (s.table.save s.storage name none s.transfer).1 = .ok written ∧
        t' = (s.table.save s.storage name none s.transfer).2.1

/-- An opened file is read into the table; one that is not opened leaves it. -/
theorem makes_openFile (h : s.table.WellFormed) (name : String) :
    s.Makes (s.openFile name).2.table (s.fileEvent (.openFile name)) := by
  obtain ⟨hresult, htable⟩ := s.openFile_eq name
  cases hopen : (s.openFile name).1 with
  | error e =>
      simp only [fileEvent, hopen]
      exact kept_openFile h hopen
  | ok report =>
      simp only [fileEvent, hopen]
      exact ⟨report, hresult.symm.trans hopen, rfl, htable⟩

/-- So is one that is inserted. -/
theorem makes_insertFile (h : s.table.WellFormed) (name : String) :
    s.Makes (s.insertFile name).2.table (s.fileEvent (.insertFile name)) := by
  obtain ⟨hresult, htable⟩ := s.insertFile_eq name
  cases hinsert : (s.insertFile name).1 with
  | error e =>
      simp only [fileEvent, hinsert]
      exact kept_insertFile h hinsert
  | ok report =>
      simp only [fileEvent, hinsert]
      exact ⟨report, hresult.symm.trans hinsert, rfl, htable⟩

/-- A saved document is what the table's save left; one that is not saved keeps its name. -/
theorem makes_saveAs (h : s.table.WellFormed) (name : String) (force : Bool) :
    s.Makes (s.saveAs name force).2.table (s.fileEvent (.saveAs name force)) := by
  cases hsave : (s.saveAs name force).1 with
  | error e =>
      simp only [fileEvent, hsave]
      exact kept_saveAs h hsave
  | ok written =>
      simp only [fileEvent, hsave]
      exact ⟨written, saved_of_saveAs_ok hsave⟩

/-- The same holds under the name that the document has. -/
theorem makes_save (h : s.table.WellFormed) : s.Makes s.save.2.table (s.fileEvent .save) := by
  cases hsave : s.save.1 with
  | error e =>
      simp only [fileEvent, hsave]
      exact kept_save h hsave
  | ok written =>
      simp only [fileEvent, hsave]
      exact ⟨written, saved_of_save_ok hsave⟩

/-- **Every operation makes of the table what its file event does**: without one, the table is
kept. -/
theorem makes_fileEvent (h : s.table.WellFormed) (op : SessionOp) :
    s.Makes (s.perform op).table (s.fileEvent op) := by
  cases op with
  | openFile name => exact makes_openFile h name
  | insertFile name => exact makes_insertFile h name
  | paste => exact makes_insertFile h s.clipboardFile
  | saveAs name force => exact makes_saveAs h name force
  | save => exact makes_save h
  | insertByte byte => exact kept_insertByte h byte
  | insertChar c => exact kept_insertBytes h (String.utf8EncodeChar c)
  | insertTab => exact kept_insertBlanks h _
  | deleteLeft => exact kept_deleteLeft h
  | deleteRight => exact kept_deleteRight h
  | moveLeft => exact kept_moveTo h _
  | moveRight => exact kept_moveTo h _
  | moveUp => exact kept_moveTo h _
  | moveDown => exact kept_moveTo h _
  | pageUp => exact kept_moveTo h _
  | pageDown => exact kept_moveTo h _
  | moveRowStart => exact kept_moveTo h _
  | moveRowEnd => exact kept_moveTo h _
  | moveDocumentStart => exact kept_moveTo h _
  | moveDocumentEnd => exact kept_moveTo h _
  | seek offset => exact kept_moveTo h _
  | toggleSelection => exact Kept.refl h
  | copy => exact s.table_copy ▸ Kept.refl h
  | cut => exact kept_cut h
  | find needle => exact kept_find h needle
  | replaceAll needle replacement => exact kept_replaceAll h needle replacement
  | queryReplace needle replacement decisions =>
      exact kept_queryReplace h needle replacement decisions
  | saveSelection name => exact s.table_saveSelection name ▸ Kept.refl h
  | switchTo id => exact kept_switchTo h id
  | cycle forward => exact kept_switchTo h (s.neighbour forward)
  | listDocuments => exact kept_listDocuments h
  | hasUnsavedChanges => exact kept_listDocuments h
  | resize rows cols => exact Kept.refl h
  | takeAlert => exact Kept.refl h
  | setStatus text => exact Kept.refl h
  | clearStatus => exact Kept.refl h

/-- So every operation leaves segments that can be put away. -/
theorem wellFormed_perform (h : s.table.WellFormed) (op : SessionOp) :
    (s.perform op).table.WellFormed := by
  have hmakes := makes_fileEvent h op
  cases hevent : s.fileEvent op with
  | none =>
      rw [hevent] at hmakes
      exact Kept.wellFormed hmakes
  | opened name ids =>
      rw [hevent] at hmakes
      obtain ⟨report, -, -, htable⟩ := hmakes
      exact htable ▸ wellFormed_load h s.storage name .replace s.transfer
  | inserted name ids =>
      rw [hevent] at hmakes
      obtain ⟨report, -, -, htable⟩ := hmakes
      exact htable ▸ wellFormed_load h s.storage name .insert s.transfer
  | saved name =>
      rw [hevent] at hmakes
      obtain ⟨written, -, htable⟩ := hmakes
      exact htable ▸ (save_spec h s.storage name none s.transfer).1.wellFormed

/-- So they are all along the course of a new session. -/
theorem wellFormed_course {options : SessionOptions} {storage : σ} {rows cols : Nat}
    (hcap : options.capacity < 2 ^ 32) (h : create options storage rows cols = .ok s)
    (ops : List SessionOp) : ∀ s' ∈ s.course ops, s'.table.WellFormed := by
  have hops : s.Along (fun _ _ => True) ops := along_of_forall fun _ _ => trivial
  exact forall_mem_course (fun _ op hwf _ => wellFormed_perform hwf op)
    (SegmentTable.wellFormed_ofLayout hcap (ofLayout_of_create h)) hops

end Session
end ScreenEditor
