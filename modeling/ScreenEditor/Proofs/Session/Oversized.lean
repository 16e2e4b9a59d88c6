import ScreenEditor.Proofs.Session.SameFile

/-!
# Sessions over segments of any size

The configuration is checked for segments that control blocks can measure, but a session takes
segments of any size.  Its table is orderly from the beginning on, and every operation keeps it so
(`orderly_course`).
-/

namespace ScreenEditor

namespace SegmentTable

variable {t t' : SegmentTable}

namespace Oversized

/-- An edit leaves the name and the part of the document at hand. -/
theorem edited (h : t.Oversized) (hedited : t.Edited t') : t'.Oversized := by
  obtain ⟨g, modified, rfl⟩ := hedited
  exact h.modifyCurrent ⟨h.current.part, h.current.nameFits⟩

/-- Under its new name a document is still in one segment. -/
theorem savedAs (h : t.Oversized) (name : String) :
    (t.modifyCurrent (·.savedAs name)).Oversized :=
  h.modifyCurrent ⟨h.current.part, Header.nameFits_setName t.current.header name⟩

/-- So is a document that took a file, and has the name that it is to have. -/
theorem loadedHeader (h : t.Oversized) (mode : LoadMode) (name : String) :
    (Load.loadedHeader t mode name).InOneSegment ∧
      (Load.loadedHeader t mode name).name = Load.title t name mode := by
  obtain ⟨hlisted, -⟩ := Load.listed_of_part_eq_zero mode h.current.part
  rw [Load.loadedHeader, Load.ready, hlisted]
  cases mode with
  | replace => exact ⟨⟨rfl, Header.nameFits_setName Header.blank name⟩, rfl⟩
  | insert => exact ⟨⟨h.current.part, h.current.nameFits⟩, rfl⟩

variable {σ : Type} [Storage σ] {store : σ} {name : String} {mode : LoadMode}
  {settings : TransferSettings}

/-- A load that fails leaves the name and the part of the document at hand. -/
theorem load_error (h : t.Oversized) {e : EditorError}
    (hload : (t.load store name mode settings).1 = .error e) :
    t.Edited (t.load store name mode settings).2.1 := by
  obtain ⟨g, htable⟩ := table_load_error h.le_capacity h.current.part hload
  exact ⟨g, t.current.header.modified, htable⟩

/-- A load names the document and leaves the same segment active. -/
theorem load_ok (h : t.Oversized) {report : LoadReport}
    (hload : (t.load store name mode settings).1 = .ok report) :
    (t.load store name mode settings).2.1.Oversized ∧
      (t.load store name mode settings).2.1.active = t.active ∧
      (t.load store name mode settings).2.1.current.header.name = Load.title t name mode := by
  obtain ⟨g, htable⟩ := table_load_ok h.le_capacity h.current.part hload
  obtain ⟨hone, hname⟩ := h.loadedHeader mode name
  rw [htable]
  exact ⟨h.modifyCurrent hone, rfl, hname⟩

/-- So every document is in one segment after a load, whether it succeeds or not. -/
theorem load (h : t.Oversized) : (t.load store name mode settings).2.1.Oversized := by
  cases hload : (t.load store name mode settings).1 with
  | error e => exact h.edited (h.load_error hload)
  | ok report => exact (h.load_ok hload).1

/-- A save that fails leaves the table, and one that succeeds names the document. -/
theorem table_save (h : t.Oversized) (store : σ) (name : String) (settings : TransferSettings) :
    (t.save store name none settings).2.1 = match (t.save store name none settings).1 with
      | .error _ => t
      | .ok _ => t.modifyCurrent (·.savedAs name) := by
  have halone : Save.Alone t none := fun _ => h.current.part
  have htable := ScreenEditor.table_save halone store name settings
  cases hsave : (t.save store name none settings).1 with
  | error e =>
      rw [hsave] at htable
      exact htable
  | ok written =>
      rw [hsave] at htable
      exact htable.trans (if_pos rfl)

/-- The same holds after a save. -/
theorem save (h : t.Oversized) : (t.save store name none settings).2.1.Oversized := by
  rw [h.table_save]
  split
  · exact h
  · exact h.savedAs name

end Oversized
end SegmentTable

namespace Session

variable {σ : Type} [Storage σ] {s : Session σ}

/-- **Every operation leaves each document in its one segment**, if segments are too large for
their control blocks. -/
theorem oversized_perform (h : s.table.Oversized) (op : SessionOp) :
    (s.perform op).table.Oversized := by
  have hsame : ∀ s' : Session σ, s.SameFile s' → s'.table.Oversized := fun _ hfile =>
    h.edited hfile.edited
  have hinsert : ∀ name, (s.insertFile name).2.table.Oversized := fun name =>
    (s.insertFile_eq name).2 ▸ h.load
  have hsaveAs : ∀ name force, (s.saveAs name force).2.table.Oversized := by
    intro name force
    rcases s.saveAs_cases name force with ⟨-, -, htable⟩ | ⟨-, htable⟩
    · exact htable ▸ h.modifyCurrent ⟨h.current.part, h.current.nameFits⟩
    · exact htable ▸ h.save
  have hswitch : ∀ id, (s.switchTo id).2.table.Oversized := fun id =>
    s.table_switchTo id ▸ h.switch id
  cases op with
  | insertByte byte => exact hsame _ (sameFile_insertByte s byte)
  | insertChar c => exact hsame _ (sameFile_insertBytes s _)
  | insertTab => exact hsame _ (sameFile_insertBlanks s _)
  | deleteLeft => exact hsame _ (sameFile_deleteLeft s)
  | deleteRight => exact hsame _ (sameFile_deleteRight s)
  | moveLeft => exact hsame _ (sameFile_moveTo s _)
  | moveRight => exact hsame _ (sameFile_moveTo s _)
  | moveUp => exact hsame _ (sameFile_moveTo s _)
  | moveDown => exact hsame _ (sameFile_moveTo s _)
  | pageUp => exact hsame _ (sameFile_moveTo s _)
  | pageDown => exact hsame _ (sameFile_moveTo s _)
  | moveRowStart => exact hsame _ (sameFile_moveTo s _)
  | moveRowEnd => exact hsame _ (sameFile_moveTo s _)
  | moveDocumentStart => exact hsame _ (sameFile_moveTo s _)
  | moveDocumentEnd => exact hsame _ (sameFile_moveTo s _)
  | seek offset => exact hsame _ (sameFile_moveTo s _)
  | toggleSelection => exact h
  | copy => exact s.table_copy ▸ h
  | cut =>
      rcases s.table_cut with hsame | ⟨range, -, hcut⟩
      · exact hsame ▸ h
      · exact hcut ▸ h.edited ⟨_, _, rfl⟩
  | paste => exact hinsert s.clipboardFile
  | find needle => exact hsame _ (sameFile_find s needle)
  | replaceAll needle replacement => exact hsame _ (sameFile_replaceAll s needle replacement)
  | queryReplace needle replacement decisions =>
      exact hsame _ (sameFile_queryReplace s needle replacement decisions)
  | openFile name => exact (s.openFile_eq name).2 ▸ h.load
  | insertFile name => exact hinsert name
  | save =>
      by_cases hnamed : s.document.header.name = ""
      · rw [perform, save_of_unnamed hnamed]
        exact h
      · rw [perform, save_of_named hnamed]
        exact hsaveAs _ _
  | saveAs name force => exact hsaveAs name force
  | saveSelection name => exact s.table_saveSelection name ▸ h
  | switchTo id => exact hswitch id
  | cycle forward => exact hswitch (s.neighbour forward)
  | listDocuments => exact h.list.1
  | hasUnsavedChanges => exact h.list.1
  | resize rows cols => exact h
  | takeAlert => exact h
  | setStatus text => exact h
  | clearStatus => exact h

/-- Every operation leaves an orderly table. -/
theorem orderly_perform (h : s.table.Orderly) (op : SessionOp) : (s.perform op).table.Orderly :=
  h.imp (fun hwf => wellFormed_perform hwf op) fun hover => oversized_perform hover op

/-- **A session is orderly all along its course**, whatever size its segments have. -/
theorem orderly_course {options : SessionOptions} {storage : σ} {rows cols : Nat}
    (h : create options storage rows cols = .ok s) (ops : List SessionOp) :
    ∀ s' ∈ s.course ops, s'.table.Orderly := by
  have hops : s.Along (fun _ _ => True) ops := along_of_forall fun _ _ => trivial
  exact forall_mem_course (fun _ op hs _ => orderly_perform hs op)
    (SegmentTable.orderly_ofLayout (ofLayout_of_create h)) hops

end Session
end ScreenEditor
