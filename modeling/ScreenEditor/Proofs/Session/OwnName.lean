import ScreenEditor.Proofs.Session.Chains
import ScreenEditor.Proofs.Session.Oversized
import ScreenEditor.Proofs.Session.Refusals
import ScreenEditor.Proofs.Transfer.Elsewhere

/-!
# Saving goes back to the file

A document bears the name under which it was opened or last saved, as far as a document can keep a
name (`Header.clipName`).  Only opening a file, saving under another name and switching change the
active segment or its name; whatever else happens in between, a save goes back to the file of that
name, and to no other.  Names and parts pass through the control blocks of segments of any size, so
this holds in every orderly table.

A name of more than `maxNameBytes` bytes is kept only in part, so the file that is saved is not the
one that was opened (`Session.not_save_opened_long`).

## Main results

* `Session.keepsName_perform`: an operation that stays with the file keeps the name.
* `Session.save_opened`: what a save after opening or saving writes.
-/

namespace ScreenEditor

/-- The operation opens no other file, saves under no other name, and switches to no other
segment. -/
def SessionOp.StaysWithFile : SessionOp → Prop
  | .openFile _ | .saveAs _ _ | .switchTo _ | .cycle _ => False
  | _ => True

instance : DecidablePred SessionOp.StaysWithFile
  | .openFile _ | .saveAs _ _ | .switchTo _ | .cycle _ => isFalse id
  | .insertByte _ | .insertChar _ | .insertTab | .deleteLeft | .deleteRight | .moveLeft
  | .moveRight | .moveUp | .moveDown | .pageUp | .pageDown | .moveRowStart | .moveRowEnd
  | .moveDocumentStart | .moveDocumentEnd | .seek _ | .toggleSelection | .copy | .cut | .paste
  | .find _ | .replaceAll _ _ | .queryReplace _ _ _ | .insertFile _ | .save | .saveSelection _
  | .listDocuments | .hasUnsavedChanges | .resize _ _ | .takeAlert | .setStatus _
  | .clearStatus => isTrue trivial

/-- The table `t'` has the same segment active as `t`, with the same name. -/
structure SegmentTable.KeepsName (t t' : SegmentTable) : Prop where
  active : t'.active = t.active
  name : t'.current.header.name = t.current.header.name

theorem SegmentTable.KeepsName.refl (t : SegmentTable) : t.KeepsName t := ⟨rfl, rfl⟩

/-- The same documents have the same names. -/
theorem SegmentTable.SameDocuments.keepsName {t t' : SegmentTable} (h : t.SameDocuments t') :
    t.KeepsName t' := by
  have hname := (h.documents t.active has_active).name
  rw [document_active, ← h.active, document_active] at hname
  exact ⟨h.active, hname⟩

/-- An edit leaves the name. -/
theorem SegmentTable.Edited.keepsName {t t' : SegmentTable} (h : t.Edited t') :
    t.KeepsName t' := by
  obtain ⟨g, modified, rfl⟩ := h
  exact ⟨rfl, rfl⟩

/-- A load names the document, and leaves the same segment active. -/
theorem SegmentTable.Orderly.of_load_ok {σ : Type} [Storage σ] {t : SegmentTable} (h : t.Orderly)
    {store : σ} {name : String} {mode : LoadMode} {settings : TransferSettings}
    {report : LoadReport}
    (hload : (t.load store name mode settings).1 = .ok report) :
    (t.load store name mode settings).2.1.active = t.active ∧
      (t.load store name mode settings).2.1.current.header.name = Load.title t name mode := by
  rcases h with hwf | hover
  · have hspread := spread_of_load_ok hwf hload
    exact ⟨hspread.active, hspread.current_name hwf⟩
  · exact (hover.load_ok hload).2

/-- A save names the document, and leaves the same segment active. -/
theorem SegmentTable.Orderly.of_save_ok {σ : Type} [Storage σ] {t : SegmentTable} (h : t.Orderly)
    {store : σ} {name : String} {settings : TransferSettings} {written : Nat}
    (hsave : (t.save store name none settings).1 = .ok written) :
    (t.save store name none settings).2.1.active = t.active ∧
      (t.save store name none settings).2.1.current.header.name = Header.clipName name := by
  rcases h with hwf | hover
  · have hrenamed := renamed_of_save_ok hwf hsave
    exact ⟨hrenamed.active, hrenamed.current_header.2⟩
  · have htable := hover.table_save store name settings
    rw [hsave] at htable
    rw [htable]
    exact ⟨rfl, rfl⟩

namespace Session

variable {σ : Type} {s : Session σ}

theorem SameFile.keepsName {s' : Session σ} (h : s.SameFile s') : s.table.KeepsName s'.table :=
  h.edited.keepsName

/-- A listing goes through all segments and comes back. -/
theorem keepsName_listDocuments (h : s.table.Orderly) :
    s.table.KeepsName s.listDocuments.2.table := by
  refine ⟨s.table.active_list, ?_⟩
  rcases h with hwf | hover
  · obtain ⟨-, hagrees, hactive⟩ := SegmentTable.list_spec hwf
    exact congrArg (·.header.name) (hagrees.current_eq hactive)
  · exact congrArg Header.name hover.list.2

variable [Storage σ]

theorem keepsName_cut : s.table.KeepsName s.cut.2.table := by
  rcases s.table_cut with hsame | ⟨range, -, hcut⟩
  · exact hsame ▸ .refl _
  · exact hcut ▸ ⟨rfl, rfl⟩

/-- A file that is inserted becomes part of the document at hand. -/
theorem keepsName_insertFile (h : s.table.Orderly) (name : String) :
    s.table.KeepsName (s.insertFile name).2.table := by
  obtain ⟨-, htable⟩ := s.insertFile_eq name
  rw [htable]
  cases hload : (s.table.load s.storage name .insert s.transfer).1 with
  | ok report =>
      obtain ⟨hactive, hname⟩ := h.of_load_ok hload
      exact ⟨hactive, hname⟩
  | error e =>
      rcases h with hwf | hover
      · exact (SegmentTable.SameDocuments.of_restored (load_error hwf hload)).keepsName
      · exact (hover.load_error hload).keepsName

/-- A document that is saved under its own name keeps it. -/
theorem keepsName_save (h : s.table.Orderly) : s.table.KeepsName s.save.2.table := by
  cases hsave : s.save.1 with
  | ok written =>
      obtain ⟨hsaved, htable⟩ := saved_of_save_ok hsave
      obtain ⟨hactive, hname⟩ := h.of_save_ok hsaved
      rw [htable]
      exact ⟨hactive, hname.trans ((Header.clipName_eq_self_iff _).mpr h.nameFits)⟩
  | error e =>
      rcases h with hwf | hover
      · have hrefused : s.save.1.isOk = false := by rw [hsave]; rfl
        exact (sameDocuments_save hwf hrefused).keepsName
      · by_cases hnamed : s.document.header.name = ""
        · rw [save_of_unnamed hnamed]
          exact .refl _
        · rw [save_of_named hnamed] at hsave ⊢
          rcases s.saveAs_cases s.document.header.name true with ⟨-, -, htable⟩ | ⟨hresult, htable⟩
          · exact htable ▸ ⟨rfl, rfl⟩
          · have hkept := hover.table_save s.storage s.document.header.name s.transfer
            rw [← hresult, hsave] at hkept
            rw [htable, hkept]
            exact .refl _

/-- **An operation that stays with the file keeps the name.** -/
theorem keepsName_perform (h : s.table.Orderly) {op : SessionOp} (hop : op.StaysWithFile) :
    s.table.KeepsName (s.perform op).table := by
  cases op with
  | insertByte byte => exact (sameFile_insertByte s byte).keepsName
  | insertChar c => exact (sameFile_insertBytes s _).keepsName
  | insertTab => exact (sameFile_insertBlanks s _).keepsName
  | deleteLeft => exact (sameFile_deleteLeft s).keepsName
  | deleteRight => exact (sameFile_deleteRight s).keepsName
  | moveLeft => exact (sameFile_moveTo s _).keepsName
  | moveRight => exact (sameFile_moveTo s _).keepsName
  | moveUp => exact (sameFile_moveTo s _).keepsName
  | moveDown => exact (sameFile_moveTo s _).keepsName
  | pageUp => exact (sameFile_moveTo s _).keepsName
  | pageDown => exact (sameFile_moveTo s _).keepsName
  | moveRowStart => exact (sameFile_moveTo s _).keepsName
  | moveRowEnd => exact (sameFile_moveTo s _).keepsName
  | moveDocumentStart => exact (sameFile_moveTo s _).keepsName
  | moveDocumentEnd => exact (sameFile_moveTo s _).keepsName
  | seek offset => exact (sameFile_moveTo s _).keepsName
  | toggleSelection => exact .refl _
  | copy => exact s.table_copy ▸ .refl _
  | cut => exact keepsName_cut
  | paste => exact keepsName_insertFile h s.clipboardFile
  | find needle => exact (sameFile_find s needle).keepsName
  | replaceAll needle replacement => exact (sameFile_replaceAll s needle replacement).keepsName
  | queryReplace needle replacement decisions =>
      exact (sameFile_queryReplace s needle replacement decisions).keepsName
  | openFile name => exact hop.elim
  | insertFile name => exact keepsName_insertFile h name
  | save => exact keepsName_save h
  | saveAs name force => exact hop.elim
  | saveSelection name => exact s.table_saveSelection name ▸ .refl _
  | switchTo id => exact hop.elim
  | cycle forward => exact hop.elim
  | listDocuments => exact keepsName_listDocuments h
  | hasUnsavedChanges => exact keepsName_listDocuments h
  | resize rows cols => exact .refl _
  | takeAlert => exact .refl _
  | setStatus text => exact .refl _
  | clearStatus => exact .refl _

/-! ## Naming a document -/

/-- A document that was opened bears the name of the file, as far as it can be kept. -/
theorem name_of_openFile_ok (h : s.table.Orderly) {name : String} {report : LoadReport}
    (hopen : (s.openFile name).1 = .ok report) :
    (s.openFile name).2.table.current.header.name = Header.clipName name := by
  obtain ⟨hresult, htable⟩ := s.openFile_eq name
  rw [hresult] at hopen
  rw [htable]
  exact (h.of_load_ok hopen).2

/-- So does a document that was saved. -/
theorem name_of_saveAs_ok (h : s.table.Orderly) {name : String} {force : Bool} {written : Nat}
    (hsave : (s.saveAs name force).1 = .ok written) :
    (s.saveAs name force).2.table.current.header.name = Header.clipName name := by
  obtain ⟨hsaved, htable⟩ := saved_of_saveAs_ok hsave
  rw [htable]
  exact (h.of_save_ok hsaved).2

/-- Operations that stay with the file keep the name that the document has. -/
theorem name_course {name : String} (h : s.table.Orderly)
    (hname : s.table.current.header.name = name) {ops : List SessionOp}
    (hops : ∀ op ∈ ops, op.StaysWithFile) :
    ∀ s' ∈ s.course ops, s'.table.Orderly ∧ s'.table.current.header.name = name := by
  refine forall_mem_course (P := fun _ op => op.StaysWithFile) ?_ ⟨h, hname⟩
    (along_of_forall hops)
  rintro s op ⟨horderly, hcurrent⟩ hop
  exact ⟨orderly_perform horderly op, (keepsName_perform horderly hop).name.trans hcurrent⟩

/-- What a save under the own name writes, and what it leaves. -/
theorem save_own {σ : Type} [SeparateStorage σ] {s : Session σ} (h : s.table.Orderly)
    {written : Nat} (hsave : s.save.1 = .ok written) :
    ∃ place, SeparateStorage.place? s.save.2.storage s.table.current.header.name = some place ∧
      SeparateStorage.stored s.save.2.storage place
        = some (s.transfer.lineEnding.convert (s.table.savedText none)) ∧
      ∀ other, other ≠ place → SeparateStorage.stored s.save.2.storage other
        = SeparateStorage.stored s.storage other := by
  obtain ⟨status, hsaved⟩ :=
    saveAs_of_not_putsOff (not_putsOff_forced s s.document.header.name)
  have hnamed := named_of_save_ok hsave
  rw [save_of_named hnamed, hsaved] at hsave ⊢
  exact save_elsewhere h hsave

/-- **Saving goes back to the file.**  A file was opened, or the document was saved under a name
with force, and then the session stayed with the file.  A save that succeeds then writes the file of
the name that the document keeps, which is the whole name if that takes at most `maxNameBytes`
bytes; it creates and changes no other file. -/
theorem save_opened {σ : Type} [SeparateStorage σ] {s s₀ s₁ s₂ : Session σ}
    {options : SessionOptions} {storage : σ} {rows cols : Nat}
    (h : create options storage rows cols = .ok s) {before after : List SessionOp} {name : String}
    (hreached : s₀ ∈ s.course before)
    (hfile : (∃ report, s₀.openFile name = (.ok report, s₁)) ∨
      ∃ written, s₀.saveAs name true = (.ok written, s₁))
    (hafter : ∀ op ∈ after, op.StaysWithFile) (hlater : s₂ ∈ s₁.course after) {written : Nat}
    (hsave : s₂.save.1 = .ok written) :
    ((Utf8.encode name).length ≤ maxNameBytes → Header.clipName name = name) ∧
      ∃ place,
        SeparateStorage.place? s₂.save.2.storage (Header.clipName name) = some place ∧
        SeparateStorage.stored s₂.save.2.storage place
          = some (s₂.transfer.lineEnding.convert (s₂.table.savedText none)) ∧
        ∀ other, other ≠ place → SeparateStorage.stored s₂.save.2.storage other
          = SeparateStorage.stored s₂.storage other := by
  have horderly := orderly_course h before s₀ hreached
  have hnamed : s₁.table.Orderly ∧ s₁.table.current.header.name = Header.clipName name := by
    rcases hfile with ⟨report, hopen⟩ | ⟨count, hsaved⟩
    · have hnext := orderly_perform horderly (.openFile name)
      have hname := name_of_openFile_ok horderly (congrArg Prod.fst hopen)
      rw [perform, hopen] at hnext
      rw [hopen] at hname
      exact ⟨hnext, hname⟩
    · have hnext := orderly_perform horderly (.saveAs name true)
      have hname := name_of_saveAs_ok horderly (congrArg Prod.fst hsaved)
      rw [perform, hsaved] at hnext
      rw [hsaved] at hname
      exact ⟨hnext, hname⟩
  obtain ⟨horderly₂, hname₂⟩ := name_course hnamed.1 hnamed.2 hafter s₂ hlater
  have hown := save_own horderly₂ hsave
  rw [hname₂] at hown
  exact ⟨(Header.clipName_eq_self_iff name).mpr, hown⟩

/-- A file is opened, changed and saved beside another file. -/
theorem save_opened_changed :
    let config := { Config.standard "" with segmentCapacity := 4, loadChunkSize := 1 }
    let storage := (Memory.empty.putFile "f" [97, 98]).putFile "g" [120]
    let after : List SessionOp := [.insertByte 99, .moveDocumentEnd]
    config.complaint? = none ∧
      ∃ s s₂ : Session Memory, create config.sessionOptions storage 2 3 = .ok s ∧
        (s.openFile "f").1.isOk = true ∧ s₂ ∈ (s.openFile "f").2.course after ∧
        s₂.save.1 = .ok 3 ∧ s₂.save.2.storage.file? "f" = some [99, 97, 98] ∧
          s₂.save.2.storage.file? "g" = some [120] := by
  intro config storage after
  have hnone : config.complaint? = none := by decide
  obtain ⟨s, s₂, hcreate, hopen, hlater, hsave, htext, hother⟩ : ∃ s s₂ : Session Memory,
      create config.sessionOptions storage 2 3 = .ok s ∧ (s.openFile "f").1.isOk = true ∧
        s₂ ∈ (s.openFile "f").2.course after ∧ s₂.save.1 = .ok 3 ∧
        s₂.transfer.lineEnding.convert (s₂.table.savedText none) = [99, 97, 98] ∧
        s₂.storage.file? "g" = some [120] :=
    ⟨_, _, rfl, by decide +kernel, List.mem_of_getElem? (i := 2) rfl, by decide +kernel,
      by decide +kernel, by decide +kernel⟩
  have hfile : ∃ report, s.openFile "f" = (.ok report, (s.openFile "f").2) := by
    cases hresult : (s.openFile "f").1 with
    | error e => rw [hresult] at hopen; cases hopen
    | ok report => exact ⟨report, Prod.ext hresult rfl⟩
  have hreached : s ∈ s.course [] := List.mem_cons_self
  obtain ⟨hclip, place, hplace, hstored, hkept⟩ :=
    save_opened hcreate hreached (.inl hfile) (by decide) hlater hsave
  rw [hclip (by decide)] at hplace
  obtain ⟨_, -, rfl⟩ := Option.map_eq_some_iff.mp hplace
  exact ⟨hnone, s, s₂, hcreate, hopen, hlater, hsave, hstored.trans (congrArg some htext),
    (hkept "g" (by decide)).trans hother⟩

/-- A longer name is not kept: the file that was opened stays as it was, and another one is
created. -/
theorem not_save_opened_long :
    let config := { Config.standard "" with segmentCapacity := 8, loadChunkSize := 4 }
    let name := String.ofList (List.replicate 65 'x')
    let short := String.ofList (List.replicate 64 'x')
    config.complaint? = none ∧
      ∃ s s₂ : Session Memory,
        create config.sessionOptions (Memory.empty.putFile name [97, 98]) 2 12 = .ok s ∧
        (s.openFile name).1.isOk = true ∧ s₂ ∈ (s.openFile name).2.course [.insertByte 99] ∧
        s₂.save.1 = .ok 3 ∧ s₂.save.2.storage.file? name = some [97, 98] ∧
          s₂.storage.file? short = none ∧ s₂.save.2.storage.file? short = some [99, 97, 98] := by
  intro config name short
  exact ⟨by decide, _, _, rfl, by decide +kernel, List.mem_of_getElem? (i := 1) rfl,
    by decide +kernel, by decide +kernel, by decide +kernel, by decide +kernel⟩

end Session
end ScreenEditor
