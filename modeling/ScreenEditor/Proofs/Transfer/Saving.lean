import ScreenEditor.Proofs.Transfer.Loading
import ScreenEditor.Transfer.Save

/-!
# What saving leaves alone

Saving makes the parts of a document active one after the other and renames them at the end.  It
touches no text, and the segment that was active is active again (`save_spec`), whether it succeeds
or not and whatever the storage does.  A save that fails changes no header either
(`agrees_of_save_error`), and says which file it failed for (`fileName?_of_save_error`).
-/

namespace ScreenEditor

namespace Save

open SegmentTable

variable {σ : Type} [Storage σ] {t : SegmentTable}

/-- The parts are listed without changing them. -/
theorem agrees_savedParts (h : t.WellFormed) (range : Option Span) :
    t.Agrees (savedParts t range).2 ∧ (savedParts t range).2.active = t.active := by
  rw [savedParts]
  split
  · obtain ⟨-, -, -, hagrees, hactive⟩ := parts_spec h t.current.header.name
    exact ⟨hagrees, hactive⟩
  · exact ⟨Agrees.refl h, rfl⟩

/-- Writing parts makes one after the other active and changes nothing. -/
theorem agrees_writeParts (h : t.WellFormed) (name : String) (settings : TransferSettings)
    (range : Option Span) (w : Writer σ) (ids : List Nat) :
    t.Agrees (writeParts name settings range t w ids).1 := by
  induction ids generalizing t w with
  | nil => exact Agrees.refl h
  | cons id ids ih =>
      have hswitch := h.agrees_switch id
      rw [writeParts]
      split
      · exact hswitch
      · next w' count hw =>
        have hrest := hswitch.trans (ih hswitch.wellFormed w')
        split
        · next t' e heq =>
          rw [heq] at hrest
          exact hrest
        · next t' w'' more heq =>
          rw [heq] at hrest
          exact hrest

/-- A new name leaves the texts. -/
theorem sameTexts_rename (h : t.WellFormed) (ids : List Nat) (name : String) :
    t.SameTexts (rename t ids name) :=
  sameTexts_modifyHeaders h
    (f := fun header => { header.setName name with modified := false, awaitsOverwrite := false })
    (fun header _ => Header.nameFits_setName header name) ids

end Save

/-- **Saving touches no text**, and the segment that was active is active again. -/
theorem save_spec {σ : Type} [Storage σ] {t : SegmentTable} (h : t.WellFormed) (store : σ)
    (name : String) (range : Option Span) (settings : TransferSettings) :
    t.SameTexts (t.save store name range settings).2.1 ∧
      (t.save store name range settings).2.1.active = t.active := by
  have hparts := (Save.agrees_savedParts h range).1.sameTexts
  have hactive := (Save.agrees_savedParts h range).2
  rw [SegmentTable.save]
  generalize Save.savedParts t range = saved at hparts hactive ⊢
  obtain ⟨ids, t₁⟩ := saved
  simp only at hparts hactive ⊢
  split
  · exact ⟨hparts, hactive⟩
  · next stream store' hopen =>
    have hwrite := Save.agrees_writeParts hparts.wellFormed name settings range
      ⟨stream, store', 0⟩ ids
    have hall := hparts.trans hwrite.sameTexts
    generalize Save.writeParts name settings range t₁ ⟨stream, store', 0⟩ ids = written at hall ⊢
    obtain ⟨t₂, result⟩ := written
    cases result with
    | error failed => exact hall.switchBack
    | ok done =>
        simp only
        split
        · exact hall.switchBack
        · split
          · exact (hall.trans (Save.sameTexts_rename hall.wellFormed ids name)).switchBack
          · exact hall.switchBack

/-- **A save that fails changes nothing.** -/
theorem agrees_of_save_error {σ : Type} [Storage σ] {t : SegmentTable} (h : t.WellFormed)
    {store : σ} {name : String} {range : Option Span} {settings : TransferSettings}
    {e : EditorError} (hsave : (t.save store name range settings).1 = .error e) :
    t.Agrees (t.save store name range settings).2.1 := by
  have hparts := (Save.agrees_savedParts h range).1
  rw [SegmentTable.save] at hsave ⊢
  generalize Save.savedParts t range = saved at hparts hsave ⊢
  obtain ⟨ids, t₁⟩ := saved
  simp only at hparts hsave ⊢
  split at hsave
  · exact hparts
  · next stream store' hopen =>
    have hwrite := Save.agrees_writeParts hparts.wellFormed name settings range
      ⟨stream, store', 0⟩ ids
    have hall := hparts.trans hwrite
    generalize Save.writeParts name settings range t₁ ⟨stream, store', 0⟩ ids = written
      at hall hsave ⊢
    obtain ⟨t₂, result⟩ := written
    have hback := hall.trans (hall.wellFormed.agrees_switch t.active)
    cases result with
    | error failed => exact hback
    | ok done =>
        simp only at hsave ⊢
        split at hsave
        · exact hback
        · cases hsave

/-! ## Errors -/

/-- The file that an error is about. -/
def EditorError.fileName? : EditorError → Option String
  | .notFound name | .file name _ _ | .shortWrite name _ _ => some name
  | _ => none

/-- A fault is reported with the name of the file. -/
theorem EditorError.fileName?_ofFault (name : String) (action : FileAction) (fault : FileFault) :
    (EditorError.ofFault name action fault).fileName? = some name := by
  rw [EditorError.ofFault]
  split <;> rfl

namespace Save

variable {σ : Type} [Storage σ] {name : String} {settings : TransferSettings} {w : Writer σ}
  {failed : Failed σ}

/-- Two steps fail when the first does, or when it succeeds and the second fails. -/
theorem of_bind_error {ε α β : Type} {x : Except ε α} {f : α → Except ε β} {e : ε}
    (h : x >>= f = .error e) : x = .error e ∨ ∃ a, x = .ok a ∧ f a = .error e := by
  cases x with
  | error e' => exact .inl (congrArg Except.error (Except.error.inj h))
  | ok a => exact .inr ⟨a, rfl, h⟩

/-- A failed write names its file. -/
theorem fileName?_of_writeBytes_error {expected : Nat} {bytes : List UInt8}
    (h : writeBytes name expected w bytes = .error failed) :
    failed.1.fileName? = some name := by
  fun_induction writeBytes name expected w bytes with
  | case1 => cases h
  | case2 w bytes hne fault hwrite =>
      obtain rfl := Except.error.inj h
      exact EditorError.fileName?_ofFault name .writing fault
  | case3 =>
      obtain rfl := Except.error.inj h
      rfl
  | case4 =>
      rename_i ih
      exact ih h

/-- So does a run of them. -/
theorem fileName?_of_writeRun_error {text : List UInt8}
    (h : writeRun name settings w text = .error failed) : failed.1.fileName? = some name := by
  rw [writeRun] at h
  generalize pieces (max settings.writeChunk 1) text = ps at h
  generalize { w with written := 0 } = w at h
  induction ps generalizing w with
  | nil => cases h
  | cons piece ps ih =>
      rw [List.foldlM_cons] at h
      rcases of_bind_error h with hpiece | ⟨next, -, hrest⟩
      · exact fileName?_of_writeBytes_error hpiece
      · exact ih next hrest

/-- So does a range. -/
theorem fileName?_of_writeRange_error {g : GapBuffer} {range : Span}
    (h : writeRange name settings w g range = .error failed) :
    failed.1.fileName? = some name := by
  rcases of_bind_error h with hfirst | ⟨middle, -, h⟩
  · exact fileName?_of_writeRun_error hfirst
  · rcases of_bind_error h with hsecond | ⟨last, -, h⟩
    · exact fileName?_of_writeRun_error hsecond
    · cases h

/-- So does a whole document, whichever of its parts failed. -/
theorem fileName?_of_writeParts_error {t t' : SegmentTable} {range : Option Span} {ids : List Nat}
    (h : writeParts name settings range t w ids = (t', .error failed)) :
    failed.1.fileName? = some name := by
  induction ids generalizing t t' w with
  | nil => cases h
  | cons id ids ih =>
      rw [writeParts] at h
      split at h
      · next hrange =>
        obtain ⟨-, hfailed⟩ := Prod.mk.inj h
        obtain rfl := Except.error.inj hfailed
        exact fileName?_of_writeRange_error hrange
      · split at h
        · next hrest =>
          obtain ⟨-, hfailed⟩ := Prod.mk.inj h
          obtain rfl := Except.error.inj hfailed
          exact ih hrest
        · cases (Prod.mk.inj h).2

end Save

/-- **A save that fails says which file it failed for.** -/
theorem fileName?_of_save_error {σ : Type} [Storage σ] {t : SegmentTable} {store : σ}
    {name : String} {range : Option Span} {settings : TransferSettings} {e : EditorError}
    (hsave : (t.save store name range settings).1 = .error e) : e.fileName? = some name := by
  rw [SegmentTable.save] at hsave
  simp only at hsave
  split at hsave
  · obtain rfl := Except.error.inj hsave
    exact EditorError.fileName?_ofFault _ _ _
  · split at hsave
    · next hwrite =>
      obtain rfl := Except.error.inj hsave
      exact Save.fileName?_of_writeParts_error hwrite
    · split at hsave
      · obtain rfl := Except.error.inj hsave
        exact EditorError.fileName?_ofFault _ _ _
      · cases hsave

end ScreenEditor
