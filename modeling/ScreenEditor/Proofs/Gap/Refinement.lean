import ScreenEditor.Proofs.Gap.Content

/-!
# A gap buffer is a list with a cursor

`CursorText` is the plain picture of a text under edit: a list of bytes, a caret, and the room
there is.  `GapBuffer.cursorText` forgets the gap and leaves that picture.

`cursorText_apply` is the simulation of one edit: forgetting the gap after the edit is the edit of
the picture, with the same answer.  `run_refines` follows for every sequence of edits of an empty
buffer, and adds what the readers find afterwards.
-/

namespace ScreenEditor

/-- An edit of a text, or a motion of its caret.  `repack` gives up the storage and the gap and
builds a buffer from them again. -/
inductive GapEdit where
  | insert (byte : UInt8)
  | insertAll (bytes : List UInt8)
  | deleteLeft
  | deleteRight
  | deleteRange (lo hi : Nat)
  | seek (target : Nat)
  | overwrite (offset : Nat) (byte : UInt8)
  | reset
  | repack
  deriving DecidableEq, Repr

/-- What an edit answers. -/
inductive EditAnswer where
  | done
  | removed (byte : UInt8)
  | refused
  deriving DecidableEq, Repr

/-- The answers of a sequence of edits, and what they leave. -/
def runEdits {α : Type} (step : α → GapEdit → EditAnswer × α) :
    α → List GapEdit → List EditAnswer × α
  | a, [] => ([], a)
  | a, edit :: edits =>
      let (answer, a) := step a edit
      let (answers, a) := runEdits step a edits
      (answer :: answers, a)

/-- A list of bytes with a caret, in a fixed amount of room. -/
structure CursorText where
  capacity : Nat
  text : List UInt8
  caret : Nat
  deriving DecidableEq, Repr

namespace CursorText

/-- No text. -/
def empty (capacity : Nat) : CursorText := ⟨capacity, [], 0⟩

/-- Put bytes before the caret if there is room for all of them. -/
def insertAll (t : CursorText) (bytes : List UInt8) : EditAnswer × CursorText :=
  if t.text.length + bytes.length ≤ t.capacity then
    (.done, { t with
      text := t.text.take t.caret ++ bytes ++ t.text.drop t.caret
      caret := t.caret + bytes.length })
  else (.refused, t)

/-- Remove the byte at an offset, if the text has it, and leave the caret there. -/
def removeAt (t : CursorText) (offset : Nat) : EditAnswer × CursorText :=
  match t.text[offset]? with
  | some byte => (.removed byte, { t with text := t.text.eraseIdx offset, caret := offset })
  | none => (.refused, t)

/-- An edit of a list with a caret. -/
def apply (t : CursorText) : GapEdit → EditAnswer × CursorText
  | .insert byte => t.insertAll [byte]
  | .insertAll bytes => t.insertAll bytes
  | .deleteLeft => if t.caret = 0 then (.refused, t) else t.removeAt (t.caret - 1)
  | .deleteRight => t.removeAt t.caret
  | .deleteRange lo hi =>
      if lo ≤ hi ∧ hi ≤ t.text.length then
        (.done, { t with text := t.text.take lo ++ t.text.drop hi, caret := lo })
      else (.refused, t)
  | .seek target =>
      if target ≤ t.text.length then (.done, { t with caret := target }) else (.refused, t)
  | .overwrite offset byte => (.done, { t with text := t.text.set offset byte })
  | .reset => (.done, { t with text := [], caret := 0 })
  | .repack => (.done, t)

end CursorText

namespace GapBuffer

/-- The answer to an edit that leaves a buffer or is refused. -/
def answerDone (g : GapBuffer) : Option GapBuffer → EditAnswer × GapBuffer
  | some edited => (.done, edited)
  | none => (.refused, g)

/-- The answer to an edit that removes a byte or is refused. -/
def answerRemoved (g : GapBuffer) : Option (UInt8 × GapBuffer) → EditAnswer × GapBuffer
  | some (byte, edited) => (.removed byte, edited)
  | none => (.refused, g)

/-- An edit of a gap buffer. -/
def apply (g : GapBuffer) : GapEdit → EditAnswer × GapBuffer
  | .insert byte => g.answerDone (g.insert? byte)
  | .insertAll bytes => g.answerDone (g.insertAll? bytes)
  | .deleteLeft => g.answerRemoved g.deleteLeft?
  | .deleteRight => g.answerRemoved g.deleteRight?
  | .deleteRange lo hi => g.answerDone (g.deleteRange? lo hi)
  | .seek target => g.answerDone (g.seek? target)
  | .overwrite offset byte => (.done, g.writeAt (g.rawIndex offset) byte)
  | .reset => (.done, g.reset)
  | .repack => (.done, ofStorage g.storage g.gapBegin g.gapEnd)

/-- The buffer without its gap. -/
def cursorText (g : GapBuffer) : CursorText := ⟨g.capacity, g.content, g.caret⟩

/-! ## One edit -/

/-- A buffer is pictured by its two lists. -/
theorem cursorText_of_lists {g : GapBuffer} {before after : List UInt8} (hb : g.before = before)
    (ha : g.after = after) : g.cursorText = ⟨g.capacity, before ++ after, before.length⟩ := by
  rw [cursorText, content, hb, ha, caret_eq, ← length_before g, hb]

/-- Bytes that fit go in at the cursor. -/
theorem cursorText_insertAll (g : GapBuffer) (bytes : List UInt8) (h : bytes.length ≤ g.free) :
    (.done, (g.insertAll bytes).cursorText) = g.cursorText.insertAll bytes := by
  have hroom := length_add_free g
  have hcaret := caret_le_length g
  rw [cursorText_of_lists (before_insertAll g h) (after_insertAll g bytes), CursorText.insertAll,
    if_pos (by simp only [cursorText, length_content]; omega)]
  simp [cursorText, before_eq_take, after_eq_drop, hcaret]

/-- Bytes that do not fit are refused as a whole. -/
theorem refused_insertAll (g : GapBuffer) (bytes : List UInt8) (h : ¬ bytes.length ≤ g.free) :
    (.refused, g.cursorText) = g.cursorText.insertAll bytes := by
  have hroom := length_add_free g
  rw [CursorText.insertAll, if_neg (by simp only [cursorText, length_content]; omega)]

/-- Removing the byte between two lists. -/
theorem removeAt_append (capacity caret : Nat) (before after : List UInt8) (byte : UInt8) :
    CursorText.removeAt ⟨capacity, before ++ byte :: after, caret⟩ before.length
      = (.removed byte, ⟨capacity, before ++ after, before.length⟩) := by
  simp [CursorText.removeAt, List.eraseIdx_append_of_length_le]

/-- The byte before the cursor goes, if there is one. -/
theorem cursorText_deleteLeft (g : GapBuffer) :
    Prod.map id cursorText (g.apply .deleteLeft) = g.cursorText.apply .deleteLeft := by
  cases hd : g.deleteLeft? with
  | none =>
      have hnil := (deleteLeft?_eq_none_iff g).mp hd
      have hcaret : g.caret = 0 := by rw [caret_eq, ← length_before g, hnil]; rfl
      simp [apply, hd, answerRemoved, CursorText.apply, cursorText, hcaret]
  | some found =>
      obtain ⟨byte, g'⟩ := found
      obtain ⟨hb, ha, hcap⟩ := of_deleteLeft? hd
      have hleft : g.cursorText
          = ⟨g.capacity, g'.before ++ byte :: g'.after, g'.before.length + 1⟩ := by
        rw [cursorText_of_lists hb ha.symm]
        simp
      simp only [apply, hd, answerRemoved, CursorText.apply, hleft, Prod.map, id]
      rw [if_neg (by simp), Nat.add_sub_cancel, removeAt_append, cursorText_of_lists rfl rfl, hcap]

/-- The byte at the cursor goes, if there is one. -/
theorem cursorText_deleteRight (g : GapBuffer) :
    Prod.map id cursorText (g.apply .deleteRight) = g.cursorText.apply .deleteRight := by
  cases hd : g.deleteRight? with
  | none =>
      have hnil := (deleteRight?_eq_none_iff g).mp hd
      have hend : g.content[g.caret]? = none := by
        rw [List.getElem?_eq_none_iff, content, hnil, caret_eq]
        simp
      simp [apply, hd, answerRemoved, CursorText.apply, CursorText.removeAt, cursorText, hend]
  | some found =>
      obtain ⟨byte, g'⟩ := found
      obtain ⟨ha, hb, hcap⟩ := of_deleteRight? hd
      simp only [apply, hd, answerRemoved, CursorText.apply, Prod.map, id]
      rw [cursorText_of_lists hb.symm ha, removeAt_append, cursorText_of_lists rfl rfl, hcap]

/-- Every edit of a buffer is the edit of its picture, with the same answer. -/
theorem cursorText_apply (g : GapBuffer) (edit : GapEdit) :
    Prod.map id cursorText (g.apply edit) = g.cursorText.apply edit := by
  cases edit with
  | insert byte =>
      simp only [apply, CursorText.apply, insert?]
      split
      · next room =>
        have hall : g.insertAll [byte] = g.insert byte room := by simp [insertAll, room]
        simp only [answerDone, Prod.map, id]
        rw [← hall, cursorText_insertAll g [byte] (by rw [free_eq, List.length_singleton]; omega)]
      · next full =>
        exact refused_insertAll g [byte] (by rw [free_eq, List.length_singleton]; omega)
  | insertAll bytes =>
      simp only [apply, CursorText.apply, insertAll?]
      split
      · next h => exact cursorText_insertAll g bytes h
      · next h => exact refused_insertAll g bytes h
  | deleteLeft => exact cursorText_deleteLeft g
  | deleteRight => exact cursorText_deleteRight g
  | deleteRange lo hi =>
      have hlen : g.cursorText.text.length = g.length := length_content g
      simp only [apply, CursorText.apply, deleteRange?, hlen]
      split
      · next h =>
        have hlo : min lo g.length = lo := by omega
        simp only [answerDone, Prod.map, id]
        rw [cursorText_of_lists (before_deleteRange g h.1 h.2) (after_deleteRange g h.1 h.2)]
        simp [cursorText, hlo]
      · rfl
  | seek target =>
      have hlen : g.cursorText.text.length = g.length := length_content g
      simp only [apply, CursorText.apply, seek?, hlen]
      split
      · next h => simp [answerDone, cursorText, caret_seek g h]
      · rfl
  | overwrite offset byte =>
      simp [apply, CursorText.apply, cursorText, content_writeAt_rawIndex]
  | reset => simp [apply, CursorText.apply, cursorText, content, reset, caret, before, after,
      capacity]
  | repack => simp [apply, CursorText.apply]

/-- A refused edit changes nothing, stale bytes in the gap included. -/
theorem apply_refused {g : GapBuffer} {edit : GapEdit} (h : (g.apply edit).1 = .refused) :
    (g.apply edit).2 = g := by
  have hdone : ∀ o, (g.answerDone o).1 = .refused → (g.answerDone o).2 = g := by
    intro o ho
    cases o with
    | none => rfl
    | some edited => simp [answerDone] at ho
  have hremoved : ∀ o, (g.answerRemoved o).1 = .refused → (g.answerRemoved o).2 = g := by
    intro o ho
    cases o with
    | none => rfl
    | some found => simp [answerRemoved] at ho
  cases edit with
  | insert byte => exact hdone _ h
  | insertAll bytes => exact hdone _ h
  | deleteLeft => exact hremoved _ h
  | deleteRight => exact hremoved _ h
  | deleteRange lo hi => exact hdone _ h
  | seek target => exact hdone _ h
  | overwrite offset byte => simp [apply] at h
  | reset => simp [apply] at h
  | repack => simp [apply] at h

/-! ## Sequences of edits -/

/-- The picture of a buffer after a sequence of edits is the picture edited. -/
theorem cursorText_runEdits (g : GapBuffer) (edits : List GapEdit) :
    Prod.map id cursorText (runEdits apply g edits)
      = runEdits CursorText.apply g.cursorText edits := by
  induction edits generalizing g with
  | nil => rfl
  | cons edit edits ih =>
      have hstep := cursorText_apply g edit
      have hrest := ih (g.apply edit).2
      simp only [runEdits, ← hstep, Prod.map, id] at hrest ⊢
      rw [← hrest]

/-- A new buffer stands for an empty text. -/
theorem cursorText_empty (capacity : Nat) :
    (empty capacity).cursorText = CursorText.empty capacity := by
  rw [cursorText_of_lists (before_empty capacity) (after_empty capacity)]
  simp [CursorText.empty]

/-- No edit changes the room that a text has. -/
theorem CursorText.capacity_apply (t : CursorText) (edit : GapEdit) :
    (t.apply edit).2.capacity = t.capacity := by
  have hinsert : ∀ bytes, (t.insertAll bytes).2.capacity = t.capacity := by
    intro bytes
    unfold CursorText.insertAll
    split <;> rfl
  have hremove : ∀ k, (t.removeAt k).2.capacity = t.capacity := by
    intro k
    unfold CursorText.removeAt
    split <;> rfl
  cases edit with
  | insert byte => exact hinsert _
  | insertAll bytes => exact hinsert _
  | deleteLeft =>
      simp only [CursorText.apply]
      split
      · rfl
      · exact hremove _
  | deleteRight => exact hremove _
  | deleteRange lo hi =>
      simp only [CursorText.apply]
      split <;> rfl
  | seek target =>
      simp only [CursorText.apply]
      split <;> rfl
  | overwrite offset byte => rfl
  | reset => rfl
  | repack => rfl

/-- No edit changes the capacity. -/
theorem CursorText.capacity_runEdits (t : CursorText) (edits : List GapEdit) :
    (runEdits CursorText.apply t edits).2.capacity = t.capacity := by
  induction edits generalizing t with
  | nil => rfl
  | cons edit edits ih => exact (ih _).trans (CursorText.capacity_apply t edit)

/-- Every reader of a buffer finds the list, and the gap is within the storage. -/
structure Shows (g : GapBuffer) (t : CursorText) : Prop where
  gapBegin_le : g.gapBegin ≤ g.gapEnd
  gapEnd_le : g.gapEnd ≤ t.capacity
  room : g.length + g.free = t.capacity
  length : g.length = t.text.length
  caret : g.caret = t.caret
  content : g.content = t.text
  slices : g.before ++ g.after = t.text
  byteAt : ∀ k, g.byteAt? k = t.text[k]?
  range : ∀ lo hi, g.contentRange lo hi = (t.text.take hi).drop lo
  bytesFrom : ∀ k, g.bytesFrom k = t.text.drop k
  cell : ∀ k, k < t.text.length →
    t.text[k]? = some (g.readAt (g.rawIndex k)) ∧ g.offset? (g.rawIndex k) = some k
  noOffset : ∀ raw, g.offset? raw = none ↔
    (g.gapBegin ≤ raw ∧ raw < g.gapEnd) ∨ t.capacity ≤ raw

/-- What a buffer answers is read off the text that it stands for. -/
theorem shows_cursorText (g : GapBuffer) : g.Shows g.cursorText where
  gapBegin_le := g.gapBegin_le_gapEnd
  gapEnd_le := g.gapEnd_le_size
  room := length_add_free g
  length := (length_content g).symm
  caret := rfl
  content := rfl
  slices := rfl
  byteAt := byteAt?_eq g
  range := contentRange_eq g
  bytesFrom := bytesFrom_eq g
  cell := by
    intro k hk
    have hk' : k < g.length := by rwa [← length_content g]
    exact ⟨getElem?_content g hk', offset?_rawIndex g hk'⟩
  noOffset := offset?_eq_none_iff g

/-- **A gap buffer refines a list with a cursor.**  Every sequence of edits of an empty buffer gets
the answers that the list gets; afterwards the readers find the list, the capacity is the one the
buffer began with, and an edit that is refused changes nothing. -/
theorem run_refines (capacity : Nat) (edits : List GapEdit) :
    let (answers, g) := runEdits apply (empty capacity) edits
    let (expected, t) := runEdits CursorText.apply (CursorText.empty capacity) edits
    answers = expected ∧ g.Shows t ∧ g.capacity = capacity ∧ t.capacity = capacity ∧
      ∀ edit, (g.apply edit).1 = (t.apply edit).1 ∧
        ((g.apply edit).1 = .refused → (g.apply edit).2 = g) := by
  have hrun := cursorText_runEdits (empty capacity) edits
  rw [cursorText_empty] at hrun
  have hcap := CursorText.capacity_runEdits (CursorText.empty capacity) edits
  rw [← hrun] at hcap ⊢
  refine ⟨rfl, shows_cursorText _, hcap, hcap, ?_⟩
  intro edit
  exact ⟨congrArg Prod.fst (cursorText_apply _ edit), apply_refused⟩

end GapBuffer
end ScreenEditor
