import ScreenEditor.Proofs.Transfer.Written

/-!
# Loads and saves that fail leave no trace

`Reachable` is a table that was made and then worked on, and files were loaded into it and saved
from it.  All of these keep a table well-formed, so what `load_error` says of well-formed tables
holds of every table there can be.  `Undone` says it of the documents: those in use are as they
were, and no unused one is taken into use.

A save only takes the parts of its document out one after the other until it is known that the file
was written and closed, so there is nothing to be taken back when it fails.

## Main results

* `SegmentTable.Reachable.wellFormed`: the invariant of tables.
* `load_undone`: a load that fails is undone, whatever made it fail.
* `save_changes_nothing`: a save that fails changes no document at all.
-/

namespace ScreenEditor

/-! ## Reachable tables -/

/-- The tables there can be: new ones with segments of less than 2³² bytes, and what operations,
loads and saves make of them, from and to any storage and whether they succeed or not. -/
inductive SegmentTable.Reachable : SegmentTable → Prop where
  | new {capacity : Nat} {present : List Bool} {t : SegmentTable} (hcap : capacity < 2 ^ 32)
      (hnew : ofLayout capacity present = .ok t) : Reachable t
  | perform {t : SegmentTable} (h : Reachable t) (op : TableOp) : Reachable (t.perform op).2
  | load {σ : Type} [Storage σ] {t : SegmentTable} (h : Reachable t) (store : σ) (name : String)
      (mode : LoadMode) (settings : TransferSettings) :
      Reachable (t.load store name mode settings).2.1
  | save {σ : Type} [Storage σ] {t : SegmentTable} (h : Reachable t) (store : σ) (name : String)
      (range : Option Span) (settings : TransferSettings) :
      Reachable (t.save store name range settings).2.1

namespace SegmentTable

variable {t : SegmentTable}

theorem Reachable.performAll (h : t.Reachable) (ops : List TableOp) :
    (ScreenEditor.performAll SegmentTable.perform t ops).2.Reachable := by
  induction ops generalizing t with
  | nil => exact h
  | cons op ops ih => exact ih (h.perform op)

/-- **Every reachable table is well-formed.** -/
theorem Reachable.wellFormed (h : t.Reachable) : t.WellFormed := by
  induction h with
  | new hcap hnew => exact (pictured_ofLayout hcap hnew).wellFormed
  | perform _ op ih => exact (ih.pictured.perform op).2.wellFormed
  | load _ store name mode settings ih => exact wellFormed_load ih store name mode settings
  | save _ store name range settings ih =>
      exact (save_spec ih store name range settings).1.wellFormed

end SegmentTable

/-! ## Undone loads -/

/-- The table `t'` has the documents of `t` that were in use, with their headers, texts and carets,
and no others in use; the same segment is active. -/
structure Undone (t t' : SegmentTable) : Prop where
  active : t'.active = t.active
  has : ∀ id, t'.has id = t.has id
  inUse : ∀ id, t.has id = true → (t.document id).isUnused = false →
    (t'.document id).plain = (t.document id).plain
  unused : ∀ id, t.has id = true → (t.document id).isUnused = true →
    (t'.document id).isUnused = true

/-- A text with the same sides of the caret is the same document but for the gap. -/
theorem Document.plain_congr {d d' : Document} (hheader : d'.header = d.header)
    (hbefore : d'.buffer.before = d.buffer.before) (hafter : d'.buffer.after = d.buffer.after) :
    d'.plain = d.plain := by
  have hcontent : d'.buffer.content = d.buffer.content := by
    rw [GapBuffer.content, hbefore, hafter, GapBuffer.content]
  have hcaret : d'.buffer.caret = d.buffer.caret := by
    rw [GapBuffer.caret_eq, ← GapBuffer.length_before, hbefore, GapBuffer.length_before,
      GapBuffer.caret_eq]
  rw [plain, hheader, hcontent, hcaret, plain]

theorem Restored.undone {t t' : SegmentTable} (h : Restored t t') : Undone t t' := by
  have hactive : (t'.document t.active).plain = (t.document t.active).plain := by
    have hdoc := SegmentTable.document_active t'
    rw [h.active] at hdoc
    rw [hdoc, SegmentTable.document_active]
    exact Document.plain_congr h.header h.before h.after
  refine ⟨h.active, SegmentTable.has_congr h.count, ?_, ?_⟩
  · intro id hid hused
    by_cases hne : id = t.active
    · rw [hne, hactive]
    · rcases h.others id hid hne with hsame | ⟨hunused, -⟩
      · rw [hsame]
      · exact absurd (hunused.symm.trans hused) Bool.noConfusion
  · intro id hid hunused
    by_cases hne : id = t.active
    · rw [hne] at hunused ⊢
      rw [← Document.isUnused_plain, hactive, Document.isUnused_plain, hunused]
    · rcases h.others id hid hne with hsame | ⟨-, hunused'⟩
      · rw [hsame, hunused]
      · exact hunused'

/-- **A load that fails is undone.**  Whether the file is missing, a read fails or the segments do
not suffice, for the file or for the text that followed the caret: the documents in use have their
headers, texts and carets, the unused ones are unused, and the same segment is active. -/
theorem load_undone {σ : Type} [Storage σ] {t : SegmentTable} (h : t.Reachable) {store : σ}
    {name : String} {mode : LoadMode} {settings : TransferSettings} {e : EditorError}
    (hload : (t.load store name mode settings).1 = .error e) :
    Undone t (t.load store name mode settings).2.1 :=
  (load_error h.wellFormed hload).undone

/-- The last of three segments takes the inserted bytes and then only a part of the text that
followed the caret. -/
theorem load_undone_tail :
    let ops : List TableOp := [.change (.rename "f"), .edit (.insertAll [97, 98, 99, 100]),
      .edit (.seek 1), .activate 2, .edit (.insert 120), .activate 1]
    let t := (performAll SegmentTable.perform (SegmentTable.unused 4 0 [1, 2]) ops).2
    let store := Memory.empty.putFile "g" [49, 50]
    let settings : TransferSettings := ⟨4, 4, 4, .lf⟩
    let t' := (t.load store "g" .insert settings).2.1
    (t.load store "g" .insert settings).1 = .error .outOfSegments ∧ t'.active = 1 ∧
      (t'.document 1).plain = ⟨⟨"f", false, false, 0⟩, [97, 98, 99, 100], 1⟩ ∧
      (t'.document 2).plain = ⟨⟨"", false, false, 0⟩, [120], 1⟩ ∧
      (t'.document 3).isUnused = true := by
  intro ops t store settings t'
  have hnew : SegmentTable.ofLayout 4 [true, true, true]
      = .ok (SegmentTable.unused 4 0 [1, 2]) := rfl
  have hreach : t.Reachable := (SegmentTable.Reachable.new (by decide) hnew).performAll ops
  have hload : (t.load store "g" .insert settings).1 = .error .outOfSegments := by decide +kernel
  have hundone := load_undone hreach hload
  refine ⟨hload, hundone.active.trans (by decide +kernel), ?_, ?_, ?_⟩
  · exact (hundone.inUse 1 (by decide +kernel) (by decide +kernel)).trans (by decide +kernel)
  · exact (hundone.inUse 2 (by decide +kernel) (by decide +kernel)).trans (by decide +kernel)
  · exact hundone.unused 3 (by decide +kernel) (by decide +kernel)

/-! ## Saves that fail -/

/-- **A save that fails changes no document.**  Whether the file cannot be opened, a write fails or
takes nothing, in whichever part, or the file cannot be closed: every segment has its header, text
and caret, and the same segment is active. -/
theorem save_changes_nothing {σ : Type} [Storage σ] {t : SegmentTable} (h : t.WellFormed)
    {store : σ} {name : String} {range : Option Span} {settings : TransferSettings}
    {e : EditorError} (hsave : (t.save store name range settings).1 = .error e) :
    let t' := (t.save store name range settings).2.1
    t'.active = t.active ∧ t'.capacity = t.capacity ∧ (∀ id, t'.has id = t.has id) ∧
      ∀ id, t.has id = true → t'.document id = t.document id := by
  have hagrees := agrees_of_save_error h hsave
  have hactive := (save_spec h store name range settings).2
  exact ⟨hactive, hagrees.capacity, hagrees.has, hagrees.document⟩

/-- The fourth write fails, behind the gap of the second part; that part is the active one, and
both are modified. -/
theorem save_changes_nothing_fourth_write :
    let ops : List TableOp := [.change (.rename "f"), .change (.modified true),
      .edit (.insertAll [97, 98, 10]), .edit (.seek 1), .continueInNext,
      .change (.modified true), .edit (.insertAll [10, 99]), .edit (.seek 1)]
    let t := (performAll SegmentTable.perform (SegmentTable.unused 4 0 [1]) ops).2
    let store : Memory := { Memory.empty with writesLeft := some 3 }
    let settings : TransferSettings := ⟨4, 4, 2, .crlf⟩
    let t' := (t.save store "g" none settings).2.1
    (t.save store "g" none settings).1 = .error (.file "g" .writing .injected) ∧ t'.active = 2 ∧
      (t'.document 1).plain = ⟨⟨"f", true, false, 1⟩, [97, 98, 10], 1⟩ ∧
      (t'.document 2).plain = ⟨⟨"f", true, false, 2⟩, [10, 99], 1⟩ := by
  intro ops t store settings t'
  have hwf : t.WellFormed :=
    (SegmentTable.wellFormed_unused (by decide) (by decide)).performAll ops
  have hsave : (t.save store "g" none settings).1 = .error (.file "g" .writing .injected) := by
    rw [SegmentTable.save, Save.savedParts_of_chain hwf (by decide +kernel)]
    decide +kernel
  obtain ⟨hactive, -, -, hdocument⟩ := save_changes_nothing hwf hsave
  refine ⟨hsave, hactive.trans (by decide +kernel), ?_, ?_⟩
  · exact (congrArg Document.plain (hdocument 1 (by decide +kernel))).trans (by decide +kernel)
  · exact (congrArg Document.plain (hdocument 2 (by decide +kernel))).trans (by decide +kernel)

end ScreenEditor
