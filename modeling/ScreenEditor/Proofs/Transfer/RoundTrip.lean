import ScreenEditor.Proofs.Transfer.Replace
import ScreenEditor.Proofs.Transfer.Written

/-!
# Saving a document and opening the file

Writing and reading cut a text in different places, but each is one function of the whole text:
`convert` when it is written, `translate` when it is read.  On texts without carriage returns and
tabs the second undoes the first (`translate_convert`), whichever line ending stands between them.

## Main results

* `load_saved`: a document that is saved and opened again has the text that it had.
-/

namespace ScreenEditor

/-! ## Reading what was written -/

/-- Nothing that is written as a carriage return begins with a line feed. -/
theorem skipLineFeed_convert_cr (text : List UInt8) :
    skipLineFeed (LineEnding.cr.convert text) = LineEnding.cr.convert text := by
  cases text with
  | nil => rfl
  | cons b rest =>
      by_cases hb : b = lineFeed
      · rw [hb]
        rfl
      · simp [LineEnding.convert, skipLineFeed, hb]

/-- Every line ending that is written is read as one terminator. -/
theorem unifyEnds_convert (e : LineEnding) {text : List UInt8}
    (h : ∀ b ∈ text, b ≠ LineEnding.carriageReturn) : unifyEnds (e.convert text) = text := by
  induction text with
  | nil => rfl
  | cons b rest ih =>
      obtain ⟨hb, hrest⟩ := List.forall_mem_cons.mp h
      have hcons : e.convert (b :: rest)
          = (if b = lineFeed then e.bytes else [b]) ++ e.convert rest := List.flatMap_cons
      rw [hcons]
      by_cases hend : b = lineFeed
      · subst hend
        rw [if_pos rfl]
        cases e with
        | lf => exact (unifyEnds_of_ne (by decide) _).trans (congrArg _ (ih hrest))
        | crlf => exact (unifyEnds_return _).trans (congrArg _ (ih hrest))
        | cr =>
            have hskip := skipLineFeed_convert_cr rest
            exact (unifyEnds_return _).trans (congrArg _ (hskip.symm ▸ ih hrest))
      · rw [if_neg hend]
        exact (unifyEnds_of_ne hb _).trans (congrArg _ (ih hrest))

/-- A text without tabs is read as it is. -/
theorem expandTabs_eq_self {text : List UInt8} (h : ∀ b ∈ text, b ≠ tabByte) (width column : Nat) :
    expandTabs width column text = text := by
  induction text generalizing column with
  | nil => rfl
  | cons b rest ih =>
      obtain ⟨hb, hrest⟩ := List.forall_mem_cons.mp h
      rw [expandTabs, if_neg hb, ih hrest, ih hrest]
      split
      · next hend => rw [hend]
      · rfl

/-- **Reading undoes writing**, whichever line ending is written and however wide tabs are. -/
theorem translate_convert (e : LineEnding) {text : List UInt8}
    (hreturn : ∀ b ∈ text, b ≠ LineEnding.carriageReturn) (htab : ∀ b ∈ text, b ≠ tabByte)
    (width column : Nat) : translate width column (e.convert text) = text := by
  rw [translate, unifyEnds_convert e hreturn, expandTabs_eq_self htab]

/-! ## Documents -/

variable {σ : Type} [FaithfulStorage σ]

/-- **Saving and opening again reproduces the text.**  A document without carriage returns and tabs
is saved, whole, and the file opened in place of a document of its own, in the same table or in
another one with segments of any size: the parts that were read spell what the parts that were saved
do, whatever line ending, chunks and tab width are set on either side. -/
theorem load_saved {t u : SegmentTable} (h : t.WellFormed) {name : String} (hname : name ≠ "")
    (hreturn : ∀ b ∈ t.textOf t.wholeDocument, b ≠ LineEnding.carriageReturn)
    (htab : ∀ b ∈ t.textOf t.wholeDocument, b ≠ tabByte) {store : σ}
    {settings settings' : TransferSettings} {count : Nat}
    (hsave : (t.save store name none settings).1 = .ok count) (hu : u.WellFormed)
    (hcap : 0 < u.capacity) (hpart : u.current.header.part = 0) {report : LoadReport}
    (hload : (u.load (t.save store name none settings).2.2 name .replace settings').1
      = .ok report) :
    (u.load (t.save store name none settings).2.2 name .replace settings').2.1.textOf
      report.segments = t.textOf t.wholeDocument := by
  obtain ⟨hfile, -⟩ := save_written h hsave
  obtain ⟨taken, -, rfl, hfinished, hreplaced⟩ :=
    replaced_of_load_ok hu hcap (fun hchain => absurd hpart hchain) hname hfile hload
  rw [hreplaced.textOf_eq hfinished, SegmentTable.savedText, translate_convert _ hreturn htab]

/-- Two parts with line ends on both sides of their seam, written as carriage returns with line
feeds, one byte at a time, and read two bytes at a time into segments half as large. -/
theorem load_saved_two_parts :
    let ops : List TableOp := [.change (.rename "f"), .edit (.insertAll [97, 10, 10]),
      .edit (.seek 2), .continueInNext, .edit (.insertAll [10, 98]), .edit (.seek 0)]
    let t := (performAll SegmentTable.perform (SegmentTable.unused 4 0 [1]) ops).2
    let store : Memory := { Memory.empty with writeLimit := some 1 }
    let u := SegmentTable.unused 2 0 [1, 2, 3]
    let loaded := u.load (t.save store "g" none ⟨8, 4, 3, .crlf⟩).2.2 "g" .replace ⟨8, 2, 4, .lf⟩
    loaded.1 = .ok ⟨8, 5, [1, 2, 3, 4]⟩ ∧
      loaded.2.1.textOf [1, 2, 3, 4] = [97, 10, 10, 10, 98] := by
  intro ops t store u loaded
  have hwf : t.WellFormed :=
    (SegmentTable.wellFormed_unused (by decide) (by decide)).performAll ops
  have hparts := Save.savedParts_of_chain hwf (by decide +kernel)
  have hsave : (t.save store "g" none ⟨8, 4, 3, .crlf⟩).1 = .ok 8 := by
    rw [SegmentTable.save, hparts]
    decide +kernel
  have hload : (u.load (t.save store "g" none ⟨8, 4, 3, .crlf⟩).2.2 "g" .replace
      ⟨8, 2, 4, .lf⟩).1 = .ok ⟨8, 5, [1, 2, 3, 4]⟩ := by
    rw [SegmentTable.save, hparts]
    decide +kernel
  have htext := load_saved hwf (by decide) (by decide +kernel) (by decide +kernel) hsave
    (SegmentTable.wellFormed_unused (by decide) (by decide)) (by decide) rfl hload
  exact ⟨hload, htext.trans (by decide +kernel)⟩

end ScreenEditor
