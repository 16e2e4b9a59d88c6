import ScreenEditor.Proofs.Transfer.Undone

/-!
# Control blocks survive being stored and read

A document that leaves the screen is kept as a control block of 76 bytes.  Only its name can be too
long for that, and it was clipped when it was set: to its longest start of whole characters that
fits (`longestStart_clipName`).  So every header there can be is read back from its block, and
however often segments are switched, each shows the document it showed before
(`agrees_switches`).

## Main results

* `ControlBlock.encode_keeps_everything`: the name that is kept, the block that is read back, and
  the documents behind any number of switches.
-/

namespace ScreenEditor

/-! ## The longest start that fits -/

namespace Utf8

/-- `kept` is a start of `text` that takes at most `limit` bytes, and every such start is a start
of it. -/
structure LongestStart (limit : Nat) (text kept : String) : Prop where
  start : kept.toList <+: text.toList
  fits : (encode kept).length ≤ limit
  longest : ∀ s : String, s.toList <+: text.toList → (encode s).length ≤ limit →
    s.toList <+: kept.toList

/-- What is taken is a start of the text, in whole characters. -/
theorem takeBytes_prefix (limit : Nat) (cs : List Char) : takeBytes limit cs <+: cs := by
  induction cs generalizing limit with
  | nil => exact List.nil_prefix
  | cons c cs ih =>
      rw [takeBytes]
      split
      · exact (List.prefix_cons_inj c).mpr (ih _)
      · exact List.nil_prefix

/-- A start that fits is not longer than what is taken. -/
theorem prefix_takeBytes {limit : Nat} {p cs : List Char} (hp : p <+: cs)
    (hfits : byteCount p ≤ limit) : p <+: takeBytes limit cs := by
  induction cs generalizing limit p with
  | nil => exact hp
  | cons c cs ih =>
      cases p with
      | nil => exact List.nil_prefix
      | cons d p =>
          obtain ⟨rfl, htail⟩ := List.cons_prefix_cons.mp hp
          simp only [byteCount, List.map_cons, List.sum_cons] at hfits
          rw [takeBytes, if_pos (by omega)]
          refine (List.prefix_cons_inj d).mpr (ih htail ?_)
          simp only [byteCount]
          omega

end Utf8

open Utf8

/-- A clipped name is the longest start of the name that fits. -/
theorem Header.longestStart_clipName (name : String) :
    LongestStart maxNameBytes name (clipName name) := by
  refine ⟨?_, length_encode_clipName name, ?_⟩
  · rw [clipName, String.toList_ofList]
    exact takeBytes_prefix _ _
  · intro s hp hfits
    rw [length_encode] at hfits
    rw [clipName, String.toList_ofList]
    exact prefix_takeBytes hp hfits

/-! ## Blocks -/

/-- A stored block has the fixed size, whatever the header says. -/
theorem ControlBlock.length_encode {block : ControlBlock} (h : block.header.NameFits) :
    block.encode.length = size := by
  rw [encode_eq h]
  simp only [List.length_append, length_nameField h, length_wordBytes, List.length_cons,
    List.length_nil]
  rfl

/-! ## Switching any number of times -/

namespace SegmentTable

variable {t : SegmentTable}

/-- Activating a segment changes no document, whether there is such a segment or not. -/
theorem WellFormed.agrees_activate (h : t.WellFormed) (id : Nat) :
    t.Agrees (t.perform (.activate id)).2 := by
  rw [perform, activate]
  split
  · exact h.agrees_switch id
  · exact Agrees.refl h

/-- Segments are activated one after the other. -/
def switches (t : SegmentTable) (ids : List Nat) : SegmentTable :=
  (performAll perform t (ids.map TableOp.activate)).2

/-- Any number of switches leaves every document as it was. -/
theorem agrees_switches (h : t.WellFormed) (ids : List Nat) : t.Agrees (t.switches ids) := by
  induction ids generalizing t with
  | nil => exact Agrees.refl h
  | cons id ids ih =>
      have hfirst := h.agrees_activate id
      exact hfirst.trans (ih hfirst.wellFormed)

end SegmentTable

namespace ControlBlock

/-- **Nothing of a document is lost in its control block.**  A name is kept up to its longest start
of whole characters within 64 bytes.  A header with such a name is read back from its block,
whatever its flags and its part, with both positions, and what was read back is stored as the same
76 bytes.  Therefore, in every reachable table and however often segments are switched, every
segment can be activated and shows the document it held; for the one that was active this is the
header and the caret at hand. -/
theorem encode_keeps_everything (h : Header) (name : String) :
    LongestStart 64 name (h.setName name).name ∧
    (∀ gapBegin gapEnd : Nat, gapBegin < 2 ^ 32 → gapEnd < 2 ^ 32 →
      let block : ControlBlock := ⟨h.setName name, gapBegin, gapEnd⟩
      decode block.encode = block ∧ (decode block.encode).encode = block.encode ∧
        block.encode.length = 76) ∧
    (∀ (t : SegmentTable) (ids : List Nat) (id : Nat), t.Reachable → t.has id = true →
      ∃ t', (t.switches ids).activate id = .ok t' ∧ t'.active = id ∧
        t'.current = t.document id ∧
        (id = t.active → t'.current.header = t.current.header ∧
          t'.current.buffer.caret = t.current.buffer.caret)) := by
  refine ⟨Header.longestStart_clipName name, ?_, ?_⟩
  · intro gapBegin gapEnd hbegin hend block
    have hfits : block.header.NameFits := Header.nameFits_setName h name
    have hback : decode block.encode = block := decode_encode hfits hbegin hend
    exact ⟨hback, by rw [hback], length_encode hfits⟩
  · intro t ids id hreach hid
    have hagrees := SegmentTable.agrees_switches hreach.wellFormed ids
    have hid' : (t.switches ids).has id = true := (hagrees.has id).trans hid
    have hcurrent : ((t.switches ids).switch id).current = t.document id := hagrees.document id hid
    refine ⟨(t.switches ids).switch id, ?_, SegmentTable.active_switch hid', hcurrent, ?_⟩
    · rw [SegmentTable.activate, if_pos hid']
    · rintro rfl
      rw [hcurrent, SegmentTable.document_active]
      exact ⟨rfl, rfl⟩

/-- A name of 31 characters of two bytes, one of one byte and one of three is cut before the last:
63 bytes are kept, though the 64th byte is one of the name's. -/
theorem encode_keeps_everything_mixed_widths :
    let kept := List.replicate 31 'ä' ++ ['x']
    let name := String.ofList (kept ++ ['€'])
    let block : ControlBlock := ⟨Header.setName ⟨"", true, false, 255⟩ name, 5, 2 ^ 32 - 1⟩
    let ops : List TableOp := [.change (.rename name), .edit (.insertAll [97, 98]), .edit (.seek 1)]
    let t := (performAll SegmentTable.perform (SegmentTable.unused 4 0 [1, 2]) ops).2
    block.header.name = String.ofList kept ∧ LongestStart 64 name (String.ofList kept) ∧
      decode block.encode = block ∧ block.encode.length = 76 ∧
      ∃ t', (t.switches [2, 3, 9, 2]).activate 1 = .ok t' ∧
        t'.current.plain = ⟨⟨String.ofList kept, false, false, 0⟩, [97, 98], 1⟩ := by
  intro kept name block ops t
  have hnew : SegmentTable.ofLayout 4 [true, true, true]
      = .ok (SegmentTable.unused 4 0 [1, 2]) := rfl
  have hreach : t.Reachable := (SegmentTable.Reachable.new (by decide) hnew).performAll ops
  have hname : block.header.name = String.ofList kept := by decide +kernel
  obtain ⟨hlongest, hblock, hswitch⟩ :=
    encode_keeps_everything ⟨"", true, false, 255⟩ name
  obtain ⟨hback, -, hlength⟩ := hblock 5 (2 ^ 32 - 1) (by decide) (by decide)
  obtain ⟨t', hactivate, -, hcurrent, -⟩ := hswitch t [2, 3, 9, 2] 1 hreach (by decide +kernel)
  refine ⟨hname, hname ▸ hlongest, hback, hlength, t', hactivate, ?_⟩
  rw [hcurrent]
  decide +kernel

end ControlBlock
end ScreenEditor
