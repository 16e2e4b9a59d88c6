import ScreenEditor.Proofs.Segment.Operations

/-!
# Segments too large for their control blocks

A control block has 32 bits for the place where a gap ends.  In segments of 2^32 bytes or more it
can therefore never say that a segment is free, so no document goes on in another one
(`continueInNext_of_le_capacity`), and each stays in the one segment it has (`Oversized`).

Texts need not survive a switch in such a table, but headers do (`Oversized.header_switch`).

A table is `Orderly` if its positions fit the control blocks or it is oversized.  What does not rest
on the texts of segments that are not active holds in every orderly table.
-/

namespace ScreenEditor

/-- A document in one segment, with a name that a control block keeps. -/
structure Header.InOneSegment (h : Header) : Prop where
  part : h.part = 0
  nameFits : h.NameFits

theorem Header.inOneSegment_blank : blank.InOneSegment := ⟨rfl, nameFits_blank⟩

namespace SegmentTable

variable {t : SegmentTable}

/-! ## No free segment -/

/-- No control block says that a segment of that size is free. -/
theorem isUnused_of_le_capacity (h : 2 ^ 32 ≤ t.capacity) {id : Nat} (hne : id ≠ t.active) :
    t.isUnused id = false := by
  rw [isUnused, if_neg hne]
  split
  · split
    · rfl
    · next slot _ =>
      have hend := ControlBlock.gapEnd_decode_lt slot.block
      have hother : (ControlBlock.decode slot.block).gapEnd ≠ t.capacity := by omega
      simp only [beq_eq_false_iff_ne.mpr hother, Bool.and_false]
  · rfl

/-- **No document goes on in another segment**, however many segments there are. -/
theorem continueInNext_of_le_capacity (h : 2 ^ 32 ≤ t.capacity) : t.continueInNext = none := by
  have hnone : t.nextUnused? = none := by
    rw [nextUnused?, List.find?_eq_none]
    intro id hid
    rw [isUnused_of_le_capacity h (mem_candidates.mp hid).2]
    exact Bool.false_ne_true
  rw [continueInNext, hnone]
  rfl

/-! ## Headers in control blocks -/

/-- The control block in a slot. -/
def block? (t : SegmentTable) (i : Nat) : Option (List UInt8) := t.slots[i]?.map (·.block)

/-- A switch packs the document at hand and leaves all other blocks. -/
theorem block?_switch {id : Nat} (hid : t.has id = true) (hne : id ≠ t.active) (i : Nat) :
    (t.switch id).block? i = if i + 1 = t.active then some t.outgoing.block else t.block? i := by
  obtain ⟨hpos, hle⟩ := has_iff.mp hid
  rw [block?, switch_eq_switchTo hid hne]
  by_cases hi : i + 1 = id
  · have hlt : i < t.slots.size := by omega
    obtain rfl : id - 1 = i := by omega
    rw [if_neg (by omega), block?, Array.getElem?_eq_getElem hlt]
    simp [switchTo, hlt]
  · rw [getElem?_slots_switchTo t hpos hle hne hi]
    split <;> rfl

/-- A segment that is not active shows the header in its block. -/
theorem header_of_block? {id : Nat} (hid : t.has id = true) (hne : id ≠ t.active)
    {block : List UInt8} (hblock : t.block? (id - 1) = some block) :
    (t.document id).header = (ControlBlock.decode block).header := by
  obtain ⟨slot, hslot, rfl⟩ := Option.map_eq_some_iff.mp hblock
  obtain ⟨hlt, hget⟩ := Array.getElem?_eq_some_iff.mp hslot
  rw [document, switch_eq_switchTo hid hne]
  simp only [switchTo, incoming, hget]

/-- Every segment has a control block to be read from. -/
theorem exists_block? {id : Nat} (hid : t.has id = true) :
    ∃ block, t.block? (id - 1) = some block := by
  obtain ⟨hpos, hle⟩ := has_iff.mp hid
  have hlt : id - 1 < t.slots.size := by omega
  refine ⟨t.slots[id - 1].block, ?_⟩
  rw [block?, Array.getElem?_eq_getElem hlt, Option.map_some]

/-- Segments that their control blocks cannot measure, each with a document of its own. -/
structure Oversized (t : SegmentTable) : Prop where
  le_capacity : 2 ^ 32 ≤ t.capacity
  current : t.current.header.InOneSegment
  stored : ∀ i block, t.block? i = some block →
    (ControlBlock.decode block).header.InOneSegment

namespace Oversized

/-- Every segment shows a document of its own. -/
theorem document (h : t.Oversized) {id : Nat} (hid : t.has id = true) :
    (t.document id).header.InOneSegment := by
  by_cases hne : id = t.active
  · rw [hne, document_active]
    exact h.current
  · obtain ⟨block, hblock⟩ := exists_block? hid
    rw [header_of_block? hid hne hblock]
    exact h.stored _ block hblock

/-- The block of the document at hand keeps its header. -/
theorem header_outgoing (h : t.Oversized) :
    (ControlBlock.decode t.outgoing.block).header = t.current.header := by
  have hback := @ControlBlock.decode_encode_words
    ⟨t.current.header, t.current.buffer.gapBegin, t.current.buffer.gapEnd⟩ h.current.nameFits
  rw [outgoing, hback]

/-- An edit of the active document keeps the condition as long as its header stays a lone part's. -/
theorem modifyCurrent (h : t.Oversized) {f : Document → Document}
    (hf : (f t.current).header.InOneSegment) : (t.modifyCurrent f).Oversized :=
  ⟨h.le_capacity, hf, h.stored⟩

/-- To switch writes both ends of the gap back, which is where the far end is lost, and touches no
header. -/
theorem switch (h : t.Oversized) (id : Nat) : (t.switch id).Oversized := by
  by_cases hid : t.has id = true
  · by_cases hne : id = t.active
    · rwa [hne, switch_active]
    · refine ⟨by simpa using h.le_capacity, h.document hid, ?_⟩
      intro i block hblock
      rw [block?_switch hid hne] at hblock
      split at hblock
      · obtain rfl := Option.some.inj hblock
        rw [h.header_outgoing]
        exact h.current
      · exact h.stored i block hblock
  · rwa [switch_of_not_has hid]

/-- **Switching changes no header**, whatever it does to the texts. -/
theorem header_switch (h : t.Oversized) (a : Nat) {id : Nat} (hid : t.has id = true) :
    ((t.switch a).document id).header = (t.document id).header := by
  by_cases ha : t.has a = true
  · by_cases hne : a = t.active
    · rw [hne, switch_active]
    · have hactive := active_switch ha
      have hid' : (t.switch a).has id = true := by rwa [has_switch]
      by_cases hia : id = a
      · have hcurrent := document_active (t.switch a)
        rw [hactive, current_switch] at hcurrent
        rw [hia, hcurrent]
      · obtain ⟨block, hblock⟩ := exists_block? hid'
        rw [header_of_block? hid' (by rwa [hactive]) hblock]
        rw [block?_switch ha hne] at hblock
        split at hblock
        · next hold =>
          obtain rfl := Option.some.inj hblock
          have hidActive : id = t.active := by
            have hpos := (has_iff.mp hid).1
            omega
          rw [h.header_outgoing, hidActive, document_active]
        · next hother =>
          have hidOther : id ≠ t.active := by
            have hpos := t.active_pos
            omega
          exact (header_of_block? hid hidOther hblock).symm
  · rw [switch_of_not_has ha]

/-- A listing changes no header. -/
theorem list (h : t.Oversized) :
    t.list.2.Oversized ∧ t.list.2.current.header = t.current.header := by
  obtain ⟨hover, hcount, hheaders⟩ : t.list.2.Oversized ∧ t.list.2.count = t.count ∧
      ∀ id, t.has id = true → (t.list.2.document id).header = (t.document id).header := by
    refine list_induction (P := fun t' => t'.Oversized ∧ t'.count = t.count ∧
      ∀ id, t.has id = true → (t'.document id).header = (t.document id).header) ?_
      ⟨h, rfl, fun _ _ => rfl⟩
    rintro t' a ⟨hover, hcount, hheaders⟩
    refine ⟨hover.switch a, (count_switch t' a).trans hcount, fun id hid => ?_⟩
    rw [hover.header_switch a ((has_congr hcount id).trans hid)]
    exact hheaders id hid
  have hactive := hheaders t.active has_active
  rw [document_active, ← active_list t, document_active] at hactive
  exact ⟨hover, hactive⟩

end Oversized

/-- Positions fit the control blocks, or every document is in one segment. -/
def Orderly (t : SegmentTable) : Prop := t.WellFormed ∨ t.Oversized

/-- The name of the document at hand fits its control block in either case. -/
theorem Orderly.nameFits (h : t.Orderly) : t.current.header.NameFits := by
  rcases h with hwf | hover
  · exact hwf.current.nameFits
  · exact hover.current.nameFits

/-! ## New tables -/

/-- A new table with segments of that size. -/
theorem oversized_ofLayout {capacity : Nat} {present : List Bool} (hcap : 2 ^ 32 ≤ capacity)
    (h : ofLayout capacity present = .ok t) : t.Oversized := by
  obtain ⟨first, rest, rfl, -, -⟩ := of_ofLayout h
  refine ⟨hcap, Header.inOneSegment_blank, ?_⟩
  intro i block hblock
  have hback := @ControlBlock.decode_encode_words (ControlBlock.unused capacity)
    Header.nameFits_blank
  obtain ⟨slot, hslot, rfl⟩ := Option.map_eq_some_iff.mp hblock
  have hunused : slot.block = (ControlBlock.unused capacity).encode := by
    cases i with
    | zero =>
        obtain rfl := Option.some.inj hslot
        rfl
    | succ i => exact (holds_newSlots hslot).block
  rw [hunused, hback]
  exact Header.inOneSegment_blank

/-- **A new table is orderly**, whatever size its segments have. -/
theorem orderly_ofLayout {capacity : Nat} {present : List Bool}
    (h : ofLayout capacity present = .ok t) : t.Orderly := by
  rcases Nat.lt_or_ge capacity (2 ^ 32) with hlt | hge
  · exact .inl (wellFormed_ofLayout hlt h)
  · exact .inr (oversized_ofLayout hge h)

end SegmentTable
end ScreenEditor
