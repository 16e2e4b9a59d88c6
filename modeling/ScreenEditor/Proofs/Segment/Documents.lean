import ScreenEditor.Segment.Table
import ScreenEditor.Proofs.Gap.Content
import ScreenEditor.Proofs.Segment.Block

/-!
# A segment table as a map from numbers to documents

`SegmentTable.document` is what activating a segment would show.  A table is well-formed when the
slot of every segment that is not active is the packing of a document whose name fits its control
block; then packing and unpacking lose nothing, and switching changes no document
(`document_switch`).

The operations are described by the documents they leave: `document_modifyCurrent` here, and
`releaseAll_spec`, `continueInNext_spec` and `list_spec` in the next file.  Later files use these
and never look at slots.
-/

namespace ScreenEditor

/-- The document can be put away in a segment of this capacity. -/
structure Document.Storable (d : Document) (capacity : Nat) : Prop where
  capacity_eq : d.buffer.capacity = capacity
  nameFits : d.header.NameFits

/-- What is left of a document whose segment is given up. -/
def Document.released (d : Document) : Document := ⟨Header.blank, d.buffer.reset⟩

/-- The slot is the packing of the document. -/
structure Slot.Holds (s : Slot) (d : Document) : Prop where
  storage : s.storage = some d.buffer.storage
  block : s.block = ControlBlock.encode ⟨d.header, d.buffer.gapBegin, d.buffer.gapEnd⟩

namespace SegmentTable

/-- Positions fit the control blocks, and every segment holds a document. -/
structure WellFormed (t : SegmentTable) : Prop where
  capacity_lt : t.capacity < 2 ^ 32
  count_le : t.count ≤ maxSlots
  current : t.current.Storable t.capacity
  stored : ∀ i slot, t.slots[i]? = some slot → i + 1 ≠ t.active →
    ∃ d : Document, d.Storable t.capacity ∧ slot.Holds d

/-- The document that activating a segment shows. -/
def document (t : SegmentTable) (id : Nat) : Document := (t.switch id).current

variable {t : SegmentTable}

/-- Segments are numbered from 1 without a gap. -/
theorem has_iff {id : Nat} : t.has id = true ↔ 0 < id ∧ id ≤ t.slots.size := by
  rw [has, Bool.and_eq_true, decide_eq_true_eq, decide_eq_true_eq]
  rfl

/-- The segment at hand is one of them. -/
theorem has_active : t.has t.active = true := has_iff.mpr ⟨t.active_pos, t.active_le⟩

/-! ## Packing and unpacking -/

/-- What was packed is unpacked. -/
theorem incoming_of_holds {slot : Slot} {d : Document} {capacity : Nat}
    (hcap : capacity < 2 ^ 32) (hd : d.Storable capacity) (h : slot.Holds d) :
    incoming d.buffer.storage slot.block = d := by
  have hle := d.buffer.gapBegin_le_gapEnd
  have hsize := d.buffer.gapEnd_le_size
  have hd' : d.buffer.storage.size = capacity := hd.capacity_eq
  have hback := @ControlBlock.decode_encode
    ⟨d.header, d.buffer.gapBegin, d.buffer.gapEnd⟩ hd.nameFits
    (Nat.lt_of_le_of_lt (hle.trans hsize) (hd' ▸ hcap)) (Nat.lt_of_le_of_lt hsize (hd' ▸ hcap))
  simp only [incoming, h.block, hback, GapBuffer.ofStorage_self]

/-- What is put away is the document at hand. -/
theorem holds_outgoing (t : SegmentTable) : t.outgoing.Holds t.current := ⟨rfl, rfl⟩

/-- To make the segment at hand active changes nothing. -/
@[simp] theorem switch_active (t : SegmentTable) : t.switch t.active = t := by
  simp [switch]

/-- The segment at hand shows the document at hand. -/
@[simp] theorem document_active (t : SegmentTable) : t.document t.active = t.current := by
  simp [document]

/-- To make another segment active exchanges what is at hand with what is in its slot. -/
theorem switch_eq_switchTo {id : Nat} (h : t.has id = true) (ne : id ≠ t.active) :
    t.switch id = t.switchTo id (has_iff.mp h).1 (has_iff.mp h).2 ne := by
  have h' := has_iff.mp h
  rw [switch, dif_pos ⟨h'.1, h'.2, ne⟩]

/-- A number that no segment has is ignored. -/
theorem switch_of_not_has {id : Nat} (h : ¬ t.has id = true) : t.switch id = t := by
  rw [has_iff] at h
  rw [switch, dif_neg (by rintro ⟨h1, h2, _⟩; exact h ⟨h1, h2⟩)]

/-- A segment that is not active shows the document that its slot holds. -/
theorem document_of_slot {i : Nat} {slot : Slot} {d : Document} (hcap : t.capacity < 2 ^ 32)
    (hslot : t.slots[i]? = some slot) (ne : i + 1 ≠ t.active) (hd : d.Storable t.capacity)
    (hh : slot.Holds d) : t.document (i + 1) = d := by
  obtain ⟨hi, hget⟩ := Array.getElem?_eq_some_iff.mp hslot
  have hhas : t.has (i + 1) = true := has_iff.mpr ⟨by omega, by omega⟩
  rw [document, switch_eq_switchTo hhas ne]
  simp only [switchTo, Nat.add_sub_cancel, hget]
  rw [Option.get_of_eq_some _ hh.storage]
  exact incoming_of_holds hcap hd hh

/-- Every segment that is not active has a slot that holds its document. -/
theorem WellFormed.slot_of_ne (h : t.WellFormed) {id : Nat} (hid : t.has id = true)
    (ne : id ≠ t.active) :
    ∃ slot, t.slots[id - 1]? = some slot ∧ slot.Holds (t.document id) := by
  have hid' := has_iff.mp hid
  have hi : id - 1 < t.slots.size := by omega
  have hslot : t.slots[id - 1]? = some t.slots[id - 1] := Array.getElem?_eq_getElem hi
  obtain ⟨d, hd, hh⟩ := h.stored _ _ hslot (by omega)
  have hdoc := document_of_slot h.capacity_lt hslot (by omega) hd hh
  rw [Nat.sub_add_cancel hid'.1] at hdoc
  exact ⟨_, hslot, hdoc ▸ hh⟩

/-- Every segment shows a document that can be put away. -/
theorem WellFormed.storable (h : t.WellFormed) {id : Nat} (hid : t.has id = true) :
    (t.document id).Storable t.capacity := by
  by_cases ne : id = t.active
  · rw [ne, document_active]
    exact h.current
  · have hid' := has_iff.mp hid
    have hi : id - 1 < t.slots.size := by omega
    have hslot : t.slots[id - 1]? = some t.slots[id - 1] := Array.getElem?_eq_getElem hi
    obtain ⟨d, hd, hh⟩ := h.stored _ _ hslot (by omega)
    have hdoc := document_of_slot h.capacity_lt hslot (by omega) hd hh
    rw [Nat.sub_add_cancel hid'.1] at hdoc
    exact hdoc ▸ hd

/-! ## Switching -/

@[simp] theorem capacity_switch (t : SegmentTable) (id : Nat) :
    (t.switch id).capacity = t.capacity := by
  unfold switch
  split <;> rfl

@[simp] theorem size_slots_switch (t : SegmentTable) (id : Nat) :
    (t.switch id).slots.size = t.slots.size := by
  unfold switch
  split
  · simp [switchTo]
  · rfl

@[simp] theorem count_switch (t : SegmentTable) (id : Nat) : (t.switch id).count = t.count :=
  size_slots_switch t id

@[simp] theorem has_switch (t : SegmentTable) (a id : Nat) : (t.switch a).has id = t.has id := by
  simp [has]

/-- What was made active is active. -/
theorem active_switch {id : Nat} (h : t.has id = true) : (t.switch id).active = id := by
  by_cases ne : id = t.active
  · rw [ne, switch_active]
  · rw [switch_eq_switchTo h ne]
    rfl

theorem current_switch (t : SegmentTable) (id : Nat) : (t.switch id).current = t.document id := rfl

/-- The slots after a switch: the one that was active is packed, the new one is taken out. -/
theorem getElem?_slots_switchTo (t : SegmentTable) {id : Nat} (pos : 0 < id)
    (le : id ≤ t.slots.size) (ne : id ≠ t.active) {i : Nat} (hi : i + 1 ≠ id) :
    (t.switchTo id pos le ne).slots[i]?
      = if i + 1 = t.active then some t.outgoing else t.slots[i]? := by
  have hpos := t.active_pos
  have hle := t.active_le
  have hne : id - 1 ≠ i := by omega
  simp only [switchTo]
  rw [Array.getElem?_set_ne _ hne, Array.getElem?_set]
  by_cases ha : t.active - 1 = i
  · rw [if_pos ha, if_pos (by omega)]
  · rw [if_neg ha, if_neg (by omega)]

/-- **A switch keeps a table well formed**, with the document that was at hand in its slot. -/
theorem WellFormed.switch (h : t.WellFormed) (id : Nat) : (t.switch id).WellFormed := by
  by_cases hid : t.has id = true
  · by_cases ne : id = t.active
    · rwa [ne, switch_active]
    · have hactive := active_switch hid
      refine ⟨by simpa using h.capacity_lt, by simpa using h.count_le, ?_, ?_⟩
      · rw [current_switch, capacity_switch]
        exact h.storable hid
      · intro i slot hslot hne
        rw [hactive] at hne
        rw [switch_eq_switchTo hid ne, getElem?_slots_switchTo t _ _ _ hne] at hslot
        rw [capacity_switch]
        by_cases ha : i + 1 = t.active
        · rw [if_pos ha] at hslot
          obtain rfl := Option.some.inj hslot
          exact ⟨t.current, h.current, holds_outgoing t⟩
        · rw [if_neg ha] at hslot
          exact h.stored i slot hslot ha
  · rwa [switch_of_not_has hid]

/-- **Switching changes no document.** -/
theorem document_switch (h : t.WellFormed) (a : Nat) {id : Nat} (hid : t.has id = true) :
    (t.switch a).document id = t.document id := by
  by_cases ha : t.has a = true
  · by_cases ne : a = t.active
    · rw [ne, switch_active]
    · by_cases hia : id = a
      · subst hia
        have hact := document_active (t.switch id)
        rwa [active_switch ha, current_switch] at hact
      · have hid' := has_iff.mp hid
        have hsub : id - 1 + 1 = id := by omega
        have hslots := getElem?_slots_switchTo t (has_iff.mp ha).1 (has_iff.mp ha).2 ne
          (i := id - 1) (by omega)
        rw [← switch_eq_switchTo ha ne, hsub] at hslots
        have hne : id - 1 + 1 ≠ (t.switch a).active := by
          rw [active_switch ha]
          omega
        have hcap : (t.switch a).capacity < 2 ^ 32 := by simpa using h.capacity_lt
        by_cases hact : id = t.active
        · rw [if_pos hact] at hslots
          have hdoc := document_of_slot hcap hslots hne (by simpa using h.current)
            (holds_outgoing t)
          rw [hsub] at hdoc
          rw [hdoc, hact, document_active]
        · rw [if_neg hact] at hslots
          obtain ⟨slot, hslot, hholds⟩ := h.slot_of_ne hid hact
          have hdoc := document_of_slot hcap (hslots.trans hslot) hne
            (by simpa using h.storable hid) hholds
          rwa [hsub] at hdoc
  · rw [switch_of_not_has ha]

/-! ## Changing the active document -/

@[simp] theorem capacity_modifyCurrent (f : Document → Document) :
    (t.modifyCurrent f).capacity = t.capacity := rfl

@[simp] theorem count_modifyCurrent (f : Document → Document) :
    (t.modifyCurrent f).count = t.count := rfl

@[simp] theorem active_modifyCurrent (f : Document → Document) :
    (t.modifyCurrent f).active = t.active := rfl

@[simp] theorem has_modifyCurrent (f : Document → Document) (id : Nat) :
    (t.modifyCurrent f).has id = t.has id := rfl

@[simp] theorem current_modifyCurrent (f : Document → Document) :
    (t.modifyCurrent f).current = f t.current := rfl

/-- So does a change of the document at hand that can still be put away. -/
theorem WellFormed.modifyCurrent (h : t.WellFormed) {f : Document → Document}
    (hf : (f t.current).Storable t.capacity) : (t.modifyCurrent f).WellFormed :=
  ⟨h.capacity_lt, h.count_le, hf, h.stored⟩

/-- An edit changes the active document only. -/
theorem document_modifyCurrent (f : Document → Document) {id : Nat} (hid : t.has id = true) :
    (t.modifyCurrent f).document id = if id = t.active then f t.current else t.document id := by
  split
  · next ha =>
    subst ha
    exact document_active (t.modifyCurrent f)
  · next ne =>
    have hid' : (t.modifyCurrent f).has id = true := hid
    rw [document, document, switch_eq_switchTo hid' ne, switch_eq_switchTo hid ne]
    rfl

/-- Changing the text of the active document, within its segment. -/
theorem WellFormed.modifyBuffer (h : t.WellFormed) {f : GapBuffer → GapBuffer}
    (hf : (f t.current.buffer).capacity = t.current.buffer.capacity) :
    (t.modifyBuffer f).WellFormed := by
  have hstor : (t.current.mapBuffer f).Storable t.capacity :=
    ⟨hf.trans h.current.capacity_eq, h.current.nameFits⟩
  exact h.modifyCurrent hstor

/-- Other documents are not changed with the text at hand. -/
theorem document_modifyBuffer_of_ne (f : GapBuffer → GapBuffer) {id : Nat} (hid : t.has id = true)
    (hne : id ≠ t.active) : (t.modifyBuffer f).document id = t.document id := by
  rw [SegmentTable.modifyBuffer, document_modifyCurrent _ hid, if_neg hne]

/-! ## New tables -/

theorem one_le_size_newSlots (capacity first : Nat) (rest : List Nat) :
    1 ≤ (newSlots capacity first rest).size := by simp [newSlots]

/-- Of new slots the first one lacks its bytes. -/
theorem isSome_newSlots (capacity first : Nat) (rest : List Nat) (i : Nat)
    (h : i < (newSlots capacity first rest).size) :
    (newSlots capacity first rest)[i].storage.isSome = (i + 1 != 1) := by
  cases i <;> simp [newSlots]

/-- The table of unused segments over the given slots. -/
def unused (capacity first : Nat) (rest : List Nat) : SegmentTable where
  capacity := capacity
  slots := newSlots capacity first rest
  active := 1
  current := ⟨Header.blank, GapBuffer.empty capacity⟩
  active_pos := Nat.one_pos
  active_le := one_le_size_newSlots capacity first rest
  isSome_storage := isSome_newSlots capacity first rest

/-- A new table has one segment for every slot that is present. -/
theorem of_ofLayout {capacity : Nat} {present : List Bool}
    (h : ofLayout capacity present = .ok t) :
    ∃ first rest, t = unused capacity first rest ∧ rest.length + 1 = present.count true ∧
      rest.length + 1 ≤ maxSlots := by
  have hlen : ((present.zipIdx.filter (·.1)).map (·.2)).length = present.count true := by
    have hfst : present = present.zipIdx.map Prod.fst := by simp
    conv_rhs => rw [hfst, List.count, List.countP_map]
    rw [List.length_map, ← List.countP_eq_length_filter]
    congr 1
    funext slot
    simp
  unfold ofLayout at h
  split at h
  · cases h
  · next hle =>
    have hcount := List.count_le_length (l := present) (a := true)
    split at h
    · cases h
    · next first rest heq =>
      rw [heq, List.length_cons] at hlen
      exact ⟨first, rest, (Except.ok.inj h).symm, hlen, by omega⟩

/-- The document of every segment of a new table. -/
def newDocument (capacity : Nat) : Document := ⟨Header.blank, GapBuffer.empty capacity⟩

/-- A new document can be put away. -/
theorem storable_newDocument (capacity : Nat) : (newDocument capacity).Storable capacity :=
  ⟨GapBuffer.capacity_empty capacity, Header.nameFits_blank⟩

/-- Every slot of a new table but the first holds one. -/
theorem holds_newSlots {capacity first : Nat} {rest : List Nat} {i : Nat} {slot : Slot}
    (h : (newSlots capacity first rest)[i + 1]? = some slot) :
    slot.Holds (newDocument capacity) := by
  simp only [newSlots, List.getElem?_toArray, List.getElem?_cons_succ, List.getElem?_map,
    Option.map_eq_some_iff] at h
  obtain ⟨p, -, rfl⟩ := h
  exact ⟨rfl, rfl⟩

/-- It has as many segments as were asked for. -/
theorem count_unused (capacity first : Nat) (rest : List Nat) :
    (unused capacity first rest).count = rest.length + 1 := by
  simp [count, unused, newSlots]

/-- **A table of unused segments** is well formed, if its control blocks can address them. -/
theorem wellFormed_unused {capacity first : Nat} {rest : List Nat} (hcap : capacity < 2 ^ 32)
    (hlen : rest.length + 1 ≤ maxSlots) : (unused capacity first rest).WellFormed := by
  refine ⟨hcap, ?_, storable_newDocument capacity, ?_⟩
  · rwa [count_unused]
  · intro i slot hslot hne
    refine ⟨_, storable_newDocument capacity, ?_⟩
    cases i with
    | zero => exact absurd rfl hne
    | succ i => exact holds_newSlots hslot

/-- All its segments show new documents. -/
theorem document_unused {capacity first : Nat} {rest : List Nat} (hcap : capacity < 2 ^ 32)
    {id : Nat} (hid : (unused capacity first rest).has id = true) :
    (unused capacity first rest).document id = newDocument capacity := by
  by_cases ha : id = (unused capacity first rest).active
  · rw [ha, document_active]
    rfl
  · obtain ⟨hpos, hle⟩ := has_iff.mp hid
    have hactive : (unused capacity first rest).active = 1 := rfl
    have hi : id - 1 < (unused capacity first rest).slots.size := by omega
    have hslot := Array.getElem?_eq_getElem hi
    have hsub : id - 1 = id - 2 + 1 := by omega
    have hdoc := document_of_slot hcap hslot (by omega) (storable_newDocument capacity)
      (holds_newSlots (by rw [← hsub]; exact hslot))
    rwa [Nat.sub_add_cancel hpos] at hdoc

/-- **A new table is well-formed.** -/
theorem wellFormed_ofLayout {capacity : Nat} {present : List Bool} (hcap : capacity < 2 ^ 32)
    (h : ofLayout capacity present = .ok t) : t.WellFormed := by
  obtain ⟨first, rest, rfl, -, hlen⟩ := of_ofLayout h
  exact wellFormed_unused hcap hlen

/-- Every segment of a new table is unused. -/
theorem document_ofLayout {capacity : Nat} {present : List Bool} (hcap : capacity < 2 ^ 32)
    (h : ofLayout capacity present = .ok t) {id : Nat} (hid : t.has id = true) :
    t.document id = newDocument capacity := by
  obtain ⟨first, rest, rfl, -, -⟩ := of_ofLayout h
  exact document_unused hcap hid

end SegmentTable
end ScreenEditor
