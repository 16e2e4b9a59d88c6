import ScreenEditor.Proofs.Segment.Chain
import ScreenEditor.Proofs.Session.Documents

/-!
# Chains from one operation to the next

Chains are told apart by their names alone.  This file says which segments are parts of the chain
with a name once a file is loaded (`Load.Spread.isPart_iff`), once a document is saved
(`Save.Renamed.isPart_iff`), and when the documents are kept (`Kept.isPart`).

A document that takes the name of a chain that is there already is taken for a part of it.
`SegmentTable.JoinsChain` says that this happened to the document at hand.  As long as it does not,
chains stay apart (`SegmentTable.isPart_active_of_not_joinsChain`).
-/

namespace ScreenEditor

namespace SegmentTable

variable {t t' : SegmentTable} {name : String} {id : Nat}

/-- The document at hand is a part of the chain with its name, if it is part of one at all. -/
theorem isPart_active :
    t.IsPart name t.active ↔ t.current.header.part ≠ 0 ∧ t.current.header.name = name := by
  rw [IsPart, document_active]
  exact and_iff_right has_active

/-- The segments that are written are the parts of the chain that the document at hand is in, or
that document, which is no part of a chain. -/
theorem mem_wholeDocument_iff (h : (t.document id).header.part ≠ 0) :
    id ∈ t.wholeDocument ↔
      t.current.header.part ≠ 0 ∧ t.IsPart t.current.header.name id := by
  rw [wholeDocument]
  split
  · next hzero =>
    refine iff_of_false ?_ fun hpart => hpart.1 hzero
    intro hid
    rw [List.mem_singleton.mp hid, document_active] at h
    exact h hzero
  · next hpart => exact mem_chain.trans (and_iff_right hpart).symm

/-! ## Joining a chain -/

/-- The document at hand has become part of a chain that had parts before, and it was none of
them. -/
def JoinsChain (t t' : SegmentTable) : Prop :=
  t'.active = t.active ∧ t'.current.header.part ≠ 0 ∧
    ¬ t.IsPart t'.current.header.name t.active ∧ ∃ id, t.IsPart t'.current.header.name id

theorem exists_isPart_iff :
    (∃ id ∈ List.range' 1 t.count, t.IsPart name id) ↔ ∃ id, t.IsPart name id := by
  refine exists_congr fun id => and_iff_right_of_imp fun hid => ?_
  have hid' := has_iff.mp hid.1
  rw [List.mem_range'_1, count]
  omega

instance (t t' : SegmentTable) : Decidable (t.JoinsChain t') :=
  have := decidable_of_iff _ (@exists_isPart_iff t t'.current.header.name)
  inferInstanceAs (Decidable (_ ∧ _ ∧ _ ∧ _))

/-- **A chain that a document does not join anew is the one that it was in**, or it had no parts. -/
theorem isPart_active_of_not_joinsChain (h : ¬ t.JoinsChain t') (hactive : t'.active = t.active)
    (hpart : t'.current.header.part ≠ 0) (hid : t.IsPart t'.current.header.name id) :
    t.IsPart t'.current.header.name t.active := by
  by_contra hnot
  exact h ⟨hactive, hpart, hnot, id, hid⟩

end SegmentTable

variable {t t' : SegmentTable} {name m : String} {id : Nat}

/-! ## After a load -/

namespace Load.Spread

open Load

variable {mode : LoadMode} {ids : List Nat}

theorem current_name (h : t.WellFormed) (hs : Spread t name mode ids t') :
    t'.current.header.name = title t name mode := by
  have hname := hs.name t.active hs.active_mem (notMem_stale_active h mode)
  rwa [← hs.active, SegmentTable.document_active] at hname

/-- The parts are those that took the file, and of those before it those that are not given up. -/
theorem isPart_iff (h : t.WellFormed) (hs : Spread t name mode ids t') :
    t'.IsPart m id ↔
      (id ∈ ids ∧ id ∉ stale t mode ∧ (t'.document id).header.part ≠ 0 ∧ title t name mode = m) ∨
        (id ∉ ids ∧ id ∉ stale t mode ∧ t.IsPart m id) := by
  have hhas := SegmentTable.has_congr hs.count id
  by_cases hmem : id ∈ ids
  · by_cases hstale : id ∈ stale t mode
    · simp [SegmentTable.IsPart, hmem, hstale, hs.given id hmem hstale, Header.blank]
    · simp [SegmentTable.IsPart, hmem, hstale, hhas, (hs.fresh id hmem).1, hs.name id hmem hstale]
  · by_cases hid : t.has id = true
    · have hdoc := hs.others id hid hmem
      by_cases hstale : id ∈ stale t mode
      · rw [if_pos hstale] at hdoc
        simp [SegmentTable.IsPart, hmem, hstale, hdoc, Document.released, Header.blank]
      · rw [if_neg hstale] at hdoc
        by_cases hlater : id ∈ later t mode
        · have hpart := (isPart_of_mem_later h hlater).2.2.1
          rw [if_pos hlater] at hdoc
          simp [SegmentTable.IsPart, hmem, hstale, hhas, hdoc, raised, hpart,
            raised_part_ne_zero hpart]
        · rw [if_neg hlater] at hdoc
          simp [SegmentTable.IsPart, hmem, hstale, hhas, hdoc]
    · simp [SegmentTable.IsPart, hmem, hhas, hid]

/-- A part that did not take the file was one before, and is not given up. -/
theorem isPart_of_notMem (h : t.WellFormed) (hs : Spread t name mode ids t') (hnot : id ∉ ids)
    (hid : t'.IsPart m id) : id ∉ stale t mode ∧ t.IsPart m id :=
  (((hs.isPart_iff h).mp hid).resolve_left fun hin => hnot hin.1).2

/-- If a segment that took the file is part of a chain, the document at hand is. -/
theorem isPart_active (h : t.WellFormed) (hs : Spread t name mode ids t') (hmem : id ∈ ids)
    (hid : t'.IsPart m id) : t'.current.header.part ≠ 0 ∧ t'.current.header.name = m := by
  obtain ⟨-, -, hpart, rfl⟩ := ((hs.isPart_iff h).mp hid).resolve_right fun hold => hold.1 hmem
  exact ⟨hs.inChain id hmem hpart, hs.current_name h⟩

/-- If no chain is joined, a part of the document that was opened is one that took the file. -/
theorem mem_of_not_joinsChain (h : t.WellFormed) (hs : Spread t name .replace ids t')
    (hj : ¬ t.JoinsChain t') (hmem : id ∈ ids) (hid : t'.IsPart m id) {j : Nat}
    (hpart : t'.IsPart m j) : j ∈ ids := by
  obtain ⟨hcurrent, rfl⟩ := hs.isPart_active h hmem hid
  by_contra hnot
  obtain ⟨hstale, hold⟩ := hs.isPart_of_notMem h hnot hpart
  obtain ⟨hchain, hname⟩ := SegmentTable.isPart_active.mp
    (SegmentTable.isPart_active_of_not_joinsChain hj hs.active hcurrent hold)
  refine hstale ((mem_stale_iff h j).mpr ⟨hchain, ?_, hname ▸ hold⟩)
  rintro rfl
  exact hnot hs.active_mem

end Load.Spread

/-! ## After a save -/

namespace Save.Renamed

/-- A save keeps the part numbers. -/
theorem part_eq (hs : Renamed t name t') (hid : t.has id = true) :
    (t'.document id).header.part = (t.document id).header.part := by
  rw [hs.document id hid]
  split <;> rfl

/-- The parts of the document at hand have the new name, and all others the name that they had. -/
theorem isPart_iff (hs : Renamed t name t') :
    t'.IsPart m id ↔
      (id ∈ t.wholeDocument ∧ (t.document id).header.part ≠ 0 ∧ Header.clipName name = m) ∨
        (id ∉ t.wholeDocument ∧ t.IsPart m id) := by
  have hhas := SegmentTable.has_congr hs.count id
  by_cases hid : t.has id = true
  · have hdoc := hs.document id hid
    by_cases hmem : id ∈ t.wholeDocument
    · rw [if_pos hmem] at hdoc
      simp [SegmentTable.IsPart, hmem, hhas, hid, hdoc, Document.savedAs]
    · rw [if_neg hmem] at hdoc
      simp [SegmentTable.IsPart, hmem, hhas, hdoc]
  · have hmem : id ∉ t.wholeDocument := fun hmem => hid (SegmentTable.has_of_mem_wholeDocument hmem)
    simp [SegmentTable.IsPart, hmem, hhas, hid]

theorem current_header (hs : Renamed t name t') :
    t'.current.header.part = t.current.header.part ∧
      t'.current.header.name = Header.clipName name := by
  have hmem : t.active ∈ t.wholeDocument := by
    by_cases hpart : t.current.header.part = 0
    · rw [SegmentTable.wholeDocument, if_pos hpart]
      exact List.mem_cons_self
    · refine (SegmentTable.mem_wholeDocument_iff ?_).mpr ⟨hpart, ?_⟩
      · rwa [SegmentTable.document_active]
      · exact SegmentTable.isPart_active.mpr ⟨hpart, rfl⟩
  have hdoc := hs.document t.active SegmentTable.has_active
  rw [if_pos hmem, SegmentTable.document_active, ← hs.active, SegmentTable.document_active] at hdoc
  rw [hdoc]
  exact ⟨rfl, rfl⟩

/-- A part that was written is of the chain of the document at hand, and has the new name. -/
theorem isPart_of_mem (hs : Renamed t name t') (hmem : id ∈ t.wholeDocument)
    (hid : t'.IsPart m id) : t.current.header.part ≠ 0 ∧ t.IsPart t.current.header.name id ∧
      Header.clipName name = m := by
  obtain ⟨-, hpart, hname⟩ := (hs.isPart_iff.mp hid).resolve_right fun hold => hold.1 hmem
  obtain ⟨hchain, hold⟩ := (SegmentTable.mem_wholeDocument_iff hpart).mp hmem
  exact ⟨hchain, hold, hname⟩

/-- A part that was not written was one before. -/
theorem isPart_of_notMem (hs : Renamed t name t') (hnot : id ∉ t.wholeDocument)
    (hid : t'.IsPart m id) : t.IsPart m id :=
  ((hs.isPart_iff.mp hid).resolve_left fun hin => hnot hin.1).2

/-- If no chain is joined, a part of the document that was saved is one that was written. -/
theorem mem_of_not_joinsChain (hs : Renamed t name t') (hj : ¬ t.JoinsChain t')
    (hmem : id ∈ t.wholeDocument) (hid : t'.IsPart m id) {j : Nat} (hpart : t'.IsPart m j) :
    j ∈ t.wholeDocument := by
  obtain ⟨hcurrent, hname⟩ := hs.current_header
  obtain ⟨hchain, -, rfl⟩ := hs.isPart_of_mem hmem hid
  by_contra hnot
  have hold := hs.isPart_of_notMem hnot hpart
  rw [← hname] at hold
  have hactive := SegmentTable.isPart_active_of_not_joinsChain hj hs.active (hcurrent ▸ hchain) hold
  obtain ⟨-, hsame⟩ := SegmentTable.isPart_active.mp hactive
  exact hnot ((SegmentTable.mem_wholeDocument_iff hold.2.1).mpr ⟨hchain, hsame ▸ hold⟩)

end Save.Renamed

/-! ## When documents are kept -/

/-- Parts of kept documents were parts before. -/
theorem Kept.isPart (hk : Kept t t') (hid : t'.IsPart m id) : t.IsPart m id := by
  obtain ⟨hhas, hpart, hname⟩ := hid
  rw [hk.has] at hhas
  rw [hk.name id hhas] at hname
  refine ⟨hhas, ?_, hname⟩
  rcases hk.part id hhas with hsame | ⟨hzero, -⟩
  · rwa [hsame] at hpart
  · exact absurd hzero hpart

end ScreenEditor
