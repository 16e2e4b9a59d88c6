import ScreenEditor.Proofs.Transfer.Overflow
import ScreenEditor.Proofs.Transfer.ReadAll

/-!
# Undoing a load

A load that fails gives up the segments it began and writes the text of the active one back.  If the
sink was confined, that restores every document that was in use (`restored_restore`).
-/

namespace ScreenEditor

/-- A text that is written into a buffer of the same capacity has its caret where it was. -/
theorem GapBuffer.lists_rewritten {g old : GapBuffer} (hcap : g.capacity = old.capacity) :
    ((g.reset.insertAll old.content).seek old.caret).before = old.before ∧
      ((g.reset.insertAll old.content).seek old.caret).after = old.after := by
  have hfree : old.content.length ≤ g.reset.free := by
    rw [length_content]
    calc old.length ≤ old.length + old.free := Nat.le_add_right _ _
      _ = g.capacity := (length_add_free old).trans hcap.symm
  have hcontent : (g.reset.insertAll old.content).content = old.content := by
    rw [content, before_insertAll g.reset hfree, after_insertAll, before_reset, after_reset,
      List.nil_append, List.append_nil]
  have hle : old.caret ≤ (g.reset.insertAll old.content).length := by
    rw [← length_content, hcontent, length_content]
    exact old.caret_le_length
  rw [before_seek _ hle, after_seek _ hle, hcontent, before_eq_take, after_eq_drop]
  exact ⟨rfl, rfl⟩

/-- The table `t'` has the documents of `t` again, with the same one active.  Segments that were
unused may have lost what was left of a text in them, but are unused. -/
structure Restored (t t' : SegmentTable) : Prop where
  wellFormed : t'.WellFormed
  capacity : t'.capacity = t.capacity
  count : t'.count = t.count
  active : t'.active = t.active
  header : t'.current.header = t.current.header
  before : t'.current.buffer.before = t.current.buffer.before
  after : t'.current.buffer.after = t.current.buffer.after
  others : ∀ id, t.has id = true → id ≠ t.active → t'.document id = t.document id ∨
    ((t.document id).isUnused = true ∧ (t'.document id).isUnused = true)
  headers : ∀ id, t.has id = true → id ≠ t.active →
    (t'.document id).header = (t.document id).header ∨ (t'.document id).header = Header.blank

theorem Restored.refl {t : SegmentTable} (h : t.WellFormed) : Restored t t :=
  ⟨h, rfl, rfl, rfl, rfl, rfl, rfl, fun _ _ _ => .inl rfl, fun _ _ _ => .inl rfl⟩

/-- The text at hand is back. -/
theorem Restored.content_eq {t t' : SegmentTable} (h : Restored t t') :
    t'.current.buffer.content = t.current.buffer.content := by
  rw [GapBuffer.content, GapBuffer.content, h.before, h.after]

/-- So is its caret. -/
theorem Restored.caret_eq {t t' : SegmentTable} (h : Restored t t') :
    t'.current.buffer.caret = t.current.buffer.caret := by
  have hlen := congrArg List.length h.before
  rwa [GapBuffer.length_before, GapBuffer.length_before] at hlen

/-- A document whose segment is given up is unused. -/
theorem Document.isUnused_released (d : Document) : d.released.isUnused = true := by
  have hlen : d.buffer.reset.length = 0 := by
    rw [← GapBuffer.length_content, GapBuffer.content, GapBuffer.before_reset,
      GapBuffer.after_reset]
    rfl
  simp [Document.isUnused, Document.released, GapBuffer.isEmpty, hlen, Header.blank]

/-- The table `t'` has the documents of `t` again, but for the one at hand, which is still to be
written back.  Segments that were unused may have been given up. -/
structure Vacated (t t' : SegmentTable) : Prop where
  wellFormed : t'.WellFormed
  capacity : t'.capacity = t.capacity
  count : t'.count = t.count
  active : t'.active = t.active
  others : ∀ id, t.has id = true → id ≠ t.active → t'.document id = t.document id ∨
    ((t.document id).isUnused = true ∧ ∃ d : Document, t'.document id = d.released)

/-- **A confined sink is vacated** by giving up what it began and going back.  `p` is the table that
the load began with: it has the documents of `t`, the active one aside. -/
theorem Sink.Confined.vacated {t p : SegmentTable} {s : Sink} (h : Confined p s)
    (hcap : p.capacity = t.capacity) (hcount : p.count = t.count) (hactive : p.active = t.active)
    (hothers : ∀ id, t.has id = true → id ≠ t.active → p.document id = t.document id) :
    Vacated t ((s.table.releaseAll s.begun.reverse).switch t.active) := by
  have hpt : ∀ id, p.has id = t.has id := SegmentTable.has_congr hcount
  have hgiven := SegmentTable.releaseAll_spec h.wellFormed fun id hid =>
    (h.has id).trans (h.fresh id (List.mem_reverse.mp hid)).1
  have hhas : ∀ id, s.table.has id = t.has id := fun id => (h.has id).trans (hpt id)
  have hgivenHas : ∀ id, (s.table.releaseAll s.begun.reverse).has id = t.has id := fun id =>
    (SegmentTable.has_congr hgiven.count id).trans (hhas id)
  have hswitch := hgiven.wellFormed.agrees_switch t.active
  refine ⟨hswitch.wellFormed, hswitch.capacity.trans (hgiven.capacity.trans (h.capacity.trans hcap)),
    hswitch.count.trans (hgiven.count.trans (h.count.trans hcount)),
    SegmentTable.active_switch ((hgivenHas _).trans SegmentTable.has_active), ?_⟩
  intro id hid hne
  rw [hswitch.document id ((hgivenHas id).trans hid), hgiven.document id ((hhas id).trans hid)]
  by_cases hmem : id ∈ s.begun
  · rw [if_pos (List.mem_reverse.mpr hmem)]
    have hunused := (h.fresh id hmem).2.resolve_left fun he => hne (he.trans hactive)
    rw [hothers id hid hne] at hunused
    exact .inr ⟨hunused, _, rfl⟩
  · rw [if_neg (mt List.mem_reverse.mp hmem), h.others id ((hpt id).trans hid) (by rwa [hactive]) hmem,
      hothers id hid hne]
    exact .inl rfl

/-- What a checkpoint writes back restores the table. -/
theorem Vacated.restored {t t' : SegmentTable} (h : Vacated t t') (hwf : t.WellFormed) :
    Restored t (t'.modifyCurrent fun d => ⟨t.current.header,
      (d.buffer.reset.insertAll t.current.buffer.content).seek t.current.buffer.caret⟩) := by
  have hcapacity : t'.current.buffer.capacity = t.current.buffer.capacity := by
    rw [h.wellFormed.current.capacity_eq, hwf.current.capacity_eq, h.capacity]
  obtain ⟨hbefore, hafter⟩ := GapBuffer.lists_rewritten hcapacity
  have hstorable : Document.Storable ⟨t.current.header,
      (t'.current.buffer.reset.insertAll t.current.buffer.content).seek t.current.buffer.caret⟩
      t'.capacity := by
    refine ⟨?_, hwf.current.nameFits⟩
    rw [GapBuffer.capacity_seek, GapBuffer.capacity_insertAll, GapBuffer.capacity_reset]
    exact h.wellFormed.current.capacity_eq
  have hdoc : ∀ id, t.has id = true → id ≠ t.active → (t'.modifyCurrent fun d =>
      ⟨t.current.header, (d.buffer.reset.insertAll t.current.buffer.content).seek
        t.current.buffer.caret⟩).document id = t'.document id := by
    intro id hid hne
    rw [SegmentTable.document_modifyCurrent _ ((SegmentTable.has_congr h.count id).trans hid),
      if_neg (by rwa [h.active])]
  refine ⟨h.wellFormed.modifyCurrent hstorable, h.capacity, h.count, h.active, rfl, hbefore, hafter,
    ?_, ?_⟩
  · intro id hid hne
    rw [hdoc id hid hne]
    refine (h.others id hid hne).imp_right fun ⟨hunused, d, hd⟩ => ⟨hunused, ?_⟩
    rw [hd, Document.isUnused_released]
  · intro id hid hne
    rw [hdoc id hid hne]
    rcases h.others id hid hne with hsame | ⟨-, d, hd⟩
    · exact .inl (congrArg Document.header hsame)
    · exact .inr (congrArg Document.header hd)

/-- **A confined sink is undone.** -/
theorem restored_restore {t p : SegmentTable} {s : Sink} (hwf : t.WellFormed)
    (hcap : p.capacity = t.capacity) (hcount : p.count = t.count) (hactive : p.active = t.active)
    (hothers : ∀ id, t.has id = true → id ≠ t.active → p.document id = t.document id)
    (h : Sink.Confined p s) :
    Restored t ((Checkpoint.take t).restore s.table s.begun.reverse) :=
  (h.vacated hcap hcount hactive hothers).restored hwf

end ScreenEditor
