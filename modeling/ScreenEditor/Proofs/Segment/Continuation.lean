import ScreenEditor.Proofs.Session.Documents
import ScreenEditor.Proofs.Transfer.Undone

/-!
# Taking a free segment

A document that runs out of room goes on in a segment that is free.  Whether a segment is free is
read from its control block, without taking the document out; `isUnused_iff_activate` says that this
agrees with what activating it would show.  The segment taken is the first free one upward from the
active one and then from the first (`searchOrder`), and nothing else is written to but the number of
the document that goes on.

## Main results

* `SegmentTable.continueInNext_takes_free`: which segment is taken, and what becomes of it and of
  the others, in every reachable table.
-/

namespace ScreenEditor.SegmentTable

variable {t t' : SegmentTable}

/-! ## Free segments -/

/-- The control block of a segment calls it free exactly if activating it shows a document without
name, text and change. -/
theorem isUnused_iff_activate (h : t.WellFormed) {id : Nat} (hactivate : t.activate id = .ok t') :
    t.isUnused id = true ↔ t'.current.header.name = "" ∧ t'.current.buffer.content = [] ∧
      t'.current.header.modified = false := by
  rw [activate] at hactivate
  split at hactivate
  · next hid =>
    obtain rfl := Except.ok.inj hactivate
    rw [isUnused_eq h hid, Document.isUnused_iff, current_switch]
  · cases hactivate

/-- The segments other than the active one, in the order in which a free one is looked for. -/
def searchOrder (t : SegmentTable) : List Nat :=
  List.range' (t.active + 1) (t.count - t.active) ++ List.range' 1 (t.active - 1)

theorem mem_searchOrder {id : Nat} : id ∈ t.searchOrder ↔ t.has id = true ∧ id ≠ t.active :=
  mem_candidates

/-- The next segment is the first free one. -/
theorem nextUnused?_eq_some_iff {id : Nat} : t.nextUnused? = some id ↔
    t.isUnused id = true ∧
      ∃ l r, t.searchOrder = l ++ id :: r ∧ ∀ j ∈ l, t.isUnused j = false := by
  have hfind : t.nextUnused? = t.searchOrder.find? t.isUnused := rfl
  rw [hfind, List.find?_eq_some_iff_append]
  simp only [Bool.not_eq_true']

/-- There is a next segment unless all others are in use. -/
theorem isSome_nextUnused?_iff : t.nextUnused?.isSome = true ↔
    ∃ id, t.has id = true ∧ id ≠ t.active ∧ t.isUnused id = true := by
  have hfind : t.nextUnused? = t.searchOrder.find? t.isUnused := rfl
  rw [hfind, List.find?_isSome]
  simp only [mem_searchOrder, and_assoc]

/-! ## Going on there -/

/-- A part number one higher stops at the greatest there is. -/
theorem toNat_nextPart_eq_min (p : UInt8) : (nextPart p).toNat = min 255 (p.toNat + 1) := by
  rcases Nat.lt_or_ge p.toNat 255 with hlt | hge
  · rw [toNat_nextPart hlt]
    omega
  · have hmax : p = 255 := UInt8.toNat_inj.mp (Nat.le_antisymm (Nat.le_of_lt_succ p.toNat_lt) hge)
    rw [hmax]
    rfl

/-- Going on in another segment is refused, and then nothing happens, or it begins that segment. -/
theorem perform_continueInNext_cases (t : SegmentTable) :
    (t.nextUnused? = none ∧ t.perform .continueInNext = (.refused .outOfSegments, t)) ∨
      ∃ id t', t.nextUnused? = some id ∧ t.continueInNext = some (id, t') ∧
        t.perform .continueInNext = (.begun id, t') := by
  rw [perform, continueInNext]
  cases t.nextUnused? with
  | none => exact .inl ⟨rfl, rfl⟩
  | some id => exact .inr ⟨id, _, rfl, rfl, rfl⟩

/-- What the active document and the segment `id` are once the document goes on there. -/
structure GoesOn (t : SegmentTable) (id : Nat) (t' : SegmentTable) : Prop where
  active : t'.active = id
  left : t'.document t.active = ⟨{ t.current.header with
    part := if t.current.header.part = 0 then 1 else t.current.header.part }, t.current.buffer⟩
  empty : t'.current.buffer.content = [] ∧ t'.current.buffer.caret = 0
  header : t'.current.header =
    ⟨t.current.header.name, false, false, t'.current.header.part⟩
  number : t'.current.header.part.toNat = min 255 ((t'.document t.active).header.part.toNat + 1)
  others : ∀ j, t.has j = true → j ≠ id → j ≠ t.active → t'.document j = t.document j

theorem Continued.goesOn {id : Nat} (h : t.Continued id t') : t.GoesOn id t' := by
  have hleft : t'.document t.active = continued t.current := by
    rw [h.document t.active has_active (Ne.symm h.ne_active), if_pos rfl]
  have hplain := Document.plain_of_isUnused h.unused (successorHeader t.current)
  rw [← h.current] at hplain
  refine ⟨h.active, hleft, ⟨congrArg (·.text) hplain, congrArg (·.caret) hplain⟩, ?_, ?_, ?_⟩
  · rw [h.current]
    rfl
  · rw [hleft, h.current]
    exact toNat_nextPart_eq_min _
  · intro j hj hne hother
    rw [h.document j hj hne, if_neg hother]

/-- **A document goes on in a free segment and writes to no other.**  In every reachable table: a
segment that is not active counts as free by its control block exactly if activating it shows
neither a name nor text nor a change.  The document goes on exactly if some other segment is free,
and in the first such one of the search order; there it has its name, the next part number and no
text, where it was it is at least part 1, and every other segment has the document it had.  When no
segment is free the table is as before. -/
theorem continueInNext_takes_free (h : t.Reachable) :
    (∀ id t₁, id ≠ t.active → t.activate id = .ok t₁ →
      (t.isUnused id = true ↔ t₁.current.header.name = "" ∧ t₁.current.buffer.content = [] ∧
        t₁.current.header.modified = false)) ∧
    ((∃ id t', t.perform .continueInNext = (.begun id, t')) ↔
      ∃ id, t.has id = true ∧ id ≠ t.active ∧ t.isUnused id = true) ∧
    (∀ id t', t.perform .continueInNext = (.begun id, t') →
      (t.isUnused id = true ∧
        ∃ l r, t.searchOrder = l ++ id :: r ∧ ∀ j ∈ l, t.isUnused j = false) ∧
      t.GoesOn id t') ∧
    ((¬ ∃ id, t.has id = true ∧ id ≠ t.active ∧ t.isUnused id = true) →
      t.perform .continueInNext = (.refused .outOfSegments, t)) := by
  have hwf := h.wellFormed
  refine ⟨fun id t₁ _ hactivate => isUnused_iff_activate hwf hactivate, ?_, ?_, ?_⟩
  · rw [← isSome_nextUnused?_iff]
    rcases t.perform_continueInNext_cases with ⟨hnone, hperform⟩ | ⟨id, t', hsome, -, hperform⟩
    · simp [hnone, hperform]
    · simp [hsome, hperform]
  · intro id t' hbegun
    rcases t.perform_continueInNext_cases with ⟨-, hperform⟩ | ⟨j, t₁, hsome, hnext, hperform⟩
    · rw [hperform] at hbegun
      cases hbegun
    · rw [hperform] at hbegun
      cases hbegun
      exact ⟨nextUnused?_eq_some_iff.mp hsome, (continueInNext_spec hwf hnext).goesOn⟩
  · intro hnone
    rcases t.perform_continueInNext_cases with ⟨-, hperform⟩ | ⟨id, t', hsome, -, -⟩
    · exact hperform
    · exact absurd (isSome_nextUnused?_iff.mp (by rw [hsome]; rfl)) hnone

/-- The third of four segments is active and the fourth is in use, so the search goes on from the
first, which is in use too. -/
theorem continueInNext_takes_free_around :
    let ops : List TableOp := [.change (.rename "a"), .activate 4, .edit (.insert 120),
      .activate 3, .change (.rename "f"), .edit (.insertAll [97, 98])]
    let t := (performAll perform (unused 4 0 [1, 2, 3]) ops).2
    let t' := (t.perform .continueInNext).2
    (t.perform .continueInNext).1 = .begun 2 ∧ (∃ l r, t.searchOrder = l ++ 2 :: r ∧
      ∀ j ∈ l, t.isUnused j = false) ∧ t'.active = 2 ∧
      t'.current.header = ⟨"f", false, false, 2⟩ ∧ t'.current.buffer.content = [] ∧
      (t'.document 3).plain = ⟨⟨"f", false, false, 1⟩, [97, 98], 2⟩ ∧
      t'.document 4 = t.document 4 := by
  intro ops t t'
  have hnew : ofLayout 4 [true, true, true, true] = .ok (unused 4 0 [1, 2, 3]) := rfl
  have hreach : t.Reachable := (Reachable.new (by decide) hnew).performAll ops
  have hanswer : (t.perform .continueInNext).1 = .begun 2 := by decide +kernel
  obtain ⟨-, -, htakes, -⟩ := continueInNext_takes_free hreach
  obtain ⟨⟨-, horder⟩, hgoes⟩ := htakes 2 t' (by rw [← hanswer])
  have hactive : t.active = 3 := by decide +kernel
  have hleft := hgoes.left
  rw [hactive] at hleft
  refine ⟨hanswer, horder, hgoes.active, by decide +kernel, hgoes.empty.1, ?_, ?_⟩
  · exact (congrArg Document.plain hleft).trans (by decide +kernel)
  · exact hgoes.others 4 (by decide +kernel) (by decide) (by rw [hactive]; decide)

end ScreenEditor.SegmentTable
