import ScreenEditor.Proofs.Segment.Documents

/-!
# Giving segments up, continuing in another, listing

What the operations of a table do to its documents.  Two tables *agree* when they have the same
documents; switching and listing lead to a table that agrees.  A table with the *same texts* may
differ in headers.  Giving a segment up changes its document only, and continuing in an unused
segment changes that one and the part number of the document it continues.
-/

namespace ScreenEditor.SegmentTable

variable {t : SegmentTable}

/-! ## Tables with the same documents -/

/-- A well-formed table with the same documents. -/
structure Agrees (t t' : SegmentTable) : Prop where
  wellFormed : t'.WellFormed
  capacity : t'.capacity = t.capacity
  count : t'.count = t.count
  document : ∀ id, t.has id = true → t'.document id = t.document id

/-- A table has the documents that it has. -/
theorem Agrees.refl (h : t.WellFormed) : t.Agrees t := ⟨h, rfl, rfl, fun _ _ => rfl⟩

/-- Tables with as many segments have the same numbers. -/
theorem has_congr {t t' : SegmentTable} (h : t'.count = t.count) (id : Nat) :
    t'.has id = t.has id := by
  rw [has, has, h]

theorem Agrees.has {t' : SegmentTable} (h : t.Agrees t') (id : Nat) : t'.has id = t.has id :=
  has_congr h.count id

/-- Agreement goes from table to table. -/
theorem Agrees.trans {t' t'' : SegmentTable} (h : t.Agrees t') (h' : t'.Agrees t'') :
    t.Agrees t'' where
  wellFormed := h'.wellFormed
  capacity := h'.capacity.trans h.capacity
  count := h'.count.trans h.count
  document := by
    intro id hid
    rw [h'.document id (by rwa [h.has]), h.document id hid]

/-- **A switch changes no document.** -/
theorem WellFormed.agrees_switch (h : t.WellFormed) (id : Nat) : t.Agrees (t.switch id) :=
  ⟨h.switch id, capacity_switch t id, count_switch t id, fun _ hid => document_switch h id hid⟩

/-- A table that agrees and has the same active segment shows the same document. -/
theorem Agrees.current_eq {t' : SegmentTable} (h : t.Agrees t') (ha : t'.active = t.active) :
    t'.current = t.current := by
  rw [← document_active t', ha, h.document _ has_active, document_active]

/-! ## Equal texts -/

/-- The segments have the same texts, with the same carets; headers may differ. -/
structure SameTexts (t t' : SegmentTable) : Prop where
  wellFormed : t'.WellFormed
  capacity : t'.capacity = t.capacity
  count : t'.count = t.count
  buffer : ∀ id, t.has id = true → (t'.document id).buffer = (t.document id).buffer

/-- Where the documents agree the texts do. -/
theorem Agrees.sameTexts {t' : SegmentTable} (h : t.Agrees t') : t.SameTexts t' :=
  ⟨h.wellFormed, h.capacity, h.count, fun id hid => by rw [h.document id hid]⟩

theorem SameTexts.has {t' : SegmentTable} (h : t.SameTexts t') (id : Nat) : t'.has id = t.has id :=
  has_congr h.count id

/-- Equality of texts goes from table to table as well. -/
theorem SameTexts.trans {t' t'' : SegmentTable} (h : t.SameTexts t') (h' : t'.SameTexts t'') :
    t.SameTexts t'' := by
  refine ⟨h'.wellFormed, h'.capacity.trans h.capacity, h'.count.trans h.count, ?_⟩
  intro id hid
  rw [h'.buffer id (by rwa [h.has]), h.buffer id hid]

/-- With the same segment active, the text at hand is the same. -/
theorem SameTexts.current_buffer {t' : SegmentTable} (h : t.SameTexts t')
    (ha : t'.active = t.active) :
    t'.current.buffer = t.current.buffer := by
  rw [← document_active t', ha, h.buffer _ has_active, document_active]

/-- Going back to the segment that was active. -/
theorem SameTexts.switchBack {t' : SegmentTable} (h : t.SameTexts t') :
    t.SameTexts (t'.switch t.active) ∧ (t'.switch t.active).active = t.active := by
  have hhas : t'.has t.active = true := by rw [h.has, has_active]
  exact ⟨h.trans (h.wellFormed.agrees_switch t.active).sameTexts, active_switch hhas⟩

/-- A change of the header at hand. -/
theorem WellFormed.sameTexts_modifyHeader (h : t.WellFormed) {f : Header → Header}
    (hf : (f t.current.header).NameFits) : t.SameTexts (t.modifyHeader f) := by
  have hstor : Document.Storable ⟨f t.current.header, t.current.buffer⟩ t.capacity :=
    ⟨h.current.capacity_eq, hf⟩
  refine ⟨h.modifyCurrent hstor, rfl, rfl, ?_⟩
  intro id hid
  rw [modifyHeader, document_modifyCurrent _ hid]
  split
  · next ha => rw [ha, document_active]
  · rfl

/-! ## Changing headers -/

/-- Change the headers of segments, one after the other. -/
def modifyHeaders (t : SegmentTable) (f : Header → Header) (ids : List Nat) : SegmentTable :=
  ids.foldl (fun t id => (t.switch id).modifyHeader f) t

/-- Changing headers touches no text. -/
theorem sameTexts_modifyHeaders (h : t.WellFormed) {f : Header → Header}
    (hf : ∀ header : Header, header.NameFits → (f header).NameFits) (ids : List Nat) :
    t.SameTexts (t.modifyHeaders f ids) := by
  induction ids generalizing t with
  | nil => exact (Agrees.refl h).sameTexts
  | cons id ids ih =>
      have hswitch := h.agrees_switch id
      have hchanged := hswitch.wellFormed.sameTexts_modifyHeader
        (hf _ hswitch.wellFormed.current.nameFits)
      exact (hswitch.sameTexts.trans hchanged).trans (ih hchanged.wellFormed)

/-- The headers of different segments are changed once each, and no others. -/
theorem document_modifyHeaders (h : t.WellFormed) {f : Header → Header}
    (hf : ∀ header : Header, header.NameFits → (f header).NameFits) {ids : List Nat}
    (hn : ids.Nodup) (hids : ∀ id ∈ ids, t.has id = true) {id : Nat} (hid : t.has id = true) :
    (t.modifyHeaders f ids).document id
      = if id ∈ ids then ⟨f (t.document id).header, (t.document id).buffer⟩
        else t.document id := by
  induction ids generalizing t with
  | nil => rfl
  | cons j ids ih =>
      have hswitch := h.agrees_switch j
      have hactive : (t.switch j).active = j := active_switch (hids j List.mem_cons_self)
      have hchanged := hswitch.wellFormed.sameTexts_modifyHeader
        (hf _ hswitch.wellFormed.current.nameFits)
      have hhas : ∀ k, ((t.switch j).modifyHeader f).has k = t.has k := fun k =>
        (hchanged.has k).trans (hswitch.has k)
      have hdoc : ((t.switch j).modifyHeader f).document id
          = if id = j then ⟨f (t.document j).header, (t.document j).buffer⟩
            else t.document id := by
        rw [modifyHeader, document_modifyCurrent _ (by rwa [has_switch]), hactive,
          current_switch, hswitch.document id hid]
      obtain ⟨hnot, hrest⟩ := List.nodup_cons.mp hn
      have hlast := ih hchanged.wellFormed hrest
        (fun k hk => (hhas k).trans (hids k (List.mem_cons_of_mem _ hk))) ((hhas id).trans hid)
      rw [hdoc] at hlast
      refine hlast.trans ?_
      by_cases he : id = j
      · subst he
        rw [if_neg hnot, if_pos rfl, if_pos List.mem_cons_self]
      · simp only [List.mem_cons, he, false_or, if_false]

/-! ## Giving up -/

/-- Writing a control block changes that slot. -/
theorem getElem?_slots_setBlock (t : SegmentTable) (id : Nat) (block : List UInt8) (i : Nat) :
    (t.setBlock id block).slots[i]?
      = if id - 1 = i then t.slots[i]?.map fun s => { s with block := block }
        else t.slots[i]? := by
  unfold setBlock
  split
  · next h =>
    simp only [Array.getElem?_set]
    split
    · next he => subst he; simp [h]
    · rfl
  · next h =>
    split
    · next he => subst he; simp [h]
    · rfl

/-- It changes nothing else of the table. -/
theorem setBlock_frame (t : SegmentTable) (id : Nat) (block : List UInt8) :
    (t.setBlock id block).capacity = t.capacity ∧ (t.setBlock id block).count = t.count ∧
      (t.setBlock id block).active = t.active ∧ (t.setBlock id block).current = t.current := by
  unfold setBlock
  split
  · simp [count]
  · simp

/-- An unused control block packs a document whose segment is given up. -/
theorem holds_released {slot : Slot} {d : Document} {capacity : Nat} (hd : d.Storable capacity)
    (h : slot.Holds d) :
    Slot.Holds { slot with block := (ControlBlock.unused capacity).encode } d.released := by
  refine ⟨h.storage, ?_⟩
  have hcap : d.buffer.reset.gapEnd = capacity := hd.capacity_eq
  rw [Document.released, hcap]
  rfl

/-- What is left of a document that is given up can be put away. -/
theorem storable_released {d : Document} {capacity : Nat} (hd : d.Storable capacity) :
    d.released.Storable capacity := ⟨hd.capacity_eq, Header.nameFits_blank⟩

/-- Give a segment up; a number that no segment has is passed over. -/
def giveUp (t : SegmentTable) (id : Nat) : SegmentTable := (t.release id).toOption.getD t

/-- The documents are those of `t` except that the segments in `ids` are given up. -/
structure GivenUp (t : SegmentTable) (ids : List Nat) (t' : SegmentTable) : Prop where
  wellFormed : t'.WellFormed
  capacity : t'.capacity = t.capacity
  count : t'.count = t.count
  active : t'.active = t.active
  document : ∀ id, t.has id = true →
    t'.document id = if id ∈ ids then (t.document id).released else t.document id

/-- The document at hand is given up in place. -/
theorem giveUp_active (h : t.WellFormed) : t.GivenUp [t.active] (t.giveUp t.active) := by
  have heq : t.giveUp t.active = t.modifyCurrent Document.released := by
    simp only [giveUp, release, if_pos, Except.toOption, Option.getD_some]
    rfl
  rw [heq]
  refine ⟨h.modifyCurrent (storable_released h.current), rfl, rfl, rfl, ?_⟩
  intro id hid
  rw [document_modifyCurrent _ hid]
  by_cases he : id = t.active
  · simp [he]
  · simp [he]

/-- Another one is given up in its slot, where its bytes stay but are unused. -/
theorem giveUp_inactive (h : t.WellFormed) {id : Nat} (hid : t.has id = true)
    (ne : id ≠ t.active) : t.GivenUp [id] (t.giveUp id) := by
  have heq : t.giveUp id = t.setBlock id (ControlBlock.unused t.capacity).encode := by
    simp only [giveUp, release, if_neg ne, hid, if_true, Except.toOption, Option.getD_some]
  rw [heq]
  have hid' := has_iff.mp hid
  obtain ⟨hcap, hcount, hactive, hcurrent⟩ :=
    setBlock_frame t id (ControlBlock.unused t.capacity).encode
  have hslots := getElem?_slots_setBlock t id (ControlBlock.unused t.capacity).encode
  obtain ⟨slot, hslot, hholds⟩ := h.slot_of_ne hid ne
  have hd := h.storable hid
  have hwf : (t.setBlock id (ControlBlock.unused t.capacity).encode).WellFormed := by
    refine ⟨by rw [hcap]; exact h.capacity_lt, by rw [hcount]; exact h.count_le,
      by rw [hcap, hcurrent]; exact h.current, ?_⟩
    intro i s hs hne
    rw [hactive] at hne
    rw [hslots] at hs
    rw [hcap]
    by_cases hi : id - 1 = i
    · subst hi
      rw [if_pos rfl, hslot, Option.map_some] at hs
      obtain rfl := Option.some.inj hs
      exact ⟨_, storable_released hd, holds_released hd hholds⟩
    · rw [if_neg hi] at hs
      exact h.stored i s hs hne
  refine ⟨hwf, hcap, hcount, hactive, ?_⟩
  intro j hj
  have hj' := has_iff.mp hj
  have hsub : j - 1 + 1 = j := by omega
  by_cases hact : j = t.active
  · rw [if_neg (by simp; omega), hact, ← hactive, document_active, hcurrent, hactive,
      document_active]
  · have hcap' : (t.setBlock id (ControlBlock.unused t.capacity).encode).capacity < 2 ^ 32 := by
      rw [hcap]
      exact h.capacity_lt
    have hne : j - 1 + 1 ≠ (t.setBlock id (ControlBlock.unused t.capacity).encode).active := by
      rw [hactive]
      omega
    by_cases hji : j = id
    · subst hji
      have hs := hslots (j - 1)
      rw [if_pos rfl, hslot, Option.map_some] at hs
      have hdoc := document_of_slot hcap' hs hne (by rw [hcap]; exact storable_released hd)
        (holds_released hd hholds)
      rw [hsub] at hdoc
      rw [hdoc, if_pos (by simp)]
    · obtain ⟨slot', hslot', hholds'⟩ := h.slot_of_ne hj hact
      have hs := hslots (j - 1)
      rw [if_neg (by omega), hslot'] at hs
      have hdoc := document_of_slot hcap' hs hne (by rw [hcap]; exact h.storable hj) hholds'
      rw [hsub] at hdoc
      rw [hdoc, if_neg (by simpa using hji)]

/-- **A segment that is given up** has a blank document, and no other changes. -/
theorem giveUp_spec (h : t.WellFormed) {id : Nat} (hid : t.has id = true) :
    t.GivenUp [id] (t.giveUp id) := by
  by_cases ne : id = t.active
  · subst ne
    exact giveUp_active h
  · exact giveUp_inactive h hid ne

@[simp] theorem released_released (d : Document) : d.released.released = d.released := rfl

/-- Giving up several segments changes their documents only. -/
theorem releaseAll_spec (h : t.WellFormed) {ids : List Nat}
    (hids : ∀ id ∈ ids, t.has id = true) : t.GivenUp ids (t.releaseAll ids) := by
  induction ids generalizing t with
  | nil => exact ⟨h, rfl, rfl, rfl, fun _ _ => rfl⟩
  | cons id ids ih =>
      have h1 := giveUp_spec h (hids id List.mem_cons_self)
      have hhas : ∀ j, (t.giveUp id).has j = t.has j := has_congr h1.count
      have h2 := ih h1.wellFormed (fun j hj => by
        rw [hhas]
        exact hids j (List.mem_cons_of_mem _ hj))
      have heq : t.releaseAll (id :: ids) = (t.giveUp id).releaseAll ids := rfl
      rw [heq]
      refine ⟨h2.wellFormed, h2.capacity.trans h1.capacity, h2.count.trans h1.count,
        h2.active.trans h1.active, ?_⟩
      intro j hj
      rw [h2.document j (by rwa [hhas]), h1.document j hj]
      by_cases hji : j = id
      · by_cases hmem : j ∈ ids <;> simp [hji]
      · by_cases hmem : j ∈ ids <;> simp [hji, hmem]

/-- Giving up a segment keeps a table well formed, also when there is no such segment. -/
theorem WellFormed.giveUp (h : t.WellFormed) (id : Nat) : (t.giveUp id).WellFormed := by
  cases hid : t.has id with
  | true => exact (giveUp_spec h hid).wellFormed
  | false =>
      have hne : id ≠ t.active := by
        intro he
        rw [he, has_active] at hid
        cases hid
      have hsame : t.giveUp id = t := by
        rw [SegmentTable.giveUp, release, if_neg hne, hid]
        rfl
      rwa [hsame]

/-- So does giving up several. -/
theorem WellFormed.releaseAll (h : t.WellFormed) (ids : List Nat) :
    (t.releaseAll ids).WellFormed := by
  induction ids generalizing t with
  | nil => exact h
  | cons id ids ih => exact ih (h.giveUp id)

/-! ## Unused segments -/

/-- A segment counts as unused exactly if its document is. -/
theorem isUnused_eq (h : t.WellFormed) {id : Nat} (hid : t.has id = true) :
    t.isUnused id = (t.document id).isUnused := by
  by_cases ne : id = t.active
  · rw [isUnused, if_pos ne, ne, document_active]
  · obtain ⟨slot, hslot, hholds⟩ := h.slot_of_ne hid ne
    have hd := h.storable hid
    have hcap : (t.document id).buffer.storage.size = t.capacity := hd.capacity_eq
    have hlt := h.capacity_lt
    have hle := (t.document id).buffer.gapBegin_le_gapEnd
    have hsize := (t.document id).buffer.gapEnd_le_size
    have hback := @ControlBlock.decode_encode ⟨(t.document id).header,
      (t.document id).buffer.gapBegin, (t.document id).buffer.gapEnd⟩ hd.nameFits
      (Nat.lt_of_le_of_lt (hle.trans hsize) (hcap ▸ hlt)) (Nat.lt_of_le_of_lt hsize (hcap ▸ hlt))
    rw [isUnused, if_neg ne, if_pos (has_iff.mp hid).1, hslot]
    simp only [hholds.block, hback, Document.isUnused, GapBuffer.isEmpty, GapBuffer.length]
    have hempty : ((t.document id).buffer.gapBegin
        + ((t.document id).buffer.storage.size - (t.document id).buffer.gapEnd) == 0)
        = ((t.document id).buffer.gapBegin == 0
          && (t.document id).buffer.gapEnd == t.capacity) := by
      rw [Bool.eq_iff_iff]
      simp only [beq_iff_eq, Bool.and_eq_true]
      omega
    rw [hempty]
    cases (t.document id).header.name.isEmpty <;> cases (t.document id).header.modified <;> simp

/-- The candidates for the next segment are all but the active one. -/
theorem mem_candidates {id : Nat} :
    id ∈ List.range' (t.active + 1) (t.count - t.active) ++ List.range' 1 (t.active - 1)
      ↔ t.has id = true ∧ id ≠ t.active := by
  have hpos := t.active_pos
  have hle := t.active_le
  rw [has_iff, List.mem_append, List.mem_range'_1, List.mem_range'_1, count]
  omega

/-- What a search for a free segment finds is unused and not at hand. -/
theorem of_nextUnused? (h : t.WellFormed) {id : Nat} (hn : t.nextUnused? = some id) :
    t.has id = true ∧ id ≠ t.active ∧ (t.document id).isUnused = true := by
  have hmem := mem_candidates.mp (List.mem_of_find?_eq_some hn)
  have hunused := List.find?_some hn
  rw [isUnused_eq h hmem.1] at hunused
  exact ⟨hmem.1, hmem.2, hunused⟩

/-! ## Continuing in another segment -/

/-- The part number of a document that is continued. -/
def continuedPart (part : UInt8) : UInt8 := if part = 0 then 1 else part

/-- A document that is continued in another segment: at least the first part of a chain. -/
def continued (d : Document) : Document :=
  ⟨⟨d.header.name, d.header.modified, d.header.awaitsOverwrite, continuedPart d.header.part⟩,
    d.buffer⟩

/-- The header of the part behind a document. -/
def successorHeader (d : Document) : Header :=
  ⟨d.header.name, false, false, nextPart (continuedPart d.header.part)⟩

/-- What continuing the active document in segment `id` leads to. -/
structure Continued (t : SegmentTable) (id : Nat) (t' : SegmentTable) : Prop where
  wellFormed : t'.WellFormed
  capacity : t'.capacity = t.capacity
  count : t'.count = t.count
  active : t'.active = id
  has_id : t.has id = true
  ne_active : id ≠ t.active
  unused : (t.document id).isUnused = true
  current : t'.current = ⟨successorHeader t.current, (t.document id).buffer⟩
  document : ∀ j, t.has j = true → j ≠ id →
    t'.document j = if j = t.active then continued t.current else t.document j

/-- **A document that goes on** has a further part in a segment that was unused. -/
theorem continueInNext_spec (h : t.WellFormed) {id : Nat} {t' : SegmentTable}
    (hc : t.continueInNext = some (id, t')) : t.Continued id t' := by
  obtain ⟨next, hnext, heq⟩ := Option.map_eq_some_iff.mp hc
  simp only [Prod.mk.injEq] at heq
  obtain ⟨rfl, rfl⟩ := heq
  obtain ⟨hid, hne, hunused⟩ := of_nextUnused? h hnext
  generalize hmark : (t.modifyHeader fun h => if h.part = 0 then { h with part := 1 } else h)
    = marked
  have hcurrent : marked.current = continued t.current := by
    rw [← hmark]
    simp only [modifyHeader, current_modifyCurrent, continued, continuedPart]
    split <;> rfl
  have hframe : marked.capacity = t.capacity ∧ marked.count = t.count
      ∧ marked.active = t.active := by rw [← hmark]; exact ⟨rfl, rfl, rfl⟩
  have hmarked : marked.WellFormed := by
    have hstor : marked.current.Storable t.capacity := by
      rw [hcurrent]
      exact ⟨h.current.capacity_eq, h.current.nameFits⟩
    rw [← hmark] at hstor ⊢
    exact h.modifyCurrent hstor
  have hdocs : ∀ j, t.has j = true →
      marked.document j = if j = t.active then continued t.current else t.document j := by
    intro j hj
    rw [← hcurrent, ← hmark]
    exact document_modifyCurrent _ hj
  have hhas : ∀ j, marked.has j = t.has j := has_congr hframe.2.1
  have hswitched : (marked.switch next).current = t.document next := by
    rw [current_switch, hdocs next hid, if_neg hne]
  have hactive : (marked.switch next).active = next := active_switch (by rwa [hhas])
  refine ⟨?_, ?_, ?_, hactive, hid, hne, hunused, ?_, ?_⟩
  · have hstor := (hmarked.switch next).current
    exact (hmarked.switch next).modifyCurrent ⟨hstor.capacity_eq, hmarked.current.nameFits⟩
  · exact (capacity_switch marked next).trans hframe.1
  · exact (count_switch marked next).trans hframe.2.1
  · simp only [modifyHeader, current_modifyCurrent, hswitched, hcurrent]
    rfl
  · intro j hj hji
    have hj' : (marked.switch next).has j = true := by rwa [has_switch, hhas]
    rw [modifyHeader, document_modifyCurrent _ hj', if_neg (by rw [hactive]; exact hji),
      document_switch hmarked next (by rwa [hhas]), hdocs j hj]

/-! ## Listing -/

/-- The line of a listing for a segment. -/
def entry (t : SegmentTable) (id : Nat) : DocumentEntry where
  id := id
  size := (t.document id).buffer.length
  modified := (t.document id).header.modified
  part := (t.document id).header.part
  name := (t.document id).header.name

/-- One step of a listing gives the line of the next segment and changes no document. -/
theorem step_spec {l : Listing} (hagrees : t.Agrees l.table) (hpos : 0 < l.next)
    (hle : l.next ≤ t.count) :
    l.step = (some (t.entry l.next), ⟨l.table.switch l.next, l.origin, l.next + 1⟩) ∧
      t.Agrees (l.table.switch l.next) := by
  have hid : t.has l.next = true := has_iff.mpr ⟨hpos, hle⟩
  have hle' : l.next ≤ l.table.count := by rwa [hagrees.count]
  have hactive : (l.table.switch l.next).active = l.next := active_switch (by rwa [hagrees.has])
  refine ⟨?_, hagrees.trans (hagrees.wellFormed.agrees_switch l.next)⟩
  simp only [Listing.step, if_pos hle', currentEntry, hactive, current_switch,
    hagrees.document _ hid, entry]

/-- What every switch keeps, the steps of a listing keep. -/
theorem take_induction {P : SegmentTable → Prop} (hswitch : ∀ t id, P t → P (t.switch id))
    {l : Listing} (h : P l.table) (n : Nat) :
    P (l.take n).2.table ∧ (l.take n).2.origin = l.origin := by
  induction n generalizing l with
  | zero => exact ⟨h, rfl⟩
  | succ n ih =>
      by_cases hle : l.next ≤ l.table.count
      · have hrest := ih (l := ⟨l.table.switch l.next, l.origin, l.next + 1⟩)
          (hswitch l.table l.next h)
        simp only [Listing.take, Listing.step, if_pos hle]
        exact hrest
      · have hend : l.take (n + 1) = ([], l) := by
          simp only [Listing.take, Listing.step, if_neg hle]
        rw [hend]
        exact ⟨h, rfl⟩

/-- What every switch keeps, a whole listing keeps. -/
theorem list_induction {P : SegmentTable → Prop} (hswitch : ∀ t id, P t → P (t.switch id))
    (h : P t) : P t.list.2 :=
  hswitch _ _ (take_induction hswitch (l := Listing.start t) h t.count).1

/-- The segment that was active is active again after a listing. -/
theorem active_list (t : SegmentTable) : t.list.2.active = t.active := by
  obtain ⟨hhas, horigin⟩ := take_induction (P := fun t' => t'.has t.active = true)
    (fun t' id h => by rwa [has_switch]) (l := Listing.start t) has_active t.count
  have hfinish : t.list.2 = ((Listing.start t).take t.count).2.table.switch t.active := by
    simp only [list, Listing.finish, horigin]
    rfl
  rw [hfinish, active_switch hhas]

/-- A listing gives the lines of the segments in turn. -/
theorem take_spec {l : Listing} (hagrees : t.Agrees l.table) (hpos : 0 < l.next) {n : Nat}
    (hn : l.next + n = t.count + 1) : (l.take n).1 = (List.range' l.next n).map t.entry := by
  induction n generalizing l with
  | zero => rfl
  | succ n ih =>
      obtain ⟨hstep, hswitched⟩ := step_spec hagrees hpos (by omega)
      have hentries := ih (l := ⟨l.table.switch l.next, l.origin, l.next + 1⟩) hswitched
        (Nat.succ_pos l.next) (by simp only; omega)
      simp only [Listing.take, hstep]
      rw [hentries]
      rfl

/-- Listing all segments gives their lines, and the same segment is active afterwards. -/
theorem list_spec (h : t.WellFormed) :
    t.list.1 = (List.range' 1 t.count).map t.entry ∧ t.Agrees t.list.2 ∧
      t.list.2.active = t.active := by
  refine ⟨?_, ?_, active_list t⟩
  · exact take_spec (l := Listing.start t) (Agrees.refl h) Nat.one_pos
      (by simp only [Listing.start]; omega)
  · exact list_induction (P := t.Agrees)
      (fun t' id hagrees => hagrees.trans (hagrees.wellFormed.agrees_switch id)) (Agrees.refl h)

/-- The part of a chain that a segment is, if it is one. -/
def partNumber (t : SegmentTable) (id : Nat) : Nat := (t.document id).header.part.toNat

/-- The segment is a part of the chain with this name. -/
def IsPart (t : SegmentTable) (name : String) (id : Nat) : Prop :=
  t.has id = true ∧ (t.document id).header.part ≠ 0 ∧ (t.document id).header.name = name

instance (t : SegmentTable) (name : String) (id : Nat) : Decidable (t.IsPart name id) :=
  inferInstanceAs (Decidable (_ ∧ _ ∧ _))

/-- One part stands before another: it has a lower number, or the same and a lower segment. -/
def Precedes (t : SegmentTable) (a b : Nat) : Prop :=
  t.partNumber a < t.partNumber b ∨ t.partNumber a = t.partNumber b ∧ a < b

/-- Sorting keeps the order of entries that it does not tell apart. -/
theorem filter_mergeSort {α : Type} {le : α → α → Bool} {q : α → Bool} {l : List α}
    (htrans : ∀ a b c, le a b = true → le b c = true → le a c = true)
    (htotal : ∀ a b, (le a b || le b a) = true)
    (h : (l.filter q).Pairwise fun a b => le a b = true) :
    (l.mergeSort le).filter q = l.filter q := by
  have hsub := (List.sublist_mergeSort htrans htotal h List.filter_sublist).filter q
  simp only [List.filter_filter, Bool.and_self] at hsub
  have hlen := ((List.mergeSort_perm l le).filter q).length_eq
  exact (hsub.eq_of_length hlen.symm).symm

/-- The lines of the segments that are parts of the chain with this name. -/
def chainLines (t : SegmentTable) (name : String) : List DocumentEntry :=
  ((List.range' 1 t.count).map t.entry).filter fun e => e.part != 0 && e.name == name

/-- The lines of a chain are the entries of its parts. -/
theorem mem_chainLines {name : String} {e : DocumentEntry} :
    e ∈ t.chainLines name ↔ t.IsPart name e.id ∧ e = t.entry e.id := by
  simp only [chainLines, List.mem_filter, List.mem_map, List.mem_range'_1, Bool.and_eq_true,
    bne_iff_ne, beq_iff_eq, IsPart, has_iff, count]
  constructor
  · rintro ⟨⟨id, hid, rfl⟩, hpart, hname⟩
    exact ⟨⟨⟨by simp only [entry]; omega, by simp only [entry]; omega⟩, hpart, hname⟩, rfl⟩
  · rintro ⟨⟨hid, hpart, hname⟩, he⟩
    rw [he]
    exact ⟨⟨e.id, by omega, rfl⟩, hpart, hname⟩

/-- They come in the order of the segments. -/
theorem pairwise_chainLines (t : SegmentTable) (name : String) :
    (t.chainLines name).Pairwise fun a b => a.id < b.id := by
  refine List.Pairwise.filter _ (List.pairwise_map.mpr ?_)
  exact List.pairwise_lt_range'

/-- Of the lines of a chain, sorted by part number, earlier ones stand before later ones. -/
theorem pairwise_sorted_chainLines (t : SegmentTable) (name : String) :
    ((t.chainLines name).mergeSort fun a b => a.part ≤ b.part).Pairwise
      fun a b => a.part < b.part ∨ a.part = b.part ∧ a.id < b.id := by
  have htrans : ∀ a b c : DocumentEntry, decide (a.part ≤ b.part) = true →
      decide (b.part ≤ c.part) = true → decide (a.part ≤ c.part) = true := by
    intro a b c hab hbc
    simp only [decide_eq_true_eq] at *
    exact UInt8.le_trans hab hbc
  have htotal : ∀ a b : DocumentEntry,
      (decide (a.part ≤ b.part) || decide (b.part ≤ a.part)) = true := by
    intro a b
    simp only [Bool.or_eq_true, decide_eq_true_eq]
    exact UInt8.le_total a.part b.part
  have hsorted := List.pairwise_mergeSort htrans htotal (t.chainLines name)
  rw [List.pairwise_iff_forall_sublist] at hsorted ⊢
  intro a b hab
  have hle : a.part ≤ b.part := of_decide_eq_true (hsorted hab)
  rcases UInt8.lt_or_eq_of_le hle with hlt | heq
  · exact .inl hlt
  · refine .inr ⟨heq, ?_⟩
    -- lines with one number are sorted as they were listed
    have hsame : ((t.chainLines name).filter fun e => e.part == a.part).Pairwise
        fun a b => decide (a.part ≤ b.part) = true := by
      refine List.pairwise_of_forall_mem_list ?_
      intro c hc d hd
      have hc' := beq_iff_eq.mp (List.mem_filter.mp hc).2
      have hd' := beq_iff_eq.mp (List.mem_filter.mp hd).2
      rw [hc', hd']
      exact decide_eq_true (UInt8.le_refl a.part)
    have hkept := hab.filter fun e => e.part == a.part
    rw [filter_mergeSort htrans htotal hsame] at hkept
    have hids := (t.pairwise_chainLines name).filter fun e => e.part == a.part
    rw [List.pairwise_iff_forall_sublist] at hids
    exact hids (by simpa [heq] using hkept)

/-- The parts of a chain are listed once each, in the order of their numbers. -/
theorem parts_spec (h : t.WellFormed) (name : String) :
    (t.parts name).1.Nodup ∧ (∀ id, id ∈ (t.parts name).1 ↔ t.IsPart name id) ∧
      (t.parts name).1.Pairwise t.Precedes ∧
      t.Agrees (t.parts name).2 ∧ (t.parts name).2.active = t.active := by
  obtain ⟨hentries, hagrees, hactive⟩ := list_spec h
  have hids : (t.parts name).1
      = ((t.chainLines name).mergeSort fun a b => a.part ≤ b.part).map (·.id) := by
    simp only [parts, hentries, chainLines]
  have hperm := List.mergeSort_perm (t.chainLines name) fun a b => decide (a.part ≤ b.part)
  refine ⟨?_, ?_, ?_, hagrees, hactive⟩
  · rw [hids, (hperm.map (·.id)).nodup_iff]
    exact List.pairwise_map.mpr ((t.pairwise_chainLines name).imp Nat.ne_of_lt)
  · intro id
    rw [hids, (hperm.map (·.id)).mem_iff, List.mem_map]
    constructor
    · rintro ⟨e, he, rfl⟩
      exact (mem_chainLines.mp he).1
    · intro hid
      exact ⟨t.entry id, mem_chainLines.mpr ⟨hid, rfl⟩, rfl⟩
  · rw [hids, List.pairwise_map]
    refine (t.pairwise_sorted_chainLines name).imp_of_mem ?_
    intro a b ha hb hab
    obtain ⟨-, ha'⟩ := mem_chainLines.mp (hperm.mem_iff.mp ha)
    obtain ⟨-, hb'⟩ := mem_chainLines.mp (hperm.mem_iff.mp hb)
    rw [ha', hb'] at hab
    exact hab.imp UInt8.lt_iff_toNat_lt.mp fun h => ⟨congrArg UInt8.toNat h.1, h.2⟩

end ScreenEditor.SegmentTable
