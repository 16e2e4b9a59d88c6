import Mathlib.Data.List.Perm.Subperm
import ScreenEditor.Proofs.Transfer.Overflow

/-!
# The parts of a sink

What a sink makes of the headers of its segments, whatever it is given to store.  They are all parts
of the document that it began with, once there is more than one (`Named`).  If the document is named
or was changed, a part that is closed does not count as unused, so no segment is begun twice
(`Parts`): the segments are different ones, and their numbers go up by one.

Both last through a whole load (`lasting_named`, `lasting_parts`).
-/

namespace ScreenEditor

namespace SegmentTable

variable {t : SegmentTable}

/-- Different segments are no more than there are. -/
theorem length_le_count {ids : List Nat} (hn : ids.Nodup) (h : ∀ id ∈ ids, t.has id = true) :
    ids.length ≤ t.count := by
  have hsub : ids ⊆ List.range' 1 t.count := by
    intro id hid
    have hid' := has_iff.mp (h id hid)
    rw [List.mem_range'_1, count]
    omega
  have hle := (List.subperm_of_subset hn hsub).length_le
  rwa [List.length_range'] at hle

/-- A document that goes on is part 1, if it had no number. -/
theorem toNat_continuedPart (p : UInt8) : (continuedPart p).toNat = max p.toNat 1 := by
  unfold continuedPart
  split
  · next h =>
    subst h
    rfl
  · next h =>
    have hne : p.toNat ≠ 0 := fun h0 => h (UInt8.toNat_inj.mp h0)
    omega

/-- The next part has the next number, as long as there is one. -/
theorem toNat_nextPart {p : UInt8} (h : p.toNat < 255) : (nextPart p).toNat = p.toNat + 1 := by
  have hne : p ≠ 255 := by
    rintro rfl
    exact absurd h (by decide)
  rw [nextPart, if_neg hne, UInt8.toNat_add]
  exact Nat.mod_eq_of_lt (show p.toNat + 1 < 256 by omega)

/-- Once a document goes on it is part of a chain. -/
theorem continuedPart_ne_zero (p : UInt8) : continuedPart p ≠ 0 := by
  intro h
  have hnum := toNat_continuedPart p
  rw [h] at hnum
  have hpos : 1 ≤ max p.toNat 1 := Nat.le_max_right _ _
  rw [← hnum] at hpos
  exact absurd hpos (by decide)

/-- Its further parts are as well. -/
theorem nextPart_ne_zero (p : UInt8) : nextPart p ≠ 0 := by
  intro h
  rcases Nat.lt_or_ge p.toNat 255 with hlt | hge
  · have hnum := toNat_nextPart hlt
    rw [h] at hnum
    exact absurd hnum (by simp)
  · have hmax : p = 255 := UInt8.toNat_inj.mp (Nat.le_antisymm (Nat.le_of_lt_succ p.toNat_lt) hge)
    rw [nextPart, if_pos hmax] at h
    exact absurd h (by decide)

end SegmentTable

namespace Sink

variable {t : SegmentTable} {s s' : Sink}

/-! ## The segments of a sink -/

/-- The active segment is the last that was filled. -/
theorem Confined.segments_eq (h : Confined t s) :
    s.segments = s.segments.dropLast ++ [s.table.active] := by
  rw [segments, h.active, h.origin]
  cases s.begun with
  | nil => rfl
  | cons id earlier =>
      rw [List.reverse_cons, ← List.cons_append, List.dropLast_concat]
      rfl

/-- All of them exist. -/
theorem Confined.has_of_mem (h : Confined t s) {id : Nat} (hid : id ∈ s.segments) :
    s.table.has id = true := by
  rw [h.has]
  rcases List.mem_cons.mp hid with rfl | hmem
  · rw [h.origin]
    exact SegmentTable.has_active
  · exact (h.fresh id (List.mem_reverse.mp hmem)).1

/-- The active segment is one of them. -/
theorem Confined.active_mem (h : Confined t s) : s.table.active ∈ s.segments := by
  rw [h.segments_eq]
  exact List.mem_append_right _ List.mem_cons_self

/-- Those before the last are among them. -/
theorem mem_of_dropLast {id : Nat} (hid : id ∈ s.segments.dropLast) : id ∈ s.segments :=
  List.dropLast_subset _ hid

/-- The segments with the next part begun: the one that was active is among the earlier ones. -/
theorem Began.mem_cases {id : Nat} (hb : s.Began id s') {j : Nat} (hj : j ∈ s'.segments) :
    j ∈ s.segments ∨ j = id := by
  rw [hb.segments_eq, List.mem_append, List.mem_singleton] at hj
  exact hj

/-! ## Names -/

/-- The segments bear the name of the document, and are parts of it if there are further ones. -/
structure Named (t : SegmentTable) (s : Sink) : Prop where
  confined : Confined t s
  name : ∀ id ∈ s.segments, (s.table.document id).header.name = t.current.header.name
  inChain : s.begun ≠ [] → ∀ id ∈ s.segments, (s.table.document id).header.part ≠ 0

/-- The next part gets the name of the one before. -/
theorem Named.began (h : Named t s) {id : Nat} (hb : s.Began id s') : Named t s' := by
  have hwf := h.confined.wellFormed
  have hc := closedPart_closed hwf
  have hname := h.name s.table.active h.confined.active_mem
  rw [SegmentTable.document_active] at hname
  have hhas : ∀ j ∈ s'.segments, s.table.has j = true := by
    intro j hj
    rw [h.confined.has, ← (h.confined.began hb).has]
    exact (h.confined.began hb).has_of_mem hj
  refine ⟨h.confined.began hb, ?_, ?_⟩
  · intro j hj
    rw [hb.document hwf (hhas j hj)]
    split
    · rw [hb.continued.current, SegmentTable.successorHeader, hc.header]
      exact hname
    · next hne =>
      split
      · rw [SegmentTable.continued, hc.header]
        exact hname
      · exact h.name j ((hb.mem_cases hj).resolve_right hne)
  · intro _ j hj
    rw [hb.document hwf (hhas j hj)]
    split
    · rw [hb.continued.current]
      exact SegmentTable.nextPart_ne_zero _
    · next hne =>
      split
      · exact SegmentTable.continuedPart_ne_zero _
      · next hactive =>
        -- a segment that is neither new nor active is not the only one there was
        have hmem := (hb.mem_cases hj).resolve_right hne
        refine h.inChain ?_ j hmem
        intro hnone
        rw [segments, hnone] at hmem
        rw [h.confined.active, hnone] at hactive
        exact hactive ((List.mem_singleton.mp hmem).trans h.confined.origin)

/-- **The names last.** -/
theorem lasting_named (t : SegmentTable) : Lasting t (Named t) where
  confined h := h.confined
  congr h htable hbegun horigin _ := by
    refine ⟨h.confined.congr htable hbegun horigin, ?_, ?_⟩
    · rw [segments, htable, hbegun, horigin]
      exact h.name
    · rw [segments, htable, hbegun, horigin]
      exact h.inChain
  put := by
    intro s b h
    refine ⟨h.confined.put b, ?_, ?_⟩
    · intro id hid
      rw [header_put s b (h.confined.has_of_mem hid)]
      exact h.name id hid
    · intro hne id hid
      rw [header_put s b (h.confined.has_of_mem hid)]
      exact h.inChain hne id hid
  began h hb := h.began hb

/-! ## Parts -/

/-- A document as it is left in a part that is closed. -/
def ClosedAs (mode : LoadMode) (d : Document) : Prop :=
  match mode with
  | .replace => d.header.modified = false ∧ d.buffer.caret = 0
  | .insert => d.header.modified = true

/-- The part number of the part at a place of a document with so many further parts. -/
def numberAt (first further i : Nat) : Nat := if further = 0 then first else max first 1 + i

/-- With further parts the first counts as 1 at least. -/
theorem numberAt_of_pos {further : Nat} (h : 0 < further) (first i : Nat) :
    numberAt first further i = max first 1 + i := by
  rw [numberAt, if_neg (by omega)]

/-- The number of the last part once there are further ones. -/
theorem max_numberAt (first further : Nat) :
    max (numberAt first further further) 1 = max first 1 + further := by
  cases further with
  | zero => rfl
  | succ n =>
      rw [numberAt_of_pos (by omega)]
      omega

/-- The parts that a load which began with the table `t` has filled, and is filling. -/
structure Parts (t : SegmentTable) (s : Sink) : Prop where
  confined : Confined t s
  named : s.mode = .replace → t.current.header.name ≠ ""
  nodup : s.segments.Nodup
  name : ∀ id ∈ s.segments, (s.table.document id).header.name = t.current.header.name
  awaits : ∀ id ∈ s.segments, (s.table.document id).header.awaitsOverwrite = true →
    t.current.header.awaitsOverwrite = true
  number : t.partNumber t.active ≤ maxSlots → ∀ i id, s.segments[i]? = some id →
    s.table.partNumber id = numberAt (t.partNumber t.active) s.begun.length i
  closedAs : ∀ id ∈ s.segments.dropLast, ClosedAs s.mode (s.table.document id)

/-- The closed parts are not active. -/
theorem Parts.ne_active (h : Parts t s) {id : Nat} (hid : id ∈ s.segments.dropLast) :
    id ≠ s.table.active := by
  have hn := h.nodup
  rw [h.confined.segments_eq, List.nodup_append] at hn
  exact hn.2.2 id hid s.table.active List.mem_cons_self

/-- A byte that is put changes no number. -/
theorem Parts.put (h : Parts t s) (b : UInt8) : Parts t (s.put b) := by
  have hheader : ∀ id ∈ s.segments,
      ((s.put b).table.document id).header = (s.table.document id).header := fun id hid =>
    header_put s b (h.confined.has_of_mem hid)
  refine ⟨h.confined.put b, h.named, h.nodup, ?_, ?_, ?_, ?_⟩
  · intro id hid
    rw [hheader id hid]
    exact h.name id hid
  · intro id hid
    rw [hheader id hid]
    exact h.awaits id hid
  · intro hp i id hi
    rw [SegmentTable.partNumber, hheader id (List.mem_of_getElem? hi)]
    exact h.number hp i id hi
  · intro id hid
    rw [put_eq, SegmentTable.document_modifyBuffer_of_ne _
      (h.confined.has_of_mem (mem_of_dropLast hid)) (h.ne_active hid)]
    exact h.closedAs id hid

/-! ## Beginning a part -/

/-- A part that is closed is in use: it is named if it was read from a file, and else modified. -/
theorem Parts.earlier_inUse (h : Parts t s) {id : Nat}
    (hid : id ∈ s.segments.dropLast) : (s.table.document id).isUnused = false := by
  have hclosed := h.closedAs id hid
  cases hm : s.mode with
  | replace =>
      have hname := h.named hm
      rw [← h.name id (mem_of_dropLast hid)] at hname
      simp [Document.isUnused, hname]
  | insert =>
      rw [hm] at hclosed
      have hmod : (s.table.document id).header.modified = true := hclosed
      simp [Document.isUnused, hmod]

/-- What the table of a sink shows after the next part is begun. -/
structure NextPart (s : Sink) (id : Nat) (s' : Sink) : Prop where
  notMem : id ∉ s.segments
  closed : ∀ j ∈ s.segments.dropLast, s'.table.document j = s.table.document j
  left : s'.table.document s.table.active
    = SegmentTable.continued s.detachTail.finishPart.table.current
  current : s'.table.current.header
    = SegmentTable.successorHeader s.detachTail.finishPart.table.current
  before : s'.table.current.buffer.before = []
  after : s'.table.current.buffer.after = []
  free : s'.table.current.buffer.free = s'.table.capacity

/-- **The next part** has the number after the last one. -/
theorem Parts.nextPart (h : Parts t s) {id : Nat} (hb : s.Began id s') :
    s.NextPart id s' := by
  have hc := closedPart_closed h.confined.wellFormed
  have hk := hb.continued
  have hsame : ∀ j ∈ s.segments.dropLast,
      s.detachTail.finishPart.table.document j = s.table.document j := fun j hj =>
    hc.document j (h.confined.has_of_mem (mem_of_dropLast hj)) (h.ne_active hj)
  have hnot : id ∉ s.segments := by
    intro hid
    rw [h.confined.segments_eq, List.mem_append, List.mem_singleton] at hid
    rcases hid with hid | hid
    · have hunused := hk.unused
      rw [hsame id hid, h.earlier_inUse hid] at hunused
      exact Bool.false_ne_true hunused
    · exact hk.ne_active (hid.trans hc.active.symm)
  have hhas : ∀ j, s.detachTail.finishPart.table.has j = s.table.has j :=
    SegmentTable.has_congr hc.count
  have hempty : (s.detachTail.finishPart.table.document id).buffer.content = [] := by
    have hunused := hk.unused
    simp only [Document.isUnused, Bool.and_eq_true, GapBuffer.isEmpty, beq_iff_eq] at hunused
    exact List.length_eq_zero_iff.mp ((GapBuffer.length_content _).trans hunused.1.2)
  have hlists := List.append_eq_nil_iff.mp hempty
  refine ⟨hnot, ?_, ?_, ?_, ?_, ?_, ?_⟩
  · intro j hj
    have hmem := mem_of_dropLast hj
    rw [hk.document j (by rw [hhas]; exact h.confined.has_of_mem hmem)
      (fun he => hnot (he ▸ hmem)), if_neg (by rw [hc.active]; exact h.ne_active hj), hsame j hj]
  · rw [hk.document s.table.active (by rw [hhas]; exact SegmentTable.has_active)
      (fun he => hk.ne_active (he.symm.trans hc.active.symm)), if_pos hc.active.symm]
  · rw [hk.current]
  · rw [hk.current]
    exact hlists.1
  · rw [hk.current]
    exact hlists.2
  · have hcap := hk.wellFormed.current.capacity_eq
    have hadd := GapBuffer.length_add_free s'.table.current.buffer
    have hlen : s'.table.current.buffer.length = 0 := by
      rw [← GapBuffer.length_content, hk.current, hempty]
      rfl
    omega

/-- It is in a segment that was not filled before. -/
theorem Parts.nodup_began (h : Parts t s) {id : Nat} (hb : s.Began id s') :
    s'.segments.Nodup := by
  rw [hb.segments_eq, List.nodup_append]
  refine ⟨h.nodup, List.pairwise_singleton _ id, ?_⟩
  intro a ha b hb' he
  rw [List.mem_singleton] at hb'
  subst hb'
  exact (h.nextPart hb).notMem (he ▸ ha)

/-- The part number of a new part is one higher than that of the part before it. -/
theorem Parts.number_began (h : Parts t s) {id : Nat} (hb : s.Began id s')
    (hp : t.partNumber t.active ≤ maxSlots) (i j : Nat) (hi : s'.segments[i]? = some j) :
    s'.table.partNumber j = numberAt (t.partNumber t.active) s'.begun.length i := by
  have hc := closedPart_closed h.confined.wellFormed
  have hn := h.nextPart hb
  have hlen : s.segments.length = s.begun.length + 1 := by simp [segments]
  have hactive : s.segments[s.begun.length]? = some s.table.active := by
    have hdrop : s.segments.dropLast.length = s.begun.length := by
      rw [List.length_dropLast, hlen, Nat.add_sub_cancel]
    rw [h.confined.segments_eq, ← hdrop]
    exact List.getElem?_concat_length
  -- numbers saturate only beyond the greatest number of slots
  have hbound : s.begun.length + 2 ≤ maxSlots := by
    have hconf := h.confined.began hb
    have hle := SegmentTable.length_le_count (h.nodup_began hb) fun j hj => hconf.has_of_mem hj
    rw [hb.segments_eq, List.length_append, hlen, List.length_singleton] at hle
    exact hle.trans hconf.wellFormed.count_le
  have hmax : maxSlots = 128 := rfl
  have hpart : (SegmentTable.continuedPart
      s.detachTail.finishPart.table.current.header.part).toNat
        = max (t.partNumber t.active) 1 + s.begun.length := by
    rw [SegmentTable.toNat_continuedPart, hc.header, ← max_numberAt, ← h.number hp _ _ hactive,
      SegmentTable.partNumber, SegmentTable.document_active]
  rw [hb.segments_eq] at hi
  rw [hb.begun, List.length_cons, SegmentTable.partNumber]
  rcases Nat.lt_trichotomy i s.begun.length with hlt | rfl | hgt
  · rw [List.getElem?_append_left (by omega)] at hi
    have hj : j ∈ s.segments.dropLast := by
      rw [h.confined.segments_eq, List.getElem?_append_left
        (by rw [List.length_dropLast]; omega)] at hi
      exact List.mem_of_getElem? hi
    have hold := h.number hp i j hi
    rw [hn.closed j hj, ← SegmentTable.partNumber, hold, numberAt_of_pos (by omega),
      numberAt_of_pos (by omega)]
  · rw [List.getElem?_append_left (by omega), hactive] at hi
    obtain rfl := Option.some.inj hi
    rw [hn.left, SegmentTable.continued, hpart, numberAt_of_pos (by omega)]
  · have hi' : i = s.segments.length := by
      have hlt := (List.getElem?_eq_some_iff.mp hi).1
      rw [List.length_append, List.length_singleton] at hlt
      omega
    subst hi'
    rw [List.getElem?_concat_length] at hi
    obtain rfl := Option.some.inj hi
    rw [← hb.continued.active, SegmentTable.document_active, hn.current,
      SegmentTable.successorHeader, SegmentTable.toNat_nextPart (by omega), hpart, hlen,
      numberAt_of_pos (by omega), Nat.add_assoc]

/-- So the parts stay numbered in order. -/
theorem Parts.began (h : Parts t s) {id : Nat} (hb : s.Began id s') : Parts t s' := by
  have hc := closedPart_closed h.confined.wellFormed
  have hn := h.nextPart hb
  have hseg := hb.segments_eq
  have hdrop : s'.segments.dropLast = s.segments := by
    rw [hseg, List.dropLast_concat]
  have hid : s'.table.document id = s'.table.current := by
    rw [← hb.continued.active, SegmentTable.document_active]
  have hmem : ∀ j ∈ s.segments, j ∈ s.segments.dropLast ∨ j = s.table.active := by
    intro j hj
    rw [h.confined.segments_eq, List.mem_append, List.mem_singleton] at hj
    exact hj
  have hcases : ∀ j ∈ s'.segments, j ∈ s.segments.dropLast ∨ j = s.table.active ∨ j = id := by
    intro j hj
    rcases hb.mem_cases hj with hj | hj
    · exact (hmem j hj).imp_right .inl
    · exact .inr (.inr hj)
  refine ⟨h.confined.began hb, ?_, h.nodup_began hb, ?_, ?_, h.number_began hb, ?_⟩
  · rw [hb.same.mode]
    exact h.named
  · intro j hj
    have hactive := h.name s.table.active h.confined.active_mem
    rw [SegmentTable.document_active] at hactive
    rcases hcases j hj with hj | rfl | rfl
    · rw [hn.closed j hj]
      exact h.name j (mem_of_dropLast hj)
    · rw [hn.left, SegmentTable.continued, hc.header]
      exact hactive
    · rw [hid, hn.current, SegmentTable.successorHeader, hc.header]
      exact hactive
  · intro j hj
    have hactive := h.awaits s.table.active h.confined.active_mem
    rw [SegmentTable.document_active] at hactive
    rcases hcases j hj with hj | rfl | rfl
    · rw [hn.closed j hj]
      exact h.awaits j (mem_of_dropLast hj)
    · rw [hn.left, SegmentTable.continued, hc.header]
      exact hactive
    · rw [hid, hn.current, SegmentTable.successorHeader]
      exact fun hfalse => absurd hfalse Bool.false_ne_true
  · rw [hdrop, hb.same.mode]
    intro j hj
    rcases hmem j hj with hj | rfl
    · rw [hn.closed j hj]
      exact h.closedAs j hj
    · rw [hn.left, SegmentTable.continued]
      cases hm : s.mode with
      | replace => exact ⟨by rw [hc.header, hm]; rfl, hc.caret hm⟩
      | insert =>
          have hmod : s.detachTail.finishPart.table.current.header.modified = true := by
            rw [hc.header, hm]
            rfl
          exact hmod

/-- Only the table and the segments that were begun count for that. -/
theorem Parts.congr (h : Parts t s) (htable : s'.table = s.table) (hbegun : s'.begun = s.begun)
    (horigin : s'.origin = s.origin) (hmode : s'.mode = s.mode) : Parts t s' := by
  have hseg : s'.segments = s.segments := by rw [segments, segments, hbegun, horigin]
  refine ⟨h.confined.congr htable hbegun horigin, ?_, ?_, ?_, ?_, ?_, ?_⟩
  · rw [hmode]
    exact h.named
  · rw [hseg]
    exact h.nodup
  · rw [hseg, htable]
    exact h.name
  · rw [hseg, htable]
    exact h.awaits
  · rw [hseg, htable, hbegun]
    exact h.number
  · rw [hseg, htable, hmode]
    exact h.closedAs

/-- **The parts last.** -/
theorem lasting_parts (t : SegmentTable) : Lasting t (Parts t) :=
  ⟨fun h => h.confined, fun h => h.congr, fun b h => h.put b, fun h hb => h.began hb⟩

end Sink
end ScreenEditor
