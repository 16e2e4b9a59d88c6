import Mathlib.Data.List.Basic
import ScreenEditor.Proofs.Segment.Operations

/-!
# Chains of parts

`chain` is the parts of a name in the order of their numbers, and this is how they are listed
(`parts_eq_chain`), also when numbers are missing or stand twice.

A document is kept in one segment, or in a chain of parts that share its name and are numbered from
1.  `SpelledBy` says that given segments, in their order, are the whole of one document.  The parts
of a chain are then listed in this order (`SpelledBy.parts_eq`).

A chain is `Numbered` if its parts have the numbers from 1 on.  This is said of a name, whatever
documents bear it.
-/

namespace ScreenEditor.SegmentTable

variable {t : SegmentTable} {name : String} {ids : List Nat}

/-! ## The order of parts -/

theorem Precedes.ne {a b : Nat} (h : t.Precedes a b) : a ≠ b := by
  rintro rfl
  rcases h with hlt | ⟨-, hlt⟩
  · exact Nat.lt_irrefl _ hlt
  · exact Nat.lt_irrefl _ hlt

theorem Precedes.asymm {a b : Nat} (h : t.Precedes a b) : ¬ t.Precedes b a := by
  intro h'
  unfold Precedes at h h'
  omega

/-- The same segments stand in one order only. -/
theorem eq_of_pairwise_precedes {ids' : List Nat} (h : ids.Pairwise t.Precedes)
    (h' : ids'.Pairwise t.Precedes) (hmem : ∀ id, id ∈ ids ↔ id ∈ ids') : ids = ids' := by
  have hperm : ids.Perm ids' :=
    (List.perm_ext_iff_of_nodup (h.imp Precedes.ne) (h'.imp Precedes.ne)).mpr hmem
  refine hperm.eq_of_pairwise ?_ h h'
  intro a b _ _ hab hba
  exact absurd hba hab.asymm

/-- Of the numbers `1, …, count` those whose headers are parts with this name, in the order of their
parts. -/
def chainIn (count : Nat) (header : Nat → Header) (name : String) : List Nat :=
  (List.range' 1 255).flatMap fun part =>
    (List.range' 1 count).filter fun id =>
      (header id).part.toNat == part && (header id).name == name

/-- The parts with this name, in the order of their numbers. -/
def chain (t : SegmentTable) (name : String) : List Nat :=
  chainIn t.count (fun id => (t.document id).header) name

theorem mem_chain {id : Nat} : id ∈ t.chain name ↔ t.IsPart name id := by
  have hpart : (t.document id).header.part ≠ 0 ↔ (t.document id).header.part.toNat ≠ 0 :=
    not_congr UInt8.toNat_inj.symm
  have hlt := (t.document id).header.part.toNat_lt
  simp only [chain, chainIn, List.mem_flatMap, List.mem_filter, List.mem_range'_1, Bool.and_eq_true,
    beq_iff_eq, IsPart, has_iff, hpart, count]
  constructor
  · rintro ⟨part, hrange, hid, rfl, hname⟩
    exact ⟨by omega, by omega, hname⟩
  · rintro ⟨hid, hne, hname⟩
    exact ⟨_, by omega, by omega, rfl, hname⟩

theorem pairwise_chain (t : SegmentTable) (name : String) : (t.chain name).Pairwise t.Precedes := by
  have hparts : (List.range' 1 255).Pairwise (· < ·) := List.pairwise_lt_range' 1
  have hids : (List.range' 1 t.count).Pairwise (· < ·) := List.pairwise_lt_range' 1
  rw [chain, chainIn, List.pairwise_flatMap]
  constructor
  · intro part _
    refine (hids.filter _).imp_of_mem ?_
    intro a b ha hb hlt
    simp only [List.mem_filter, Bool.and_eq_true, beq_iff_eq] at ha hb
    exact .inr ⟨ha.2.1.trans hb.2.1.symm, hlt⟩
  · refine hparts.imp ?_
    intro p q hlt a ha b hb
    simp only [List.mem_filter, Bool.and_eq_true, beq_iff_eq] at ha hb
    refine .inl ?_
    rw [partNumber, partNumber, ha.2.1, hb.2.1]
    exact hlt

theorem nodup_chain (t : SegmentTable) (name : String) : (t.chain name).Nodup :=
  (t.pairwise_chain name).imp Precedes.ne

/-- **The parts of any chain are listed in their order.** -/
theorem parts_eq_chain (hwf : t.WellFormed) (name : String) : (t.parts name).1 = t.chain name := by
  obtain ⟨-, hmem, hsorted, -, -⟩ := parts_spec hwf name
  exact eq_of_pairwise_precedes hsorted (t.pairwise_chain name) fun id =>
    (hmem id).trans mem_chain.symm

/-! ## Whole documents -/

/-- The segments `ids`, in this order, are the parts of one document with this name: a segment of
its own, or a chain numbered from 1 without a gap.  No other segment is a part with that name. -/
structure SpelledBy (t : SegmentTable) (name : String) (ids : List Nat) : Prop where
  has : ∀ id ∈ ids, t.has id = true
  named : ∀ id ∈ ids, (t.document id).header.name = name
  number : (∃ id, ids = [id] ∧ t.partNumber id = 0) ∨
    ∀ i id, ids[i]? = some id → t.partNumber id = i + 1
  whole : ∀ id, t.IsPart name id → id ∈ ids

/-- A document that is no part of a chain is in a segment of its own, if no chain has its name. -/
theorem spelledBy_alone (hpart : t.current.header.part = 0)
    (hnone : ∀ id, ¬ t.IsPart t.current.header.name id) :
    t.SpelledBy t.current.header.name [t.active] := by
  refine ⟨?_, ?_, .inl ⟨t.active, rfl, ?_⟩, fun id hid => absurd hid (hnone id)⟩
  · intro id hid
    rw [List.mem_singleton.mp hid]
    exact has_active
  · intro id hid
    rw [List.mem_singleton.mp hid, document_active]
  · rw [partNumber, document_active, hpart]
    rfl

/-- The parts of a chain are different segments, with rising numbers. -/
theorem pairwise_of_number (h : ∀ i id, ids[i]? = some id → t.partNumber id = i + 1) :
    ids.Pairwise fun a b => t.partNumber a < t.partNumber b := by
  rw [List.pairwise_iff_getElem]
  intro i j hi hj hlt
  rw [h i _ (List.getElem?_eq_getElem hi), h j _ (List.getElem?_eq_getElem hj)]
  omega

theorem SpelledBy.nodup (h : t.SpelledBy name ids) : ids.Nodup := by
  rcases h.number with ⟨id, rfl, -⟩ | hnumber
  · exact List.pairwise_singleton _ id
  · refine (pairwise_of_number hnumber).imp ?_
    rintro a _ hlt rfl
    exact Nat.lt_irrefl _ hlt

/-- Segments with numbers from 1 are parts of the chain. -/
theorem SpelledBy.isPart (h : t.SpelledBy name ids)
    (hnumber : ∀ i id, ids[i]? = some id → t.partNumber id = i + 1) {id : Nat} :
    t.IsPart name id ↔ id ∈ ids := by
  refine ⟨h.whole id, fun hid => ⟨h.has id hid, ?_, h.named id hid⟩⟩
  obtain ⟨i, hi⟩ := List.mem_iff_getElem?.mp hid
  intro hzero
  have hpos := hnumber i id hi
  rw [partNumber, hzero] at hpos
  exact absurd hpos (by simp)

/-- Parts that stand in the order of their numbers are the chain. -/
theorem chain_eq (hmem : ∀ id, t.IsPart name id ↔ id ∈ ids)
    (hnumber : ∀ i id, ids[i]? = some id → t.partNumber id = i + 1) : t.chain name = ids := by
  refine eq_of_pairwise_precedes (t.pairwise_chain name) ?_ fun id => mem_chain.trans (hmem id)
  exact (pairwise_of_number hnumber).imp .inl

/-- **A chain without gaps is listed as it is spelled.** -/
theorem SpelledBy.parts_eq (hwf : t.WellFormed) (h : t.SpelledBy name ids)
    (hnumber : ∀ i id, ids[i]? = some id → t.partNumber id = i + 1) :
    (t.parts name).1 = ids :=
  (parts_eq_chain hwf name).trans (chain_eq (fun _ => h.isPart hnumber) hnumber)

/-! ## Numbered chains -/

/-- The parts with this name have the numbers from 1 to as many as there are, each once. -/
def Numbered (t : SegmentTable) (name : String) : Prop :=
  (t.chain name).map t.partNumber = List.range' 1 (t.chain name).length

/-- The number of a part is its place in the chain. -/
theorem Numbered.place (h : t.Numbered name) {i id : Nat} (hid : (t.chain name)[i]? = some id) :
    t.partNumber id = i + 1 := by
  have hplace := congrArg (·[i]?) h
  have hlt : i < (t.chain name).length := (List.getElem?_eq_some_iff.mp hid).1
  simp only [List.getElem?_map, hid, Option.map_some, List.getElem?_range' hlt] at hplace
  rw [Option.some.inj hplace]
  omega

/-- Parts that are numbered by their places are a numbered chain. -/
theorem numbered_of_place (hmem : ∀ id, t.IsPart name id ↔ id ∈ ids)
    (hnumber : ∀ i id, ids[i]? = some id → t.partNumber id = i + 1) : t.Numbered name := by
  rw [Numbered, chain_eq hmem hnumber]
  refine List.ext_getElem (by simp) ?_
  intro i hi _
  rw [List.length_map] at hi
  rw [List.getElem_map, hnumber i _ (List.getElem?_eq_getElem hi), List.getElem_range']
  omega

/-- A name that no part has. -/
theorem numbered_of_none (h : ∀ id, ¬ t.IsPart name id) : t.Numbered name := by
  have hnone : ∀ id, t.IsPart name id ↔ id ∈ [] := fun id =>
    iff_of_false (h id) List.not_mem_nil
  exact numbered_of_place hnone fun _ _ hid => by cases hid

/-- The same parts with the same numbers, though their name may be another one. -/
theorem Numbered.congr {t' : SegmentTable} {name' : String} (h : t.Numbered name)
    (hpart : ∀ id, t'.IsPart name' id ↔ t.IsPart name id)
    (hnumber : ∀ id, t.IsPart name id → t'.partNumber id = t.partNumber id) :
    t'.Numbered name' := by
  have hmem : ∀ id, t'.IsPart name' id ↔ id ∈ t.chain name := fun id =>
    (hpart id).trans mem_chain.symm
  refine numbered_of_place hmem fun i id hid => ?_
  rw [hnumber id (mem_chain.mp (List.mem_of_getElem? hid)), h.place hid]

/-- No two parts of a numbered chain have the same number. -/
theorem Numbered.eq_of_partNumber (h : t.Numbered name) {a b : Nat} (ha : t.IsPart name a)
    (hb : t.IsPart name b) (heq : t.partNumber a = t.partNumber b) : a = b := by
  obtain ⟨i, hi⟩ := List.mem_iff_getElem?.mp (mem_chain.mpr ha)
  obtain ⟨j, hj⟩ := List.mem_iff_getElem?.mp (mem_chain.mpr hb)
  rw [h.place hi, h.place hj] at heq
  obtain rfl := Nat.add_right_cancel heq
  exact Option.some.inj (hi.symm.trans hj)

/-- The parts of a numbered chain are one document. -/
theorem Numbered.spelledBy (h : t.Numbered name) : t.SpelledBy name (t.chain name) where
  has _ hid := (mem_chain.mp hid).1
  named _ hid := (mem_chain.mp hid).2.2
  number := .inr fun _ _ hid => h.place hid
  whole _ hid := mem_chain.mpr hid

/-- The parts of one document are a numbered chain, if it is in more than a segment of its own. -/
theorem SpelledBy.numbered (h : t.SpelledBy name ids) : t.Numbered name := by
  rcases h.number with ⟨id, rfl, hzero⟩ | hnumber
  · refine numbered_of_none fun j hj => hj.2.1 ?_
    rw [List.mem_singleton.mp (h.whole j hj)]
    exact UInt8.toNat_inj.mp hzero
  · exact numbered_of_place (fun _ => h.isPart hnumber) hnumber

end ScreenEditor.SegmentTable
