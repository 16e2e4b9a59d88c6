import Mathlib.Order.Bounds.Basic
import ScreenEditor.Proofs.Gap.Content
import ScreenEditor.Search.Find

/-!
# Occurrences of a needle

`Occurs` says on a plain list of bytes that a needle stands at an offset, and `occurrences` lists
the offsets at which it does.  Finding reads the bytes through the gap one by one; here it is told
from the list alone, so that later files never look at the gap.

## Main results

* `GapBuffer.find_eq_some_iff`, `GapBuffer.find_eq_none_iff`: finding gives the least offset.
* `GapBuffer.findWrapping_eq_some_iff`: the same for a search that goes on from the start.
-/

namespace ScreenEditor

/-- A needle stands at an offset of a text.  An empty needle stands nowhere. -/
def Occurs (needle text : List UInt8) (offset : Nat) : Prop :=
  needle ≠ [] ∧ needle <+: text.drop offset

instance (needle text : List UInt8) (offset : Nat) : Decidable (Occurs needle text offset) :=
  inferInstanceAs (Decidable (needle ≠ [] ∧ needle <+: text.drop offset))

/-- The offset at which a search from `start` finds the needle, and whether the search has wrapped:
the first occurrence at `start` or behind it, or else the first of all. -/
def FoundFrom (needle text : List UInt8) (start offset : Nat) (wrapped : Bool) : Prop :=
  if wrapped then
    (∀ k, start ≤ k → ¬ Occurs needle text k) ∧ IsLeast {k | Occurs needle text k} offset
  else IsLeast {k | start ≤ k ∧ Occurs needle text k} offset

/-- The offsets at which a needle stands, from the first to the last. -/
def occurrences (needle text : List UInt8) : List Nat :=
  (List.range text.length).filter fun k => Occurs needle text k

section Occurs

variable {needle text : List UInt8} {offset start : Nat}

/-- An empty needle occurs nowhere. -/
theorem Occurs.length_pos (h : Occurs needle text offset) : 0 < needle.length :=
  List.length_pos_iff.mpr h.1

/-- An occurrence lies inside the text. -/
theorem Occurs.add_length_le (h : Occurs needle text offset) :
    offset + needle.length ≤ text.length := by
  have hpos := h.length_pos
  have hle := h.2.length_le
  rw [List.length_drop] at hle
  omega

/-- The bytes of an occurrence are those of the needle. -/
theorem occurs_iff_take : Occurs needle text offset ↔
    needle ≠ [] ∧ (text.drop offset).take needle.length = needle := by
  rw [Occurs, List.prefix_iff_eq_take]
  exact and_congr_right fun _ => eq_comm

/-- Whether a needle stands at an offset is told from as many bytes. -/
theorem occurs_congr {text' : List UInt8} {offset' : Nat}
    (h : (text.drop offset).take needle.length = (text'.drop offset').take needle.length) :
    Occurs needle text offset ↔ Occurs needle text' offset' := by
  rw [occurs_iff_take, occurs_iff_take, h]

/-- What stands in the rest of a text stands in the text. -/
theorem occurs_drop {k : Nat} :
    Occurs needle (text.drop start) k ↔ Occurs needle text (start + k) := by
  rw [Occurs, Occurs, List.drop_drop]

/-- The list of occurrences holds each of them, and nothing else. -/
theorem mem_occurrences : offset ∈ occurrences needle text ↔ Occurs needle text offset := by
  simp only [occurrences, List.mem_filter, List.mem_range, decide_eq_true_eq, and_iff_right_iff_imp]
  intro h
  have := h.length_pos
  have := h.add_length_le
  omega

/-- The occurrences are listed in order, each once. -/
theorem pairwise_occurrences (needle text : List UInt8) :
    (occurrences needle text).Pairwise (· < ·) := List.pairwise_lt_range.filter _

/-- The list is increasing, so places in it compare as the offsets do. -/
theorem getElem_occurrences_lt_iff {i j : Nat} (hi : i < (occurrences needle text).length)
    (hj : j < (occurrences needle text).length) :
    (occurrences needle text)[i] < (occurrences needle text)[j] ↔ i < j := by
  have hmono := List.pairwise_iff_getElem.mp (pairwise_occurrences needle text)
  refine ⟨fun hlt => Nat.lt_of_not_le fun hle => ?_, fun hlt => hmono i j hi hj hlt⟩
  rcases Nat.eq_or_lt_of_le hle with rfl | hgt
  · exact Nat.lt_irrefl _ hlt
  · exact Nat.lt_asymm hlt (hmono j i hj hi hgt)

end Occurs

section FoundFrom

variable {needle text : List UInt8} {start offset offset' : Nat} {wrapped wrapped' : Bool}

/-- What is found is an occurrence, wrapped or not. -/
theorem FoundFrom.occurs (h : FoundFrom needle text start offset wrapped) :
    Occurs needle text offset := by
  cases wrapped with
  | true => exact h.2.1
  | false => exact h.1.2

/-- A search that has not wrapped has gone forward. -/
theorem FoundFrom.le (h : FoundFrom needle text start offset false) : start ≤ offset := h.1.1

/-- A search finds one offset only. -/
theorem FoundFrom.unique (h : FoundFrom needle text start offset wrapped)
    (h' : FoundFrom needle text start offset' wrapped') : offset = offset' ∧ wrapped = wrapped' := by
  cases wrapped with
  | true =>
      cases wrapped' with
      | true => exact ⟨h.2.unique h'.2, rfl⟩
      | false => exact absurd h'.1.2 (h.1 offset' h'.1.1)
  | false =>
      cases wrapped' with
      | true => exact absurd h.1.2 (h'.1 offset h.1.1)
      | false => exact ⟨h.unique h', rfl⟩

/-- Where the needle does not stand at `start`, the search may as well begin one past it. -/
theorem foundFrom_succ (h : ¬ Occurs needle text start) :
    FoundFrom needle text (start + 1) offset wrapped ↔
      FoundFrom needle text start offset wrapped := by
  have hiff : ∀ k, start + 1 ≤ k ∧ Occurs needle text k ↔ start ≤ k ∧ Occurs needle text k := by
    intro k
    refine and_congr_left fun hk => ⟨fun hle => by omega, fun hle => ?_⟩
    rcases Nat.eq_or_lt_of_le hle with rfl | hlt
    · exact absurd hk h
    · exact hlt
  cases wrapped with
  | true =>
      simp only [FoundFrom, if_true]
      refine and_congr_left fun _ => forall_congr' fun k => ?_
      simpa only [not_and] using not_congr (hiff k)
  | false => simp only [FoundFrom, Bool.false_eq_true, if_false, hiff]

end FoundFrom

namespace GapBuffer

variable {g : GapBuffer} {needle : List UInt8} {start offset : Nat}

theorem cons_isPrefix_drop {b : UInt8} {bs l : List UInt8} {k : Nat} :
    b :: bs <+: l.drop k ↔ l[k]? = some b ∧ bs <+: l.drop (k + 1) := by
  rw [← List.head?_drop, ← List.tail_drop]
  cases l.drop k with
  | nil => simp
  | cons c cs => simp [List.cons_prefix_cons, eq_comm]

/-- Comparing byte by byte through the gap is comparing with the list. -/
theorem matchesAt_eq_true_iff :
    g.matchesAt needle offset = true ↔ needle <+: g.content.drop offset := by
  induction needle generalizing offset with
  | nil => simp [matchesAt]
  | cons b bs ih =>
      rw [matchesAt, Bool.and_eq_true, ih, byteAt?_eq, beq_iff_eq, cons_isPrefix_drop]

/-- A scan that answers gives the first match at or after its start. -/
theorem scan_eq_some {count : Nat} (h : g.scan needle start count = some offset) :
    needle <+: g.content.drop offset ∧
      ∀ k, start ≤ k → k < offset → ¬ needle <+: g.content.drop k := by
  fun_induction scan g needle start count with
  | case1 => cases h
  | case2 start count hmatch =>
      obtain rfl := Option.some.inj h
      exact ⟨matchesAt_eq_true_iff.mp hmatch, fun k hk hlt => by omega⟩
  | case3 start count hmatch ih =>
      obtain ⟨hstands, hleast⟩ := ih h
      refine ⟨hstands, fun k hk hlt => ?_⟩
      rcases Nat.eq_or_lt_of_le hk with rfl | hgt
      · exact fun hpre => hmatch (matchesAt_eq_true_iff.mpr hpre)
      · exact hleast k hgt hlt

/-- A scan that does not answer has passed no match. -/
theorem scan_eq_none {count : Nat} (h : g.scan needle start count = none) {k : Nat}
    (hk : start ≤ k) (hlt : k < start + count) : ¬ needle <+: g.content.drop k := by
  fun_induction scan g needle start count with
  | case1 => omega
  | case2 => cases h
  | case3 start count hmatch ih =>
      rcases Nat.eq_or_lt_of_le hk with rfl | hgt
      · exact fun hpre => hmatch (matchesAt_eq_true_iff.mpr hpre)
      · exact ih h hgt (by omega)

/-- Nothing is found iff the needle stands nowhere from the offset on. -/
theorem find_eq_none_iff :
    g.find needle start = none ↔ ∀ k, start ≤ k → ¬ Occurs needle g.content k := by
  unfold find
  split
  · next hnil => simp [Occurs, hnil]
  · next hne =>
    constructor
    · intro h k hk hocc
      have hle := hocc.add_length_le
      rw [length_content] at hle
      exact scan_eq_none h hk (by omega) hocc.2
    · intro h
      cases hscan : g.scan needle start (g.length + 1 - needle.length - start) with
      | none => rfl
      | some k =>
          exact absurd ⟨hne, (scan_eq_some hscan).1⟩ (h k (scan_bounds hscan).1)

/-- **Finding gives the first occurrence** at an offset or behind it, whatever the gap. -/
theorem find_eq_some_iff : g.find needle start = some offset ↔
    IsLeast {k | start ≤ k ∧ Occurs needle g.content k} offset := by
  have hfound : ∀ k, g.find needle start = some k →
      IsLeast {k | start ≤ k ∧ Occurs needle g.content k} k := by
    intro k h
    obtain ⟨hle, -, hpos⟩ := find_bounds h
    have hne : needle ≠ [] := List.length_pos_iff.mp hpos
    rw [find, if_neg hne] at h
    obtain ⟨hstands, hleast⟩ := scan_eq_some h
    exact ⟨⟨hle, hne, hstands⟩, fun j hj => Nat.le_of_not_lt fun hlt => hleast j hj.1 hlt hj.2.2⟩
  constructor
  · exact hfound offset
  · intro hleast
    cases hfind : g.find needle start with
    | none => exact absurd hleast.1.2 (find_eq_none_iff.mp hfind offset hleast.1.1)
    | some k => rw [(hfound k hfind).unique hleast]

/-- A search that goes on from the start fails iff the needle stands nowhere. -/
theorem findWrapping_eq_none_iff :
    g.findWrapping needle start = none ↔ ∀ k, ¬ Occurs needle g.content k := by
  unfold findWrapping
  split
  · next k hk =>
    simp only [reduceCtorEq, false_iff, not_forall, not_not]
    exact ⟨k, (find_eq_some_iff.mp hk).1.2⟩
  · rw [Option.map_eq_none_iff, find_eq_none_iff]
    exact forall_congr' fun k => ⟨fun h => h (Nat.zero_le k), fun h _ => h⟩

/-- **A search that goes on from the start** gives the first occurrence from its start on, or else
the first of all. -/
theorem findWrapping_eq_some_iff {wrapped : Bool} :
    g.findWrapping needle start = some (offset, wrapped) ↔
      FoundFrom needle g.content start offset wrapped := by
  have hfound : ∀ k w, g.findWrapping needle start = some (k, w) →
      FoundFrom needle g.content start k w := by
    intro k w h
    unfold findWrapping at h
    split at h
    · next hfind =>
      obtain ⟨rfl, rfl⟩ := Prod.mk.inj (Option.some.inj h)
      exact find_eq_some_iff.mp hfind
    · next hfind =>
      obtain ⟨j, hj, heq⟩ := Option.map_eq_some_iff.mp h
      obtain ⟨rfl, rfl⟩ := Prod.mk.inj heq
      obtain ⟨⟨-, hocc⟩, hleast⟩ := find_eq_some_iff.mp hj
      exact ⟨find_eq_none_iff.mp hfind, hocc, fun i hi => hleast ⟨Nat.zero_le i, hi⟩⟩
  constructor
  · exact hfound offset wrapped
  · intro h
    cases hfind : g.findWrapping needle start with
    | none => exact absurd h.occurs (findWrapping_eq_none_iff.mp hfind offset)
    | some found =>
        obtain ⟨rfl, rfl⟩ := (hfound _ _ hfind).unique h
        rfl

end GapBuffer
end ScreenEditor
