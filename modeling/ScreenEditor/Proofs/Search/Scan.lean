import ScreenEditor.Proofs.Search.Occurrence
import ScreenEditor.Search.Replace

/-!
# Scanning through the gap

Finding can be done in two ways that agree (`GapBuffer.find_eq_scan`): byte by byte through the gap,
or by looking at the first byte of each place only and comparing the rest with the bytes that follow
there, taken from the two sides of the gap one behind the other.

`GapBuffer.find_leftmost` puts together what finding gives on a plain text.  A replace run makes its
first offer by the same two looks as a wrapping search, and bounds the second one by the place where
it began; the bound never hides a match, since the first look would have found one behind it
(`ReplaceRun.next?_start`).
-/

namespace ScreenEditor

namespace GapBuffer

variable {g : GapBuffer} {needle : List UInt8} {start offset : Nat}

/-! ## Two ways to scan -/

/-- Comparing byte by byte is comparing the first byte and then as many bytes as the needle has. -/
theorem matchesAt_eq_bytesFrom (hne : needle ≠ []) :
    g.matchesAt needle offset = (g.byteAt? offset == needle.head? &&
      (g.bytesFrom offset).take needle.length == needle) := by
  have htake : g.matchesAt needle offset = true ↔
      (g.content.drop offset).take needle.length = needle := by
    rw [matchesAt_eq_true_iff, List.prefix_iff_eq_take, eq_comm]
  rw [Bool.eq_iff_iff, htake, Bool.and_eq_true, beq_iff_eq, beq_iff_eq, bytesFrom_eq, byteAt?_eq]
  refine ⟨fun h => ⟨?_, h⟩, And.right⟩
  have hpos : 0 < needle.length := List.length_pos_iff.mpr hne
  have hhead := congrArg List.head? h
  rwa [List.head?_take, if_neg (by omega), List.head?_drop] at hhead

/-- Scanning is looking for the first of the offsets in turn. -/
theorem scan_eq_find? (count : Nat) :
    g.scan needle start count = (List.range' start count).find? (g.matchesAt needle) := by
  fun_induction scan g needle start count with
  | case1 => rfl
  | case2 start count h => rw [List.range'_succ, List.find?_cons_of_pos h]
  | case3 start count h ih => rw [List.range'_succ, List.find?_cons_of_neg h, ih]

/-- Scanning by first bytes: of the offsets at which the needle still fits, the first one at which
its first byte stands and the bytes from there on, across the gap, begin with it. -/
def scanByFirstByte (g : GapBuffer) (needle : List UInt8) (start : Nat) : Option Nat :=
  if needle = [] ∨ g.length < start + needle.length then none
  else (List.range' start (g.length - needle.length + 1 - start)).find? fun k =>
    g.byteAt? k == needle.head? && (g.bytesFrom k).take needle.length == needle

/-- **Both ways to scan agree.** -/
theorem find_eq_scan (g : GapBuffer) (needle : List UInt8) (start : Nat) :
    g.find needle start = g.scanByFirstByte needle start := by
  unfold find scanByFirstByte
  by_cases hne : needle = []
  · rw [if_pos hne, if_pos (.inl hne)]
  · have hpos : 0 < needle.length := List.length_pos_iff.mpr hne
    have hfun : g.matchesAt needle = fun k =>
        g.byteAt? k == needle.head? && (g.bytesFrom k).take needle.length == needle :=
      funext fun k => matchesAt_eq_bytesFrom hne
    rw [if_neg hne, scan_eq_find?, hfun]
    split
    · next hout =>
      have hfar : g.length < start + needle.length := hout.resolve_left hne
      rw [show g.length + 1 - needle.length - start = 0 by omega]
      rfl
    · next hin =>
      have hfits : start + needle.length ≤ g.length := Nat.le_of_not_lt (not_or.mp hin).2
      rw [show g.length + 1 - needle.length - start = g.length - needle.length + 1 - start by omega]

/-! ## What is found -/

/-- The offsets from `start` on at which a needle occurs are those at which its bytes stand, unless
it is empty. -/
theorem find_eq_some_iff_take :
    g.find needle start = some offset ↔ needle ≠ [] ∧
      IsLeast {k | start ≤ k ∧ (g.content.drop k).take needle.length = needle} offset := by
  rw [find_eq_some_iff]
  by_cases hne : needle = []
  · simp [IsLeast, Occurs, hne]
  · simp [occurs_iff_take, hne]

theorem find_eq_none_iff_take :
    g.find needle start = none ↔
      needle = [] ∨ ∀ k, start ≤ k → (g.content.drop k).take needle.length ≠ needle := by
  rw [find_eq_none_iff]
  by_cases hne : needle = []
  · simp [Occurs, hne]
  · simp [occurs_iff_take, hne]

/-! ## A wrapping search -/

theorem findWrapping_eq_some_false_iff :
    g.findWrapping needle start = some (offset, false) ↔ g.find needle start = some offset := by
  rw [findWrapping]
  split
  · next k hk => simp [hk]
  · next hnone => simp [hnone]

theorem findWrapping_eq_some_true_iff :
    g.findWrapping needle start = some (offset, true) ↔
      g.find needle start = none ∧ g.find needle 0 = some offset := by
  rw [findWrapping]
  split
  · next k hk => simp [hk]
  · next hnone => simp [hnone]

end GapBuffer

/-! ## The first offer of a run -/

/-- **A run that begins offers what a wrapping search finds**, and has wrapped iff the search
has. -/
theorem ReplaceRun.next?_start (s : Searched) (needle replacement : List UInt8) :
    ((ReplaceRun.start s needle replacement).next? s.buffer).map
        (fun found => (found.1, found.2.wrapped))
      = s.buffer.findWrapping needle (searchOrigin s.buffer s.selection) := by
  rw [GapBuffer.findWrapping, next?]
  simp only [ReplaceRun.start, nextBeforeOrigin?, Bool.false_eq_true, if_false]
  cases hforward : s.buffer.find needle (searchOrigin s.buffer s.selection) with
  | some k => rfl
  | none =>
      cases hback : s.buffer.find needle 0 with
      | none => rfl
      | some k =>
          have hocc := (GapBuffer.find_eq_some_iff.mp hback).1.2
          have hbefore : k < searchOrigin s.buffer s.selection :=
            Nat.lt_of_not_le fun hle => GapBuffer.find_eq_none_iff.mp hforward k hle hocc
          simp [Option.filter, hbefore]

namespace GapBuffer

/-- The match lies on both sides of the gap, and the search from behind it has to wrap. -/
example :
    let g := ((GapBuffer.empty 8).insertAll [97, 98, 99, 98, 99]).seek 2
    g.find [98, 99] 0 = some 1 ∧ g.find [98, 99] 2 = some 3 ∧ g.find [98, 99] 4 = none ∧
      g.findWrapping [98, 99] 4 = some (1, true) := by decide +kernel

end GapBuffer
end ScreenEditor
