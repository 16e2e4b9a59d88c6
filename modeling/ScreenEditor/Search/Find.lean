import ScreenEditor.Gap.Lemmas

/-!
# Finding bytes in a text

`GapBuffer.find` looks forward from an offset, through the gap, for the first place at which a
needle stands; `GapBuffer.findWrapping` goes on from the start of the text when there is none.
-/

namespace ScreenEditor

namespace GapBuffer

/-- Whether the bytes stand in the text at an offset. -/
def matchesAt (g : GapBuffer) : List UInt8 → Nat → Bool
  | [], _ => true
  | b :: bs, offset => g.byteAt? offset == some b && g.matchesAt bs (offset + 1)

/-- The first of `count` offsets from `offset` on at which the needle stands. -/
def scan (g : GapBuffer) (needle : List UInt8) (offset : Nat) : Nat → Option Nat
  | 0 => none
  | count + 1 =>
    if g.matchesAt needle offset then some offset else g.scan needle (offset + 1) count

/-- The first occurrence of a needle at an offset or after it; an empty needle has none. -/
def find (g : GapBuffer) (needle : List UInt8) (start : Nat) : Option Nat :=
  if needle = [] then none
  else g.scan needle start (g.length + 1 - needle.length - start)

/-- The first occurrence at an offset or after it, or else the first of all, and whether it took the
latter. -/
def findWrapping (g : GapBuffer) (needle : List UInt8) (start : Nat) : Option (Nat × Bool) :=
  match g.find needle start with
  | some offset => some (offset, false)
  | none => (g.find needle 0).map (·, true)

/-- A scan answers with one of the offsets that it counts off. -/
theorem scan_bounds {g : GapBuffer} {needle : List UInt8} {start count offset : Nat}
    (h : g.scan needle start count = some offset) : start ≤ offset ∧ offset < start + count := by
  fun_induction scan g needle start count with
  | case1 => simp at h
  | case2 => simp at h; omega
  | case3 start count _ ih => have := ih h; omega

/-- An occurrence lies behind the start of the search and inside the text. -/
theorem find_bounds {g : GapBuffer} {needle : List UInt8} {start offset : Nat}
    (h : g.find needle start = some offset) :
    start ≤ offset ∧ offset + needle.length ≤ g.length ∧ 0 < needle.length := by
  unfold find at h
  split at h
  · simp at h
  · next ne =>
    have := scan_bounds h
    have := List.length_pos_iff.mpr ne
    omega
end GapBuffer
end ScreenEditor
