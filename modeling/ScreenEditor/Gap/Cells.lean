/-!
# Cells

A fixed number of bytes, all zero at first.  Only the cells from either end up to the farthest one
that was written are kept, so even a very large storage costs no more than what was put into it.

What is read after a write says `Cells.read_write`; nothing else needs to know how cells are kept.
-/

namespace ScreenEditor

/-- Put a byte at a place; a place behind the end is reached over zeros. -/
def putOverZeros (bytes : Array UInt8) (i : Nat) (byte : UInt8) : Array UInt8 :=
  if h : i < bytes.size then bytes.set i byte
  else (bytes ++ Array.replicate (i - bytes.size) 0).push byte

/-- Bytes read as before but for the one that was put there. -/
theorem getD_putOverZeros (bytes : Array UInt8) (i : Nat) (byte : UInt8) (j : Nat) :
    (putOverZeros bytes i byte).getD j 0 = if i = j then byte else bytes.getD j 0 := by
  rw [putOverZeros]
  split
  · next hin =>
    by_cases hj : j < bytes.size
    · simp [Array.getD, hj, Array.getElem_set]
    · have hne : i ≠ j := by omega
      simp [Array.getD, hj, hne]
  · next hout =>
    have hsize : (bytes ++ Array.replicate (i - bytes.size) (0 : UInt8)).size = i := by
      simp only [Array.size_append, Array.size_replicate]
      omega
    simp only [Array.getD_eq_getD_getElem?, Array.getElem?_push, hsize]
    by_cases heq : i = j
    · simp [heq]
    · rw [if_neg (Ne.symm heq), if_neg heq]
      -- between the old end and the new byte there are zeros
      by_cases hj : j < bytes.size
      · rw [Array.getElem?_append_left hj]
      · rw [Array.getElem?_append_right (by omega), Array.getElem?_replicate,
          Array.getElem?_eq_none (by omega)]
        split <;> rfl

/-- Byte cells.  Those of the first half are kept from the front on, those of the second half from
the last one back; cells beyond what is kept are zero. -/
structure Cells where
  size : Nat
  front : Array UInt8
  back : Array UInt8

namespace Cells

/-- Zeroed cells. -/
def zeros (size : Nat) : Cells := ⟨size, #[], #[]⟩

/-- The byte in a cell; zero past the end. -/
def read (c : Cells) (i : Nat) : UInt8 :=
  if i < c.size / 2 then c.front.getD i 0
  else if i < c.size then c.back.getD (c.size - 1 - i) 0
  else 0

/-- Put a byte into a cell; past the end nothing changes. -/
def write (c : Cells) (i : Nat) (byte : UInt8) : Cells where
  size := c.size
  front := if i < c.size / 2 then putOverZeros c.front i byte else c.front
  back :=
    if c.size / 2 ≤ i ∧ i < c.size then putOverZeros c.back (c.size - 1 - i) byte else c.back

/-- The bytes in the cells `lo, …, hi - 1`. -/
def slice (c : Cells) (lo hi : Nat) : List UInt8 := (List.range' lo (hi - lo)).map c.read

/-- The bytes in all cells. -/
def toList (c : Cells) : List UInt8 := c.slice 0 c.size

variable (c : Cells)

@[simp] theorem size_zeros (n : Nat) : (zeros n).size = n := rfl

@[simp] theorem size_write (i : Nat) (byte : UInt8) : (c.write i byte).size = c.size := rfl

/-- A cell reads as before unless it was written. -/
theorem read_write {i : Nat} (h : i < c.size) (byte : UInt8) (j : Nat) :
    (c.write i byte).read j = if i = j then byte else c.read j := by
  rw [read, read, size_write, write]
  by_cases hi : i < c.size / 2 <;> by_cases hj : j < c.size / 2
  · simp only [if_pos hi, if_pos hj, getD_putOverZeros]
  · have hne : i ≠ j := by omega
    have hfront : ¬ (c.size / 2 ≤ i ∧ i < c.size) := by omega
    simp only [if_neg hj, if_neg hne, if_neg hfront]
  · have hne : i ≠ j := by omega
    simp only [if_neg hi, if_pos hj, if_neg hne]
  · have hback : c.size / 2 ≤ i ∧ i < c.size := by omega
    simp only [if_pos hback, if_neg hj, getD_putOverZeros]
    by_cases hin : j < c.size
    · have hsame : c.size - 1 - i = c.size - 1 - j ↔ i = j := by omega
      simp only [if_pos hin, hsame]
    · have hne : i ≠ j := by omega
      simp only [if_neg hin, if_neg hne]

/-- A write past the last cell changes nothing. -/
theorem write_of_le {i : Nat} (h : c.size ≤ i) (byte : UInt8) : c.write i byte = c := by
  rw [write, if_neg (by omega), if_neg (by omega)]

/-- Every cell other than the one written reads as before. -/
theorem read_write_of_ne {i j : Nat} (h : i ≠ j) (byte : UInt8) :
    (c.write i byte).read j = c.read j := by
  rcases Nat.lt_or_ge i c.size with hlt | hge
  · rw [read_write c hlt, if_neg h]
  · rw [write_of_le c hge]

/-- A range has a byte for each of its cells, also where it runs past the last one. -/
@[simp] theorem length_slice (lo hi : Nat) : (c.slice lo hi).length = hi - lo := by simp [slice]

@[simp] theorem slice_self (i : Nat) : c.slice i i = [] := by simp [slice]

/-- The bytes of a range are the cells it counts off, in order. -/
theorem getElem?_slice {lo hi k : Nat} (h : lo + k < hi) :
    (c.slice lo hi)[k]? = some (c.read (lo + k)) := by
  have hk : k < hi - lo := by omega
  simp [slice, List.getElem?_range' hk]

end Cells
end ScreenEditor
