import ScreenEditor.Gap.Basic

/-!
# Gap buffers: what operations keep

No operation changes the capacity, and the caret moves without changing the number of free cells.
From `length_add_free` follows what each operation does to the length of the text.
-/

namespace ScreenEditor.GapBuffer

variable (g : GapBuffer)

/-- Text and gap fill the storage. -/
theorem length_add_free : g.length + g.free = g.capacity := by
  have := g.gapBegin_le_gapEnd
  have := g.gapEnd_le_size
  simp only [length, free, capacity]
  omega

/-- The caret stands inside the text or at its end. -/
theorem caret_le_length : g.caret ≤ g.length := by simp [caret, length]

@[simp] theorem capacity_empty (n : Nat) : (empty n).capacity = n := by simp [empty, capacity]

@[simp] theorem capacity_writeAt (raw : Nat) (b : UInt8) :
    (g.writeAt raw b).capacity = g.capacity := by simp [writeAt, capacity]

@[simp] theorem free_writeAt (raw : Nat) (b : UInt8) : (g.writeAt raw b).free = g.free := rfl

@[simp] theorem length_writeAt (raw : Nat) (b : UInt8) :
    (g.writeAt raw b).length = g.length := by simp [writeAt, length]

@[simp] theorem capacity_insert (b : UInt8) (room : g.gapBegin < g.gapEnd) :
    (g.insert b room).capacity = g.capacity := by simp [insert, capacity]

@[simp] theorem length_insert (b : UInt8) (room : g.gapBegin < g.gapEnd) :
    (g.insert b room).length = g.length + 1 := by simp [insert, length]; omega

@[simp] theorem capacity_insertAll (bytes : List UInt8) :
    (g.insertAll bytes).capacity = g.capacity := by
  fun_induction insertAll g bytes with
  | case1 => rfl
  | case2 g b bs room ih => simpa using ih
  | case3 => rfl

/-- Bytes that fit lengthen the text by their number. -/
theorem length_insertAll {bytes : List UInt8} (h : bytes.length ≤ g.free) :
    (g.insertAll bytes).length = g.length + bytes.length := by
  fun_induction insertAll g bytes with
  | case1 => rfl
  | case2 g b bs room ih =>
    rw [ih (by simp only [insert, free, List.length_cons] at h ⊢; omega)]
    simp
    omega
  | case3 g b bs full => simp only [free, List.length_cons] at h; omega

@[simp] theorem capacity_stepLeft (h : 0 < g.gapBegin) :
    (g.stepLeft h).capacity = g.capacity := by simp [stepLeft, capacity]

@[simp] theorem capacity_stepRight (h : g.gapEnd < g.storage.size) :
    (g.stepRight h).capacity = g.capacity := by simp [stepRight, capacity]

@[simp] theorem free_stepLeft (h : 0 < g.gapBegin) : (g.stepLeft h).free = g.free := by
  have := g.gapBegin_le_gapEnd
  simp only [stepLeft, free]
  omega

@[simp] theorem free_stepRight (h : g.gapEnd < g.storage.size) :
    (g.stepRight h).free = g.free := by
  simp only [stepRight, free]
  omega

@[simp] theorem capacity_moveLeft (n : Nat) : (g.moveLeft n).capacity = g.capacity := by
  fun_induction moveLeft g n with
  | case1 => rfl
  | case2 g n h ih => simpa using ih
  | case3 => rfl

@[simp] theorem capacity_moveRight (n : Nat) : (g.moveRight n).capacity = g.capacity := by
  fun_induction moveRight g n with
  | case1 => rfl
  | case2 g n h ih => simpa using ih
  | case3 => rfl

@[simp] theorem free_moveLeft (n : Nat) : (g.moveLeft n).free = g.free := by
  fun_induction moveLeft g n with
  | case1 => rfl
  | case2 g n h ih => simpa using ih
  | case3 => rfl

@[simp] theorem free_moveRight (n : Nat) : (g.moveRight n).free = g.free := by
  fun_induction moveRight g n with
  | case1 => rfl
  | case2 g n h ih => simpa using ih
  | case3 => rfl

/-- Each step to the left takes the gap one place. -/
theorem gapBegin_moveLeft {n : Nat} (h : n ≤ g.gapBegin) :
    (g.moveLeft n).gapBegin = g.gapBegin - n := by
  fun_induction moveLeft g n with
  | case1 => rfl
  | case2 g n pos ih => rw [ih (by simp only [stepLeft]; omega)]; simp only [stepLeft]; omega
  | case3 => omega

/-- So does each step to the right. -/
theorem gapBegin_moveRight {n : Nat} (h : n ≤ g.storage.size - g.gapEnd) :
    (g.moveRight n).gapBegin = g.gapBegin + n := by
  fun_induction moveRight g n with
  | case1 => rfl
  | case2 g n pos ih =>
    rw [ih (by simp only [stepRight, Cells.size_write]; omega)]
    simp only [stepRight]
    omega
  | case3 => omega

@[simp] theorem capacity_seek (target : Nat) : (g.seek target).capacity = g.capacity := by
  unfold seek
  split <;> simp

@[simp] theorem free_seek (target : Nat) : (g.seek target).free = g.free := by
  unfold seek
  split <;> simp

@[simp] theorem length_seek (target : Nat) : (g.seek target).length = g.length := by
  have h := length_add_free g
  have h' := length_add_free (g.seek target)
  simp only [free_seek, capacity_seek] at h'
  omega

/-- Seeking inside the text puts the caret there. -/
theorem caret_seek {target : Nat} (h : target ≤ g.length) : (g.seek target).caret = target := by
  simp only [length] at h
  unfold seek caret
  split
  · rw [gapBegin_moveLeft _ (Nat.sub_le _ _)]
    omega
  · rw [gapBegin_moveRight _ (by omega)]
    omega

@[simp] theorem capacity_dropRight (n : Nat) : (g.dropRight n).capacity = g.capacity := rfl

@[simp] theorem caret_dropRight (n : Nat) : (g.dropRight n).caret = g.caret := rfl

/-- What is dropped is missing from the length. -/
theorem length_dropRight {n : Nat} (h : g.caret + n ≤ g.length) :
    (g.dropRight n).length = g.length - n := by
  have := g.gapEnd_le_size
  simp only [caret, length] at h
  simp only [dropRight, length]
  omega

@[simp] theorem capacity_deleteRange (lo hi : Nat) :
    (g.deleteRange lo hi).capacity = g.capacity := by simp [deleteRange]

/-- Deleting a range of the text shortens it by the size of the range. -/
theorem length_deleteRange {lo hi : Nat} (h : lo ≤ hi) (h' : hi ≤ g.length) :
    (g.deleteRange lo hi).length = g.length - (hi - lo) := by
  unfold deleteRange
  rw [length_dropRight]
  · simp
  · rw [caret_seek _ (by omega), length_seek]
    omega

end ScreenEditor.GapBuffer
