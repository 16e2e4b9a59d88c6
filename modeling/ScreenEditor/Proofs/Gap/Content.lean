import ScreenEditor.Gap.Lemmas

/-!
# The text of a gap buffer as a list

A gap buffer shows two lists, `before` and `after`, and its text is the first followed by the
second.  This file says what every operation does to the two lists and what every reader finds in
the text, so that later files never look at storage cells.

Cells in the gap are stale: the lemmas for `insert`, `stepLeft` and `stepRight` are the only ones
that have to show that a write into the storage leaves the bytes of the other side alone.
-/

namespace ScreenEditor.GapBuffer

variable (g : GapBuffer)

/-! ## Lengths and single bytes -/

@[simp] theorem length_before : g.before.length = g.gapBegin := by
  simp [before]

@[simp] theorem length_after : g.after.length = g.storage.size - g.gapEnd := by
  simp [after]

/-- The content is as long as the buffer says. -/
@[simp] theorem length_content : g.content.length = g.length := by
  simp [content, length]

/-- What is free is the width of the gap. -/
theorem free_eq : g.free = g.gapEnd - g.gapBegin := rfl

/-- The caret is where the gap begins. -/
theorem caret_eq : g.caret = g.gapBegin := rfl

/-- A byte before the caret is read from the cell of its own offset. -/
theorem getElem?_before {k : Nat} (h : k < g.gapBegin) : g.before[k]? = some (g.readAt k) := by
  rw [before, Cells.getElem?_slice _ (by omega), Nat.zero_add, readAt]

/-- A byte behind the caret is read from the cells behind the gap. -/
theorem getElem?_after {k : Nat} (h : g.gapEnd + k < g.storage.size) :
    g.after[k]? = some (g.readAt (g.gapEnd + k)) := by
  rw [after, Cells.getElem?_slice _ h, readAt]

/-- The bytes before the caret are known when the cells before the gap are. -/
theorem before_eq_of_cells {l : List UInt8} (hlen : l.length = g.gapBegin)
    (h : ∀ i < g.gapBegin, l[i]? = some (g.readAt i)) : g.before = l := by
  apply List.ext_getElem?
  intro i
  by_cases hi : i < g.gapBegin
  · rw [getElem?_before g hi, h i hi]
  · rw [List.getElem?_eq_none (by simpa using Nat.le_of_not_lt hi),
      List.getElem?_eq_none (by omega)]

/-- The bytes behind the caret are known when the cells behind the gap are. -/
theorem after_eq_of_cells {l : List UInt8} (hlen : l.length = g.storage.size - g.gapEnd)
    (h : ∀ i, g.gapEnd + i < g.storage.size → l[i]? = some (g.readAt (g.gapEnd + i))) :
    g.after = l := by
  apply List.ext_getElem?
  intro i
  by_cases hi : g.gapEnd + i < g.storage.size
  · rw [getElem?_after g hi, h i hi]
  · rw [List.getElem?_eq_none (by simp only [length_after]; omega),
      List.getElem?_eq_none (by omega)]

/-- Every offset of the text is read through its raw index. -/
theorem getElem?_content {k : Nat} (h : k < g.length) :
    g.content[k]? = some (g.readAt (g.rawIndex k)) := by
  have hle := g.gapBegin_le_gapEnd
  simp only [length] at h
  unfold content rawIndex
  split
  · next hk => rw [List.getElem?_append_left (by simpa using hk), getElem?_before g hk]
  · next hk =>
    rw [List.getElem?_append_right (by simpa using Nat.le_of_not_lt hk), length_before,
      getElem?_after g (by omega), free_eq]
    congr 2
    omega

/-! ## Readers -/

/-- Reading a byte through the gap is reading the list. -/
theorem byteAt?_eq (k : Nat) : g.byteAt? k = g.content[k]? := by
  unfold byteAt?
  split
  · next h => rw [getElem?_content g h]
  · next h => rw [List.getElem?_eq_none (by simpa using Nat.le_of_not_lt h)]

/-- Copying a range through the gap clips it to the text. -/
theorem contentRange_eq (lo hi : Nat) : g.contentRange lo hi = (g.content.take hi).drop lo := by
  apply List.ext_getElem?
  intro i
  rw [List.getElem?_drop, contentRange, List.getElem?_map]
  by_cases h : i < min hi g.length - lo
  · have hk : lo + i < g.length := by omega
    rw [List.getElem?_range' h, List.getElem?_take_of_lt (by omega), getElem?_content g hk]
    simp
  · rw [List.getElem?_eq_none (by simpa using Nat.le_of_not_lt h), Option.map_none,
      List.getElem?_eq_none]
    simp only [List.length_take, length_content]
    omega

/-- Walking from an offset on skips that many bytes of the text. -/
theorem bytesFrom_eq (k : Nat) : g.bytesFrom k = g.content.drop k := by
  rw [bytesFrom, content, List.drop_append, length_before]

/-- The raw index of an offset of the text leads back to the offset. -/
theorem offset?_rawIndex {k : Nat} (h : k < g.length) : g.offset? (g.rawIndex k) = some k := by
  have hle := g.gapBegin_le_gapEnd
  have hsize := g.gapEnd_le_size
  simp only [length] at h
  simp only [offset?, rawIndex, free]
  split
  · simp
  · next hk =>
    rw [if_neg (by omega), if_pos (by omega)]
    congr 1
    omega

/-- No offset is kept in the cells of the gap or past the storage, and one in every other cell. -/
theorem offset?_eq_none_iff (raw : Nat) :
    g.offset? raw = none ↔ (g.gapBegin ≤ raw ∧ raw < g.gapEnd) ∨ g.capacity ≤ raw := by
  have hle := g.gapBegin_le_gapEnd
  have hsize := g.gapEnd_le_size
  simp only [offset?, capacity]
  split
  · simp only [reduceCtorEq, false_iff]
    omega
  · split
    · simp only [reduceCtorEq, false_iff]
      omega
    · simp only [true_iff]
      omega

/-- Both sides of the gap are what `before` and `after` give. -/
theorem before_eq_take : g.before = g.content.take g.caret := by
  rw [content, caret_eq, List.take_append_of_le_length (by simp), ← length_before g,
    List.take_length]

/-- The text behind the caret is the rest of the content. -/
theorem after_eq_drop : g.after = g.content.drop g.caret := by
  rw [content, caret_eq, List.drop_append_of_le_length (by simp), ← length_before g,
    List.drop_length, List.nil_append]

/-! ## Inserting and deleting -/

@[simp] theorem before_empty (n : Nat) : (empty n).before = [] := by
  simp [empty, before]

@[simp] theorem after_empty (n : Nat) : (empty n).after = [] := by
  simp [empty, after]

/-- A byte that is put before the caret changes the cell at the caret and no other. -/
theorem readAt_insert (b : UInt8) (room : g.gapBegin < g.gapEnd) (i : Nat) :
    (g.insert b room).readAt i = if g.gapBegin = i then b else g.readAt i :=
  g.storage.read_write (Nat.lt_of_lt_of_le room g.gapEnd_le_size) b i

/-- A byte goes before the caret. -/
@[simp] theorem before_insert (b : UInt8) (room : g.gapBegin < g.gapEnd) :
    (g.insert b room).before = g.before ++ [b] := by
  have hlen : g.before.length = g.gapBegin := length_before g
  have hbegin : (g.insert b room).gapBegin = g.gapBegin + 1 := rfl
  have hread := g.readAt_insert b room
  apply before_eq_of_cells
  · simp [hbegin]
  · intro i hi
    rw [hread]
    by_cases he : g.gapBegin = i
    · rw [List.getElem?_append_right (by omega), hlen, if_pos he]
      simp [he]
    · rw [List.getElem?_append_left (by omega), getElem?_before g (by omega), if_neg he]

/-- What is behind the caret stays there. -/
@[simp] theorem after_insert (b : UInt8) (room : g.gapBegin < g.gapEnd) :
    (g.insert b room).after = g.after := by
  have hstore : (g.insert b room).storage.size = g.storage.size := by simp [insert]
  have hend : (g.insert b room).gapEnd = g.gapEnd := rfl
  apply after_eq_of_cells
  · simp [hstore, hend]
  · intro i hi
    have hne : g.gapBegin ≠ g.gapEnd + i := by omega
    rw [getElem?_after g (by omega), hend, readAt_insert, if_neg hne]

/-- Bytes that fit are put before the caret in order. -/
theorem before_insertAll {bytes : List UInt8} (h : bytes.length ≤ g.free) :
    (g.insertAll bytes).before = g.before ++ bytes := by
  fun_induction insertAll g bytes with
  | case1 => simp
  | case2 g b bs room ih =>
      rw [ih (by simp only [insert, free, List.length_cons] at h ⊢; omega)]
      simp
  | case3 g b bs full => simp only [free, List.length_cons] at h; omega

/-- So it does when several bytes are inserted. -/
@[simp] theorem after_insertAll (bytes : List UInt8) : (g.insertAll bytes).after = g.after := by
  fun_induction insertAll g bytes with
  | case1 => rfl
  | case2 g b bs room ih => simpa using ih
  | case3 => rfl

@[simp] theorem before_reset : g.reset.before = [] := by simp [reset, before]

@[simp] theorem after_reset : g.reset.after = [] := by simp [reset, after]

@[simp] theorem capacity_reset : g.reset.capacity = g.capacity := rfl

@[simp] theorem before_dropRight (n : Nat) : (g.dropRight n).before = g.before := rfl

/-- What is deleted to the right is behind the caret. -/
@[simp] theorem after_dropRight (n : Nat) : (g.dropRight n).after = g.after.drop n := by
  have hsize := g.gapEnd_le_size
  have hend : (g.dropRight n).gapEnd = min (g.gapEnd + n) g.storage.size := rfl
  have hstore : (g.dropRight n).storage = g.storage := rfl
  apply after_eq_of_cells
  · simp only [List.length_drop, length_after, hend, hstore]
    omega
  · intro i hi
    rw [hstore] at hi
    rw [List.getElem?_drop, getElem?_after g (by omega)]
    simp only [readAt, hstore]
    congr 2
    omega

/-- Deleting to the left takes the last byte before the caret, if there is one. -/
theorem deleteLeft?_eq_none_iff : g.deleteLeft? = none ↔ g.before = [] := by
  rw [← List.length_eq_zero_iff, length_before, deleteLeft?]
  split
  · simp only [reduceCtorEq, false_iff]
    omega
  · simp only [true_iff]
    omega

/-- Deleting to the left takes the last byte before the caret. -/
theorem of_deleteLeft? {g g' : GapBuffer} {b : UInt8} (h : g.deleteLeft? = some (b, g')) :
    g.before = g'.before ++ [b] ∧ g'.after = g.after ∧ g'.capacity = g.capacity := by
  unfold deleteLeft? at h
  split at h
  · next pos =>
    simp only [Option.some.injEq, Prod.mk.injEq] at h
    obtain ⟨rfl, rfl⟩ := h
    refine ⟨before_eq_of_cells _ (by simp; omega) ?_, rfl, rfl⟩
    intro i hi
    by_cases he : i = g.gapBegin - 1
    · rw [List.getElem?_append_right (by simp [he]), he]
      simp
    · rw [List.getElem?_append_left (by simp; omega), getElem?_before _ (by simp; omega)]
      rfl
  · simp at h

/-- Deleting to the right takes the first byte behind the caret, if there is one. -/
theorem deleteRight?_eq_none_iff : g.deleteRight? = none ↔ g.after = [] := by
  rw [← List.length_eq_zero_iff, length_after, deleteRight?]
  split
  · simp only [reduceCtorEq, false_iff]
    omega
  · simp only [true_iff]
    omega

/-- Deleting to the right takes the first byte behind it. -/
theorem of_deleteRight? {g g' : GapBuffer} {b : UInt8} (h : g.deleteRight? = some (b, g')) :
    g.after = b :: g'.after ∧ g'.before = g.before ∧ g'.capacity = g.capacity := by
  unfold deleteRight? at h
  split at h
  · next pos =>
    simp only [Option.some.injEq, Prod.mk.injEq] at h
    obtain ⟨rfl, rfl⟩ := h
    refine ⟨after_eq_of_cells _ (by simp; omega) ?_, rfl, rfl⟩
    intro i hi
    cases i with
    | zero => rfl
    | succ i =>
        rw [List.getElem?_cons_succ, getElem?_after _ (by simp only; omega)]
        simp only [readAt]
        congr 2
        omega
  · simp at h

/-! ## Moving the caret -/

/-- A step to the left carries one byte from the end of `before` to the front of `after`. -/
theorem of_stepLeft (h : 0 < g.gapBegin) :
    ∃ b, g.before = (g.stepLeft h).before ++ [b] ∧ (g.stepLeft h).after = b :: g.after := by
  have hle := g.gapBegin_le_gapEnd
  have hsize := g.gapEnd_le_size
  have hend : (g.stepLeft h).gapEnd = g.gapEnd - 1 := rfl
  have hlen : (g.stepLeft h).before.length = g.gapBegin - 1 := length_before _
  have hread : ∀ j, (g.stepLeft h).readAt j
      = if g.gapEnd - 1 = j then g.readAt (g.gapBegin - 1) else g.readAt j :=
    fun j => g.storage.read_write (by omega) _ j
  refine ⟨g.readAt (g.gapBegin - 1), ?_, ?_⟩
  · apply before_eq_of_cells
    · rw [List.length_append, hlen, List.length_singleton]
      omega
    · intro i hi
      by_cases he : i = g.gapBegin - 1
      · rw [List.getElem?_append_right (by omega), hlen, he]
        simp
      · rw [List.getElem?_append_left (by omega), getElem?_before _ (by simp [stepLeft]; omega),
          hread, if_neg (by omega)]
  · apply after_eq_of_cells
    · simp only [List.length_cons, length_after, stepLeft, Cells.size_write]
      omega
    · intro i hi
      rw [hread, hend]
      cases i with
      | zero => simp
      | succ i =>
          have hstore : (g.stepLeft h).storage.size = g.storage.size := by simp [stepLeft]
          rw [List.getElem?_cons_succ, getElem?_after g (by omega), if_neg (by omega)]
          congr 2
          omega

/-- A step to the right carries one byte from the front of `after` to the end of `before`. -/
theorem of_stepRight (h : g.gapEnd < g.storage.size) :
    ∃ b, (g.stepRight h).before = g.before ++ [b] ∧ g.after = b :: (g.stepRight h).after := by
  have hle := g.gapBegin_le_gapEnd
  have hbegin : (g.stepRight h).gapBegin = g.gapBegin + 1 := rfl
  have hend : (g.stepRight h).gapEnd = g.gapEnd + 1 := rfl
  have hstore : (g.stepRight h).storage.size = g.storage.size := by simp [stepRight]
  have hlen : g.before.length = g.gapBegin := length_before g
  have hread : ∀ j, (g.stepRight h).readAt j
      = if g.gapBegin = j then g.readAt g.gapEnd else g.readAt j :=
    fun j => g.storage.read_write (by omega) _ j
  refine ⟨g.readAt g.gapEnd, ?_, ?_⟩
  · apply before_eq_of_cells
    · simp [hbegin]
    · intro i hi
      rw [hread]
      by_cases he : g.gapBegin = i
      · rw [List.getElem?_append_right (by omega), hlen, if_pos he, he]
        simp
      · rw [List.getElem?_append_left (by omega), getElem?_before g (by omega), if_neg he]
  · apply after_eq_of_cells
    · simp only [List.length_cons, length_after]
      omega
    · intro i hi
      cases i with
      | zero => simp
      | succ i =>
          rw [List.getElem?_cons_succ, getElem?_after _ (by omega), hend, hread,
            if_neg (by omega)]
          congr 2
          omega

/-- A step to the left changes where the gap is and not the content. -/
@[simp] theorem content_stepLeft (h : 0 < g.gapBegin) : (g.stepLeft h).content = g.content := by
  obtain ⟨b, hb, ha⟩ := of_stepLeft g h
  simp only [content, hb, ha, List.append_assoc, List.singleton_append]

/-- Nor does one to the right. -/
@[simp] theorem content_stepRight (h : g.gapEnd < g.storage.size) :
    (g.stepRight h).content = g.content := by
  obtain ⟨b, hb, ha⟩ := of_stepRight g h
  simp only [content, hb, ha, List.append_assoc, List.singleton_append]

/-- Nor do several. -/
@[simp] theorem content_moveLeft (n : Nat) : (g.moveLeft n).content = g.content := by
  fun_induction moveLeft g n with
  | case1 => rfl
  | case2 g n h ih => simpa using ih
  | case3 => rfl

@[simp] theorem content_moveRight (n : Nat) : (g.moveRight n).content = g.content := by
  fun_induction moveRight g n with
  | case1 => rfl
  | case2 g n h ih => simpa using ih
  | case3 => rfl

/-- Moving the caret changes no text. -/
@[simp] theorem content_seek (target : Nat) : (g.seek target).content = g.content := by
  unfold seek
  split <;> simp

/-- A seek splits the content at its target. -/
theorem before_seek {target : Nat} (h : target ≤ g.length) :
    (g.seek target).before = g.content.take target := by
  rw [before_eq_take, content_seek, caret_seek g h]

/-- The rest of it is behind the caret then. -/
theorem after_seek {target : Nat} (h : target ≤ g.length) :
    (g.seek target).after = g.content.drop target := by
  rw [after_eq_drop, content_seek, caret_seek g h]

/-- A deletion leaves the caret behind what was before the span. -/
theorem before_deleteRange {lo hi : Nat} (h : lo ≤ hi) (h' : hi ≤ g.length) :
    (g.deleteRange lo hi).before = g.content.take lo := by
  rw [deleteRange, before_dropRight, before_seek g (by omega)]

/-- What was behind the span is behind the caret then. -/
theorem after_deleteRange {lo hi : Nat} (h : lo ≤ hi) (h' : hi ≤ g.length) :
    (g.deleteRange lo hi).after = g.content.drop hi := by
  rw [deleteRange, after_dropRight, after_seek g (by omega), List.drop_drop]
  congr 1
  omega

/-! ## Writing in place -/

/-- A byte written through the raw index of an offset replaces the byte there; the caret stays. -/
theorem content_writeAt_rawIndex (k : Nat) (b : UInt8) :
    (g.writeAt (g.rawIndex k) b).content = g.content.set k b := by
  have hle := g.gapBegin_le_gapEnd
  have hsize := g.gapEnd_le_size
  apply List.ext_getElem?
  intro i
  have hraw : ∀ j, (g.writeAt (g.rawIndex k) b).rawIndex j = g.rawIndex j := fun _ => rfl
  have hread : ∀ j, (g.writeAt (g.rawIndex k) b).readAt j
      = (g.storage.write (g.rawIndex k) b).read j := fun _ => rfl
  by_cases hi : i < g.length
  · rw [getElem?_content _ (by simpa using hi), hraw, hread, List.getElem?_set]
    have hcell : g.rawIndex i < g.storage.size := by
      simp only [length] at hi
      simp only [rawIndex, free]
      split <;> omega
    by_cases he : k = i
    · subst he
      rw [Cells.read_write _ hcell, if_pos rfl, if_pos rfl, length_content, if_pos hi]
    · have hne : g.rawIndex k ≠ g.rawIndex i := by
        simp only [rawIndex, free]
        split <;> split <;> omega
      rw [if_neg he, getElem?_content g hi, Cells.read_write_of_ne _ hne, readAt]
  · rw [List.getElem?_eq_none (by simpa using Nat.le_of_not_lt hi),
      List.getElem?_eq_none (by simpa using Nat.le_of_not_lt hi)]

@[simp] theorem caret_writeAt (raw : Nat) (b : UInt8) : (g.writeAt raw b).caret = g.caret := rfl

/-- Giving up the storage and the gap and taking them back changes nothing. -/
@[simp] theorem ofStorage_self : ofStorage g.storage g.gapBegin g.gapEnd = g := by
  simp [ofStorage, g.gapBegin_le_gapEnd, g.gapEnd_le_size]

end ScreenEditor.GapBuffer
