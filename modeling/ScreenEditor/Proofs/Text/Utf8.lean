import Mathlib.Tactic.IntervalCases
import ScreenEditor.Document

/-!
# Reading back what was encoded

Decoding gives back every text that was encoded, so no name is changed by being stored as bytes.
The proof follows the reader through one character: `foldl_encodeChar` says that a reader that may
start a character reads the bytes of `c` as `c`, by cases on how many bytes those are.

A name is kept by `Header.clipName` as the longest start of whole characters that fits
(`clipName_eq_self_iff`, `length_encode_clipName`).
-/

namespace ScreenEditor.Utf8

/-! ## One byte -/

theorem toNat_ofNat {k : Nat} (h : k < 256) : (UInt8.ofNat k).toNat = k := by
  simp [Nat.mod_eq_of_lt h]

/-- A byte in the expected range that is not the last one is added to the bits. -/
theorem step_more {r : List Char} {u : Unfinished} {k : Nat} (hk : k < 256)
    (low : u.low.toNat ≤ k) (high : k ≤ u.high.toNat) (more : 1 < u.owed) :
    Reader.step ⟨r, some u⟩ (UInt8.ofNat k)
      = ⟨r, some ⟨u.owed - 1, 0x80, 0xBF, u.bits * 0x40 + k % 0x40⟩⟩ := by
  have hrange : u.low ≤ UInt8.ofNat k ∧ UInt8.ofNat k ≤ u.high := by
    simp only [UInt8.le_iff_toNat_le, toNat_ofNat hk]
    exact ⟨low, high⟩
  simp only [Reader.step, if_pos hrange, toNat_ofNat hk]
  rw [if_neg (by omega)]

/-- The last byte of a character finishes it. -/
theorem step_last {r : List Char} {u : Unfinished} {k : Nat} (hk : k < 256)
    (low : u.low.toNat ≤ k) (high : k ≤ u.high.toNat) (last : u.owed = 1) :
    Reader.step ⟨r, some u⟩ (UInt8.ofNat k)
      = ⟨Char.ofNat (u.bits * 0x40 + k % 0x40) :: r, none⟩ := by
  have hrange : u.low ≤ UInt8.ofNat k ∧ UInt8.ofNat k ≤ u.high := by
    simp only [UInt8.le_iff_toNat_le, toNat_ofNat hk]
    exact ⟨low, high⟩
  simp only [Reader.step, if_pos hrange, toNat_ofNat hk]
  rw [if_pos (by omega)]

/-- A lead byte of several bytes opens a character and yields none yet. -/
theorem step_start {r : List Char} {b : UInt8} {u : Unfinished} (h : lead b = .unfinished u) :
    Reader.step ⟨r, none⟩ b = ⟨r, some u⟩ := by
  simp [Reader.step, Reader.start, h]

/-- The first byte of a character of two bytes. -/
theorem lead_two {k : Nat} (h2 : 2 ≤ k) (hk : k < 0x20) :
    lead (UInt8.ofNat (k + 0xC0)) = .unfinished ⟨1, 0x80, 0xBF, k⟩ := by
  simp only [lead, toNat_ofNat (show k + 0xC0 < 256 by omega)]
  rw [if_neg (by omega), if_neg (by omega), if_pos (by omega)]
  congr 2
  omega

/-- The first byte of a character of three bytes says what the second may be, so that no character
is written too long and no surrogate is read. -/
theorem lead_three {k : Nat} (hk : k < 0x10) :
    lead (UInt8.ofNat (k + 0xE0))
      = .unfinished ⟨2, if k = 0 then 0xA0 else 0x80, if k = 0xD then 0x9F else 0xBF, k⟩ := by
  interval_cases k <;> rfl

/-- The first byte of a character of four bytes. -/
theorem lead_four {k : Nat} (hk : k < 5) :
    lead (UInt8.ofNat (k + 0xF0))
      = .unfinished ⟨3, if k = 0 then 0x90 else 0x80, if k = 4 then 0x8F else 0xBF, k⟩ := by
  interval_cases k <;> rfl

/-! ## One character -/

/-- A reader that may start a character reads the bytes of a character as that character. -/
theorem foldl_encodeChar (r : List Char) (c : Char) :
    (String.utf8EncodeChar c).foldl Reader.step ⟨r, none⟩ = ⟨c :: r, none⟩ := by
  have hback : Char.ofNat c.val.toNat = c := Char.ofNat_toNat c
  have hvalid : c.val.toNat < 0xD800 ∨ 0xDFFF < c.val.toNat ∧ c.val.toNat < 0x110000 := c.valid
  unfold String.utf8EncodeChar
  generalize c.val.toNat = v at hback hvalid ⊢
  simp only
  split
  · next h1 =>
    simp only [List.foldl_cons, List.foldl_nil, Reader.step, Reader.start, lead,
      toNat_ofNat (show v < 256 by omega)]
    rw [if_pos (by omega), hback]
  split
  · next h1 h2 =>
    simp only [List.foldl_cons, List.foldl_nil]
    rw [step_start (lead_two (by omega) (by omega)),
      step_last (by omega) (by simp) (by simp; omega) rfl]
    congr 2
    rw [← hback]
    congr 1
    simp only
    omega
  split
  · next h1 h2 h3 =>
    simp only [List.foldl_cons, List.foldl_nil]
    rw [step_start (lead_three (by omega)),
      step_more (by omega) (by simp only; split <;> simp; omega)
        (by simp only; split <;> simp <;> omega) (by simp),
      step_last (by omega) (by simp) (by simp; omega) rfl]
    congr 2
    rw [← hback]
    congr 1
    simp only
    omega
  · next h1 h2 h3 =>
    simp only [List.foldl_cons, List.foldl_nil]
    rw [Nat.mod_eq_of_lt (show v / 262144 < 0x08 by omega), step_start (lead_four (by omega)),
      step_more (by omega) (by simp only; split <;> simp; omega)
        (by simp only; split <;> simp <;> omega) (by simp),
      step_more (by omega) (by simp) (by simp; omega) (by simp),
      step_last (by omega) (by simp) (by simp; omega) rfl]
    congr 2
    rw [← hback]
    congr 1
    simp only
    omega

/-! ## Texts -/

/-- Between characters the reader takes whole characters back from their bytes. -/
theorem foldl_encode (r cs : List Char) :
    (cs.flatMap String.utf8EncodeChar).foldl Reader.step ⟨r, none⟩ = ⟨cs.reverse ++ r, none⟩ := by
  induction cs generalizing r with
  | nil => rfl
  | cons c cs ih => rw [List.flatMap_cons, List.foldl_append, foldl_encodeChar, ih]; simp

/-- **Encoded texts are read back.** -/
theorem decodeLossy_encode (s : String) : decodeLossy (encode s) = s := by
  rw [decodeLossy, encode, foldl_encode]
  simp [Reader.finish]

/-- Every string is read back from its bytes. -/
theorem decode?_encode (s : String) : decode? (encode s) = some s := by
  simp only [decode?, decodeLossy_encode, if_pos]

/-- Number of bytes of characters. -/
def byteCount (cs : List Char) : Nat := (cs.map Char.utf8Size).sum

theorem length_encode (s : String) : (encode s).length = byteCount s.toList := by
  simp [encode, byteCount, List.length_flatMap]

/-- What is taken is a start of the text that fits. -/
theorem byteCount_takeBytes_le (limit : Nat) (cs : List Char) :
    byteCount (takeBytes limit cs) ≤ limit := by
  induction cs generalizing limit with
  | nil => simp [takeBytes, byteCount]
  | cons c cs ih =>
      simp only [takeBytes]
      split
      · next h =>
        have hrest := ih (limit - c.utf8Size)
        simp only [byteCount, List.map_cons, List.sum_cons] at hrest ⊢
        omega
      · simp [byteCount]

/-- A text that fits is taken whole. -/
theorem takeBytes_of_le {limit : Nat} {cs : List Char} (h : byteCount cs ≤ limit) :
    takeBytes limit cs = cs := by
  induction cs generalizing limit with
  | nil => rfl
  | cons c cs ih =>
      simp only [byteCount, List.map_cons, List.sum_cons] at h
      rw [takeBytes, if_pos (by omega), ih (by simp only [byteCount]; omega)]

end Utf8

namespace Header

open Utf8

/-- The name takes no more room than a control block has. -/
def NameFits (h : Header) : Prop := (encode h.name).length ≤ maxNameBytes

/-- A clipped name fits into the name field of a header. -/
theorem length_encode_clipName (name : String) :
    (encode (clipName name)).length ≤ maxNameBytes := by
  rw [length_encode, clipName, String.toList_ofList]
  exact byteCount_takeBytes_le _ _

/-- Exactly the names that fit are kept as they are. -/
theorem clipName_eq_self_iff (name : String) :
    clipName name = name ↔ (encode name).length ≤ maxNameBytes := by
  constructor
  · intro h
    rw [← h]
    exact length_encode_clipName name
  · intro h
    rw [length_encode] at h
    rw [clipName, takeBytes_of_le h, String.ofList_toList]

/-- Naming a document always leaves a name that fits. -/
theorem nameFits_setName (h : Header) (name : String) : (h.setName name).NameFits :=
  length_encode_clipName name

theorem nameFits_blank : blank.NameFits := by simp [NameFits, blank, encode]

/-- A name with at least one character is not clipped to nothing. -/
theorem clipName_ne_empty {name : String} (h : name ≠ "") : clipName name ≠ "" := by
  intro hclip
  cases hcs : name.toList with
  | nil => exact h (String.toList_eq_nil_iff.mp hcs)
  | cons c cs =>
      have hsize := c.utf8Size_le_four
      rw [clipName, hcs, takeBytes, if_pos (by unfold maxNameBytes; omega)] at hclip
      simpa using congrArg String.toList hclip

end Header
end ScreenEditor
