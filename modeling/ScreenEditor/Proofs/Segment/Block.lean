import ScreenEditor.ControlBlock
import ScreenEditor.Proofs.Text.Utf8

/-!
# Control blocks keep what they are given

A block is a concatenation of fields of fixed length, and reading a field finds the bytes between
the lengths of those before it (`field_append`).  With that, `decode_encode_words` is one rewrite
for each field.  A header whose name fits is read back (`decode_encode_words`), and so are positions
of 32 bits (`decode_encode`); nothing else is lost.
-/

namespace ScreenEditor.ControlBlock

open Utf8

/-- Reading the cells from the end of `before` on finds the bytes that stand there. -/
theorem field_append (before field after : List UInt8) {start count : Nat}
    (hs : start = before.length) (hc : count = field.length) :
    (List.range' start count).map (fun i => (before ++ field ++ after).getD i 0) = field := by
  subst hs
  subst hc
  apply List.ext_getElem?
  intro i
  rw [List.getElem?_map]
  by_cases h : i < field.length
  · rw [List.getElem?_range' h, Option.map_some, List.getD_eq_getElem?_getD, List.append_assoc,
      List.getElem?_append_right (by omega), List.getElem?_append_left (by omega)]
    simp [h]
  · rw [List.getElem?_eq_none (by simpa using h), List.getElem?_eq_none (by omega),
      Option.map_none]

/-- Reading one cell. -/
theorem byte_append (before after : List UInt8) (b : UInt8) {i : Nat} (hi : i = before.length) :
    (before ++ b :: after).getD i 0 = b := by
  subst hi
  simp [List.getD_eq_getElem?_getD]

theorem wordOfBytes_wordBytes {n : Nat} (h : n < 2 ^ 32) : wordOfBytes (wordBytes n) = n := by
  simp [wordOfBytes, wordBytes]
  omega

theorem flagByte_ne_zero (b : Bool) : (flagByte b != 0) = b := by cases b <;> rfl

@[simp] theorem length_wordBytes (n : Nat) : (wordBytes n).length = 4 := rfl

/-- The name with its length before it and the padding behind it. -/
def nameField (name : List UInt8) : List UInt8 :=
  UInt8.ofNat name.length :: (name ++ List.replicate (maxNameBytes - name.length) 0)

theorem length_nameField {name : List UInt8} (h : name.length ≤ maxNameBytes) :
    (nameField name).length = 1 + maxNameBytes := by
  simp only [nameField, List.length_cons, List.length_append, List.length_replicate]
  omega

/-- The fields of a block whose name fits. -/
theorem encode_eq {block : ControlBlock} (h : block.header.NameFits) :
    block.encode = nameField (Utf8.encode block.header.name)
      ++ [flagByte block.header.modified, flagByte block.header.awaitsOverwrite, block.header.part]
      ++ wordBytes block.gapBegin ++ wordBytes block.gapEnd := by
  rw [encode, List.take_of_length_le h]
  rfl

/-- What is read of fields that stand one behind the other. -/
theorem decode_fields {name first second : List UInt8} (flags : UInt8 × UInt8 × UInt8)
    (hname : name.length ≤ maxNameBytes) (hfirst : first.length = 4) (hsecond : second.length = 4) :
    decode (nameField name ++ [flags.1, flags.2.1, flags.2.2] ++ first ++ second)
      = ⟨⟨decodeLossy name, flags.1 != 0, flags.2.1 != 0, flags.2.2⟩,
          wordOfBytes first, wordOfBytes second⟩ := by
  obtain ⟨modified, awaits, part⟩ := flags
  have hlen := length_nameField hname
  have hmax : maxNameBytes = 64 := rfl
  generalize hbytes : nameField name ++ [modified, awaits, part] ++ first ++ second = bytes
  have hcount : bytes.getD 0 0 = UInt8.ofNat name.length := by rw [← hbytes]; rfl
  have hread : (List.range' 1 name.length).map (fun i => bytes.getD i 0) = name := by
    have h := @field_append [UInt8.ofNat name.length] name (List.replicate
      (maxNameBytes - name.length) 0 ++ ([modified, awaits, part] ++ first ++ second)) 1 _ rfl rfl
    simpa [nameField, ← hbytes] using h
  have hmodified : bytes.getD (1 + maxNameBytes) 0 = modified := by
    have h := byte_append (nameField name) ([awaits, part] ++ first ++ second) modified hlen.symm
    simpa [← hbytes] using h
  have hawaits : bytes.getD (1 + maxNameBytes + 1) 0 = awaits := by
    have h := byte_append (nameField name ++ [modified]) ([part] ++ first ++ second) awaits
      (i := 1 + maxNameBytes + 1) (by simp [hlen])
    simpa [← hbytes] using h
  have hpart : bytes.getD (1 + maxNameBytes + 2) 0 = part := by
    have h := byte_append (nameField name ++ [modified, awaits]) (first ++ second) part
      (i := 1 + maxNameBytes + 2) (by simp [hlen])
    simpa [← hbytes] using h
  have hbegin : (List.range' (1 + maxNameBytes + 3) 4).map (fun i => bytes.getD i 0) = first := by
    rw [← hbytes]
    exact field_append _ _ _ (by simp [hlen]) hfirst.symm
  have hend : (List.range' (1 + maxNameBytes + 7) 4).map (fun i => bytes.getD i 0) = second := by
    have h := @field_append (nameField name ++ [modified, awaits, part] ++ first) second []
      (1 + maxNameBytes + 7) 4 (by simp [hlen, hfirst]) hsecond.symm
    simpa [← hbytes] using h
  simp only [decode]
  rw [hcount, hmodified, hawaits, hpart, hbegin, hend, toNat_ofNat (by omega),
    Nat.min_eq_left hname, hread]

/-- The header of a stored block is read back whatever the positions are; of these the words that
were stored are read. -/
theorem decode_encode_words {block : ControlBlock} (hname : block.header.NameFits) :
    decode block.encode = ⟨block.header, wordOfBytes (wordBytes block.gapBegin),
      wordOfBytes (wordBytes block.gapEnd)⟩ := by
  rw [encode_eq hname]
  have h := decode_fields (flagByte block.header.modified, flagByte block.header.awaitsOverwrite,
    block.header.part) hname (length_wordBytes block.gapBegin) (length_wordBytes block.gapEnd)
  rw [h, decodeLossy_encode, flagByte_ne_zero, flagByte_ne_zero]

/-- **A stored block is read back.** -/
theorem decode_encode {block : ControlBlock} (hname : block.header.NameFits)
    (hbegin : block.gapBegin < 2 ^ 32) (hend : block.gapEnd < 2 ^ 32) :
    decode block.encode = block := by
  rw [decode_encode_words hname, wordOfBytes_wordBytes hbegin, wordOfBytes_wordBytes hend]

/-- A word is a number of 32 bits, whatever its bytes are. -/
theorem wordOfBytes_lt {bytes : List UInt8} : wordOfBytes bytes < 256 ^ bytes.length := by
  induction bytes with
  | nil => exact Nat.one_pos
  | cons b bytes ih =>
      have hb := b.toNat_lt
      have hcons : wordOfBytes (b :: bytes) = b.toNat + 0x100 * wordOfBytes bytes := rfl
      rw [hcons, List.length_cons, Nat.pow_succ]
      omega

/-- So a position that is read from a block is one. -/
theorem gapEnd_decode_lt (bytes : List UInt8) : (decode bytes).gapEnd < 2 ^ 32 := by
  rw [decode]
  refine Nat.lt_of_lt_of_le wordOfBytes_lt ?_
  rw [List.length_map, List.length_range']
  decide

end ScreenEditor.ControlBlock
