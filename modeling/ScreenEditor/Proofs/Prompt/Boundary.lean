import ScreenEditor.Proofs.Text.Utf8

/-!
# Bytes cut between characters

Bytes of a text can be cut at an offset only if no character is cut in two.  Whether that is so is
seen from the one byte at the offset (`Utf8.IsBoundary`), the width of the character behind a cut
from the byte that begins it (`Utf8.firstWidth`), and the width of the one before it from the bytes
that do not begin any (`Utf8.lastWidth`).

For bytes that encode characters these say what they should: `cut?_encodeChars`,
`firstWidth_encodeChars`, `lastWidth_encodeChars` and `countFirst_encodeChars`.
-/

namespace ScreenEditor.Utf8

/-- Characters as bytes. -/
def encodeChars (cs : List Char) : List UInt8 := cs.flatMap String.utf8EncodeChar

/-- An offset at which bytes begin or end, or at which a byte begins a character. -/
def IsBoundary (bytes : List UInt8) (offset : Nat) : Prop :=
  offset = 0 ∨ offset = bytes.length ∨ ∃ b ∈ bytes[offset]?, b.IsUTF8FirstByte

instance (bytes : List UInt8) (offset : Nat) : Decidable (IsBoundary bytes offset) :=
  inferInstanceAs (Decidable (_ ∨ _ ∨ _))

/-- The bytes before an offset and those behind it, unless a character is cut in two. -/
def cut? (bytes : List UInt8) (offset : Nat) : Option (List UInt8 × List UInt8) :=
  if IsBoundary bytes offset then some (bytes.take offset, bytes.drop offset) else none

/-- How many bytes the first character has. -/
def firstWidth : List UInt8 → Nat
  | [] => 0
  | b :: _ => if h : b.IsUTF8FirstByte then b.utf8ByteSize h else 1

/-- How many bytes the last character has: those behind the last byte that begins one, and that. -/
def lastWidth (bytes : List UInt8) : Nat :=
  match bytes with
  | [] => 0
  | bytes => (bytes.reverse.takeWhile fun b => !decide b.IsUTF8FirstByte).length + 1

/-- How many bytes begin a character. -/
def countFirst (bytes : List UInt8) : Nat := bytes.countP fun b => decide b.IsUTF8FirstByte

/-- A letter of two bytes between two of one byte. -/
example : (List.range 5).map (fun offset => (cut? (encodeChars ['a', 'é', 'b']) offset).isSome)
    = [true, true, false, true, true] := by decide

variable {c : Char} {cs before after : List Char}

@[simp] theorem encodeChars_nil : encodeChars [] = [] := rfl

@[simp] theorem encodeChars_cons (c : Char) (cs : List Char) :
    encodeChars (c :: cs) = String.utf8EncodeChar c ++ encodeChars cs := rfl

@[simp] theorem encodeChars_append (before after : List Char) :
    encodeChars (before ++ after) = encodeChars before ++ encodeChars after :=
  List.flatMap_append

/-- A string is encoded character by character. -/
theorem encode_ofList (cs : List Char) : encode (String.ofList cs) = encodeChars cs := by
  rw [encode, String.toList_ofList, encodeChars]

theorem encodeChars_eq_nil : encodeChars cs = [] ↔ cs = [] := by
  cases cs with
  | nil => simp
  | cons c cs => simp [String.utf8EncodeChar_ne_nil]

/-! ## One character -/

/-- Only the first byte of a character begins one. -/
theorem utf8EncodeChar_eq_cons (c : Char) : ∃ b rest, String.utf8EncodeChar c = b :: rest ∧
    b.IsUTF8FirstByte ∧ ∀ r ∈ rest, ¬ r.IsUTF8FirstByte := by
  obtain ⟨b, rest, heq⟩ := List.exists_cons_of_ne_nil (String.utf8EncodeChar_ne_nil (c := c))
  have hfirst : ∀ i (hi : i < (b :: rest).length), ((b :: rest)[i]).IsUTF8FirstByte ↔ i = 0 := by
    rw [← heq]
    exact fun i hi => UInt8.isUTF8FirstByte_getElem_utf8EncodeChar
  refine ⟨b, rest, heq, (hfirst 0 (Nat.succ_pos _)).mpr rfl, fun r hr hb => ?_⟩
  obtain ⟨i, hi, rfl⟩ := List.mem_iff_getElem.mp hr
  exact Nat.succ_ne_zero i ((hfirst (i + 1) (Nat.succ_lt_succ hi)).mp hb)

/-- The byte that begins a character tells how many bytes it has. -/
theorem firstWidth_utf8EncodeChar_append (c : Char) (rest : List UInt8) :
    firstWidth (String.utf8EncodeChar c ++ rest) = c.utf8Size := by
  obtain ⟨b, more, heq, hb, -⟩ := utf8EncodeChar_eq_cons c
  have hdecode : (b :: more).toByteArray.utf8DecodeChar? 0 = some c := by
    have h := ByteArray.utf8DecodeChar?_utf8EncodeChar_append (b := .empty) (c := c)
    rwa [ByteArray.append_empty, heq] at h
  have hsize := ByteArray.utf8Size_utf8DecodeChar (h := Option.isSome_of_eq_some hdecode)
  have hchar : (b :: more).toByteArray.utf8DecodeChar 0 (Option.isSome_of_eq_some hdecode) = c := by
    simp [ByteArray.utf8DecodeChar, hdecode]
  simp only [hchar, List.getElem_toByteArray, List.getElem_cons_zero] at hsize
  rw [heq, List.cons_append, firstWidth, dif_pos hb, hsize]

/-! ## Characters behind and before a cut -/

/-- **Characters can be cut from the ones behind them.** -/
theorem cut?_encodeChars (before after : List Char) :
    cut? (encodeChars before ++ encodeChars after) (encodeChars before).length
      = some (encodeChars before, encodeChars after) := by
  have hboundary : IsBoundary (encodeChars before ++ encodeChars after)
      (encodeChars before).length := by
    cases after with
    | nil => simp [IsBoundary]
    | cons c after =>
        obtain ⟨b, rest, heq, hb, -⟩ := utf8EncodeChar_eq_cons c
        exact .inr (.inr ⟨b, by simp [heq], hb⟩)
  rw [cut?, if_pos hboundary, List.take_left, List.drop_left]

/-- The first byte tells the width of the first character. -/
theorem firstWidth_encodeChars (c : Char) (cs : List Char) :
    firstWidth (encodeChars (c :: cs)) = c.utf8Size :=
  firstWidth_utf8EncodeChar_append c _

/-- Read backwards, the continuation bytes tell the width of the last character. -/
theorem lastWidth_encodeChars (cs : List Char) (c : Char) :
    lastWidth (encodeChars (cs ++ [c])) = c.utf8Size := by
  obtain ⟨b, rest, heq, hb, hrest⟩ := utf8EncodeChar_eq_cons c
  have hlen : rest.length + 1 = c.utf8Size := by
    rw [← String.length_utf8EncodeChar, heq, List.length_cons]
  have hbytes : encodeChars (cs ++ [c]) = encodeChars cs ++ b :: rest := by simp [heq]
  have hskip : ∀ r ∈ rest.reverse, (!decide r.IsUTF8FirstByte) = true := fun r hr => by
    simp [hrest r (List.mem_reverse.mp hr)]
  rw [hbytes, lastWidth]
  · rw [List.reverse_append, List.reverse_cons, List.append_assoc,
      List.takeWhile_append_of_pos hskip, List.singleton_append,
      List.takeWhile_cons_of_neg (by simpa using hb), List.append_nil,
      List.length_reverse, hlen]
  · simp

/-- Each character has one byte that begins it. -/
theorem countFirst_encodeChars (cs : List Char) : countFirst (encodeChars cs) = cs.length := by
  induction cs with
  | nil => rfl
  | cons c cs ih =>
      obtain ⟨b, rest, heq, hb, hrest⟩ := utf8EncodeChar_eq_cons c
      have hnone : rest.countP (fun b => decide b.IsUTF8FirstByte) = 0 :=
        List.countP_eq_zero.mpr fun r hr => by simpa using hrest r hr
      rw [countFirst] at ih ⊢
      rw [encodeChars_cons, List.countP_append, ih, heq, List.countP_cons, hnone, List.length_cons]
      simp [hb, Nat.add_comm]

end ScreenEditor.Utf8
