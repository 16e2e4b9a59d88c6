import ScreenEditor.Prompt
import ScreenEditor.Proofs.Prompt.Boundary

/-!
# Editing an answer

The answer of a prompt can be seen in two other ways.  A `CharAnswer` is a list of characters with
the number of those before the cursor, and every operation changes whole characters.  A `ByteAnswer`
is the answer in UTF-8 with the offset of the cursor in bytes; its operations cut bytes at offsets
that they work out from the bytes around the cursor, and one that would cut a character in two has
no outcome.

Each operation on a prompt is the operation on its characters (`asChars_perform`) and the operation
on its bytes, which has an outcome (`perform?_asBytes`).

## Main results

* `Prompt.performAll_edits`: the three agree after any operations on any prompt, the cursor stands
  between characters, and the status line shows it there.
-/

namespace ScreenEditor

/-- What can be done to an answer. -/
inductive PromptOp where
  | cursorLeft
  | cursorRight
  | insertChar (c : Char)
  | backspace
  | delete
  | moveToStart
  | moveToEnd
  | setText (text : String)
  | deleteToEnd
  | clear
  deriving DecidableEq, Repr

/-! ## Characters -/

/-- An answer as its characters, and how many of them stand before the cursor. -/
structure CharAnswer where
  chars : List Char
  cursor : Nat
  deriving DecidableEq, Repr

namespace CharAnswer

/-- A text with the cursor at its end. -/
def ofText (text : String) : CharAnswer := ⟨text.toList, text.toList.length⟩

/-- Move over characters, insert them and delete them. -/
def perform (a : CharAnswer) : PromptOp → CharAnswer
  | .cursorLeft => { a with cursor := a.cursor - 1 }
  | .cursorRight => { a with cursor := min (a.cursor + 1) a.chars.length }
  | .insertChar c => ⟨a.chars.insertIdx a.cursor c, a.cursor + 1⟩
  | .backspace => if a.cursor = 0 then a else ⟨a.chars.eraseIdx (a.cursor - 1), a.cursor - 1⟩
  | .delete => { a with chars := a.chars.eraseIdx a.cursor }
  | .moveToStart => { a with cursor := 0 }
  | .moveToEnd => { a with cursor := a.chars.length }
  | .setText text => ofText text
  | .deleteToEnd => { a with chars := a.chars.take a.cursor }
  | .clear => ⟨[], 0⟩

end CharAnswer

/-! ## Bytes -/

/-- An answer as its bytes, and how many of them stand before the cursor. -/
structure ByteAnswer where
  bytes : List UInt8
  cursor : Nat
  deriving DecidableEq, Repr

namespace ByteAnswer

open Utf8

/-- A text with the cursor at its end. -/
def ofText (text : String) : ByteAnswer := ⟨encode text, (encode text).length⟩

/-- The bytes without those between two offsets. -/
def drain? (bytes : List UInt8) (lo hi : Nat) : Option (List UInt8) := do
  let (front, _) ← cut? bytes lo
  let (_, back) ← cut? bytes hi
  if lo ≤ hi then some (front ++ back) else none

/-- The bytes before the cursor and those behind it. -/
def sides? (a : ByteAnswer) : Option (List UInt8 × List UInt8) := cut? a.bytes a.cursor

/-- Delete the character before the cursor. -/
def backspace? (a : ByteAnswer) : Option ByteAnswer := do
  if a.cursor = 0 then
    return a
  let (before, _) ← a.sides?
  let previous := before.length - lastWidth before
  let bytes ← drain? a.bytes previous a.cursor
  return ⟨bytes, previous⟩

/-- Delete the character behind the cursor. -/
def delete? (a : ByteAnswer) : Option ByteAnswer := do
  let (_, after) ← a.sides?
  if after = [] then
    return a
  let bytes ← drain? a.bytes a.cursor (a.cursor + firstWidth after)
  return { a with bytes := bytes }

/-- Move over bytes, insert them and delete them, unless a character is cut in two. -/
def perform? (a : ByteAnswer) : PromptOp → Option ByteAnswer
  | .cursorLeft => a.sides?.map fun (before, _) =>
      { a with cursor := before.length - lastWidth before }
  | .cursorRight => a.sides?.map fun (_, after) =>
      { a with cursor := a.cursor + firstWidth after }
  | .insertChar c => a.sides?.map fun (before, after) =>
      ⟨before ++ String.utf8EncodeChar c ++ after, a.cursor + c.utf8Size⟩
  | .backspace => a.backspace?
  | .delete => a.delete?
  | .moveToStart => some { a with cursor := 0 }
  | .moveToEnd => some { a with cursor := a.bytes.length }
  | .setText text => some (ofText text)
  | .deleteToEnd => a.sides?.map fun (before, _) => { a with bytes := before }
  | .clear => some ⟨[], 0⟩

/-- The bytes of the status line, and how many characters begin before the cursor. -/
def display? (message : String) (a : ByteAnswer) : Option (List UInt8 × Nat) :=
  a.sides?.map fun (before, _) =>
    (encode message ++ a.bytes, countFirst (encode message) + countFirst before)

end ByteAnswer

/-! ## Prompts -/

namespace Prompt

open Utf8

/-- The prompt after an operation on its answer. -/
def perform (p : Prompt) : PromptOp → Prompt
  | .cursorLeft => p.cursorLeft
  | .cursorRight => p.cursorRight
  | .insertChar c => p.insertChar c
  | .backspace => p.backspace
  | .delete => p.delete
  | .moveToStart => p.moveToStart
  | .moveToEnd => p.moveToEnd
  | .setText text => p.setText text
  | .deleteToEnd => p.deleteToEnd
  | .clear => p.clear

/-- The answer as characters. -/
def asChars (p : Prompt) : CharAnswer := ⟨p.chars, p.before.length⟩

/-- The answer as bytes. -/
def asBytes (p : Prompt) : ByteAnswer := ⟨encode p.text, p.cursorBytes⟩

/-! ## One operation on characters -/

theorem insertIdx_length_append {α : Type} (l r : List α) (x : α) :
    (l ++ r).insertIdx l.length x = l ++ x :: r := by
  induction l with
  | nil => rfl
  | cons y l ih => simp [ih]

theorem eraseIdx_length_append {α : Type} (l r : List α) (x : α) :
    (l ++ x :: r).eraseIdx l.length = l ++ r := by
  rw [List.eraseIdx_append_of_length_le (Nat.le_refl _), Nat.sub_self, List.eraseIdx_cons_zero]

/-- **Each operation changes whole characters.** -/
theorem asChars_perform (p : Prompt) (op : PromptOp) :
    (p.perform op).asChars = p.asChars.perform op := by
  obtain ⟨message, purpose, before, after⟩ := p
  cases op with
  | cursorLeft => cases before <;> simp [perform, cursorLeft, asChars, chars, CharAnswer.perform]
  | cursorRight => cases after <;> simp [perform, cursorRight, asChars, chars, CharAnswer.perform]
  | insertChar c =>
      have hinsert := insertIdx_length_append before.reverse after c
      rw [List.length_reverse] at hinsert
      simp [perform, insertChar, asChars, chars, CharAnswer.perform, hinsert]
  | backspace =>
      cases before with
      | nil => simp [perform, backspace, asChars, chars, CharAnswer.perform]
      | cons c before =>
          have herase := eraseIdx_length_append before.reverse after c
          rw [List.length_reverse] at herase
          simp [perform, backspace, asChars, chars, CharAnswer.perform, herase]
  | delete =>
      cases after with
      | nil =>
          have hend : before.reverse.eraseIdx before.length = before.reverse :=
            List.eraseIdx_of_length_le (Nat.le_of_eq List.length_reverse)
          simp [perform, delete, asChars, chars, CharAnswer.perform, hend]
      | cons c after =>
          have herase := eraseIdx_length_append before.reverse after c
          rw [List.length_reverse] at herase
          simp [perform, delete, asChars, chars, CharAnswer.perform, herase]
  | moveToStart => simp [perform, moveToStart, asChars, chars, CharAnswer.perform]
  | moveToEnd => simp [perform, moveToEnd, asChars, chars, CharAnswer.perform, Nat.add_comm]
  | setText text =>
      simp [perform, setText, asChars, chars, CharAnswer.perform, CharAnswer.ofText]
  | deleteToEnd => simp [perform, deleteToEnd, asChars, chars, CharAnswer.perform]
  | clear => simp [perform, clear, asChars, chars, CharAnswer.perform]

/-! ## One operation on bytes -/

end Prompt

namespace ByteAnswer

open Utf8

/-- Characters with the cursor between them. -/
def between (before after : List Char) : ByteAnswer :=
  ⟨encodeChars before ++ encodeChars after, (encodeChars before).length⟩

/-- An answer is first shown with the cursor behind it. -/
theorem ofText_eq (text : String) : ofText text = between text.toList [] := by
  rw [ofText, between, encodeChars_nil, List.append_nil]
  rfl

/-- Between characters the bytes can be cut. -/
theorem sides?_between (before after : List Char) :
    (between before after).sides? = some (encodeChars before, encodeChars after) :=
  cut?_encodeChars before after

/-- The character before the cursor lies between two cuts. -/
theorem length_sub_lastWidth (before : List Char) (c : Char) :
    (encodeChars (before ++ [c])).length - lastWidth (encodeChars (before ++ [c]))
      = (encodeChars before).length := by
  rw [lastWidth_encodeChars]
  simp

/-- One character to the left, which may take several bytes of the cursor. -/
theorem cursorLeft_between (before : List Char) (c : Char) (after : List Char) :
    (between (before ++ [c]) after).perform? .cursorLeft = some (between before (c :: after)) := by
  simp only [perform?, sides?_between, Option.map_some, length_sub_lastWidth]
  simp [between]

/-- One character to the right, by the same number of bytes. -/
theorem cursorRight_between (before : List Char) (c : Char) (after : List Char) :
    (between before (c :: after)).perform? .cursorRight
      = some (between (before ++ [c]) after) := by
  simp only [perform?, sides?_between, Option.map_some, firstWidth_encodeChars]
  simp [between]

/-- A typed character goes before the cursor, which moves behind it. -/
theorem insertChar_between (before : List Char) (c : Char) (after : List Char) :
    (between before after).perform? (.insertChar c) = some (between (before ++ [c]) after) := by
  simp only [perform?, sides?_between, Option.map_some]
  simp [between]

/-- Whole characters can be taken out. -/
theorem drain?_encodeChars (front mid back : List Char) :
    drain? (encodeChars front ++ encodeChars mid ++ encodeChars back)
        (encodeChars front).length ((encodeChars front).length + (encodeChars mid).length)
      = some (encodeChars front ++ encodeChars back) := by
  have hlo := cut?_encodeChars front (mid ++ back)
  have hhi := cut?_encodeChars (front ++ mid) back
  simp only [encodeChars_append, List.length_append, ← List.append_assoc] at hlo hhi
  simp only [drain?, hlo, hhi, Option.bind_eq_bind, Option.bind_some,
    if_pos (Nat.le_add_right _ _)]

theorem backspace?_between_nil (after : List Char) :
    (between [] after).backspace? = some (between [] after) := rfl

/-- Backspace drops the whole character before the cursor and moves by its width. -/
theorem backspace?_between (before : List Char) (c : Char) (after : List Char) :
    (between (before ++ [c]) after).backspace? = some (between before after) := by
  have hpos : (between (before ++ [c]) after).cursor ≠ 0 := by
    have hsize := c.utf8Size_pos
    simp only [between, encodeChars_append, encodeChars_cons, List.length_append,
      String.length_utf8EncodeChar]
    omega
  have hdrain := drain?_encodeChars before [c] after
  rw [← List.length_append, ← encodeChars_append] at hdrain
  simp only [backspace?, if_neg hpos, sides?_between, Option.bind_eq_bind, Option.bind_some,
    length_sub_lastWidth]
  simp only [between, hdrain, Option.bind_some]
  rfl

theorem delete?_between_nil (before : List Char) :
    (between before []).delete? = some (between before []) := by
  simp only [delete?, sides?_between, Option.bind_eq_bind, Option.bind_some, encodeChars_nil]
  rfl

/-- Delete drops the whole character at the cursor, which stays. -/
theorem delete?_between (before : List Char) (c : Char) (after : List Char) :
    (between before (c :: after)).delete? = some (between before after) := by
  have hne : encodeChars (c :: after) ≠ [] := by simp [encodeChars_eq_nil]
  have hdrain := drain?_encodeChars before [c] after
  simp only [encodeChars_cons, encodeChars_nil, List.append_nil, String.length_utf8EncodeChar,
    List.append_assoc] at hdrain
  simp only [delete?, sides?_between, Option.bind_eq_bind, Option.bind_some, if_neg hne,
    firstWidth_encodeChars]
  rw [between, encodeChars_cons, hdrain]
  rfl

end ByteAnswer

namespace Prompt

open Utf8 ByteAnswer

/-- The cursor stands behind the bytes of the characters before it. -/
theorem cursorBytes_eq (p : Prompt) : p.cursorBytes = (encodeChars p.before.reverse).length := by
  have hfold : ∀ (cs : List Char) (n : Nat),
      cs.foldl (fun n c => n + c.utf8Size) n = n + (encodeChars cs.reverse).length := by
    intro cs
    induction cs with
    | nil => intro n; rfl
    | cons c cs ih =>
        intro n
        rw [List.foldl_cons, ih]
        simp only [List.reverse_cons, encodeChars_append, encodeChars_cons, encodeChars_nil,
          List.append_nil, List.length_append, String.length_utf8EncodeChar]
        omega
  rw [cursorBytes, hfold, Nat.zero_add]

/-- The byte form of a prompt is its two halves, the half before the cursor turned round. -/
theorem asBytes_eq (p : Prompt) : p.asBytes = between p.before.reverse p.after := by
  rw [asBytes, cursorBytes_eq, text, encode_ofList, chars, encodeChars_append]
  rfl

/-- **No operation cuts a character in two.** -/
theorem perform?_asBytes (p : Prompt) (op : PromptOp) :
    p.asBytes.perform? op = some (p.perform op).asBytes := by
  obtain ⟨message, purpose, before, after⟩ := p
  simp only [asBytes_eq]
  cases op with
  | cursorLeft =>
      cases before with
      | nil => rfl
      | cons c before =>
          rw [List.reverse_cons]
          exact cursorLeft_between before.reverse c after
  | cursorRight =>
      cases after with
      | nil => simp only [perform?, sides?_between, Option.map_some]; rfl
      | cons c after =>
          rw [perform, cursorRight, List.reverse_cons]
          exact cursorRight_between before.reverse c after
  | insertChar c =>
      rw [perform, insertChar, List.reverse_cons]
      exact insertChar_between before.reverse c after
  | backspace =>
      cases before with
      | nil => exact backspace?_between_nil after
      | cons c before =>
          rw [List.reverse_cons]
          exact backspace?_between before.reverse c after
  | delete =>
      cases after with
      | nil => exact delete?_between_nil before.reverse
      | cons c after => exact delete?_between before.reverse c after
  | moveToStart =>
      simp [perform?, perform, moveToStart, chars, between]
  | moveToEnd =>
      simp [perform?, perform, moveToEnd, chars, between]
  | setText text =>
      rw [perform?, ofText_eq, perform, setText, List.reverse_reverse]
  | deleteToEnd =>
      rw [perform?, sides?_between, Option.map_some, perform, deleteToEnd]
      simp [between]
  | clear => rfl

/-! ## Any operations -/

theorem asChars_new (message : String) (purpose : PromptPurpose) (initial : String) :
    (new message purpose initial).asChars = CharAnswer.ofText initial := by
  simp [new, asChars, chars, CharAnswer.ofText]

theorem asBytes_new (message : String) (purpose : PromptPurpose) (initial : String) :
    (new message purpose initial).asBytes = ByteAnswer.ofText initial := by
  rw [asBytes_eq, ofText_eq, new, List.reverse_reverse]

/-- The prompt after one operation after the other. -/
def performAll (p : Prompt) (ops : List PromptOp) : Prompt := ops.foldl perform p

/-- Over a run, the prompt and the list of characters with its cursor stay one answer. -/
theorem asChars_performAll (p : Prompt) (ops : List PromptOp) :
    (p.performAll ops).asChars = ops.foldl CharAnswer.perform p.asChars := by
  induction ops generalizing p with
  | nil => rfl
  | cons op ops ih => rw [List.foldl_cons, ← asChars_perform, ← ih]; rfl

/-- Over a run, no cut in the byte form falls inside a character, and its answers are the prompt's.
-/
theorem performAll?_asBytes (p : Prompt) (ops : List PromptOp) :
    ops.foldlM ByteAnswer.perform? p.asBytes = some (p.performAll ops).asBytes := by
  induction ops generalizing p with
  | nil => rfl
  | cons op ops ih =>
      rw [List.foldlM_cons, perform?_asBytes]
      exact ih (p.perform op)

/-- No operation changes the question. -/
theorem message_performAll (p : Prompt) (ops : List PromptOp) :
    (p.performAll ops).message = p.message := by
  induction ops generalizing p with
  | nil => rfl
  | cons op ops ih =>
      have hmessage : (p.perform op).message = p.message := by
        cases op with
        | cursorLeft => rw [perform, cursorLeft]; split <;> rfl
        | cursorRight => rw [perform, cursorRight]; split <;> rfl
        | _ => rfl
      exact (ih (p.perform op)).trans hmessage

theorem length_encodeChars (cs : List Char) :
    (encodeChars cs).length = (String.ofList cs).utf8ByteSize := by
  rw [← String.size_toByteArray, String.toByteArray_ofList, List.utf8Encode, List.size_toByteArray,
    encodeChars]

/-- The characters before the cursor. -/
theorem take_chars (p : Prompt) : p.chars.take p.before.length = p.before.reverse := by
  rw [chars, List.take_left' List.length_reverse]

/-- The cursor stands between characters of the answer. -/
theorem isValid_cursorBytes (p : Prompt) : (String.Pos.Raw.mk p.cursorBytes).IsValid p.text := by
  rw [text, String.Pos.Raw.isValid_ofList]
  refine ⟨p.before.length, ?_⟩
  rw [take_chars, cursorBytes_eq, length_encodeChars]

/-- What is displayed of the bytes is what is displayed of the characters. -/
theorem display?_asBytes (p : Prompt) : p.asBytes.display? p.message
    = some (encode p.display.1, p.display.2) := by
  have hsides := sides?_between p.before.reverse p.after
  rw [← asBytes_eq, asBytes] at hsides
  have hmessage : encode p.message = encodeChars p.message.toList := rfl
  have htext : encode (p.message ++ p.text) = encode p.message ++ encode p.text := by
    simp [encode]
  simp only [asBytes, display?, hsides, Option.map_some, display, htext, hmessage,
    countFirst_encodeChars, List.length_reverse, String.length_toList]

/-- **An answer is edited by whole characters.**  After any operations on any prompt the answer and
the cursor are those of the list of characters and those of the bytes, in which no character was
cut in two.  The status line has the question and the answer, and shows the cursor behind as many
characters as stand before it. -/
theorem performAll_edits (message : String) (purpose : PromptPurpose) (initial : String)
    (ops : List PromptOp) :
    let p := (new message purpose initial).performAll ops
    let chars := ops.foldl CharAnswer.perform (CharAnswer.ofText initial)
    let bytes? := ops.foldlM ByteAnswer.perform? (ByteAnswer.ofText initial)
    p.text = String.ofList chars.chars ∧ chars.cursor ≤ chars.chars.length ∧
      p.cursorBytes = (encode (String.ofList (chars.chars.take chars.cursor))).length ∧
      (String.Pos.Raw.mk p.cursorBytes).IsValid p.text ∧
      bytes? = some ⟨encode p.text, p.cursorBytes⟩ ∧
      p.display = (message ++ p.text, message.length + chars.cursor) ∧
      bytes?.bind (ByteAnswer.display? message) = some (encode p.display.1, p.display.2) := by
  intro p chars bytes?
  have hchars : p.asChars = chars := by
    rw [asChars_performAll, asChars_new]
  have hbytes : bytes? = some p.asBytes := by
    rw [← performAll?_asBytes, asBytes_new]
  have hmessage : p.message = message := message_performAll _ ops
  have hbefore := p.take_chars
  rw [← hchars, hbytes]
  refine ⟨rfl, ?_, ?_, p.isValid_cursorBytes, rfl, ?_, ?_⟩
  · simp [asChars, Prompt.chars]
  · rw [asChars, hbefore, encode_ofList, cursorBytes_eq]
  · rw [display, hmessage]
    rfl
  · rw [Option.bind_some, ← hmessage, display?_asBytes]

end Prompt
end ScreenEditor
