/-!
# UTF-8

Encoding of texts as bytes, and two ways back.  `Utf8.decodeLossy` reads any bytes: a longest piece
that begins a character but cannot be finished gives one replacement character, as does every other
byte that cannot start one.  `Utf8.decode?` accepts exactly what encoding produces.
-/

namespace ScreenEditor.Utf8

/-- The character that stands for bytes that are no text. -/
def replacement : Char := '\ufffd'

/-- A text as bytes. -/
def encode (s : String) : List UInt8 := s.toList.flatMap String.utf8EncodeChar

/-- A character whose first bytes have been read: how many continuation bytes are owed, the least
and the greatest value the next one may have, and the bits read so far. -/
structure Unfinished where
  owed : Nat
  low : UInt8
  high : UInt8
  bits : Nat

/-- What a byte means where a character may start. -/
inductive Lead where
  | char (c : Char)
  | unfinished (u : Unfinished)
  | invalid

/-- The meaning of a first byte. -/
def lead (b : UInt8) : Lead :=
  let n := b.toNat
  if n < 0x80 then .char (Char.ofNat n)
  else if n < 0xC2 then .invalid
  else if n < 0xE0 then .unfinished ⟨1, 0x80, 0xBF, n % 0x20⟩
  else if n = 0xE0 then .unfinished ⟨2, 0xA0, 0xBF, 0⟩
  else if n = 0xED then .unfinished ⟨2, 0x80, 0x9F, 0xD⟩
  else if n < 0xF0 then .unfinished ⟨2, 0x80, 0xBF, n % 0x10⟩
  else if n = 0xF0 then .unfinished ⟨3, 0x90, 0xBF, 0⟩
  else if n < 0xF4 then .unfinished ⟨3, 0x80, 0xBF, n % 0x08⟩
  else if n = 0xF4 then .unfinished ⟨3, 0x80, 0x8F, 4⟩
  else .invalid

/-- The characters read so far, last first, and the one being read. -/
structure Reader where
  read : List Char := []
  current : Option Unfinished := none

/-- Read a byte where a character may start. -/
def Reader.start (r : List Char) (b : UInt8) : Reader :=
  match lead b with
  | .char c => ⟨c :: r, none⟩
  | .unfinished u => ⟨r, some u⟩
  | .invalid => ⟨replacement :: r, none⟩

/-- Read one byte.  A byte that does not continue the current character ends it and starts anew. -/
def Reader.step (r : Reader) (b : UInt8) : Reader :=
  match r.current with
  | none => Reader.start r.read b
  | some u =>
    if u.low ≤ b ∧ b ≤ u.high then
      let bits := u.bits * 0x40 + b.toNat % 0x40
      if u.owed ≤ 1 then ⟨Char.ofNat bits :: r.read, none⟩
      else ⟨r.read, some ⟨u.owed - 1, 0x80, 0xBF, bits⟩⟩
    else Reader.start (replacement :: r.read) b

/-- The characters read once the input is over. -/
def Reader.finish (r : Reader) : List Char :=
  (match r.current with
   | none => r.read
   | some _ => replacement :: r.read).reverse

/-- The text that bytes stand for, with replacement characters where they stand for none. -/
def decodeLossy (bytes : List UInt8) : String :=
  String.ofList (bytes.foldl Reader.step {}).finish

/-- The text that bytes encode, if they do. -/
def decode? (bytes : List UInt8) : Option String :=
  let text := decodeLossy bytes
  if encode text = bytes then some text else none

/-- The longest run of whole characters that encodes to at most `limit` bytes. -/
def takeBytes (limit : Nat) : List Char → List Char
  | [] => []
  | c :: cs =>
    if c.utf8Size ≤ limit then c :: takeBytes (limit - c.utf8Size) cs else []

end ScreenEditor.Utf8
