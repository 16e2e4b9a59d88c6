import ScreenEditor.Text.Follower

/-!
# Width of a text

How many cells of a terminal a text takes.  The text is met from its end: each character adds its
own cells, unless it joins with what stands behind it.  A selector behind a character asks for it as
a picture of two cells, or as text.
-/

namespace ScreenEditor

/-- What stands behind a place in a text, and which selectors ask something of the character at the
place. -/
structure Tail where
  follower : Follower
  asPicture : Bool
  asText : Bool

namespace Tail

/-- Nothing is asked of the character at the place. -/
def of (follower : Follower) : Tail := ⟨follower, false, false⟩

/-- What is left when the character at the place is no picture, though one is asked for. -/
def withoutPicture (t : Tail) : Tail :=
  if t.asPicture then
    if t.follower.isLetter then { t with asPicture := false } else of .other
  else t

/-- A selector asks for a picture.  Letters and joined pictures stay within reach. -/
def askPicture (t : Tail) : Tail where
  follower := if t.follower.isLetter || t.follower.isJoinedPicture then t.follower else .other
  asPicture := true
  asText := t.asText && t.follower.isLetter

/-- A selector asks for text.  Letters stay within reach. -/
def askText (t : Tail) : Tail where
  follower := if t.follower.isLetter then t.follower else .other
  asPicture := false
  asText := true

/-- The cells that a character adds and what stands behind the place before it, when no picture is
asked for. -/
def beforePlain (t : Tail) (c : Char) : Int × Tail :=
  if c.toNat ≤ 0xA0 then
    if c = '\n' then (1, of .lineFeed)
    else if c = '\r' ∧ t.follower = .lineFeed then (0, of .other)
    else (1, of .other)
  else if c = pictureSelector then (0, t.askPicture)
  else if c = textSelector then (0, t.askText)
  else if t.asText ∧ isNarrowAsText c then (1, of .other)
  else
    match t.follower.before? c with
    | some (cells, follower) => (cells, of follower)
    | none => (charWidth c, of (.ofChar c))

/-- The cells that a character adds, and what stands behind the place before it.  A picture that is
joined to another takes no cells beside it. -/
def before (t : Tail) (c : Char) : Int × Tail :=
  if t.asPicture ∧ isSelectable c then
    (if t.follower.isJoinedPicture then 0 else 2, of .picture)
  else t.withoutPicture.beforePlain c

end Tail

/-- The cells that a text takes, and what stands behind the place before it. -/
def measure (chars : List Char) : Int × Tail :=
  chars.foldr (fun c behind =>
    let (cells, tail) := behind.2.before c
    (behind.1 + cells, tail)) (0, .of .other)

/-- How many cells a text takes. -/
def textWidth (chars : List Char) : Nat := (measure chars).1.toNat

/-- A printable character of ASCII takes a cell and joins with nothing. -/
theorem Tail.before_of_ascii {c : Char} (h : 0x20 ≤ c.toNat ∧ c.toNat ≤ 0x7E) :
    (of .other).before c = (1, of .other) := by
  have feed : c ≠ '\n' := by
    rintro rfl
    exact absurd h.1 (by decide)
  have low : c.toNat ≤ 0xA0 := by omega
  simp [before, of, withoutPicture, beforePlain, feed, low]

theorem measure_of_ascii {chars : List Char} (h : ∀ c ∈ chars, 0x20 ≤ c.toNat ∧ c.toNat ≤ 0x7E) :
    measure chars = ((chars.length : Int), Tail.of .other) := by
  induction chars with
  | nil => rfl
  | cons c rest ih =>
    have hr := ih fun d hd => h d (List.mem_cons_of_mem c hd)
    have hc := Tail.before_of_ascii (h c List.mem_cons_self)
    simp only [measure] at hr
    simp only [measure, List.foldr_cons, hr, hc, List.length_cons]
    rfl

/-- A text of printable ASCII characters takes a cell for each. -/
theorem textWidth_of_ascii {chars : List Char}
    (h : ∀ c ∈ chars, 0x20 ≤ c.toNat ∧ c.toNat ≤ 0x7E) : textWidth chars = chars.length := by
  rw [textWidth, measure_of_ascii h]
  exact Int.toNat_natCast chars.length

end ScreenEditor
