import ScreenEditor.Json.Tree
import ScreenEditor.Json.Binary64
import ScreenEditor.Named

/-!
# JSON values

Values as a program uses them.  Whole numbers that fit 64 bits stay whole; every other number is a
64-bit floating-point number.  Its significand is read into 64 bits, later digits being dropped, and
then scaled by powers of ten in floating point; a number too large for that is no value.

Objects read from a text are sorted by name, and the last of several members with one name counts.
-/

namespace ScreenEditor.Json

/-- A number: whole, or the word of a floating-point number. -/
inductive Number where
  | int (i : Int)
  | float (bits : UInt64)
  deriving DecidableEq, Repr

namespace Number

/-- One more than the greatest significand. -/
def significandBound : Nat := Nat.pow 2 64

/-- The greatest exponent that is read digit by digit. -/
def maxExponent : Nat := Nat.pow 2 31 - 1

/-- A significand being read and the power of ten that it is to be scaled by. -/
structure Scaled where
  significand : Nat
  exponent : Int

/-- Digits of the whole part: once one does not fit, it and all later ones only scale. -/
def readWhole (significand : Nat) : List Nat → Scaled
  | [] => ⟨significand, 0⟩
  | d :: ds =>
    if significand * 10 + d < significandBound then readWhole (significand * 10 + d) ds
    else ⟨significand, ds.length + 1⟩

/-- Digits of the fraction: once one does not fit, it and all later ones are dropped. -/
def readFraction (s : Scaled) : List Nat → Scaled
  | [] => s
  | d :: ds =>
    if s.significand * 10 + d < significandBound then
      readFraction ⟨s.significand * 10 + d, s.exponent - 1⟩ ds
    else s

/-- The value of exponent digits; none when it is too large to read. -/
def readExponent (value : Nat) : List Nat → Option Nat
  | [] => some value
  | d :: ds => if value * 10 + d ≤ maxExponent then readExponent (value * 10 + d) ds else none

/-- A sum of exponents, kept within 32 bits with sign. -/
def clampExponent (e : Int) : Int := max (-(maxExponent + 1 : Int)) (min maxExponent e)

/-- A power of ten in floating point. -/
def powerOfTen (e : Nat) : Float := Float.ofScientific 1 false e

/-- A floating-point number divided by 10^e, in steps that stay in range. -/
def divideByPower (f : Float) (e : Nat) : Float :=
  if e ≤ 308 then f / powerOfTen e
  else if f == 0.0 then f
  else divideByPower (f / powerOfTen 308) (e - 308)
termination_by e

/-- A significand scaled in floating point; none when it is too large. -/
def scale? (significand : Nat) (exponent : Int) : Option Float :=
  let f := significand.toUInt64.toFloat
  if exponent < 0 then some (divideByPower f (-exponent).toNat)
  else if exponent ≤ 308 then
    let r := f * powerOfTen exponent.toNat
    if r.isInf then none else some r
  else if f == 0.0 then some f
  else none

/-- A floating-point number with a sign put before it. -/
def ofFloat (negative : Bool) (f : Float) : Number :=
  .float (if negative then (-f).toBits else f.toBits)

/-- The number that a numeral with a fraction or an exponent, or too large to stay whole, is. -/
def readFloat? (n : Numeral) : Option Number :=
  let s := readFraction (readWhole 0 n.whole) n.fraction
  match readExponent 0 n.exponent with
  | none =>
    if s.significand ≠ 0 ∧ !n.exponentNegative then none else some (ofFloat n.negative 0.0)
  | some e =>
    let shift : Int := if n.exponentNegative then -e else e
    (scale? s.significand (clampExponent (s.exponent + shift))).map (ofFloat n.negative)

/-- The number that a numeral stands for; none when it is too large. -/
def ofNumeral? (n : Numeral) : Option Number :=
  let whole := readWhole 0 n.whole
  if n.fraction = [] ∧ n.exponent = [] ∧ whole.exponent = 0 then
    if !n.negative then some (.int whole.significand)
    else if 0 < whole.significand ∧ whole.significand ≤ Nat.pow 2 63 then
      some (.int (-whole.significand))
    else some (ofFloat true whole.significand.toUInt64.toFloat)
  else readFloat? n

end Number

/-- The whole number that a numeral spells when it has no sign, fraction or exponent and is below
2^64. -/
def Numeral.toNat? (n : Numeral) : Option Nat :=
  let whole := Number.readWhole 0 n.whole
  if n.negative = false ∧ n.fraction = [] ∧ n.exponent = [] ∧ whole.exponent = 0 then
    some whole.significand
  else none

/-- JSON values; the members of an object are in the order in which they are written. -/
inductive Value where
  | null
  | bool (b : Bool)
  | number (n : Number)
  | string (s : String)
  | array (items : List Value)
  | object (members : List (String × Value))

instance : Inhabited Value := ⟨.null⟩

mutual

/-- The value that a tree stands for, if containers nest at most `room` deep in it and all its
numbers and strings have values. -/
def Tree.toValue? (room : Nat) : Tree → Option Value
  | .null => some .null
  | .bool b => some (.bool b)
  | .number n => (Number.ofNumeral? n).map .number
  | .string pieces => (text? pieces).map .string
  | .array items => if room = 0 then none else (itemsToValues? (room - 1) items).map .array
  | .object members =>
    if room = 0 then none
    else (membersToValues? (room - 1) members).map fun ms => .object (Named.ofList ms)

/-- The values of the items of an array. -/
def itemsToValues? (room : Nat) : List Tree → Option (List Value)
  | [] => some []
  | t :: ts => (t.toValue? room).bind fun v => (itemsToValues? room ts).map (v :: ·)

/-- The named values of an object, in the order of the text. -/
def membersToValues? (room : Nat) : List (List Piece × Tree) → Option (List (String × Value))
  | [] => some []
  | (name, t) :: rest =>
    (text? name).bind fun s => (t.toValue? room).bind fun v =>
      (membersToValues? room rest).map ((s, v) :: ·)

end

end ScreenEditor.Json
