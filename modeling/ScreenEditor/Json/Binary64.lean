/-!
# Binary floating point as decimal digits

The fewest decimal digits that read back as a given 64-bit floating-point number, found with exact
arithmetic on natural numbers.  A number m · 2^q owns the reals nearer to it than to its neighbours
(the two ends belong to it when m is even).  For 1, 2, … 17 digits the two neighbours of the number
on that decimal grid are tried; the first grid with a hit wins, the nearer of two hits is taken, and
of two equally near ones the even one.
-/

namespace ScreenEditor.Json

/-- The non-negative rational `num / den`. -/
structure Ratio where
  num : Nat
  den : Nat

namespace Ratio

/-- The number n · 2^e. -/
def scaleTwo (n : Nat) (e : Int) : Ratio :=
  if 0 ≤ e then ⟨n * Nat.pow 2 e.toNat, 1⟩ else ⟨n, Nat.pow 2 (-e).toNat⟩

/-- The number n · 10^e. -/
def scaleTen (n : Nat) (e : Int) : Ratio :=
  if 0 ≤ e then ⟨n * Nat.pow 10 e.toNat, 1⟩ else ⟨n, Nat.pow 10 (-e).toNat⟩

/-- Whether one number is below another. -/
def lt (a b : Ratio) : Bool := a.num * b.den < b.num * a.den

/-- Whether one number is at most another. -/
def le (a b : Ratio) : Bool := a.num * b.den ≤ b.num * a.den

/-- The distance of two numbers. -/
def dist (a b : Ratio) : Ratio :=
  let x := a.num * b.den
  let y := b.num * a.den
  ⟨(x - y) + (y - x), a.den * b.den⟩

/-- The whole part of a number divided by 10^e. -/
def floorTen (a : Ratio) (e : Int) : Nat :=
  if 0 ≤ e then a.num / (a.den * Nat.pow 10 e.toNat)
  else a.num * Nat.pow 10 (-e).toNat / a.den

/-- The greatest `e` among `top, top - 1, …` with 10^e at most the number. -/
def decimalExponent (a : Ratio) (top : Int) : Nat → Int
  | 0 => top
  | n + 1 => if (scaleTen 1 top).le a then top else decimalExponent a (top - 1) n

end Ratio

/-- The digits `digits` followed by `exponent` zeros, or with the point moved left. -/
structure Decimal where
  digits : Nat
  exponent : Int
  deriving DecidableEq, Repr

namespace Binary64

/-- The sign bit of a floating-point word. -/
def isNegative (bits : UInt64) : Bool := bits.toNat / Nat.pow 2 63 == 1

/-- The biased exponent of a floating-point word. -/
def biasedExponent (bits : UInt64) : Nat := bits.toNat / Nat.pow 2 52 % Nat.pow 2 11

/-- The stored fraction of a floating-point word. -/
def fraction (bits : UInt64) : Nat := bits.toNat % Nat.pow 2 52

/-- The integer m of a finite number m · 2^q. -/
def significand (bits : UInt64) : Nat :=
  if biasedExponent bits = 0 then fraction bits else fraction bits + Nat.pow 2 52

/-- The exponent q of a finite number m · 2^q. -/
def exponent (bits : UInt64) : Int := (max (biasedExponent bits) 1 : Int) - 1075

/-- Whether a decimal reads back as the number whose word is `bits`. -/
def reads (bits : UInt64) (d : Decimal) : Bool :=
  let m := significand bits
  let lowGap := if fraction bits = 0 ∧ 1 < biasedExponent bits then 1 else 2
  let low := Ratio.scaleTwo (4 * m - lowGap) (exponent bits - 2)
  let high := Ratio.scaleTwo (4 * m + 2) (exponent bits - 2)
  let x := Ratio.scaleTen d.digits d.exponent
  if m % 2 = 0 then low.le x && x.le high else low.lt x && x.lt high

/-- The best decimal with the exponent `e` that reads back, if one does. -/
def nearest? (bits : UInt64) (e : Int) : Option Decimal :=
  let v := Ratio.scaleTwo (significand bits) (exponent bits)
  let below : Decimal := ⟨v.floorTen e, e⟩
  let above : Decimal := ⟨v.floorTen e + 1, e⟩
  match reads bits below, reads bits above with
  | false, false => none
  | true, false => some below
  | false, true => some above
  | true, true =>
    let down := v.dist (.scaleTen below.digits e)
    let up := v.dist (.scaleTen above.digits e)
    if down.lt up then some below
    else if up.lt down then some above
    else if below.digits % 2 = 0 then some below else some above

/-- The first decimal that reads back among the grids with exponents `e, e - 1, …`. -/
def searchDown (bits : UInt64) (e : Int) : Nat → Option Decimal
  | 0 => none
  | n + 1 => (nearest? bits e).or (searchDown bits (e - 1) n)

/-- Move the zeros at the end of the digits into the exponent. -/
def dropZeros (d : Decimal) : Nat → Decimal
  | 0 => d
  | n + 1 =>
    if d.digits ≠ 0 ∧ d.digits % 10 = 0 then dropZeros ⟨d.digits / 10, d.exponent + 1⟩ n else d

/-- The shortest decimal that reads back as a finite number other than zero, sign apart. -/
def shortest (bits : UInt64) : Decimal :=
  let v := Ratio.scaleTwo (significand bits) (exponent bits)
  let top := v.decimalExponent 309 640
  match searchDown bits top 17 with
  | some d => dropZeros d 17
  | none => ⟨significand bits, 0⟩

end Binary64
end ScreenEditor.Json
