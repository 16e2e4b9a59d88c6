import ScreenEditor.Json.Value

/-!
# Writing JSON

Two layouts of one value: on one line, and with every item on a line of its own, indented by two
blanks a level.  Characters that JSON does not let stand in a string are escaped and no others.

A floating-point number is written with the fewest digits that read back: without an exponent from
10^-5 up to 10^16, with the exponent and its sign written after the digits otherwise.
-/

namespace ScreenEditor.Json

/-- One hexadecimal digit, in lower case. -/
def hexChar (n : Nat) : Char := if n < 10 then Char.ofNat (48 + n) else Char.ofNat (87 + n)

/-- A character as it stands in a string. -/
def escapeChar (c : Char) : List Char :=
  if c = '\"' then ['\\', '\"']
  else if c = '\\' then ['\\', '\\']
  else if c = '\x08' then ['\\', 'b']
  else if c = '\x0c' then ['\\', 'f']
  else if c = '\n' then ['\\', 'n']
  else if c = '\r' then ['\\', 'r']
  else if c = '\t' then ['\\', 't']
  else if c.toNat < 0x20 then ['\\', 'u', '0', '0', hexChar (c.toNat / 16), hexChar (c.toNat % 16)]
  else [c]

/-- A string in quotes. -/
def quote (s : String) : String :=
  String.ofList ('\"' :: s.toList.flatMap escapeChar ++ ['\"'])

/-- An exponent with its sign. -/
def exponentText (n : Int) : List Char :=
  if n < 0 then '-' :: (toString n.natAbs).toList else '+' :: (toString n.natAbs).toList

/-- A finite decimal, with its sign, in the notation of this format. -/
def Decimal.text (negative : Bool) (d : Decimal) : String :=
  let digits := (toString d.digits).toList
  let count : Int := digits.length
  let point := count + d.exponent
  let body : List Char :=
    if 0 ≤ d.exponent ∧ point ≤ 16 then
      digits ++ List.replicate d.exponent.toNat '0' ++ ['.', '0']
    else if 0 < point ∧ point ≤ 16 then
      digits.take point.toNat ++ '.' :: digits.drop point.toNat
    else if -5 < point ∧ point ≤ 0 then
      '0' :: '.' :: List.replicate (-point).toNat '0' ++ digits
    else
      let fraction := digits.drop 1
      digits.take 1 ++ (if fraction = [] then [] else '.' :: fraction)
        ++ 'e' :: exponentText (point - 1)
  String.ofList (if negative then '-' :: body else body)

/-- A number as written; what is not finite is written as null. -/
def Number.text : Number → String
  | .int i => toString i
  | .float bits =>
    if Binary64.biasedExponent bits = Nat.pow 2 11 - 1 then "null"
    else if Binary64.significand bits = 0 then
      if Binary64.isNegative bits then "-0.0" else "0.0"
    else (Binary64.shortest bits).text (Binary64.isNegative bits)

mutual

/-- A value on one line, written after `out`. -/
def Value.compactAfter (out : String) : Value → String
  | .null => out ++ "null"
  | .bool b => out ++ (if b then "true" else "false")
  | .number n => out ++ n.text
  | .string s => out ++ quote s
  | .array items => itemsAfter (out.push '[') true items |>.push ']'
  | .object members => membersAfter (out.push '{') true members |>.push '}'

/-- Items with commas between them, written after `out`. -/
def itemsAfter (out : String) (first : Bool) : List Value → String
  | [] => out
  | v :: vs => itemsAfter (v.compactAfter (if first then out else out.push ',')) false vs

/-- Members with commas between them, written after `out`. -/
def membersAfter (out : String) (first : Bool) : List (String × Value) → String
  | [] => out
  | (name, v) :: rest =>
    membersAfter (v.compactAfter (((if first then out else out.push ',') ++ quote name).push ':'))
      false rest

end

/-- A value on one line. -/
def Value.compact (v : Value) : String := v.compactAfter ""

/-- A new line at a level of indentation. -/
def newLine (level : Nat) : String := String.ofList ('\n' :: List.replicate (2 * level) ' ')

mutual

/-- A value at a level of indentation, one item or member a line. -/
def Value.prettyAt (level : Nat) : Value → String
  | .null => "null"
  | .bool b => if b then "true" else "false"
  | .number n => n.text
  | .string s => quote s
  | .array [] => "[]"
  | .array items => "[" ++ prettyItems level true items ++ newLine level ++ "]"
  | .object [] => "\x7b\x7d"
  | .object members => "\x7b" ++ prettyMembers level true members ++ newLine level ++ "\x7d"

/-- Items, each on a line of its own. -/
def prettyItems (level : Nat) (first : Bool) : List Value → String
  | [] => ""
  | v :: vs =>
    (if first then "" else ",") ++ newLine (level + 1) ++ v.prettyAt (level + 1)
      ++ prettyItems level false vs

/-- Members, each on a line of its own. -/
def prettyMembers (level : Nat) (first : Bool) : List (String × Value) → String
  | [] => ""
  | (name, v) :: rest =>
    (if first then "" else ",") ++ newLine (level + 1) ++ quote name ++ ": "
      ++ v.prettyAt (level + 1) ++ prettyMembers level false rest

end

/-- A value with every item and member on a line of its own. -/
def Value.pretty (v : Value) : String := v.prettyAt 0

end ScreenEditor.Json
