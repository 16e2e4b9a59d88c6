import ScreenEditor.Transfer.Load

/-!
# What a file stands for

The text that a file stands for is made in two passes over the whole file: every line end becomes
one terminator, and then every tab becomes blanks up to the next tab stop.  The sink of a load does
both at once, byte by byte.  `owed` is the text that a sink still has to store when it has `rest`
of the file before it, and the lemmas on `owed` say what one byte of the file takes from it.
-/

namespace ScreenEditor

/-- Text whose line ends, written as a carriage return, a line feed or the two together, are each
one terminator. -/
def unifyEnds : List UInt8 → List UInt8
  | [] => []
  | [b] => [if b = LineEnding.carriageReturn then lineFeed else b]
  | b :: c :: rest =>
      if b = LineEnding.carriageReturn then
        if c = lineFeed then lineFeed :: unifyEnds rest else lineFeed :: unifyEnds (c :: rest)
      else b :: unifyEnds (c :: rest)

/-- Text whose tabs are blanks up to the next multiple of `width`, the columns being counted from
the last terminator, or from `column` on the first line. -/
def expandTabs (width : Nat) : Nat → List UInt8 → List UInt8
  | _, [] => []
  | column, b :: rest =>
      if b = lineFeed then lineFeed :: expandTabs width 0 rest
      else if b = tabByte then
        List.replicate (width - column % width) blankByte
          ++ expandTabs width (column + (width - column % width)) rest
      else b :: expandTabs width (column + 1) rest

/-- The text that a file stands for when it begins at a column. -/
def translate (width column : Nat) (file : List UInt8) : List UInt8 :=
  expandTabs width column (unifyEnds file)

/-- A file with a carriage return, a tab, both line ends together and a line feed. -/
example : translate 4 0 [97, 13, 9, 98, 13, 10, 10] = [97, 10, 32, 32, 32, 32, 98, 10, 10] := by
  decide

/-- A text without its first byte when that is a line feed. -/
def skipLineFeed : List UInt8 → List UInt8
  | [] => []
  | b :: rest => if b = lineFeed then rest else b :: rest

/-- A carriage return is a line end, with the line feed behind it if there is one. -/
theorem unifyEnds_return (rest : List UInt8) :
    unifyEnds (LineEnding.carriageReturn :: rest) = lineFeed :: unifyEnds (skipLineFeed rest) := by
  cases rest with
  | nil => rfl
  | cons c rest =>
      simp only [unifyEnds, skipLineFeed, if_true]
      split <;> rfl

/-- Any other byte is kept. -/
theorem unifyEnds_of_ne {b : UInt8} (h : b ≠ LineEnding.carriageReturn) (rest : List UInt8) :
    unifyEnds (b :: rest) = b :: unifyEnds rest := by
  cases rest with
  | nil => simp [unifyEnds, h]
  | cons c rest => simp [unifyEnds, h]

namespace Sink

/-- The text that is still to be stored when `rest` of the file is before the sink. -/
def owed (s : Sink) (rest : List UInt8) : List UInt8 :=
  translate s.tabWidth s.column (if s.pendingReturn then skipLineFeed rest else rest)

/-- Without input nothing is owed. -/
@[simp] theorem owed_nil (s : Sink) : s.owed [] = [] := by
  unfold owed
  split <;> rfl

/-- The line feed of a pair is not stored again. -/
theorem owed_pair {s : Sink} (h : s.pendingReturn = true) (rest : List UInt8) :
    s.owed (lineFeed :: rest) = { s with pendingReturn := false }.owed rest := by
  simp [owed, h, skipLineFeed]

/-- A carriage return that is remembered matters only before a line feed. -/
theorem owed_forget {s : Sink} {b : UInt8} (h : ¬ (s.pendingReturn && b == lineFeed) = true)
    (rest : List UInt8) :
    s.owed (b :: rest) = { s with pendingReturn := false }.owed (b :: rest) := by
  simp only [owed, Bool.false_eq_true, if_false]
  cases hp : s.pendingReturn with
  | false => rfl
  | true =>
      have hb : b ≠ lineFeed := by simpa [hp] using h
      simp [skipLineFeed, hb]

variable {s : Sink} (h : s.pendingReturn = false) (rest : List UInt8)

include h

/-- A carriage return puts a terminator, and the column to 0. -/
theorem owed_return : s.owed (LineEnding.carriageReturn :: rest)
    = lineFeed :: { s with column := 0, pendingReturn := true }.owed rest := by
  simp [owed, h, translate, unifyEnds_return, expandTabs]

/-- So does a line feed that stands alone. -/
theorem owed_lineFeed : s.owed (lineFeed :: rest)
    = lineFeed :: { s with column := 0 }.owed rest := by
  simp only [owed, h, Bool.false_eq_true, if_false, translate]
  rw [unifyEnds_of_ne (by decide), expandTabs, if_pos rfl]

/-- A tab puts blanks up to the next tab stop. -/
theorem owed_tab : s.owed (tabByte :: rest)
    = List.replicate (s.tabWidth - s.column % s.tabWidth) blankByte
      ++ { s with column := s.column + (s.tabWidth - s.column % s.tabWidth) }.owed rest := by
  simp only [owed, h, Bool.false_eq_true, if_false, translate]
  rw [unifyEnds_of_ne (by decide), expandTabs, if_neg (by decide), if_pos rfl]

/-- Any other byte puts itself. -/
theorem owed_other {b : UInt8} (hr : b ≠ LineEnding.carriageReturn) (ht : b ≠ tabByte)
    (hl : b ≠ lineFeed) :
    s.owed (b :: rest) = b :: { s with column := s.column + 1 }.owed rest := by
  simp only [owed, h, Bool.false_eq_true, if_false, translate]
  rw [unifyEnds_of_ne hr, expandTabs, if_neg hl, if_neg ht]

end Sink
end ScreenEditor
