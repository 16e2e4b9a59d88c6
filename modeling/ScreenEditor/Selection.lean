/-!
# Selections

A selection has an anchor and an extent, both content offsets.  While it is being made the extent
follows the caret; once frozen both ends stay.
-/

namespace ScreenEditor

/-- The offsets `lo, …, hi - 1`. -/
structure Span where
  lo : Nat
  hi : Nat
  deriving DecidableEq, Repr

namespace Span

/-- Whether an offset lies in the span. -/
def contains (s : Span) (offset : Nat) : Bool := s.lo ≤ offset && offset < s.hi

/-- Whether the span has no offset. -/
def isEmpty (s : Span) : Bool := s.hi ≤ s.lo

end Span

/-- Anchor and extent, if anything is selected, and whether the extent follows the caret. -/
structure Selection where
  bounds : Option (Nat × Nat)
  selecting : Bool
  deriving DecidableEq, Repr

namespace Selection

/-- Nothing is selected. -/
def none : Selection := ⟨Option.none, false⟩

instance : Inhabited Selection := ⟨none⟩

/-- A frozen selection. -/
def span (anchor extent : Nat) : Selection := ⟨some (anchor, extent), false⟩

/-- Where the selection was begun. -/
def anchor (s : Selection) : Option Nat := s.bounds.map Prod.fst

/-- Start selecting at the caret, or freeze the selection there. -/
def startOrExtend (s : Selection) (caret : Nat) : Selection :=
  if s.selecting then ⟨s.bounds.map fun b => (b.1, caret), false⟩
  else ⟨some (caret, caret), true⟩

/-- Let the extent follow the caret while selecting. -/
def track (s : Selection) (caret : Nat) : Selection :=
  if s.selecting then { s with bounds := s.bounds.map fun b => (b.1, caret) } else s

/-- The selected span, smaller end first. -/
def range (s : Selection) : Option Span :=
  s.bounds.map fun b => ⟨min b.1 b.2, max b.1 b.2⟩

/-- The selected span when it holds at least one byte. -/
def nonEmptyRange (s : Selection) : Option Span := s.range.filter fun r => !r.isEmpty

/-- Whether this is a frozen selection of at least one byte that begins at `offset`. -/
def startsAt (s : Selection) (offset : Nat) : Bool :=
  !s.selecting && s.nonEmptyRange.any fun r => r.lo == offset

end Selection

/-- Whether the cell with raw index `raw` shows a selected byte.  Before the gap a raw index is the
content offset; after it the offset lies `gapWidth` lower, so the span is shifted up instead. -/
def highlighted (range : Option Span) (gapBegin gapWidth raw : Nat) : Bool :=
  match range with
  | none => false
  | some r =>
    if raw < gapBegin then r.contains raw
    else Span.contains ⟨r.lo + gapWidth, r.hi + gapWidth⟩ raw

end ScreenEditor
